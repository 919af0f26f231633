-- SUMMARY: Arguments that tell a stale template from the current one.
import HtmlTemplate.Proofs.Caching.Stale

/-!
# Probes

A probe is a frame that gives a value to repetitions alone: one frame for each
region that is nested in the scope of the repetition, which is the probe of that
region. A region numbered from `size` on gets a frame with a value more than it has
slots. A template in which no such region is bound renders a probe to the markup of
its tree; a template in which one is written cannot render it.
-/

namespace HtmlTemplate

/-- A repetition over a region that is numbered from `size` on. -/
def Edit.EntersFrom (edit : Edit) (size : Nat) : Prop :=
  ∃ parameters, edit.change = .repetition (some parameters) ∧ size ≤ parameters.context.index

namespace Declarations

variable {d₀ d : Declarations} {size : Nat} {id : NodeId} {edit : Edit} {c : ContextId}

/-! ## Frames -/

/-- The value of a mutation in a probe, given the probes of regions. -/
def probeValue (size : Nat) (probe : ContextId → Frame) (scope : Scope)
    (logged : LoggedMutation) : Value :=
  match scope.nested with
  | some inner =>
    if logged.mutation = { kind := Mutation.repeatEach } then
      .list [if size ≤ inner.index then [.absent] else probe inner]
    else .absent
  | none => .absent

/-- The probe of a context, down to a depth of regions. -/
def probe (d : Declarations) (size : Nat) : Nat → ContextId → Frame
  | 0, _ => []
  | depth + 1, c => (List.range (d.nextSlot c)).map fun slot =>
    match d.owner? ⟨c, slot⟩ with
    | some (scope, logged) => probeValue size (d.probe size depth) scope logged
    | none => .absent

/-- The frame is the probe of a context, deep enough for all regions inside. -/
def IsProbe (d : Declarations) (size : Nat) (c : ContextId) (frame : Frame) : Prop :=
  ∃ depth, d.contexts.size ≤ depth + c.index ∧ frame = d.probe size depth c

theorem IsProbe.length_le {frame : Frame} (h : d.IsProbe size c frame) :
    frame.length ≤ d.nextSlot c := by
  obtain ⟨depth, -, rfl⟩ := h
  cases depth with
  | zero => exact Nat.zero_le _
  | succ depth => simp [probe]

/-- What a probe holds for the variable of an edit. -/
theorem WellFormed.get_probe (hd : d.WellFormed) (hedit : edit ∈ d.edits id) {frame : Frame}
    (hframe : d.IsProbe size edit.var.context frame) :
    match edit.change with
    | .repetition (some parameters) => ∃ values, frame.get edit.var.slot = .list [values] ∧
        (size ≤ parameters.context.index ∧ values = [.absent] ∨
          parameters.context.index < size ∧ d.IsProbe size parameters.context values)
    | _ => frame.get edit.var.slot = .absent := by
  obtain ⟨i, scope, logged, hs, -, hlogged, hvar, hchange⟩ := hd.mem_edits.mp hedit
  obtain ⟨depth, hdepth, rfl⟩ := hframe
  rw [hvar] at hdepth ⊢
  obtain ⟨x, hx⟩ := hd.context_of hs
  have hlt : scope.context.index < d.contexts.size := lt_of_context? hx
  have hslot : logged.slot < d.nextSlot scope.context := hd.slot_lt hs hlogged
  obtain ⟨depth, rfl⟩ : ∃ rest, depth = rest + 1 :=
    Nat.exists_eq_add_one.mpr (by simp only [Scope.var] at hdepth; omega)
  have howner : d.owner? ⟨scope.context, logged.slot⟩ = some (scope, logged) :=
    hd.owner?_var hs hlogged
  have hget : (d.probe size (depth + 1) scope.context).get logged.slot =
      probeValue size (d.probe size depth) scope logged := by
    simp [Frame.get, probe, hslot, howner]
  simp only [Scope.var, hget, probeValue]
  by_cases hrepeat : logged.mutation = { kind := Mutation.repeatEach }
  · have hrepetition : edit.change = .repetition (scope.nested.map d.loopParameters) := by
      rw [Mutation.change?_eq_repetition.mpr ⟨hrepeat, rfl⟩] at hchange
      exact (Option.some.inj hchange).symm
    cases hnested : scope.nested with
    | none => simp [hrepetition, hnested]
    | some inner =>
      have hinner := (hd.nested_of hs hnested).1
      simp only [hrepetition, hnested, Option.map_some, hrepeat, if_true]
      refine ⟨_, rfl, ?_⟩
      -- A region has a larger number than the context around it, so the depth is
      -- enough for it.
      by_cases hsize : size ≤ inner.index
      · exact .inl ⟨hsize, if_pos hsize⟩
      · refine .inr ⟨Nat.lt_of_not_le hsize, depth, ?_, if_neg hsize⟩
        simp only [Scope.var, Declarations.loopParameters] at hdepth ⊢
        omega
  · split
    next parameters hrepetition =>
      rw [hrepetition, Mutation.change?_eq_repetition] at hchange
      exact absurd hchange.1 hrepeat
    next => cases scope.nested <;> simp [hrepeat]

theorem WellFormed.eq_loopParameters (hd : d.WellFormed) (hedit : edit ∈ d.edits id)
    {parameters : Parameters} (hchange : edit.change = .repetition (some parameters)) :
    parameters = d.loopParameters parameters.context := by
  obtain ⟨i, scope, logged, -, -, -, -, hchange'⟩ := hd.mem_edits.mp hedit
  rw [hchange, Mutation.change?_eq_repetition] at hchange'
  obtain ⟨inner, -, rfl⟩ := Option.map_eq_some_iff.mp hchange'.2.symm
  rfl

theorem WellFormed.context_lt (hd : d.WellFormed) (hedit : edit ∈ d.edits id)
    {parameters : Parameters} (hchange : edit.change = .repetition (some parameters)) :
    parameters.context.index < d.contexts.size := by
  obtain ⟨i, scope, logged, hs, -, -, -, hchange'⟩ := hd.mem_edits.mp hedit
  rw [hchange, Mutation.change?_eq_repetition] at hchange'
  obtain ⟨inner, hnested, rfl⟩ := Option.map_eq_some_iff.mp hchange'.2.symm
  obtain ⟨-, x, hx⟩ := hd.nested_of hs hnested
  exact lt_of_context? hx

/-! ## A template before regions were entered -/

/-- All frames that are bound are probes, or empty. -/
def Probed (d : Declarations) (size : Nat) (bindings : Bindings) : Prop :=
  ∀ c frame, bindings.frame? c = some frame → frame = [] ∨ d.IsProbe size c frame

theorem Probed.cons {bindings : Bindings} (h : d.Probed size bindings) {frame : Frame}
    (hframe : frame = [] ∨ d.IsProbe size c frame) : d.Probed size ((c, frame) :: bindings) := by
  intro c' frame' hframe'
  rw [Bindings.frame?_cons] at hframe'
  split at hframe'
  next hc => cases hframe'; exact hc ▸ hframe
  next => exact h c' frame' hframe'

/-- What probed bindings hold for the variable of an edit. -/
theorem WellFormed.value_probed (hd : d.WellFormed) (hedit : edit ∈ d.edits id)
    {bindings : Bindings} (hbindings : d.Probed size bindings) :
    bindings.value edit.var = .absent ∨
      ∃ parameters values, edit.change = .repetition (some parameters) ∧
        bindings.value edit.var = .list [values] ∧
        (size ≤ parameters.context.index ∨
          parameters.context.index < size ∧ d.IsProbe size parameters.context values) := by
  cases hframe : bindings.frame? edit.var.context with
  | none => exact .inl (by simp [Bindings.value, hframe])
  | some frame =>
    rw [Bindings.value_of_frame? hframe]
    rcases hbindings _ frame hframe with rfl | hprobe
    · exact .inl rfl
    have hget := hd.get_probe hedit hprobe
    split at hget
    next parameters hchange =>
      obtain ⟨values, hvalues, hinside⟩ := hget
      exact .inr ⟨parameters, values, hchange, hvalues, hinside.imp_left And.left⟩
    next => exact .inl hget

/-- Before regions were entered, probes leave elements as they are. -/
theorem LogsKept.neutral_probed (h : d₀.LogsKept d) (hd₀ : d₀.WellFormed) (hd : d.WellFormed)
    {edit₀ : Edit} (hedit₀ : edit₀ ∈ d₀.edits id) :
    edit₀.Neutral (d.Probed d₀.contexts.size) := by
  intro bindings hbindings
  obtain ⟨edit, hedit, hlater⟩ := h.exists_later hd₀ hd hedit₀
  have hvalue := hd.value_probed hedit hbindings
  rw [hlater.var] at hvalue
  split
  next frame hchange =>
    rcases hvalue with habsent | ⟨parameters, values, hregion, hlist, hinside⟩
    · exact Repetition.once_of_absent habsent hbindings fun _ => hbindings.cons (.inl rfl)
    · have hframes : (Repetition.mk edit₀.var frame).frames bindings = .ok [values] := by
        simp [Repetition.frames, hlist]
      rcases hlater with rfl | ⟨hnone, -⟩
      · have hframe : frame = some parameters := Change.repetition.inj (hchange.symm.trans hregion)
        have hlt := hd₀.context_lt hedit₀ hregion
        obtain ⟨-, hprobe⟩ := hinside.resolve_left (Nat.not_le.mpr hlt)
        have hlength : values.length ≤ parameters.arity := by
          rw [hd₀.eq_loopParameters hedit₀ hregion]
          exact Nat.le_trans hprobe.length_le (Nat.le_of_eq (h.slots _))
        refine ⟨values, (parameters.context, values) :: bindings, hframes, ?_,
          hbindings.cons (.inr hprobe)⟩
        simp [Repetition.bind, hframe, Nat.not_lt.mpr hlength]
      · have hframe : frame = none := Change.repetition.inj (hchange.symm.trans hnone)
        exact ⟨values, bindings, hframes, by simp [Repetition.bind, hframe], hbindings⟩
  next hchange =>
    rcases hvalue with habsent | ⟨parameters, values, hregion, -⟩
    · exact habsent
    · rcases hlater with rfl | ⟨hnone, -⟩
      · exact absurd hregion (hchange _)
      · exact absurd hnone (hchange _)

/-- A template renders the probes of declarations in which regions were entered. -/
theorem LogsKept.render_probed (h : d₀.LogsKept d) (hd₀ : d₀.WellFormed) (hd : d.WellFormed)
    {pass : AttributePass} (hpass : pass.IsStandard)
    (hadmits : ∀ node ∈ d₀.visited, d₀.Admits node.1 node.2) {frame : Frame}
    (hframe : d.IsProbe d₀.contexts.size c frame) :
    (d₀.woven pass).render [(c, frame)] = .ok d₀.tree.markup := by
  refine render_woven_of_neutral hpass hadmits (fun node _ edit => h.neutral_probed hd₀ hd) ?_
  have hempty : d.Probed d₀.contexts.size [] := nofun
  exact hempty.cons (.inr hframe)

/-! ## A template after regions were entered -/

/-- The template cannot be rendered under the probes of the contexts that it reads. -/
def Fails (d : Declarations) (size : Nat) (template : Template) : Prop :=
  ∀ bound bindings,
    (∀ c ∈ bound, ∃ frame, bindings.frame? c = some frame ∧ d.IsProbe size c frame) →
    template.unbound? bound = none → ∀ markup, template.render bindings ≠ .ok markup

namespace WellFormed

variable {element content : Template}

/-- What the probes of bound contexts hold for the variable of an edit. -/
theorem value_of_probes (hd : d.WellFormed) (hedit : edit ∈ d.edits id) {bound : List ContextId}
    {bindings : Bindings}
    (hprobes : ∀ c ∈ bound, ∃ frame, bindings.frame? c = some frame ∧ d.IsProbe size c frame)
    (hbound : edit.var.context ∈ bound) :
    match edit.change with
    | .repetition (some parameters) => ∃ values, bindings.value edit.var = .list [values] ∧
        (size ≤ parameters.context.index ∧ values = [.absent] ∨
          parameters.context.index < size ∧ d.IsProbe size parameters.context values)
    | _ => bindings.value edit.var = .absent := by
  obtain ⟨frame, hframe, hprobe⟩ := hprobes _ hbound
  rw [Bindings.value_of_frame? hframe]
  exact hd.get_probe hedit hprobe

theorem fails_wrapContent (hd : d.WellFormed) (hedit : edit ∈ d.edits id)
    (hcontent : d.Fails size content) : d.Fails size (Edit.wrapContent content edit) := by
  intro bound bindings hprobes hbound markup hrender
  rw [Edit.unbound?_wrapContent_eq_none] at hbound
  obtain ⟨hbound, hvar⟩ := hbound
  unfold Edit.wrapContent at hrender
  split at hrender
  next hchange =>
    have hvalue := hd.value_of_probes hedit hprobes (hvar (.inl hchange))
    simp only [hchange] at hvalue
    simp [Template.render, Bindings.holds, hvalue, Value.isTruthy, Template.renderOption] at hrender
    exact hcontent bound bindings hprobes hbound markup hrender
  next =>
    simp only [Template.render, Template.renderAll, Rendered.append_eq_ok] at hrender
    obtain ⟨a, -, ha, -⟩ := hrender
    exact hcontent bound bindings hprobes hbound a ha
  next => exact hcontent bound bindings hprobes hbound markup hrender

/-- A repetition over a region fails if the region is one from `size` on, which is
    given more values than it has slots, or if the element fails in it. -/
theorem fails_block (hd : d.WellFormed) (hedit : edit ∈ d.edits id) {parameters : Parameters}
    (hchange : edit.change = .repetition (some parameters))
    (hsize : ∀ c : ContextId, size ≤ c.index → d.nextSlot c = 0)
    (helement : d.Fails size element ∨ size ≤ parameters.context.index) :
    d.Fails size (.block ⟨edit.var, some parameters⟩ element) := by
  intro bound bindings hprobes hbound markup hrender
  rw [Template.unbound?_block_eq_none] at hbound
  have hvalue := hd.value_of_probes hedit hprobes hbound.1
  simp only [hchange] at hvalue
  obtain ⟨inner, hlist, hinner⟩ := hvalue
  have harity : parameters.arity = d.nextSlot parameters.context :=
    congrArg Parameters.arity (hd.eq_loopParameters hedit hchange)
  rcases hinner with ⟨hle, rfl⟩ | ⟨hlt, hinner⟩
  · simp [Template.render, Repetition.frames, hlist, Repetition.bind, Rendered.concat, harity,
      hsize _ hle] at hrender
  · have helement : d.Fails size element := helement.resolve_right (Nat.not_le.mpr hlt)
    have hlength : ¬ d.nextSlot parameters.context < inner.length :=
      Nat.not_lt.mpr hinner.length_le
    simp [Template.render, Repetition.frames, hlist, Repetition.bind, Rendered.concat, harity,
      hlength] at hrender
    refine helement (parameters.context :: bound) _ ?_ hbound.2 markup hrender
    intro c hc
    rw [Bindings.frame?_cons]
    split
    next hc => exact ⟨inner, rfl, hc ▸ hinner⟩
    next hne => exact hprobes c ((List.mem_cons.mp hc).resolve_left hne)

theorem fails_wrapElement (hd : d.WellFormed) (hedit : edit ∈ d.edits id)
    (hsize : ∀ c : ContextId, size ≤ c.index → d.nextSlot c = 0)
    (helement : d.Fails size element ∨ edit.EntersFrom size) :
    d.Fails size (Edit.wrapElement element edit) := by
  -- An edit that enters no region can fail by its element alone.
  have hfails (hregion : ∀ parameters, edit.change ≠ .repetition (some parameters)) :
      d.Fails size element := by
    refine helement.resolve_right fun henters => ?_
    obtain ⟨parameters, hchange, -⟩ := henters
    exact hregion parameters hchange
  unfold Edit.wrapElement
  split
  next hchange =>
    have helement := hfails fun parameters hregion => by cases hchange.symm.trans hregion
    intro bound bindings hprobes hbound markup hrender
    rw [Template.unbound?_choice_eq_none] at hbound
    have hvalue := hd.value_of_probes hedit hprobes hbound.1
    simp only [hchange] at hvalue
    simp [Template.render, Bindings.holds, hvalue, Value.isTruthy] at hrender
    exact helement bound bindings hprobes hbound.2.1 markup hrender
  next frame hchange =>
    cases frame with
    | none =>
      have helement := hfails fun parameters hregion => by cases hchange.symm.trans hregion
      intro bound bindings hprobes hbound markup hrender
      rw [Template.unbound?_block_eq_none] at hbound
      have hvalue := hd.value_of_probes hedit hprobes hbound.1
      simp only [hchange] at hvalue
      simp [Template.render, Repetition.frames, hvalue, Repetition.bind, Rendered.concat] at hrender
      exact helement bound bindings hprobes hbound.2 markup hrender
    | some parameters =>
      refine hd.fails_block hedit hchange hsize (helement.imp_right fun henters => ?_)
      obtain ⟨parameters', hregion, hle⟩ := henters
      cases hchange.symm.trans hregion
      exact hle
  next hrepetition => exact hfails fun parameters hregion => hrepetition _ hregion

theorem fails_foldl_wrapContent (hd : d.WellFormed) {edits : List Edit}
    (hedits : ∀ edit ∈ edits, edit ∈ d.edits id) (hcontent : d.Fails size content) :
    d.Fails size (edits.foldl Edit.wrapContent content) := by
  induction edits generalizing content with
  | nil => exact hcontent
  | cons edit rest ih =>
    rw [List.forall_mem_cons] at hedits
    exact ih hedits.2 (hd.fails_wrapContent hedits.1 hcontent)

theorem fails_foldl_wrapElement (hd : d.WellFormed) {edits : List Edit}
    (hedits : ∀ edit ∈ edits, edit ∈ d.edits id)
    (hsize : ∀ c : ContextId, size ≤ c.index → d.nextSlot c = 0)
    (helement : d.Fails size element ∨ ∃ edit ∈ edits, edit.EntersFrom size) :
    d.Fails size (edits.foldl Edit.wrapElement element) := by
  induction edits generalizing element with
  | nil => exact helement.resolve_right nofun
  | cons edit rest ih =>
    rw [List.forall_mem_cons] at hedits
    refine ih hedits.2 ?_
    rcases helement with helement | ⟨entered, hmem, henters⟩
    · exact .inl (hd.fails_wrapElement hedits.1 hsize (.inl helement))
    rcases List.mem_cons.mp hmem with rfl | hmem
    · exact .inl (hd.fails_wrapElement hedits.1 hsize (.inr henters))
    · exact .inr ⟨entered, hmem, henters⟩

end WellFormed

theorem Fails.sequence {items : List Template} (h : ∃ item ∈ items, d.Fails size item) :
    d.Fails size (.sequence items) := by
  intro bound bindings hprobes hbound markup hrender
  rw [Template.unbound?_sequence_eq_none] at hbound
  rw [Template.render] at hrender
  induction items generalizing markup with
  | nil => obtain ⟨item, hmem, -⟩ := h; cases hmem
  | cons first rest ih =>
    rw [List.forall_mem_cons] at hbound
    rw [Template.renderAll, Rendered.append_eq_ok] at hrender
    obtain ⟨a, b, ha, hb, -⟩ := hrender
    obtain ⟨item, hmem, hitem⟩ := h
    rcases List.mem_cons.mp hmem with rfl | hmem
    · exact hitem bound bindings hprobes hbound.1 a ha
    · exact ih ⟨item, hmem, hitem⟩ hbound.2 b hb

theorem Fails.element {tag : String} {content : Template} (h : d.Fails size content)
    (hvoid : Markup.isVoid tag = false) (attributes : Template) :
    d.Fails size (.element tag attributes content) := by
  intro bound bindings hprobes hbound markup hrender
  rw [Template.unbound?_element_eq_none] at hbound
  simp only [Template.render, hvoid, Bool.false_eq_true, if_false, Rendered.append_eq_ok] at hrender
  obtain ⟨-, -, -, ⟨a, -, ha, -⟩, -⟩ := hrender
  exact h bound bindings hprobes hbound.2 a ha

mutual

/-- A branch in which a region from `size` on is bound for a written node. -/
theorem WellFormed.fails_weave (hd : d.WellFormed)
    (hsize : ∀ c : ContextId, size ≤ c.index → d.nextSlot c = 0) (pass : AttributePass) (raw : Bool)
    (branch : Branch)
    (hadmits : ∀ node ∈ branch.visit Content.holdsNodes, d.Admits node.1 node.2)
    (henters : ∃ node ∈ branch.visit (Content.writesNodes d.tree.names),
      ∃ edit ∈ d.edits node.1, edit.EntersFrom size) :
    d.Fails size (d.weave pass raw branch) := by
  obtain ⟨id, content, children⟩ := branch
  obtain ⟨node, hnode, edit, hedit, henters⟩ := henters
  rw [Branch.visit, List.forall_mem_cons] at hadmits
  rw [Branch.visit, List.mem_cons] at hnode
  rw [weave]
  cases content with
  | element element =>
    refine hd.fails_foldl_wrapElement (fun _ h => h) hsize ?_
    rcases hnode with rfl | hnode
    · exact .inr ⟨edit, hedit, henters⟩
    refine .inl ?_
    split at hnode
    next hwrites =>
      have hitem := hd.fails_weaveAll hsize pass
        (Compiler.holdsRawText d.tree.names (.element element)) children hadmits.2
        ⟨node, hnode, edit, hedit, henters⟩
      refine Fails.element ?_ ?_ _
      · apply hd.fails_foldl_wrapContent fun _ h => h
        exact Fails.sequence hitem
      · simpa [Content.writesNodes, Tree.name] using hwrites
    · cases hnode
  | container =>
    rcases hnode with rfl | hnode
    · rw [Compiler.edits_of_admits hadmits.1 nofun] at hedit
      cases hedit
    · apply Fails.sequence
      exact hd.fails_weaveAll hsize pass _ children hadmits.2
        ⟨node, hnode, edit, hedit, henters⟩
  | _ =>
    rcases hnode with rfl | hnode
    · rw [Compiler.edits_of_admits hadmits.1 nofun] at hedit
      cases hedit
    · cases hnode

theorem WellFormed.fails_weaveAll (hd : d.WellFormed)
    (hsize : ∀ c : ContextId, size ≤ c.index → d.nextSlot c = 0) (pass : AttributePass) (raw : Bool)
    (branches : List Branch)
    (hadmits : ∀ node ∈ Branch.visitAll Content.holdsNodes branches, d.Admits node.1 node.2)
    (henters : ∃ node ∈ Branch.visitAll (Content.writesNodes d.tree.names) branches,
      ∃ edit ∈ d.edits node.1, edit.EntersFrom size) :
    ∃ item ∈ d.weaveAll pass raw branches, d.Fails size item := by
  cases branches with
  | nil => obtain ⟨node, hnode, -⟩ := henters; cases hnode
  | cons branch rest =>
    rw [Branch.visitAll, List.forall_mem_append] at hadmits
    obtain ⟨node, hnode, henters⟩ := henters
    rw [Branch.visitAll, List.mem_append] at hnode
    rw [weaveAll]
    rcases hnode with hnode | hnode
    · refine ⟨_, List.mem_cons_self, ?_⟩
      exact hd.fails_weave hsize pass raw branch hadmits.1 ⟨node, hnode, henters⟩
    · obtain ⟨item, hmem, hitem⟩ :=
        hd.fails_weaveAll hsize pass raw rest hadmits.2 ⟨node, hnode, henters⟩
      exact ⟨item, List.mem_cons_of_mem _ hmem, hitem⟩

end

/-- When a template has become stale, the current one cannot be rendered under
    probes. -/
theorem Stale.fails (hstale : d₀.Stale d) (h : d₀.LogsKept d) (hd : d.WellFormed)
    {pass : AttributePass} (hadmits : ∀ node ∈ d.visited, d.Admits node.1 node.2) :
    d.Fails d₀.contexts.size (d.woven pass) := by
  have hsize (c : ContextId) (hc : d₀.contexts.size ≤ c.index) : d.nextSlot c = 0 :=
    (h.slots c).trans (nextSlot_of_size_le hc)
  obtain ⟨node, hnode, scope, hscope, context, hnested, hcontext, logged, hlogged, hrepeat⟩ :=
    hstale
  have hedit : ⟨.repetition (some (d.loopParameters context)), scope.var logged⟩ ∈
      d.edits node.1 := by
    obtain ⟨i, hs, -⟩ := hd.mem_touching.mp hscope
    refine hd.mem_edits.mpr ⟨i, scope, logged, hs, hscope, hlogged, rfl, ?_⟩
    exact Mutation.change?_eq_repetition.mpr ⟨hrepeat, by rw [hnested, Option.map_some]⟩
  unfold visited at hadmits
  unfold written at hnode
  unfold woven
  cases hbranch : d.tree.branch? Tree.root with
  | none => rw [hbranch] at hnode; cases hnode
  | some branch =>
    rw [hbranch] at hadmits hnode
    exact hd.fails_weave hsize pass false branch hadmits
      ⟨node, hnode, _, hedit, _, rfl, hcontext⟩

/-- When a template has become stale there are arguments, the probe of the document,
    that it renders and the current one does not. -/
theorem Stale.exists_arguments (hstale : d₀.Stale d) (h : d₀.LogsKept d) (hd₀ : d₀.WellFormed)
    (hd : d.WellFormed) {pass : AttributePass} (hpass : pass.IsStandard)
    (hadmits₀ : ∀ node ∈ d₀.visited, d₀.Admits node.1 node.2)
    (hadmits : ∀ node ∈ d.visited, d.Admits node.1 node.2)
    (hbound : (d.woven pass).unbound? [rootContext] = none) :
    ∃ arguments : Frame, arguments.length ≤ d.nextSlot rootContext ∧
      (d₀.woven pass).render [(rootContext, arguments)] = .ok d₀.tree.markup ∧
      ∀ markup, (d.woven pass).render [(rootContext, arguments)] ≠ .ok markup := by
  let arguments := d.probe d₀.contexts.size d.contexts.size rootContext
  have hprobe : d.IsProbe d₀.contexts.size rootContext arguments :=
    ⟨d.contexts.size, Nat.le_add_right _ _, rfl⟩
  refine ⟨arguments, hprobe.length_le, h.render_probed hd₀ hd hpass hadmits₀ hprobe, ?_⟩
  refine hstale.fails h hd hadmits [rootContext] [(rootContext, arguments)] ?_ hbound
  intro c hc
  obtain rfl := List.mem_singleton.mp hc
  exact ⟨arguments, by simp [Bindings.frame?_cons], hprobe⟩

end Declarations

end HtmlTemplate
