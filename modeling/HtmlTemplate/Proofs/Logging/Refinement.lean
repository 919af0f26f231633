-- SUMMARY: Templates of later declarations that render the same markup under bindings that give what is new no value.
import HtmlTemplate.Proofs.Bound
import HtmlTemplate.Proofs.Logging.Edits
import HtmlTemplate.Proofs.Weaving
import HtmlTemplate.Proofs.Rendered

/-!
# Refinement by later declarations

A template is compared with the one of later declarations. The two are rendered under
bindings that agree wherever the first template reads, and that have no value for the
new edits. `Template.Refines` says that what the first one writes the second one writes
too. It is kept by every edit that both have, and by new edits around the second one
alone.
-/

namespace HtmlTemplate

/-- A region that only later templates repeat over. -/
def Growth.Enters (growth : Growth) (c : ContextId) : Prop :=
  (∃ edit parameters, growth.IsNew edit ∧ edit.change = .repetition (some parameters) ∧
      parameters.context = c) ∨
    ∃ var parameters, growth.Opens var parameters ∧ parameters.context = c

/-- What frames are known to be like: they are closed under the repetitions of `d`,
    have no value for the new edits, and the regions of these are none of theirs. -/
structure Declarations.Supplies (d : Declarations) (growth : Growth) : Prop where
  empty : ∀ c, growth.IsFrame c []
  region : ∀ {id edit parameters frame frames values}, edit ∈ d.edits id →
    edit.change = .repetition (some parameters) → growth.IsFrame edit.var.context frame →
    frame.get edit.var.slot = .list frames → values ∈ frames →
    values.length ≤ parameters.arity → growth.IsFrame parameters.context values
  absent : ∀ {edit frame}, growth.IsNew edit → growth.IsFrame edit.var.context frame →
    frame.get edit.var.slot = .absent
  /-- What is repeated without a region gives no values to the region that comes. -/
  opened : ∀ {var parameters frame frames values}, growth.Opens var parameters →
    growth.IsFrame var.context frame → frame.get var.slot = .list frames → values ∈ frames →
    values.length ≤ parameters.arity ∧ ∀ slot, Frame.get values slot = .absent
  fresh : ∀ {id edit parameters}, edit ∈ d.edits id →
    edit.change = .repetition (some parameters) → ¬ growth.Enters parameters.context

variable {d : Declarations} {growth : Growth}

/-! ## Bindings that agree -/

/-- The bindings have the same frames for the contexts, and the second ones no value
    for the new edits, whose regions are not among the contexts. -/
structure Bindings.Agree (growth : Growth) (bound : List ContextId) (first second : Bindings) :
    Prop where
  frame : ∀ c ∈ bound, ∃ frame,
    first.frame? c = some frame ∧ second.frame? c = some frame ∧ growth.IsFrame c frame
  absent : ∀ {edit}, growth.IsNew edit → second.value edit.var = .absent
  fresh : ∀ {c}, growth.Enters c → c ∉ bound

namespace Bindings.Agree

variable {bound : List ContextId} {first second : Bindings}

theorem value (h : Agree growth bound first second) {var : Var} (hvar : var.context ∈ bound) :
    second.value var = first.value var := by
  obtain ⟨frame, hfirst, hsecond, -⟩ := h.frame _ hvar
  rw [value_of_frame? hfirst, value_of_frame? hsecond]

theorem frames (h : Agree growth bound first second) {repetition repetition' : Repetition}
    (hsource : repetition'.source = repetition.source)
    (hvar : repetition.source.context ∈ bound) :
    repetition'.frames second = repetition.frames first := by
  simp only [Repetition.frames, hsource, h.value hvar]

/-- What is repeated over a variable is a frame of a list in a frame of its context, or it
    is empty. -/
theorem of_mem_frames (h : Agree growth bound first second) {repetition : Repetition}
    (hvar : repetition.source.context ∈ bound) {frames : List Frame}
    (hframes : repetition.frames first = .ok frames) {values : Frame} (hvalues : values ∈ frames) :
    values = [] ∨ ∃ frame, growth.IsFrame repetition.source.context frame ∧
      frame.get repetition.source.slot = .list frames := by
  obtain ⟨frame, hframe, -, hG⟩ := h.frame _ hvar
  simp only [Repetition.frames, value_of_frame? hframe] at hframes
  split at hframes
  · cases hframes
    exact .inl (List.mem_singleton.mp hvalues)
  next hlist =>
    cases hframes
    exact .inr ⟨frame, hG, hlist⟩
  · cases hframes

/-- Both bindings are given a frame for a context. -/
theorem cons (h : Agree growth bound first second) (hd : d.Supplies growth) {c : ContextId}
    {frame : Frame} (hframe : growth.IsFrame c frame) (hfresh : ¬ growth.Enters c) :
    Agree growth (c :: bound) ((c, frame) :: first) ((c, frame) :: second) := by
  refine ⟨fun c' hc' => ?_, fun hnew => ?_, fun {c'} henters => ?_⟩
  · simp only [frame?_cons]
    split
    next hc => exact ⟨frame, rfl, rfl, hc ▸ hframe⟩
    next hne => exact h.frame c' ((List.mem_cons.mp hc').resolve_left hne)
  · rw [value_cons]
    split
    next hc => exact hd.absent hnew (hc ▸ hframe)
    next => exact h.absent hnew
  · rw [List.mem_cons, not_or]
    exact ⟨fun hc => hfresh (hc ▸ henters), h.fresh henters⟩

/-- The second bindings are given a frame without values for a region of theirs alone. -/
theorem cons_entered (h : Agree growth bound first second) {c : ContextId}
    (henters : growth.Enters c) {frame : Frame} (hframe : ∀ slot, frame.get slot = .absent) :
    Agree growth bound first ((c, frame) :: second) := by
  refine ⟨fun c' hc' => ?_, fun hnew => ?_, h.fresh⟩
  · have hne : c' ≠ c := fun he => h.fresh henters (he ▸ hc')
    simp only [frame?_cons, hne, if_false]
    exact h.frame c' hc'
  · rw [value_cons]
    split
    · exact hframe _
    · exact h.absent hnew

end Bindings.Agree

/-! ## Refinement -/

namespace Template

/-- What the first template writes the second one writes too, under bindings that
    agree on all that the first one reads. -/
def Refines (growth : Growth) (first second : Template) : Prop :=
  ∀ bound bindings bindings', bindings.Agree growth bound bindings' →
    first.unbound? bound = none → ∀ markup, first.render bindings = .ok markup →
      second.render bindings' = .ok markup

namespace Refines

theorem static (markup : String) : Refines growth (.static markup) (.static markup) :=
  fun _ _ _ _ _ _ h => h

theorem sequence_nil : Refines growth (.sequence []) (.sequence []) := fun _ _ _ _ _ _ h => h

theorem sequence_cons {first second : Template} {firsts seconds : List Template}
    (h : Refines growth first second)
    (hrest : Refines growth (.sequence firsts) (.sequence seconds)) :
    Refines growth (.sequence (first :: firsts)) (.sequence (second :: seconds)) := by
  intro bound bindings bindings' hagree hbound markup hrender
  rw [unbound?_sequence_eq_none, List.forall_mem_cons] at hbound
  obtain ⟨hfirst, hbound⟩ := hbound
  rw [← unbound?_sequence_eq_none] at hbound
  rw [render, renderAll, Rendered.append_eq_ok] at hrender ⊢
  obtain ⟨a, b, ha, hb, rfl⟩ := hrender
  refine ⟨a, b, ?_, ?_, rfl⟩
  · exact h bound bindings bindings' hagree hfirst a ha
  · exact hrest bound bindings bindings' hagree hbound b hb

theorem dynamic (var : Var) : Refines growth (.dynamic var) (.dynamic var) := by
  intro bound bindings bindings' hagree hbound markup hrender
  rw [unbound?_dynamic_eq_none] at hbound
  rw [render] at hrender ⊢
  rwa [hagree.value hbound]

theorem element {tag : String} {attributes attributes' content content' : Template}
    (hattributes : Refines growth attributes attributes')
    (hcontent : Refines growth content content') :
    Refines growth (.element tag attributes content) (.element tag attributes' content') := by
  intro bound bindings bindings' hagree hbound markup hrender
  rw [unbound?_element_eq_none] at hbound
  simp only [render, Rendered.append_eq_ok] at hrender ⊢
  obtain ⟨a, b, ⟨a', b', ⟨a'', b'', h1, h2, h3⟩, h4, h5⟩, hinside, rfl⟩ := hrender
  have hattributes := hattributes _ _ _ hagree hbound.1 _ h2
  refine ⟨a, b, ⟨a', b', ⟨a'', b'', h1, hattributes, h3⟩, h4, h5⟩, ?_, rfl⟩
  split at hinside
  next hvoid => rwa [if_pos hvoid]
  next hvoid =>
    rw [if_neg hvoid]
    rw [Rendered.append_eq_ok] at hinside ⊢
    obtain ⟨c, e, hc, he, rfl⟩ := hinside
    exact ⟨c, e, hcontent _ _ _ hagree hbound.2 c hc, he, rfl⟩

theorem choice (condition : Condition) {yes yes' : Template} {no no' : Option Template}
    (hyes : Refines growth yes yes') (hno : Option.Rel (Refines growth) no no') :
    Refines growth (.choice condition yes no) (.choice condition yes' no') := by
  intro bound bindings bindings' hagree hbound markup hrender
  rw [unbound?_choice_eq_none] at hbound
  have hholds : bindings'.holds condition = bindings.holds condition := by
    have hvalue := hagree.value hbound.1
    cases condition <;> simp only [Bindings.holds, Condition.var] at hvalue ⊢ <;> rw [hvalue]
  simp only [render, hholds] at hrender ⊢
  by_cases hcondition : bindings.holds condition = true
  · rw [if_pos hcondition] at hrender ⊢
    exact hyes bound bindings bindings' hagree hbound.2.1 markup hrender
  · rw [if_neg hcondition] at hrender ⊢
    cases hno with
    | none => exact hrender
    | some hitem => exact hitem bound bindings bindings' hagree (hbound.2.2 _ rfl) markup hrender

/-- A repetition over the same variable, where each frame that the first template binds is
    bound by the second one, or left unbound, so that the bindings agree. -/
theorem block {repetition repetition' : Repetition}
    (hsource : repetition'.source = repetition.source)
    (hbind : ∀ {bound bindings bindings' frames values inside},
      bindings.Agree growth bound bindings' → repetition.source.context ∈ bound →
      repetition.frames bindings = .ok frames → values ∈ frames →
      repetition.bind bindings values = .ok inside →
      ∃ inside', repetition'.bind bindings' values = .ok inside' ∧
        inside.Agree growth (repetition.boundInside bound) inside')
    (h : Refines growth first second) :
    Refines growth (.block repetition first) (.block repetition' second) := by
  intro bound bindings bindings' hagree hbound markup hrender
  rw [unbound?_block_eq_none] at hbound
  rw [render] at hrender ⊢
  rw [hagree.frames hsource hbound.1]
  split at hrender
  · cases hrender
  next frames hframes =>
    refine Rendered.concat_eq_ok_of_forall (fun values hvalues markup hbody => ?_) hrender
    split at hbody
    · cases hbody
    next inside hinside =>
      obtain ⟨inside', hinside', hagree'⟩ := hbind hagree hbound.1 hframes hvalues hinside
      rw [hinside']
      exact h _ _ _ hagree' hbound.2 markup hbody

end Refines

end Template

/-! ## Repetitions -/

namespace Repetition

variable {var : Var} {parameters parameters' : Parameters} {bound : List ContextId}
  {bindings bindings' inside : Bindings} {frames : List Frame} {values : Frame}

theorem bind_eq_ok : bind ⟨var, some parameters⟩ bindings values = .ok inside ↔
    values.length ≤ parameters.arity ∧ inside = (parameters.context, values) :: bindings := by
  unfold bind
  by_cases hlength : values.length > parameters.arity
  · simp [hlength, Nat.not_le.mpr hlength]
  · simp [hlength, Nat.le_of_not_lt hlength, eq_comm]

/-- A repetition over a region, which may have more slots in the second template. -/
theorem agree_bind_region (hd : d.Supplies growth) {id : NodeId}
    (hmem : ⟨.repetition (some parameters), var⟩ ∈ d.edits id)
    (hcontext : parameters'.context = parameters.context)
    (harity : parameters.arity ≤ parameters'.arity) (hagree : bindings.Agree growth bound bindings')
    (hvar : var.context ∈ bound) (hframes : Repetition.frames ⟨var, some parameters⟩ bindings = .ok frames)
    (hvalues : values ∈ frames)
    (hinside : bind ⟨var, some parameters⟩ bindings values = .ok inside) :
    ∃ inside', bind ⟨var, some parameters'⟩ bindings' values = .ok inside' ∧
      inside.Agree growth (boundInside ⟨var, some parameters⟩ bound) inside' := by
  obtain ⟨hlength, rfl⟩ := bind_eq_ok.mp hinside
  refine ⟨_, bind_eq_ok.mpr ⟨Nat.le_trans hlength harity, rfl⟩, ?_⟩
  rw [hcontext]
  refine hagree.cons hd ?_ (hd.fresh hmem rfl)
  rcases hagree.of_mem_frames hvar hframes hvalues with rfl | ⟨frame, hframe, hlist⟩
  · exact hd.empty _
  · exact hd.region hmem rfl hframe hlist hvalues hlength

/-- A repetition that only the second template has a region for. -/
theorem agree_bind_opened (hd : d.Supplies growth) (hopens : growth.Opens var parameters)
    (hagree : bindings.Agree growth bound bindings') (hvar : var.context ∈ bound)
    (hframes : Repetition.frames ⟨var, none⟩ bindings = .ok frames) (hvalues : values ∈ frames) :
    ∃ inside', bind ⟨var, some parameters⟩ bindings' values = .ok inside' ∧
      bindings.Agree growth bound inside' := by
  have hnone : values.length ≤ parameters.arity ∧ ∀ slot, Frame.get values slot = .absent := by
    rcases hagree.of_mem_frames hvar hframes hvalues with rfl | ⟨frame, hframe, hlist⟩
    · exact ⟨Nat.zero_le _, fun _ => rfl⟩
    · exact hd.opened hopens hframe hlist hvalues
  refine ⟨_, bind_eq_ok.mpr ⟨hnone.1, rfl⟩, ?_⟩
  exact hagree.cons_entered (.inr ⟨var, parameters, hopens, rfl⟩) hnone.2

end Repetition

/-! ## Edits -/

namespace Edit

variable {edit edit' new : Edit} {first second : Template}

theorem refines_wrapContent (hedit : edit.Widens growth edit') (h : first.Refines growth second) :
    (wrapContent first edit).Refines growth (wrapContent second edit') := by
  cases hedit with
  | region var => exact h
  | opened => exact h
  | same =>
    unfold wrapContent
    split
    · exact .choice _ (.dynamic _) (.some h)
    · exact .sequence_cons h (.sequence_cons (.dynamic _) .sequence_nil)
    · exact h

theorem refines_wrapContent_new (hnew : growth.IsNew new) (h : first.Refines growth second) :
    first.Refines growth (wrapContent second new) := by
  intro bound bindings bindings' hagree hbound markup hrender
  have hsecond := h bound bindings bindings' hagree hbound markup hrender
  have habsent := hagree.absent hnew
  unfold wrapContent
  split
  · simpa [Template.render, Bindings.holds, habsent, Value.isTruthy, Template.renderOption]
      using hsecond
  · simp [Template.render, Template.renderAll, habsent, Value.markup?, hsecond]
  · exact hsecond

theorem refines_wrapElement_new (hnew : growth.IsNew new) (h : first.Refines growth second) :
    first.Refines growth (wrapElement second new) := by
  intro bound bindings bindings' hagree hbound markup hrender
  have hsecond := h bound bindings bindings' hagree hbound markup hrender
  have habsent := hagree.absent hnew
  unfold wrapElement
  split
  · simpa [Template.render, Bindings.holds, habsent, Value.isTruthy] using hsecond
  next frame hchange =>
    cases frame with
    | none =>
      simp [Template.render, Repetition.frames, habsent, Repetition.bind, Rendered.concat, hsecond]
    | some parameters =>
      have hempty : ∀ slot, Frame.get [] slot = .absent := fun _ => rfl
      have henters : growth.Enters parameters.context := .inl ⟨new, parameters, hnew, hchange, rfl⟩
      have hentered := hagree.cons_entered henters hempty
      have hinside := h bound bindings _ hentered hbound markup hrender
      simp [Template.render, Repetition.frames, habsent, Repetition.bind, Rendered.concat, hinside]
  · exact hsecond

theorem refines_wrapElement (hd : d.Supplies growth) {id : NodeId} (hmem : edit ∈ d.edits id)
    (hedit : edit.Widens growth edit') (h : first.Refines growth second) :
    (wrapElement first edit).Refines growth (wrapElement second edit') := by
  cases hedit with
  | region var hcontext harity =>
    exact .block rfl (Repetition.agree_bind_region hd hmem hcontext harity) h
  | opened hopens =>
    refine .block rfl (fun hagree hvar hframes hvalues hinside => ?_) h
    obtain rfl := Except.ok.inj hinside
    exact Repetition.agree_bind_opened hd hopens hagree hvar hframes hvalues
  | same =>
    obtain ⟨change, var⟩ := edit
    cases change with
    | removal => exact .choice _ h .none
    | repetition frame =>
      cases frame with
      | none =>
        refine .block rfl (fun hagree _ _ _ hinside => ?_) h
        obtain rfl := Except.ok.inj hinside
        exact ⟨_, rfl, hagree⟩
      | some parameters =>
        exact .block rfl (Repetition.agree_bind_region hd hmem rfl (Nat.le_refl _)) h
    | _ => exact h

/-- Wrapping edit by edit keeps refinement when each edit does, and the new ones on
    the right. -/
theorem Grown.refines_foldl {wrap : Template → Edit → Template} {edits edits' : List Edit}
    (hgrown : Grown growth edits edits')
    (hkeep : ∀ {first second : Template} {edit edit' : Edit}, edit ∈ edits →
      edit.Widens growth edit' → first.Refines growth second →
      (wrap first edit).Refines growth (wrap second edit'))
    (hadd : ∀ {first second : Template} {new : Edit}, growth.IsNew new →
      first.Refines growth second → first.Refines growth (wrap second new))
    (h : first.Refines growth second) :
    (edits.foldl wrap first).Refines growth (edits'.foldl wrap second) := by
  induction hgrown generalizing first second with
  | nil => exact h
  | keep hedit _ ih =>
    exact ih (fun hmem => hkeep (List.mem_cons_of_mem _ hmem)) (hkeep List.mem_cons_self hedit h)
  | add hnew _ ih => exact ih hkeep (hadd hnew h)

/-- An element whose edits have grown. -/
theorem refines_weave (hd : d.Supplies growth) {id : NodeId} {edits : List Edit}
    (h : Grown growth (d.edits id) edits) (tag : String)
    {attributes attributes' inside inside' : Template}
    (hattributes : attributes.Refines growth attributes')
    (hinside : inside.Refines growth inside') :
    (weave (d.edits id) tag attributes inside).Refines growth
      (weave edits tag attributes' inside') := by
  have hcontent := h.refines_foldl (fun _ => refines_wrapContent) refines_wrapContent_new hinside
  apply h.refines_foldl (refines_wrapElement hd) refines_wrapElement_new
  exact .element hattributes hcontent

end Edit

end HtmlTemplate
