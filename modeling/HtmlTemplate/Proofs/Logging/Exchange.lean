-- SUMMARY: Mutations on scopes without common nodes can be logged in either order.
import HtmlTemplate.Proofs.Logging
import HtmlTemplate.Proofs.Renumbering
import HtmlTemplate.Proofs.Slots

/-!
# Exchanging two mutations

When two mutations of the document are logged in one order or the other, they change
places in the numbering of its slots. If their scopes have no node in common, that is
all: each node has the same mutations in the same order. So the two documents are
compiled alike, to templates that differ in these two slots.
-/

namespace HtmlTemplate

def LoggedMutation.renumber (f : Renumbering) (c : ContextId) (logged : LoggedMutation) :
    LoggedMutation := { logged with slot := f c logged.slot }

namespace Declarations

/-! ## Declarations with other slots -/

/-- The nodes have the same mutations in both declarations, under other slots. -/
structure Renumbered (f : Renumbering) (d d' : Declarations) : Prop where
  tree : d'.tree = d.tree
  index : ∀ node, d'.index.scopes node = d.index.scopes node
  slots : ∀ c, d'.nextSlot c = d.nextSlot c
  scope : ∀ {node i}, i ∈ d.index.scopes node → ∃ s t,
    d.scope? i = some s ∧ d'.scope? i = some t ∧ t.context = s.context ∧ t.nested = s.nested ∧
      t.log = s.log.map (LoggedMutation.renumber f s.context)

variable {f : Renumbering} {d d' : Declarations} {pass : AttributePass}

namespace Renumbered

theorem loopParameters (h : d.Renumbered f d') : d'.loopParameters = d.loopParameters := by
  funext c
  simp only [Declarations.loopParameters, h.slots c]

theorem editsOf (h : d.Renumbered f d') (hd : d.WellFormed) (hd' : d'.WellFormed) {node : NodeId}
    {i : ScopeId} (hi : i ∈ d.index.scopes node) :
    d'.editsOf i = (d.editsOf i).map (Edit.renumber f) := by
  obtain ⟨s, t, hs, ht, hcontext, hnested, hlog⟩ := h.scope hi
  have hedit (logged : LoggedMutation) :
      d'.edit? t (logged.renumber f s.context) = (d.edit? s logged).map (Edit.renumber f) := by
    rw [hd.edit?_eq hs, hd'.edit?_eq ht, hnested, h.loopParameters, Option.map_map]
    simp only [Scope.var, hcontext]
    rfl
  simp only [Declarations.editsOf, hs, ht, hlog, List.filterMap_map, List.map_filterMap]
  exact List.filterMap_congr fun logged _ => hedit logged

theorem edits (h : d.Renumbered f d') (hd : d.WellFormed) (hd' : d'.WellFormed) (node : NodeId) :
    d'.edits node = (d.edits node).map (Edit.renumber f) := by
  rw [edits_eq_flatMap_editsOf, edits_eq_flatMap_editsOf, h.index, List.map_flatMap]
  exact List.flatMap_congr fun i hi => h.editsOf hd hd' hi

theorem isMutated (h : d.Renumbered f d') (node : NodeId) :
    d'.isMutated node = d.isMutated node := by
  simp only [Declarations.isMutated, h.index]

end Renumbered

theorem forall_mutationsOf {P : Mutation → Prop} {node : NodeId} :
    (∀ pair ∈ d.mutationsOf node, P pair.2.mutation) ↔
      ∀ i ∈ d.index.scopes node, ∀ s, d.scope? i = some s →
        ∀ logged ∈ s.log, P logged.mutation := by
  simp only [mutationsOf, touching, List.mem_flatMap, List.mem_filterMap, List.mem_map]
  constructor
  · intro h i hi s hs logged hlogged
    exact h (s, logged) ⟨s, ⟨i, hi, hs⟩, logged, hlogged, rfl⟩
  · rintro h pair ⟨s, ⟨i, hi, hs⟩, logged, hlogged, rfl⟩
    exact h i hi s hs logged hlogged

namespace Renumbered

theorem admits (h : d.Renumbered f d') (id : NodeId) (content : Content) :
    d'.Admits id content ↔ d.Admits id content := by
  cases content with
  | element element =>
    simp only [Admits, forall_mutationsOf, h.index]
    refine forall₂_congr fun i hi => ?_
    obtain ⟨s, t, hs, ht, -, -, hlog⟩ := h.scope hi
    simp only [hs, ht, Option.some.injEq, forall_eq', hlog, List.forall_mem_map]
    rfl
  | comment text => rfl
  | instruction target text => rfl
  | _ => simp only [Admits, h.isMutated]

theorem visited (h : d.Renumbered f d') : d'.visited = d.visited := by
  simp only [Declarations.visited, h.tree]

theorem attributes (h : d.Renumbered f d') (hd : d.WellFormed) (hd' : d'.WellFormed)
    (hpass : pass.IsStandard) (id : NodeId) (element : Element) :
    d'.attributes pass id element = (d.attributes pass id element).renumber f := by
  unfold Declarations.attributes
  rw [h.isMutated, h.edits hd hd', h.tree, hpass.renumber]
  split
  · rfl
  · exact (AttributePass.renumber_sourceAttributes element).symm

mutual

/-- Declarations with other slots have a template with other slots. -/
theorem weave (h : d.Renumbered f d') (hd : d.WellFormed) (hd' : d'.WellFormed)
    (hpass : pass.IsStandard) (raw : Bool) (branch : Branch) :
    d'.weave pass raw branch = (d.weave pass raw branch).renumber f := by
  obtain ⟨id, content, children⟩ := branch
  have hitems := h.weaveAll hd hd' hpass (Compiler.holdsRawText d.tree.names content) children
  simp only [Declarations.weave, h.tree, hitems]
  cases content with
  | container => rfl
  | element element =>
    have hinside (items : List Template) : Template.sequence (Template.renumberAll f items) =
        (Template.sequence items).renumber f := rfl
    simp only [weaveNode, Tree.name, h.tree, h.edits hd hd', h.attributes hd hd' hpass, hinside,
      Edit.weave_renumber]
  | doctype name publicId systemId =>
    simp only [weaveNode, Tree.name, h.tree, Template.renumber]
  | _ => rfl

theorem weaveAll (h : d.Renumbered f d') (hd : d.WellFormed) (hd' : d'.WellFormed)
    (hpass : pass.IsStandard) (raw : Bool) (branches : List Branch) :
    d'.weaveAll pass raw branches = Template.renumberAll f (d.weaveAll pass raw branches) := by
  cases branches with
  | nil => rfl
  | cons branch rest =>
    rw [Declarations.weaveAll, h.weave hd hd' hpass raw branch,
      h.weaveAll hd hd' hpass raw rest]
    rfl

end

theorem woven (h : d.Renumbered f d') (hd : d.WellFormed) (hd' : d'.WellFormed)
    (hpass : pass.IsStandard) : d'.woven pass = (d.woven pass).renumber f := by
  unfold Declarations.woven
  rw [h.tree]
  split
  · exact h.weave hd hd' hpass false _
  · rfl

/-- Declarations with other slots compile to the template with other slots, if any. -/
theorem compile (h : d.Renumbered f d') (hd : d.WellFormed) (hd' : d'.WellFormed)
    (hpass : pass.IsStandard) {template : Template} :
    (Compiler.mk .standard pass).compile d' = .ok template ↔
      ∃ original, (Compiler.mk .standard pass).compile d = .ok original ∧
        original.renumber f = template := by
  simp only [Compiler.compile_eq_ok, h.woven hd hd' hpass, h.visited, h.admits,
    Template.unbound?_renumber, Option.map_eq_none_iff, and_assoc, exists_and_left, exists_eq_left']

end Renumbered

/-! ## The frames of repetitions -/

/-- A repeated region has a context of its own, other than that of the document. -/
theorem WellFormed.bindsKept_edits (hd : d.WellFormed) (hf : ∀ c ≠ rootContext, f.Keeps c)
    {node : NodeId} : ∀ edit ∈ d.edits node, edit.BindsKept f := by
  intro edit hedit parameters hrepetition
  obtain ⟨i, scope, logged, hs, -, -, -, hchange⟩ := hd.mem_edits.mp hedit
  rw [hrepetition] at hchange
  obtain ⟨c, hnested, rfl⟩ := Option.map_eq_some_iff.mp
    (Mutation.change?_eq_repetition.mp hchange).2.symm
  obtain ⟨hlt, -⟩ := hd.nested_of hs hnested
  apply hf
  rintro rfl
  exact absurd hlt (Nat.not_lt_zero _)

theorem bindsKept_attributes (hpass : pass.IsStandard) (id : NodeId) (element : Element) :
    (d.attributes pass id element).BindsKept f := by
  refine attributes_induction hpass (fun _ => Template.bindsKeptAll_iff.mpr) (fun _ _ => trivial)
    fun edit _ _ _ name otherwise hotherwise => ?_
  refine ⟨trivial, ?_⟩
  cases otherwise with
  | none => trivial
  | some item => exact hotherwise item rfl

mutual

theorem bindsKept_weave (hd : d.WellFormed) (hpass : pass.IsStandard)
    (hf : ∀ c ≠ rootContext, f.Keeps c) (raw : Bool) (branch : Branch) :
    (d.weave pass raw branch).BindsKept f := by
  obtain ⟨id, content, children⟩ := branch
  have hitems := bindsKept_weaveAll hd hpass hf (Compiler.holdsRawText d.tree.names content)
    children
  cases content with
  | container => exact hitems
  | element element =>
    have hattributes := bindsKept_attributes (d := d) (f := f) hpass id element
    exact Edit.bindsKept_weave (hd.bindsKept_edits hf) hattributes hitems
  | _ => trivial

theorem bindsKept_weaveAll (hd : d.WellFormed) (hpass : pass.IsStandard)
    (hf : ∀ c ≠ rootContext, f.Keeps c) (raw : Bool) (branches : List Branch) :
    Template.BindsKeptAll f (d.weaveAll pass raw branches) := by
  cases branches with
  | nil => trivial
  | cons branch rest =>
    exact ⟨bindsKept_weave hd hpass hf raw branch, bindsKept_weaveAll hd hpass hf raw rest⟩

end

/-- A compiled template binds no frames to the context of the document. -/
theorem bindsKept_woven (hd : d.WellFormed) (hpass : pass.IsStandard)
    (hf : ∀ c ≠ rootContext, f.Keeps c) : (d.woven pass).BindsKept f := by
  unfold woven
  split
  · exact bindsKept_weave hd hpass hf false _
  · trivial

/-! ## Two mutations in either order -/

/-- The mutation is not logged on the scope, which is one of the context of the
    document. -/
structure Unlogged (d : Declarations) (id : ScopeId) (scope : Scope) (mutation : Mutation) :
    Prop where
  found : d.scope? id = some scope
  ofDocument : scope.context = rootContext
  isNew : scope.slot? mutation = none

section Exchange

variable {i j : ScopeId} {s s' t t' u : Scope} {mutation other : Mutation} {a b : Nat}

namespace Unlogged

/-- Logging another mutation leaves it so. -/
theorem withLogged (h : d.Unlogged i s mutation) (hne : (i, mutation) ≠ (j, other)) (t : Scope) :
    ∃ s', (d.withLogged j t other).Unlogged i s' mutation := by
  refine ⟨_, scope?_withLogged j t other h.found, h.ofDocument, ?_⟩
  by_cases hij : i = j
  · have hmutation : (mutation == other) = false := by
      refine beq_eq_false_iff_ne.mpr fun heq => hne ?_
      rw [hij, heq]
    simpa [Scope.slot?, hij, List.lookup_cons, hmutation] using h.isNew
  · simpa [Scope.slot?, hij] using h.isNew

theorem nextSlot (h : d.Unlogged i s mutation) (hd : d.WellFormed) (c : ContextId) :
    (d.withLogged i s mutation).nextSlot c =
      if c = rootContext then d.nextSlot c + 1 else d.nextSlot c := by
  rw [nextSlot_withLogged d i mutation (hd.context_of h.found), h.ofDocument]

theorem hasSlot (h : d.Unlogged i s mutation) :
    (d.withLogged i s mutation).HasSlot i mutation (d.nextSlot rootContext) := by
  refine ⟨_, scope?_withLogged i s mutation h.found, ?_⟩
  simp [Scope.slot?, h.ofDocument]

/-- Two mutations get the next two slots of the document. -/
theorem slots (h : d.Unlogged i s mutation) (hd : d.WellFormed)
    (hother : (d.withLogged i s mutation).Unlogged j t other) :
    let later := (d.withLogged i s mutation).withLogged j t other
    later.nextSlot rootContext = d.nextSlot rootContext + 2 ∧
      later.HasSlot i mutation (d.nextSlot rootContext) ∧
      later.HasSlot j other (d.nextSlot rootContext + 1) := by
  intro later
  have hfirst : (d.withLogged i s mutation).nextSlot rootContext = d.nextSlot rootContext + 1 :=
    (h.nextSlot hd rootContext).trans (if_pos rfl)
  have hlater : later.nextSlot rootContext = (d.withLogged i s mutation).nextSlot rootContext + 1 :=
    (hother.nextSlot (hd.withLogged h.found h.isNew) rootContext).trans (if_pos rfl)
  refine ⟨by rw [hlater, hfirst], ?_, ?_⟩
  · exact h.hasSlot.step (.logged other hother.found hother.isNew)
  · rw [← hfirst]
    exact hother.hasSlot

theorem nodes (h : (d.withLogged j t other).Unlogged i s' mutation) (hi : d.scope? i = some s) :
    s'.nodes = s.nodes := by
  obtain ⟨old, hold, rfl⟩ := of_scope?_withLogged h.found
  obtain rfl := Option.some.inj (hold.symm.trans hi)
  rfl

end Unlogged

/-- Slots that the document does not have yet can change places unnoticed. -/
theorem WellFormed.map_renumber_log (hd : d.WellFormed) (hu : d.scope? i = some u)
    (ha : d.nextSlot rootContext ≤ a) (hb : d.nextSlot rootContext ≤ b) :
    u.log.map (LoggedMutation.renumber (.exchange rootContext a b) u.context) = u.log := by
  refine (List.map_congr_left fun logged hlogged => ?_).trans (List.map_id _)
  have hslot := hd.slot_lt hu hlogged
  unfold LoggedMutation.renumber
  by_cases hcontext : u.context = rootContext
  · rw [hcontext] at hslot ⊢
    rw [Renumbering.exchange_of_ne (by omega) (by omega)]
    rfl
  · rw [Renumbering.keeps_exchange hcontext]
    rfl

theorem WellFormed.map_renumber_append (hd : d.WellFormed) (hu : d.scope? i = some u)
    (ha : d.nextSlot rootContext ≤ a) (hb : d.nextSlot rootContext ≤ b) (mutation : Mutation)
    (slot : Nat) :
    (u.log ++ [LoggedMutation.mk mutation slot]).map
        (LoggedMutation.renumber (.exchange rootContext a b) u.context) =
      u.log ++ [LoggedMutation.mk mutation
        (Renumbering.exchange rootContext a b u.context slot)] := by
  rw [List.map_append, hd.map_renumber_log hu ha hb]
  rfl

/-- Logged in the other order, two mutations on scopes without common nodes have their
    slots exchanged, and nothing else is different on any node. -/
theorem WellFormed.renumbered_withLogged (hd : d.WellFormed) (hi : d.Unlogged i s mutation)
    (hj : d.Unlogged j t other) (hj' : (d.withLogged i s mutation).Unlogged j t' other)
    (hi' : (d.withLogged j t other).Unlogged i s' mutation)
    (hnodes : ∀ node ∈ s.nodes, node ∉ t.nodes) :
    ((d.withLogged i s mutation).withLogged j t' other).Renumbered
      (.exchange rootContext (d.nextSlot rootContext) (d.nextSlot rootContext + 1))
      ((d.withLogged j t other).withLogged i s' mutation) := by
  have hd₁ := hd.withLogged hi.found hi.isNew
  have hd₂ := hd.withLogged hj.found hj.isNew
  have hnext₁ := hi.nextSlot hd
  have hnext₂ := hj.nextSlot hd
  constructor
  case tree => rfl
  case index =>
    intro node
    simp only [scopes_withLogged, hj'.nodes hj.found, hi'.nodes hi.found]
    by_cases hnode : node ∈ s.nodes
    · simp [hnode, hnodes node hnode]
    · simp [hnode]
  case slots =>
    intro c
    simp only [hj'.nextSlot hd₁, hi'.nextSlot hd₂, hnext₁, hnext₂]
  case scope =>
    intro node k hk
    obtain ⟨first, hfirst, -, hnode⟩ := (hd₁.withLogged hj'.found hj'.isNew).mem_index.mp hk
    obtain ⟨middle, hmiddle, rfl⟩ := of_scope?_withLogged hfirst
    obtain ⟨u, hu, rfl⟩ := of_scope?_withLogged hmiddle
    have hsecond := scope?_withLogged i s' mutation (scope?_withLogged j t other hu)
    refine ⟨_, _, hfirst, hsecond, rfl, rfl, ?_⟩
    have hlog := hd.map_renumber_log hu (Nat.le_refl _) (Nat.le_succ _)
    have hentry := hd.map_renumber_append hu (Nat.le_refl _) (Nat.le_succ _)
    simp only [hi.ofDocument, hj.ofDocument, hi'.ofDocument, hj'.ofDocument, hnext₁, hnext₂,
      if_true]
    -- The scope has logged one of the two mutations, or neither of them.
    by_cases hki : k = i
    · subst hki
      obtain rfl := Option.some.inj (hu.symm.trans hi.found)
      have hkj : k ≠ j := by
        rintro rfl
        obtain rfl := Option.some.inj (hu.symm.trans hj.found)
        exact hnodes node hnode hnode
      simp only [hkj, if_true, if_false, hentry]
      rw [hi.ofDocument, Renumbering.exchange_left]
    · by_cases hkj : k = j
      · subst hkj
        obtain rfl := Option.some.inj (hu.symm.trans hj.found)
        simp only [hki, if_true, if_false, hentry]
        rw [hj.ofDocument, Renumbering.exchange_right]
      · simp only [hki, hkj, if_false, hlog]

end Exchange

end Declarations

/-- The two values at the end of the frame change places with their slots. -/
theorem Bindings.renumbered_exchange (c : ContextId) (values : Frame) (x y : Value) :
    Bindings.Renumbered (.exchange c values.length (values.length + 1))
      [(c, values ++ [x, y])] [(c, values ++ [y, x])] := by
  intro var
  rw [value_cons, value_cons, Var.context_renumber]
  split
  next hcontext =>
    simp only [Var.renumber, hcontext, Frame.get, List.getD_eq_getElem?_getD]
    by_cases hfirst : var.slot = values.length
    · rw [hfirst, Renumbering.exchange_left]
      simp
    · by_cases hsecond : var.slot = values.length + 1
      · rw [hsecond, Renumbering.exchange_right]
        simp
      · rw [Renumbering.exchange_of_ne hfirst hsecond]
        by_cases hslot : var.slot < values.length
        · simp [List.getElem?_append_left hslot]
        · have hbeyond : values.length + 2 ≤ var.slot := by omega
          simp [hbeyond]
  next => rfl

namespace Document

variable {doc : Document} {i j : ScopeId} {s t : Scope} {mutation other : Mutation}

theorem exists_log_log (hi : doc.declarations.Unlogged i s mutation)
    (hj : doc.declarations.Unlogged j t other) (hne : (j, other) ≠ (i, mutation)) :
    ∃ t', (doc.declarations.withLogged i s mutation).Unlogged j t' other ∧
      ((doc.log i mutation).2.log j other).2.declarations =
        (doc.declarations.withLogged i s mutation).withLogged j t' other := by
  obtain ⟨t', hj'⟩ := hj.withLogged hne s
  refine ⟨t', hj', ?_⟩
  have hfirst : (doc.log i mutation).2.declarations =
      doc.declarations.withLogged i s mutation :=
    Declarations.log_of_slot?_eq_none hi.found hi.isNew
  rw [← hfirst] at hj' ⊢
  exact Declarations.log_of_slot?_eq_none hj'.found hj'.isNew

/-- A document that is due for a compilation answers a renderer when its template can be
    made. -/
theorem exists_compile_iff_of_isDirty (hdirty : doc.isDirty = true) :
    (∃ renderer, doc.compile.1 = .ok renderer) ↔ ∃ template, doc.template = .ok template := by
  constructor
  · rintro ⟨renderer, hrenderer⟩
    cases htemplate : doc.template with
    | ok template => exact ⟨template, rfl⟩
    | error e => simp [compile, hdirty, recompile, htemplate] at hrenderer
  · rintro ⟨template, htemplate⟩
    exact exists_compile_of_template htemplate

theorem render_of_isDirty (hdirty : doc.isDirty = true) {template : Template}
    (htemplate : doc.template = .ok template) (arguments : Frame) :
    (doc.render arguments).1 =
      ((Program.mk template doc.parameters).render arguments).mapError .render := by
  rw [render_of_compile (compile_of_isDirty hdirty htemplate), Program.render_build]

/-- Two documents that are due for a compilation, with the standard handlers. Their nodes
    have the same mutations, under other slots. -/
structure Renumbered (f : Renumbering) (pass : AttributePass) (first second : Document) :
    Prop where
  declarations : first.declarations.Renumbered f second.declarations
  wellFormed₁ : first.declarations.WellFormed
  wellFormed₂ : second.declarations.WellFormed
  compiler₁ : first.compiler = ⟨.standard, pass⟩
  compiler₂ : second.compiler = ⟨.standard, pass⟩
  isDirty₁ : first.isDirty = true
  isDirty₂ : second.isDirty = true

namespace Renumbered

variable {f : Renumbering} {pass : AttributePass} {first second : Document} {template : Template}

theorem parameters (h : first.Renumbered f pass second) : second.parameters = first.parameters := by
  unfold Document.parameters
  rw [h.declarations.slots]

theorem template_eq_ok (h : first.Renumbered f pass second) (hpass : pass.IsStandard) :
    second.template = .ok template ↔
      ∃ original, first.template = .ok original ∧ original.renumber f = template := by
  unfold Document.template
  rw [h.compiler₁, h.compiler₂]
  exact h.declarations.compile h.wellFormed₁ h.wellFormed₂ hpass

theorem exists_compile_iff (h : first.Renumbered f pass second) (hpass : pass.IsStandard) :
    (∃ renderer, first.compile.1 = .ok renderer) ↔
      ∃ renderer, second.compile.1 = .ok renderer := by
  rw [exists_compile_iff_of_isDirty h.isDirty₁, exists_compile_iff_of_isDirty h.isDirty₂]
  constructor
  · rintro ⟨original, horiginal⟩
    exact ⟨_, (h.template_eq_ok hpass).mpr ⟨original, horiginal, rfl⟩⟩
  · rintro ⟨template, htemplate⟩
    obtain ⟨original, horiginal, -⟩ := (h.template_eq_ok hpass).mp htemplate
    exact ⟨original, horiginal⟩

/-- What the first document renders, the second renders when each value has been moved to
    the slot of its mutation. -/
theorem render (h : first.Renumbered f pass second) (hpass : pass.IsStandard)
    (hf : ∀ c ≠ Declarations.rootContext, f.Keeps c) (htemplate : first.template = .ok template)
    {arguments arguments' : Frame} (hlength : arguments'.length = arguments.length)
    (hvalues : Bindings.Renumbered f [(Declarations.rootContext, arguments)]
      [(Declarations.rootContext, arguments')]) :
    (first.render arguments).1 =
        ((Program.mk template first.parameters).render arguments).mapError .render ∧
      (second.render arguments').1 =
        (((Program.mk template first.parameters).render arguments).renumber f).mapError
          .render := by
  have hsecond := (h.template_eq_ok hpass).mpr ⟨template, htemplate, rfl⟩
  have hkept : template.BindsKept f := by
    rw [Document.template, h.compiler₁, Compiler.compile_eq_ok] at htemplate
    obtain ⟨-, -, rfl⟩ := htemplate
    exact Declarations.bindsKept_woven h.wellFormed₁ hpass hf
  constructor
  · exact render_of_isDirty h.isDirty₁ htemplate arguments
  · rw [render_of_isDirty h.isDirty₂ hsecond, h.parameters,
      Program.render_renumber hkept first.parameters hlength hvalues]

end Renumbered

/-- The two mutations get the next two slots, in the order in which they are logged. -/
theorem slots_log_log (hd : doc.declarations.WellFormed)
    (hi : doc.declarations.Unlogged i s mutation) (hj : doc.declarations.Unlogged j t other)
    (hne : (j, other) ≠ (i, mutation)) :
    let later := ((doc.log i mutation).2.log j other).2
    later.parameters.arity = doc.parameters.arity + 2 ∧
      later.declarations.HasSlot i mutation doc.parameters.arity ∧
      later.declarations.HasSlot j other (doc.parameters.arity + 1) := by
  intro later
  obtain ⟨t', hj', hlater⟩ := exists_log_log hi hj hne
  unfold Document.parameters
  rw [hlater]
  exact hi.slots hd hj'

/-- The two documents after both mutations have the same ones under exchanged slots. -/
theorem renumbered_log_log {pass : AttributePass} (hd : doc.declarations.WellFormed)
    (hcompiler : doc.compiler = ⟨.standard, pass⟩)
    (hi : doc.declarations.Unlogged i s mutation) (hj : doc.declarations.Unlogged j t other)
    (hne : (i, mutation) ≠ (j, other)) (hnodes : ∀ node ∈ s.nodes, node ∉ t.nodes) :
    ((doc.log i mutation).2.log j other).2.Renumbered
      (.exchange Declarations.rootContext doc.parameters.arity (doc.parameters.arity + 1)) pass
      ((doc.log j other).2.log i mutation).2 := by
  obtain ⟨t', hj', hfirst⟩ := exists_log_log hi hj hne.symm
  obtain ⟨s', hi', hsecond⟩ := exists_log_log hj hi hne
  constructor
  case declarations =>
    rw [hfirst, hsecond]
    exact hd.renumbered_withLogged hi hj hj' hi' hnodes
  case wellFormed₁ =>
    rw [hfirst]
    exact (hd.withLogged hi.found hi.isNew).withLogged hj'.found hj'.isNew
  case wellFormed₂ =>
    rw [hsecond]
    exact (hd.withLogged hj.found hj.isNew).withLogged hi'.found hi'.isNew
  case compiler₁ => exact hcompiler
  case compiler₂ => exact hcompiler
  case isDirty₁ => exact congrArg Declarations.isDirty hfirst
  case isDirty₂ => exact congrArg Declarations.isDirty hsecond

/-- Two mutations of the document on scopes without a common node can be logged in either
    order. The two documents compile alike, and render alike when the values of the two
    mutations, which come last, change places too. -/
theorem log_exchange (tree : Tree) (pass : AttributePass) (hpass : pass.IsStandard)
    (optimizing : Bool) (operations : List Operation) (i j : ScopeId) (s t : Scope)
    (mutation other : Mutation) :
    let doc := (ofTree tree ⟨.standard, pass⟩ optimizing).run operations
    let first := ((doc.log i mutation).2.log j other).2
    let second := ((doc.log j other).2.log i mutation).2
    let slot := doc.parameters.arity
    doc.declarations.Unlogged i s mutation → doc.declarations.Unlogged j t other →
      (i, mutation) ≠ (j, other) → (∀ node ∈ s.nodes, node ∉ t.nodes) →
      (first.parameters.arity = slot + 2 ∧ first.declarations.HasSlot i mutation slot ∧
        first.declarations.HasSlot j other (slot + 1)) ∧
      (second.parameters.arity = slot + 2 ∧ second.declarations.HasSlot j other slot ∧
        second.declarations.HasSlot i mutation (slot + 1)) ∧
      ((∃ renderer, first.compile.1 = .ok renderer) ↔
        ∃ renderer, second.compile.1 = .ok renderer) ∧
      ∀ renderer, first.compile.1 = .ok renderer →
        ∀ (values : Frame) (x y : Value), values.length = slot →
          (∃ markup, (first.render (values ++ [x, y])).1 = .ok markup ∧
            (second.render (values ++ [y, x])).1 = .ok markup) ∨
          ∃ e, (first.render (values ++ [x, y])).1 = .error (.render e) ∧
            (second.render (values ++ [y, x])).1 = .error (.render
              (e.renumber (.exchange Declarations.rootContext slot (slot + 1)))) := by
  intro doc first second slot hi hj hne hnodes
  have hd : doc.declarations.WellFormed := wellFormed_run tree _ optimizing operations
  have hcompiler : doc.compiler = ⟨.standard, pass⟩ := compiler_run _ operations
  have hrenumbered :
      first.Renumbered (.exchange Declarations.rootContext slot (slot + 1)) pass second :=
    renumbered_log_log hd hcompiler hi hj hne hnodes
  refine ⟨?_, ?_, hrenumbered.exists_compile_iff hpass, ?_⟩
  · exact slots_log_log hd hi hj hne.symm
  · exact slots_log_log hd hj hi hne
  · intro renderer hrenderer values x y hlength
    obtain ⟨template, htemplate⟩ :=
      (exists_compile_iff_of_isDirty hrenumbered.isDirty₁).mp ⟨renderer, hrenderer⟩
    have hvalues := Bindings.renumbered_exchange Declarations.rootContext values x y
    rw [hlength] at hvalues
    obtain ⟨hrender, hrender'⟩ := hrenumbered.render hpass
      (fun c hc => Renumbering.keeps_exchange hc) htemplate (by simp) hvalues
    rw [hrender, hrender']
    cases (Program.mk template first.parameters).render (values ++ [x, y]) with
    | ok markup => exact .inl ⟨markup, rfl, rfl⟩
    | error e => exact .inr ⟨e, rfl, rfl⟩

/-- A section gets a class, and the paragraph in it is repeated. -/
theorem log_exchange_section :
    let doc := (ofTree sectionTree).run [.find "section", .find "p"]
    let named := Operation.log ⟨1⟩ { kind := Mutation.setAttribute, arguments := ["class"] }
    let repeated := Operation.log ⟨2⟩ { kind := Mutation.repeatEach }
    let markup := "<section class=\"x\"><p>a &lt; b</p><p>a &lt; b</p></section>"
    ((doc.run [named, repeated]).render [.text "x", .list [[], []]]).1 = .ok markup ∧
      ((doc.run [repeated, named]).render [.list [[], []], .text "x"]).1 = .ok markup := by
  have hsection : ((ofTree sectionTree).run [.find "section", .find "p"]).declarations.Unlogged ⟨1⟩
      { id := ⟨1⟩, nodes := [⟨1⟩], context := ⟨0⟩ }
      { kind := Mutation.setAttribute, arguments := ["class"] } := ⟨rfl, rfl, rfl⟩
  have hparagraph : ((ofTree sectionTree).run [.find "section", .find "p"]).declarations.Unlogged
      ⟨2⟩ { id := ⟨2⟩, nodes := [⟨2⟩], context := ⟨0⟩ } { kind := Mutation.repeatEach } :=
    ⟨rfl, rfl, rfl⟩
  obtain ⟨-, -, -, hrender⟩ := log_exchange sectionTree .withOverrides .withOverrides true
    [.find "section", .find "p"] ⟨1⟩ ⟨2⟩ _ _ _ _ hsection hparagraph (by decide) (by decide)
  refine ⟨rfl, ?_⟩
  rcases hrender _ rfl [] (.text "x") (.list [[], []]) rfl with
    ⟨written, hwritten, hwritten'⟩ | ⟨e, herror, -⟩
  · cases hwritten
    exact hwritten'
  · cases herror

end Document

end HtmlTemplate
