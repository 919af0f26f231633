-- SUMMARY: Slots are handed out densely in each context, one for each mutation of a scope, and for good.
import HtmlTemplate.Proofs.Declarations.Order

/-!
# Slots

All scopes of a context take their slots from one counter. Whatever is searched,
logged, entered, compiled and rendered in between, their logs together have each
slot below the counter exactly once, and a mutation keeps the slot that it was
logged under.
-/

namespace HtmlTemplate

/-- Where one item is changed to give more, the whole list gives so much more. -/
theorem perm_flatMap_modify {α β : Type} {items : List α} {i : Nat} {item : α} {change : α → α}
    {give : α → List β} {more : List β} (hitem : items[i]? = some item)
    (hmore : give (change item) = give item ++ more) :
    ((items.modify i change).flatMap give).Perm (items.flatMap give ++ more) := by
  induction items generalizing i with
  | nil => cases hitem
  | cons first rest ih =>
    cases i with
    | zero =>
      obtain rfl := Option.some.inj hitem
      simp only [List.modify_zero_cons, List.flatMap_cons, hmore, List.append_assoc]
      exact List.Perm.append_left _ List.perm_append_comm
    | succ i =>
      simp only [List.modify_succ_cons, List.flatMap_cons, List.append_assoc]
      exact List.Perm.append_left _ (ih hitem)

namespace Declarations

variable {d d' : Declarations} {id i : ScopeId} {scope s : Scope} {mutation : Mutation} {slot : Nat}

/-! ## The slots of a context -/

/-- The slots that the mutations of a scope have in a context: none if the scope does
    not belong to it. -/
def slotsIn (c : ContextId) (scope : Scope) : List Nat :=
  if scope.context = c then scope.log.map (·.slot) else []

/-- The slots in the logs of all scopes of a context. -/
def slotsOf (d : Declarations) (c : ContextId) : List Nat := d.scopes.toList.flatMap (slotsIn c)

theorem perm_slotsOf_updateScope {c : ContextId} {change : Scope → Scope} {more : List Nat}
    (hid : d.scope? id = some scope) (hmore : slotsIn c (change scope) = slotsIn c scope ++ more) :
    ((d.updateScope id change).slotsOf c).Perm (d.slotsOf c ++ more) := by
  have hitem : d.scopes.toList[id.index]? = some scope := by
    rw [Array.getElem?_toList]
    exact hid
  simp only [slotsOf, updateScope, Array.toList_modify]
  exact perm_flatMap_modify hitem hmore

/-- A new scope has no slots, and brings none when an older one comes to know it. -/
theorem perm_slotsOf_push {c : ContextId} {new : Scope} {change : Scope → Scope}
    (hid : d.scope? id = some scope) (hnew : new.log = [])
    (hsame : slotsIn c (change scope) = slotsIn c scope) :
    ((({ d with scopes := d.scopes.push new } : Declarations).updateScope id change).slotsOf c).Perm
      (d.slotsOf c) := by
  have hid' : ({ d with scopes := d.scopes.push new } : Declarations).scope? id = some scope := by
    rw [scope?_push, if_neg (Nat.ne_of_lt (lt_of_scope? hid)), hid]
  have hpush : ({ d with scopes := d.scopes.push new } : Declarations).slotsOf c = d.slotsOf c := by
    simp [slotsOf, slotsIn, hnew]
  have hnone : slotsIn c (change scope) = slotsIn c scope ++ [] := by rw [hsame, List.append_nil]
  have hperm := perm_slotsOf_updateScope hid' hnone
  rwa [List.append_nil, hpush] at hperm

/-- The slots of every context are those below its counter, each once. -/
def Dense (d : Declarations) : Prop := ∀ c, (d.slotsOf c).Perm (List.range (d.nextSlot c))

namespace Dense

theorem start (tree : Tree) : (Declarations.start tree).Dense := by
  intro c
  have hslots : (Declarations.start tree).slotsOf c = [] := by
    simp [slotsOf, slotsIn, Declarations.start, register]
  have hnext : (Declarations.start tree).nextSlot c = 0 := by
    obtain ⟨index⟩ := c
    cases index <;> rfl
  rw [hslots, hnext]
  exact .nil

theorem withFound (h : d.Dense) (hid : d.scope? id = some scope) (selector : String)
    (nodes : List NodeId) : (d.withFound id scope selector nodes).Dense :=
  fun c => (perm_slotsOf_push hid rfl rfl).trans (h c)

/-- A mutation that is logged takes the slot that the counter of the context is at. -/
theorem withLogged (h : d.Dense) (hd : d.WellFormed) (hid : d.scope? id = some scope)
    (mutation : Mutation) : (d.withLogged id scope mutation).Dense := by
  intro c
  let slot := d.nextSlot scope.context
  have hmore : slotsIn c (scope.record mutation slot) =
      slotsIn c scope ++ if scope.context = c then [slot] else [] := by
    unfold slotsIn Scope.record
    split <;> simp
  have hperm : ((d.withLogged id scope mutation).slotsOf c).Perm
      (d.slotsOf c ++ if scope.context = c then [slot] else []) :=
    perm_slotsOf_updateScope hid hmore
  refine hperm.trans ((h c).append_right _ |>.trans ?_)
  rw [nextSlot_withLogged d id mutation (hd.context_of hid)]
  by_cases hc : scope.context = c
  · simp [slot, hc, List.range_succ]
  · simp [hc, Ne.symm hc]

theorem withRegion (h : d.Dense) (hid : d.scope? id = some scope) :
    (d.withRegion id scope).Dense := by
  intro c
  let region : Scope :=
    { id := ⟨d.scopes.size⟩, nodes := scope.nodes, context := ⟨d.contexts.size⟩ }
  have hnew : region.log = [] := rfl
  have hperm : ((d.withRegion id scope).slotsOf c).Perm (d.slotsOf c) :=
    perm_slotsOf_push hid hnew rfl
  rw [nextSlot_withRegion]
  exact hperm.trans (h c)

theorem step (h : d.Dense) (hd : d.WellFormed) (hstep : d.Step d') : d'.Dense := by
  cases hstep with
  | same => exact h
  | found selector nodes hid => exact h.withFound hid selector nodes
  | logged mutation hid => exact h.withLogged hd hid mutation
  | entered hid => exact h.withRegion hid

end Dense

/-! ## The slot of a mutation -/

/-- The mutation is logged on the scope under the slot. -/
def HasSlot (d : Declarations) (id : ScopeId) (mutation : Mutation) (slot : Nat) : Prop :=
  ∃ scope, d.scope? id = some scope ∧ scope.slot? mutation = some slot

/-- What is logged keeps its slot: a later entry is of another mutation. -/
theorem HasSlot.step (h : d.HasSlot i mutation slot) (hstep : d.Step d') :
    d'.HasSlot i mutation slot := by
  obtain ⟨s, hs, hslot⟩ := h
  cases hstep with
  | same => exact ⟨s, hs, hslot⟩
  | found selector nodes hid =>
    obtain ⟨children, hs'⟩ := scope?_withFound _ _ selector nodes hs
    exact ⟨_, hs', hslot⟩
  | entered hid => exact ⟨_, scope?_withRegion _ _ hs, hslot⟩
  | @logged id scope other hid hnew =>
    refine ⟨_, scope?_withLogged _ _ other hs, ?_⟩
    by_cases hi : i = id
    · subst hi
      obtain rfl := Option.some.inj (hs.symm.trans hid)
      have hne : (mutation == other) = false := by
        refine beq_eq_false_iff_ne.mpr ?_
        rintro rfl
        cases hslot.symm.trans hnew
      simpa [Scope.slot?, List.lookup_cons, hne] using hslot
    · simpa [Scope.slot?, hi] using hslot

/-- Logging answers the slot that the mutation then has. -/
theorem hasSlot_log (h : (d.log i mutation).1 = .ok slot) :
    (d.log i mutation).2.HasSlot i mutation slot := by
  unfold log at h ⊢
  cases hs : d.scope? i with
  | none => simp [hs] at h
  | some s =>
    simp only [hs] at h ⊢
    cases hslot : s.slot? mutation with
    | some known =>
      simp only [hslot, Except.ok.injEq] at h
      exact ⟨s, by simp [hs], h ▸ hslot⟩
    | none =>
      simp only [hslot, Except.ok.injEq] at h
      refine ⟨_, scope?_withLogged i s mutation hs, ?_⟩
      simp [Scope.slot?, h]

/-- Logging what is logged changes nothing. -/
theorem HasSlot.log_eq (h : d.HasSlot i mutation slot) : d.log i mutation = (.ok slot, d) := by
  obtain ⟨s, hs, hslot⟩ := h
  simp only [log, hs, hslot]

end Declarations

namespace Document

variable {doc : Document} {i : ScopeId} {mutation : Mutation} {slot : Nat}

theorem hasSlot_run (h : doc.declarations.HasSlot i mutation slot) (operations : List Operation) :
    (doc.run operations).declarations.HasSlot i mutation slot := by
  refine run_induction (P := fun doc => doc.declarations.HasSlot i mutation slot) ?_ h operations
  intro doc doc' h hstep
  cases hstep with
  | same => exact h
  | declared hd => exact h.step hd
  | rebuilt => exact h

theorem log_of_hasSlot (h : doc.declarations.HasSlot i mutation slot) :
    doc.log i mutation = (.ok slot, doc) := by
  simp only [log, h.log_eq, withDeclarations]

theorem dense_run (tree : Tree) (compiler : Compiler) (optimizing : Bool)
    (operations : List Operation) :
    ((ofTree tree compiler optimizing).run operations).declarations.Dense := by
  induction operations using List.reverseRecOn with
  | nil => exact .start tree
  | append_singleton operations operation ih =>
    have hd := wellFormed_run tree compiler optimizing operations
    have hstep := ((ofTree tree compiler optimizing).run operations).step_perform operation
    rw [run_concat]
    generalize ((ofTree tree compiler optimizing).run operations).perform operation = next at hstep
    cases hstep with
    | same => exact ih
    | declared hdeclared => exact ih.step hd hdeclared
    | rebuilt => exact ih

/-- A mutation is logged at most once on a scope, since the slots of a log are distinct. -/
theorem nodup_mutations (tree : Tree) (compiler : Compiler) (optimizing : Bool)
    (operations : List Operation) {scope : Scope}
    (hs : ((ofTree tree compiler optimizing).run operations).declarations.scope? i = some scope) :
    (scope.log.map (·.mutation)).Nodup := by
  have hd := wellFormed_run tree compiler optimizing operations
  have hlog := pairwise_log tree compiler optimizing operations hs
  refine List.pairwise_map.mpr (hlog.imp_of_mem ?_)
  intro first second hfirst hsecond hlt hsame
  have hslot := (hd.slot_iff hs).mpr hfirst
  have hslot' := (hd.slot_iff hs).mpr hsecond
  rw [hsame, hslot'] at hslot
  exact absurd (Option.some.inj hslot) (Nat.ne_of_gt hlt)

/-- After every run: the slots in the logs of a context are those below its counter, each
    once; a scope has a mutation in its log once, under the slot that it looks up; what
    has a slot is logged again without any change; and the slot that is answered for a
    mutation is the one it has from then on. -/
theorem slots_run (tree : Tree) (compiler : Compiler) (optimizing : Bool)
    (operations : List Operation) :
    let doc := (ofTree tree compiler optimizing).run operations
    (∀ c, (doc.declarations.slotsOf c).Perm (List.range (doc.declarations.nextSlot c))) ∧
      (∀ i scope, doc.declarations.scope? i = some scope →
        (scope.log.map (·.mutation)).Nodup ∧
          ∀ mutation slot, scope.slot? mutation = some slot ↔ ⟨mutation, slot⟩ ∈ scope.log) ∧
      (∀ i scope mutation slot, doc.declarations.scope? i = some scope →
        ⟨mutation, slot⟩ ∈ scope.log → doc.log i mutation = (.ok slot, doc)) ∧
      ∀ i mutation slot, (doc.log i mutation).1 = .ok slot → ∀ more,
        let later := (doc.log i mutation).2.run more
        later.declarations.HasSlot i mutation slot ∧
          later.log i mutation = (.ok slot, later) := by
  intro doc
  have hd : doc.declarations.WellFormed := wellFormed_run tree compiler optimizing operations
  refine ⟨dense_run tree compiler optimizing operations, ?_, ?_, ?_⟩
  · intro i scope hs
    exact ⟨nodup_mutations tree compiler optimizing operations hs, fun _ _ => hd.slot_iff hs⟩
  · intro i scope mutation slot hs hlogged
    exact log_of_hasSlot ⟨scope, hs, (hd.slot_iff hs).mpr hlogged⟩
  · intro i mutation slot hanswer more later
    have hlater : later.declarations.HasSlot i mutation slot :=
      hasSlot_run (Declarations.hasSlot_log hanswer) more
    exact ⟨hlater, log_of_hasSlot hlater⟩

end Document

end HtmlTemplate
