-- SUMMARY: What each operation changes in the declarations of a document.
import HtmlTemplate.Declarations

/-!
# Declarations under operations

An operation on declarations leaves them as they are or does one of three things:
it adds the scope of a selector, logs a mutation, or enters a repeated region.
`Declarations.Step` lists the three, each with what it needs, and every invariant
is shown for them alone. The lookups `scope?`, `context?` and
`MutationIndex.scopes` are the view on which invariants are stated.
-/

namespace HtmlTemplate

theorem ScopeId.index_inj {i j : ScopeId} : i.index = j.index ↔ i = j := by
  cases i; cases j; simp

theorem ContextId.index_inj {c c' : ContextId} : c.index = c'.index ↔ c = c' := by
  cases c; cases c'; simp

namespace MutationIndex

/-! ## The index -/

theorem scopes_cons (first node : NodeId) (found : List ScopeId) (rest : MutationIndex) :
    scopes ((first, found) :: rest) node = if node = first then found else scopes rest node := by
  by_cases h : node = first
  · simp [scopes, h]
  · have hne : (node == first) = false := by simpa using h
    simp [scopes, List.lookup_cons, h, hne]

theorem scopes_add (index : MutationIndex) (scope : ScopeId) (node other : NodeId) :
    (add scope node index).scopes other =
      if other = node ∧ scope ∉ index.scopes other then index.scopes other ++ [scope]
      else index.scopes other := by
  induction index with
  | nil =>
    have hnil : scopes [] other = [] := rfl
    by_cases h : other = node <;> simp only [add, scopes_cons, hnil] <;> simp [h]
  | cons entry rest ih =>
    obtain ⟨first, found⟩ := entry
    unfold add
    split
    next hfirst =>
      simp only [scopes_cons]
      by_cases h : other = first
      · by_cases hmem : scope ∈ found <;> simp [h, hfirst, hmem]
      · have hother : other ≠ node := fun he => h (he.trans hfirst.symm)
        simp [h, hother]
    next hfirst =>
      simp only [scopes_cons]
      by_cases h : other = first
      · have hother : other ≠ node := fun he => hfirst (h.symm.trans he)
        simp [h, hfirst]
      · simpa only [h, if_false] using ih

/-- A scope is noted once with each of its nodes. -/
theorem scopes_addAll (index : MutationIndex) (scope : ScopeId) (nodes : List NodeId)
    (node : NodeId) :
    (index.addAll scope nodes).scopes node =
      if node ∈ nodes ∧ scope ∉ index.scopes node then index.scopes node ++ [scope]
      else index.scopes node := by
  induction nodes generalizing index with
  | nil => simp [addAll]
  | cons first rest ih =>
    have hrest : (index.addAll scope (first :: rest)).scopes node =
        ((add scope first index).addAll scope rest).scopes node := rfl
    rw [hrest, ih, scopes_add]
    by_cases hfirst : node = first <;> by_cases hmem : scope ∈ index.scopes node <;>
      simp [hfirst, hmem] <;> grind

end MutationIndex

namespace Declarations

variable {d d' : Declarations} {id i : ScopeId} {scope : Scope} {c : ContextId}

/-! ## Lookups -/

theorem lt_of_scope? (h : d.scope? id = some scope) : id.index < d.scopes.size := by
  obtain ⟨hlt, -⟩ := Array.getElem?_eq_some_iff.mp h
  exact hlt

theorem lt_of_context? {context : Context} (h : d.context? c = some context) :
    c.index < d.contexts.size := by
  obtain ⟨hlt, -⟩ := Array.getElem?_eq_some_iff.mp h
  exact hlt

/-- At the start there is the scope of the container alone. -/
theorem of_scope?_start {tree : Tree} (h : (start tree).scope? id = some scope) :
    id = rootScope ∧
      scope = { id := rootScope, nodes := [Tree.root], context := rootContext } := by
  have hlt := lt_of_scope? h
  obtain ⟨index⟩ := id
  have hindex : index = 0 := by simpa [start, register] using hlt
  subst hindex
  exact ⟨rfl, (Option.some.inj h).symm⟩

theorem scope?_push (d : Declarations) (scope : Scope) (i : ScopeId) :
    ({ d with scopes := d.scopes.push scope } : Declarations).scope? i =
      if i.index = d.scopes.size then some scope else d.scope? i :=
  Array.getElem?_push

theorem scope?_updateScope (d : Declarations) (id i : ScopeId) (change : Scope → Scope) :
    (d.updateScope id change).scope? i =
      (d.scope? i).map fun scope => if i = id then change scope else scope := by
  simp only [updateScope, scope?, Array.getElem?_modify, ScopeId.index_inj, eq_comm (a := id)]
  split <;> simp

/-! ## The three changes -/

/-- Add the scope that a selector of `scope` was resolved to. -/
def withFound (d : Declarations) (id : ScopeId) (scope : Scope) (selector : String)
    (nodes : List NodeId) : Declarations :=
  let child : ScopeId := ⟨d.scopes.size⟩
  let found : Scope := { id := child, nodes, context := scope.context }
  ({ d with scopes := d.scopes.push found }).updateScope id fun scope =>
    { scope with children := scope.children ++ [(selector, child)] }

/-- Log a mutation on `scope` under the next slot of its context. -/
def withLogged (d : Declarations) (id : ScopeId) (scope : Scope) (mutation : Mutation) :
    Declarations :=
  let slot := d.nextSlot scope.context
  let counted := { d with contexts := d.contexts.modify scope.context.index fun context =>
    { context with slotCount := context.slotCount + 1 } }
  let logged := counted.updateScope id fun scope => scope.record mutation slot
  { logged with index := logged.index.addAll id scope.nodes, isDirty := true }

/-- Make the context of the repeated region over `scope`. -/
def withRegion (d : Declarations) (id : ScopeId) (scope : Scope) : Declarations :=
  (d.register scope.nodes).2.updateScope id fun scope =>
    { scope with nested := some ⟨d.contexts.size⟩ }

/-- What one operation does to declarations. -/
inductive Step (d : Declarations) : Declarations → Prop where
  | same : Step d d
  | found {id : ScopeId} {scope : Scope} (selector : String) (nodes : List NodeId)
      (h : d.scope? id = some scope) : Step d (d.withFound id scope selector nodes)
  | logged {id : ScopeId} {scope : Scope} (mutation : Mutation) (h : d.scope? id = some scope)
      (hnew : scope.slot? mutation = none) : Step d (d.withLogged id scope mutation)
  | entered {id : ScopeId} {scope : Scope} (h : d.scope? id = some scope)
      (hnew : scope.nested = none) : Step d (d.withRegion id scope)

theorem step_resolve (d : Declarations) (id : ScopeId) (selector : String) :
    d.Step (d.resolve id selector).2 := by
  unfold resolve
  split
  · exact .same
  next scope h =>
    split
    · exact .same
    · split
      · exact .same
      · exact .found selector _ h

theorem step_log (d : Declarations) (id : ScopeId) (mutation : Mutation) :
    d.Step (d.log id mutation).2 := by
  unfold log
  split
  · exact .same
  next scope h =>
    split
    · exact .same
    next hnew => exact .logged mutation h hnew

theorem log_of_slot?_eq_none {mutation : Mutation} (h : d.scope? id = some scope)
    (hnew : scope.slot? mutation = none) :
    (d.log id mutation).2 = d.withLogged id scope mutation := by
  simp only [log, h, hnew, withLogged]

theorem step_nest (d : Declarations) (id : ScopeId) : d.Step (d.nest id).2 := by
  unfold nest
  split
  · exact .same
  next scope h =>
    split
    · exact .same
    next hnew => exact .entered h hnew

/-! ## Scopes after a change -/

section Scopes

variable {s : Scope} {selector : String} {nodes : List NodeId} {mutation : Mutation}

/-- A scope after a selector was resolved is the new one or was there before. -/
theorem of_scope?_withFound (hs : (d.withFound id scope selector nodes).scope? i = some s) :
    ∃ old children, (d.scope? i = some old ∨
        i = ⟨d.scopes.size⟩ ∧ old = { id := i, nodes, context := scope.context }) ∧
      s = { old with children } := by
  rw [withFound, scope?_updateScope, scope?_push, Option.map_eq_some_iff] at hs
  obtain ⟨old, hold, hold'⟩ := hs
  refine ⟨old, s.children, ?_, by subst hold'; split <;> rfl⟩
  split at hold
  next hi =>
    obtain ⟨index⟩ := i
    cases hi
    exact .inr ⟨rfl, (Option.some.inj hold).symm⟩
  next => exact .inl hold

/-- A scope after a mutation was logged was there before; the log of one has grown. -/
theorem of_scope?_withLogged (hs : (d.withLogged id scope mutation).scope? i = some s) :
    ∃ old, d.scope? i = some old ∧
      s = { old with
        log := if i = id then old.log ++ [⟨mutation, d.nextSlot scope.context⟩] else old.log
        slots := if i = id then (mutation, d.nextSlot scope.context) :: old.slots
          else old.slots } := by
  have hs' : (d.updateScope id fun scope' =>
      scope'.record mutation (d.nextSlot scope.context)).scope? i = some s := hs
  rw [scope?_updateScope, Option.map_eq_some_iff] at hs'
  obtain ⟨old, hold, rfl⟩ := hs'
  exact ⟨old, hold, by split <;> rfl⟩

/-- What is in a log after a mutation was logged was there before or is the one new entry. -/
theorem of_mem_log_withLogged {logged : LoggedMutation} (hid : d.scope? id = some scope)
    (hs : (d.withLogged id scope mutation).scope? i = some s) (hlogged : logged ∈ s.log) :
    ∃ old, d.scope? i = some old ∧ s.context = old.context ∧ s.nested = old.nested ∧
      (logged ∈ old.log ∨
        i = id ∧ old = scope ∧ logged = ⟨mutation, d.nextSlot scope.context⟩) := by
  obtain ⟨old, hold, rfl⟩ := of_scope?_withLogged hs
  refine ⟨old, hold, rfl, rfl, ?_⟩
  dsimp only at hlogged
  split at hlogged
  next hi =>
    subst hi
    obtain rfl := Option.some.inj (hold.symm.trans hid)
    refine (List.mem_append.mp hlogged).imp_right fun hnew => ?_
    exact ⟨rfl, rfl, List.mem_singleton.mp hnew⟩
  next => exact .inl hlogged

/-- A scope after a repeated region was entered is the one over the region or was
    there before; one of them has the new context nested. -/
theorem of_scope?_withRegion (hs : (d.withRegion id scope).scope? i = some s) :
    ∃ old, (d.scope? i = some old ∨
        i = ⟨d.scopes.size⟩ ∧
          old = { id := i, nodes := scope.nodes, context := ⟨d.contexts.size⟩ }) ∧
      s = { old with nested := if i = id then some ⟨d.contexts.size⟩ else old.nested } := by
  let region : Scope :=
    { id := ⟨d.scopes.size⟩, nodes := scope.nodes, context := ⟨d.contexts.size⟩ }
  have hs' : (({ d with scopes := d.scopes.push region } : Declarations).updateScope id fun s =>
      { s with nested := some ⟨d.contexts.size⟩ }).scope? i = some s := hs
  rw [scope?_updateScope, scope?_push, Option.map_eq_some_iff] at hs'
  obtain ⟨old, hold, rfl⟩ := hs'
  refine ⟨old, ?_, by split <;> rfl⟩
  split at hold
  next hi =>
    obtain ⟨index⟩ := i
    cases hi
    exact .inr ⟨rfl, (Option.some.inj hold).symm⟩
  next => exact .inl hold

/-- A context that is nested after a repeated region was entered was nested before or is
    that of the region. -/
theorem of_nested_withRegion (hid : d.scope? id = some scope)
    (hs : (d.withRegion id scope).scope? i = some s) (hc : s.nested = some c) :
    (i = id ∧ s.context = scope.context ∧ s.nodes = scope.nodes ∧ c = ⟨d.contexts.size⟩) ∨
      ∃ old, d.scope? i = some old ∧ s.context = old.context ∧ s.nodes = old.nodes ∧
        old.nested = some c := by
  obtain ⟨old, hold | ⟨hi, rfl⟩, rfl⟩ := of_scope?_withRegion hs
  · by_cases hi : i = id
    · subst hi
      obtain rfl := Option.some.inj (hold.symm.trans hid)
      obtain rfl := Option.some.inj ((if_pos rfl).symm.trans hc)
      exact .inl ⟨rfl, rfl, rfl, rfl⟩
    · exact .inr ⟨old, hold, rfl, rfl, (if_neg hi).symm.trans hc⟩
  · have hne : i ≠ id := by
      rintro rfl
      exact absurd (lt_of_scope? hid) (by simp [hi])
    cases (if_neg hne).symm.trans hc

/-- Resolving a selector changes no scope but for the selectors resolved. -/
theorem scope?_withFound (id : ScopeId) (scope : Scope) (selector : String) (nodes : List NodeId)
    (hs : d.scope? i = some s) :
    ∃ children, (d.withFound id scope selector nodes).scope? i = some { s with children } := by
  have hlt : i.index ≠ d.scopes.size := Nat.ne_of_lt (lt_of_scope? hs)
  rw [withFound, scope?_updateScope, scope?_push, if_neg hlt, hs, Option.map_some]
  split
  · exact ⟨_, rfl⟩
  · exact ⟨_, rfl⟩

theorem scope?_withLogged (id : ScopeId) (scope : Scope) (mutation : Mutation)
    (hs : d.scope? i = some s) :
    (d.withLogged id scope mutation).scope? i = some { s with
      log := if i = id then s.log ++ [⟨mutation, d.nextSlot scope.context⟩] else s.log
      slots := if i = id then (mutation, d.nextSlot scope.context) :: s.slots
        else s.slots } := by
  have hupdate : (d.withLogged id scope mutation).scope? i =
      (d.updateScope id fun s => s.record mutation (d.nextSlot scope.context)).scope? i := rfl
  rw [hupdate, scope?_updateScope, hs, Option.map_some]
  split <;> rfl

theorem scope?_withRegion (id : ScopeId) (scope : Scope) (hs : d.scope? i = some s) :
    (d.withRegion id scope).scope? i =
      some { s with nested := if i = id then some ⟨d.contexts.size⟩ else s.nested } := by
  have hlt : i.index ≠ d.scopes.size := Nat.ne_of_lt (lt_of_scope? hs)
  have hpush : (d.register scope.nodes).2.scope? i = d.scope? i :=
    (scope?_push d _ i).trans (if_neg hlt)
  rw [withRegion, scope?_updateScope, hpush, hs, Option.map_some]
  split <;> rfl

end Scopes

/-! ## The index after a change -/

theorem scopes_withLogged (d : Declarations) (id : ScopeId) (scope : Scope) (mutation : Mutation)
    (node : NodeId) : (d.withLogged id scope mutation).index.scopes node =
      if node ∈ scope.nodes ∧ id ∉ d.index.scopes node then d.index.scopes node ++ [id]
      else d.index.scopes node := MutationIndex.scopes_addAll ..

theorem mem_scopes_withLogged {mutation : Mutation} {node : NodeId} :
    i ∈ (d.withLogged id scope mutation).index.scopes node ↔
      i ∈ d.index.scopes node ∨ i = id ∧ node ∈ scope.nodes := by
  rw [scopes_withLogged]
  split
  next hnew => simp [hnew.1]
  next hold =>
    refine ⟨.inl, ?_⟩
    rintro (hmem | ⟨rfl, hnode⟩)
    · exact hmem
    · exact Classical.not_not.mp fun hmem => hold ⟨hnode, hmem⟩

/-! ## Contexts after a change -/

theorem context?_withLogged (d : Declarations) (id : ScopeId) (scope : Scope)
    (mutation : Mutation) (c : ContextId) :
    (d.withLogged id scope mutation).context? c =
      (d.context? c).map fun context =>
        if c = scope.context then { context with slotCount := context.slotCount + 1 }
        else context := by
  have hmodify : (d.withLogged id scope mutation).context? c =
      (d.contexts.modify scope.context.index fun context =>
        { context with slotCount := context.slotCount + 1 })[c.index]? := rfl
  rw [hmodify, Array.getElem?_modify]
  simp only [ContextId.index_inj, eq_comm (a := scope.context), context?]
  split <;> simp

theorem context?_withRegion (d : Declarations) (id : ScopeId) (scope : Scope) (c : ContextId) :
    (d.withRegion id scope).context? c =
      if c.index = d.contexts.size then
        some { id := ⟨d.contexts.size⟩, scope := ⟨d.scopes.size⟩ }
      else d.context? c :=
  Array.getElem?_push

theorem of_context?_withRegion {x : Context} (hx : (d.withRegion id scope).context? c = some x) :
    d.context? c = some x ∨
      c = ⟨d.contexts.size⟩ ∧ x = { id := ⟨d.contexts.size⟩, scope := ⟨d.scopes.size⟩ } := by
  rw [context?_withRegion] at hx
  split at hx
  next hc => exact .inr ⟨ContextId.index_inj.mp hc, (Option.some.inj hx).symm⟩
  next => exact .inl hx

theorem nextSlot_withLogged (d : Declarations) (id : ScopeId) {scope : Scope}
    (mutation : Mutation) (hcontext : ∃ x, d.context? scope.context = some x) (c : ContextId) :
    (d.withLogged id scope mutation).nextSlot c =
      if c = scope.context then d.nextSlot c + 1 else d.nextSlot c := by
  obtain ⟨x, hx⟩ := hcontext
  rw [nextSlot, context?_withLogged]
  by_cases hc : c = scope.context
  · simp [hc, hx, nextSlot]
  · simp [hc, nextSlot]

/-- A new context has no slots. -/
theorem nextSlot_withRegion (d : Declarations) (id : ScopeId) (scope : Scope) (c : ContextId) :
    (d.withRegion id scope).nextSlot c = d.nextSlot c := by
  rw [nextSlot, context?_withRegion]
  split
  next hc =>
    have hnone : d.context? c = none := Array.getElem?_eq_none (Nat.le_of_eq hc.symm)
    simp [nextSlot, hnone]
  next => rfl

theorem context?_withRegion_of_some {x : Context} (id : ScopeId) (scope : Scope)
    (hx : d.context? c = some x) : (d.withRegion id scope).context? c = some x := by
  rw [context?_withRegion, if_neg (Nat.ne_of_lt (lt_of_context? hx)), hx]

end Declarations

end HtmlTemplate
