-- SUMMARY: The edits of a node in terms of the scopes that mutate it.
import HtmlTemplate.Proofs.Declarations.WellFormed
import HtmlTemplate.Proofs.Edits

/-!
# The edits of a node

In well-formed declarations the edits of a node can be read off its scopes: each
logged mutation is one edit, and a repetition has the parameters of the region that
is nested in its scope.
-/

namespace HtmlTemplate

/-- The variable of a mutation that is logged on a scope. -/
def Scope.var (scope : Scope) (logged : LoggedMutation) : Var := ⟨scope.context, logged.slot⟩

namespace Declarations

variable {d : Declarations} {id : NodeId} {i : ScopeId} {scope : Scope} {logged : LoggedMutation}

theorem edits_eq_flatMap (d : Declarations) (id : NodeId) :
    d.edits id = (d.touching id).flatMap fun scope => scope.log.filterMap (d.edit? scope) := by
  simp only [edits, mutationsOf, List.filterMap_flatMap, List.filterMap_map]
  rfl

/-- The parameters of the repetition over a region. -/
def loopParameters (d : Declarations) (context : ContextId) : Parameters :=
  ⟨context, d.nextSlot context, false⟩

namespace WellFormed

theorem mem_touching (h : d.WellFormed) :
    scope ∈ d.touching id ↔
      ∃ i, d.scope? i = some scope ∧ scope.log ≠ [] ∧ id ∈ scope.nodes := by
  simp only [touching, List.mem_filterMap, h.mem_index]
  constructor
  · rintro ⟨i, ⟨s, hs, hlog, hnode⟩, hscope⟩
    obtain rfl := Option.some.inj (hs.symm.trans hscope)
    exact ⟨i, hs, hlog, hnode⟩
  · rintro ⟨i, hs, hlog, hnode⟩
    exact ⟨i, ⟨scope, hs, hlog, hnode⟩, hs⟩

theorem loopParameters?_eq (h : d.WellFormed) (hs : d.scope? i = some scope) :
    (Site.mk d scope).loopParameters? = scope.nested.map d.loopParameters := by
  unfold Site.loopParameters?
  cases hnested : scope.nested with
  | none => rfl
  | some c =>
    obtain ⟨-, x, hx⟩ := h.nested_of hs hnested
    simp only [Option.bind_some, hx, Option.map_some, Context.loopParameters, loopParameters,
      nextSlot, h.context_id hx, Option.getD_some]

theorem edit?_eq (h : d.WellFormed) (hs : d.scope? i = some scope) (logged : LoggedMutation) :
    d.edit? scope logged =
      (logged.mutation.change? (scope.nested.map d.loopParameters)).map fun change =>
        ⟨change, scope.var logged⟩ := by
  rw [edit?, h.loopParameters?_eq hs]
  rfl

theorem mem_edits (h : d.WellFormed) {edit : Edit} :
    edit ∈ d.edits id ↔ ∃ i scope logged, d.scope? i = some scope ∧ scope ∈ d.touching id ∧
      logged ∈ scope.log ∧ edit.var = scope.var logged ∧
      logged.mutation.change? (scope.nested.map d.loopParameters) = some edit.change := by
  rw [edits_eq_flatMap]
  simp only [List.mem_flatMap, List.mem_filterMap]
  constructor
  · rintro ⟨scope, hscope, logged, hlogged, hedit⟩
    obtain ⟨i, hs, -⟩ := h.mem_touching.mp hscope
    rw [h.edit?_eq hs, Option.map_eq_some_iff] at hedit
    obtain ⟨change, hchange, rfl⟩ := hedit
    exact ⟨i, scope, logged, hs, hscope, hlogged, rfl, hchange⟩
  · rintro ⟨i, scope, logged, hs, hscope, hlogged, hvar, hchange⟩
    refine ⟨scope, hscope, logged, hlogged, ?_⟩
    rw [h.edit?_eq hs, hchange, Option.map_some, ← hvar]

/-- The owner of the variable of a logged mutation is that mutation. -/
theorem owner?_var (h : d.WellFormed) (hs : d.scope? i = some scope)
    (hlogged : logged ∈ scope.log) :
    d.owner? (scope.var logged) = some (scope, logged) := by
  have hscope : scope ∈ d.scopes.toList.filter (·.context == scope.context) := by
    simpa using Array.mem_of_getElem? hs
  unfold owner?
  cases howner : (d.scopes.toList.filter (·.context == (scope.var logged).context)).findSome?
      fun s => (s.log.find? (·.slot == (scope.var logged).slot)).map fun l => (s, l) with
  | none =>
    have hnone := List.findSome?_eq_none_iff.mp howner scope hscope
    rw [Option.map_eq_none_iff, List.find?_eq_none] at hnone
    exact absurd (beq_self_eq_true _) (hnone logged hlogged)
  | some owner =>
    obtain ⟨s, hmem, hfound⟩ := List.exists_of_findSome?_eq_some howner
    obtain ⟨l, hl, rfl⟩ := Option.map_eq_some_iff.mp hfound
    rw [List.mem_filter, beq_iff_eq] at hmem
    obtain ⟨index, hindex⟩ := Array.getElem?_of_mem (Array.mem_toList_iff.mp hmem.1)
    obtain ⟨rfl, rfl⟩ := h.slot_inj (i := ⟨index⟩) hindex hs hmem.2 (List.mem_of_find?_eq_some hl)
      hlogged (by simpa [Scope.var] using List.find?_some hl)
    rw [Option.some.inj (hindex.symm.trans hs)]

end WellFormed

end Declarations

end HtmlTemplate
