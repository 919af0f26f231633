-- SUMMARY: The order in which the mutations of a node are applied, told from the history of a document.
import HtmlTemplate.Proofs.Declarations.Edits
import HtmlTemplate.Proofs.Operations
import Mathlib.Data.List.Induction

/-!
# The order of mutations

The mutations of a node are applied scope by scope. Scopes come in the order in which
something was first logged on them, and the mutations of one scope in the order of
its log. `Document.AppliedBefore` says so in terms of the operations that were
performed, without the index.
-/

namespace HtmlTemplate

theorem Declarations.WellFormed.mem_mutationsOf {d : Declarations} (h : d.WellFormed)
    {node : NodeId} {pair : Scope × LoggedMutation} : pair ∈ d.mutationsOf node ↔
      (∃ i, d.scope? i = some pair.1) ∧ node ∈ pair.1.nodes ∧ pair.2 ∈ pair.1.log := by
  obtain ⟨scope, logged⟩ := pair
  simp only [mutationsOf, List.mem_flatMap, h.mem_touching, List.mem_map, Prod.mk.injEq]
  constructor
  · rintro ⟨s, ⟨i, hs, -, hnode⟩, l, hl, rfl, rfl⟩
    exact ⟨⟨i, hs⟩, hnode, hl⟩
  · rintro ⟨⟨i, hs⟩, hnode, hl⟩
    exact ⟨scope, ⟨i, hs, List.ne_nil_of_mem hl, hnode⟩, logged, hl, rfl, rfl⟩

namespace Document

variable {doc doc' : Document} {operations : List Operation} {id : ScopeId}

/-- Something is logged on the scope. -/
def HasLogged (doc : Document) (id : ScopeId) : Prop :=
  ∃ scope, doc.declarations.scope? id = some scope ∧ scope.log ≠ []

/-- After some of the operations something was logged on the first scope and nothing on
    the second. -/
def LogsFirst (doc : Document) (operations : List Operation) (first second : ScopeId) : Prop :=
  ∃ done rest, operations = done ++ rest ∧
    (doc.run done).HasLogged first ∧ ¬ (doc.run done).HasLogged second

/-- The first of two logged mutations comes before the second: something was logged on
    its scope before, or it is the earlier one in the log of one scope. -/
def AppliedBefore (doc : Document) (operations : List Operation)
    (first second : Scope × LoggedMutation) : Prop :=
  doc.LogsFirst operations first.1.id second.1.id ∨
    first.1 = second.1 ∧ [first.2, second.2].Sublist first.1.log

/-! ## What is logged stays logged -/

theorem HasLogged.step (h : doc.HasLogged id) (hstep : doc.Step doc') : doc'.HasLogged id := by
  obtain ⟨scope, hs, hlog⟩ := h
  cases hstep with
  | same => exact ⟨scope, hs, hlog⟩
  | rebuilt => exact ⟨scope, hs, hlog⟩
  | declared hd =>
    cases hd with
    | same => exact ⟨scope, hs, hlog⟩
    | found selector nodes hid =>
      obtain ⟨children, hs'⟩ := Declarations.scope?_withFound _ _ selector nodes hs
      exact ⟨_, hs', hlog⟩
    | logged mutation hid =>
      refine ⟨_, Declarations.scope?_withLogged _ _ mutation hs, ?_⟩
      dsimp only
      split
      · exact List.append_ne_nil_of_left_ne_nil hlog _
      · exact hlog
    | entered hid => exact ⟨_, Declarations.scope?_withRegion _ _ hs, hlog⟩

theorem HasLogged.run (h : doc.HasLogged id) (operations : List Operation) :
    (doc.run operations).HasLogged id :=
  run_induction (P := fun doc => doc.HasLogged id) HasLogged.step h operations

theorem LogsFirst.append {first second : ScopeId} (h : doc.LogsFirst operations first second)
    (more : List Operation) : doc.LogsFirst (operations ++ more) first second := by
  obtain ⟨done, rest, rfl, hfirst, hsecond⟩ := h
  exact ⟨done, rest ++ more, List.append_assoc _ _ _, hfirst, hsecond⟩

theorem LogsFirst.asymm {first second : ScopeId} (h : doc.LogsFirst operations first second) :
    ¬ doc.LogsFirst operations second first := by
  obtain ⟨done, rest, heq, hfirst, hsecond⟩ := h
  rintro ⟨done', rest', heq', hsecond', hfirst'⟩
  -- One of the two moments comes first, and what was logged then is still logged.
  rcases List.append_eq_append_iff.mp (heq.symm.trans heq') with ⟨more, rfl, -⟩ | ⟨more, rfl, -⟩
  · exact hfirst' (run_append doc done more ▸ hfirst.run more)
  · exact hsecond (run_append doc done' more ▸ hsecond'.run more)

/-! ## The order of one node -/

section Run

variable (tree : Tree) (compiler : Compiler) (optimizing : Bool)

/-- The index has scopes in the order in which they first logged something. -/
theorem pairwise_scopes (operations : List Operation) (node : NodeId) :
    (((ofTree tree compiler optimizing).run operations).declarations.index.scopes node).Pairwise
      ((ofTree tree compiler optimizing).LogsFirst operations) := by
  induction operations using List.reverseRecOn with
  | nil => exact .nil
  | append_singleton operations operation ih =>
    have hd := wellFormed_run tree compiler optimizing operations
    have hstep := ((ofTree tree compiler optimizing).run operations).step_perform operation
    have hlater := ih.imp fun h => h.append [operation]
    rw [run_concat]
    generalize ((ofTree tree compiler optimizing).run operations).perform operation = next at hstep
    cases hstep with
    | same => exact hlater
    | rebuilt => exact hlater
    | declared hdeclared =>
      cases hdeclared with
      | same => exact hlater
      | found => exact hlater
      | entered => exact hlater
      | @logged id scope mutation hid =>
        rw [Declarations.scopes_withLogged]
        split
        next hnew =>
          refine List.pairwise_append.mpr ⟨hlater, by simp, fun first hfirst second hsecond => ?_⟩
          obtain rfl := List.mem_singleton.mp hsecond
          obtain ⟨s, hs, hlog, -⟩ := hd.mem_index.mp hfirst
          refine ⟨operations, [operation], rfl, ⟨s, hs, hlog⟩, ?_⟩
          rintro ⟨t, ht, htlog⟩
          obtain rfl := Option.some.inj (ht.symm.trans hid)
          exact hnew.2 (hd.mem_index.mpr ⟨t, ht, htlog, hnew.1⟩)
        next => exact hlater

/-- The slots of a log are in order. -/
theorem pairwise_log (operations : List Operation) {scope : Scope}
    (hs : ((ofTree tree compiler optimizing).run operations).declarations.scope? id = some scope) :
    scope.log.Pairwise fun first second => first.slot < second.slot := by
  induction operations using List.reverseRecOn generalizing id scope with
  | nil =>
    obtain ⟨-, rfl⟩ := Declarations.of_scope?_start hs
    exact .nil
  | append_singleton operations operation ih =>
    have hd := wellFormed_run tree compiler optimizing operations
    have hstep := ((ofTree tree compiler optimizing).run operations).step_perform operation
    rw [run_concat] at hs
    generalize ((ofTree tree compiler optimizing).run operations).perform operation = next
      at hstep hs
    cases hstep with
    | same => exact ih hs
    | rebuilt => exact ih hs
    | declared hdeclared =>
      cases hdeclared with
      | same => exact ih hs
      | found selector nodes hid =>
        obtain ⟨old, children, hold | ⟨-, rfl⟩, rfl⟩ := Declarations.of_scope?_withFound hs
        · exact (ih hold :)
        · exact .nil
      | entered hid =>
        obtain ⟨old, hold | ⟨-, rfl⟩, rfl⟩ := Declarations.of_scope?_withRegion hs
        · exact (ih hold :)
        · exact .nil
      | @logged changed s mutation hid =>
        obtain ⟨old, hold, rfl⟩ := Declarations.of_scope?_withLogged hs
        dsimp only
        split
        next hsame =>
          -- The new slot is the count of the context, which no slot has reached.
          obtain rfl := Option.some.inj ((hsame ▸ hold).symm.trans hid)
          refine List.pairwise_append.mpr ⟨ih hold, by simp, fun first hfirst second hsecond => ?_⟩
          obtain rfl := List.mem_singleton.mp hsecond
          exact hd.slot_lt hold hfirst
        next => exact ih hold

/-- The mutations of a node are listed in the order in which they are applied. -/
theorem pairwise_mutationsOf (operations : List Operation) (node : NodeId) :
    (((ofTree tree compiler optimizing).run operations).declarations.mutationsOf node).Pairwise
      ((ofTree tree compiler optimizing).AppliedBefore operations) := by
  have hd := wellFormed_run tree compiler optimizing operations
  unfold Declarations.mutationsOf Declarations.touching
  rw [List.pairwise_flatMap]
  constructor
  · intro scope hscope
    rw [List.pairwise_map, List.pairwise_iff_forall_sublist]
    exact fun hsublist => .inr ⟨rfl, hsublist⟩
  · rw [List.pairwise_filterMap]
    refine (pairwise_scopes tree compiler optimizing operations node).imp ?_
    rintro i j hlogs s hs t ht _ hfirst _ hsecond
    obtain ⟨l, -, rfl⟩ := List.mem_map.mp hfirst
    obtain ⟨m, -, rfl⟩ := List.mem_map.mp hsecond
    left
    rw [hd.scope_id hs, hd.scope_id ht]
    exact hlogs

variable {tree compiler optimizing}

theorem AppliedBefore.asymm {first second : Scope × LoggedMutation}
    (hs : ((ofTree tree compiler optimizing).run operations).declarations.scope? id =
      some first.1)
    (h : (ofTree tree compiler optimizing).AppliedBefore operations first second) :
    ¬ (ofTree tree compiler optimizing).AppliedBefore operations second first := by
  have hself (i : ScopeId) : ¬ (ofTree tree compiler optimizing).LogsFirst operations i i :=
    fun hlogs => hlogs.asymm hlogs
  rintro (hlogs | ⟨heq, hsublist⟩) <;> rcases h with hlogs' | ⟨heq', hsublist'⟩
  · exact hlogs.asymm hlogs'
  · exact hself _ (heq' ▸ hlogs)
  · exact hself _ (heq ▸ hlogs')
  · have hlog := pairwise_log tree compiler optimizing operations hs
    have hlt := List.pairwise_iff_forall_sublist.mp hlog hsublist'
    have hgt := List.pairwise_iff_forall_sublist.mp hlog (heq ▸ hsublist)
    exact Nat.lt_asymm hlt hgt

/-- What comes after a mutation of a node are the mutations that are applied after it. -/
theorem mem_later_iff {node : NodeId} {first second : Scope × LoggedMutation}
    {later : List (Scope × LoggedMutation)}
    (hlater : first :: later <:+
      ((ofTree tree compiler optimizing).run operations).declarations.mutationsOf node) :
    second ∈ later ↔
      second ∈ ((ofTree tree compiler optimizing).run operations).declarations.mutationsOf node ∧
        (ofTree tree compiler optimizing).AppliedBefore operations first second := by
  have hd := wellFormed_run tree compiler optimizing operations
  have hpairwise := pairwise_mutationsOf tree compiler optimizing operations node
  obtain ⟨before, heq⟩ := hlater
  rw [← heq, List.pairwise_append, List.pairwise_cons] at hpairwise
  obtain ⟨-, ⟨hfirst, -⟩, hbefore⟩ := hpairwise
  have hmem : first ∈ _ := heq ▸ List.mem_append_right before List.mem_cons_self
  obtain ⟨⟨i, hs⟩, -⟩ := hd.mem_mutationsOf.mp hmem
  constructor
  · intro hsecond
    exact ⟨heq ▸ List.mem_append_right before (List.mem_cons_of_mem _ hsecond), hfirst _ hsecond⟩
  · rintro ⟨hsecond, happlied⟩
    rw [← heq, List.mem_append, List.mem_cons] at hsecond
    rcases hsecond with hsecond | rfl | hsecond
    · exact absurd (hbefore _ hsecond _ List.mem_cons_self) (happlied.asymm hs)
    · exact absurd happlied (happlied.asymm hs)
    · exact hsecond

end Run

end Document

end HtmlTemplate
