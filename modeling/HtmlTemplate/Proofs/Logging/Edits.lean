-- SUMMARY: What the edits of nodes are in later declarations.
import HtmlTemplate.Proofs.Declarations.Edits
import HtmlTemplate.Proofs.Declarations.Extends
import Mathlib.Data.List.Forall2

/-!
# The edits of later declarations

Declarations grow while mutations are logged and regions are entered. The edits of a
node are kept then, in their order, and new ones come in between. What else changes in
an edit are the parameters of a repetition: a region has more slots, or a repetition
without a region has got one.
-/

namespace HtmlTemplate

/-- What has changed between declarations and later ones, and what is known of the
    frames that are bound. -/
structure Growth where
  /-- The edits that have come in. -/
  IsNew : Edit → Prop
  /-- The repetitions that had no region and have one now, with its parameters. -/
  Opens : Var → Parameters → Prop
  IsFrame : ContextId → Frame → Prop

namespace Edit

variable {growth : Growth}

/-- `second` is `first`, or repeats over the same region with more slots, or over one
    where `first` had none. -/
inductive Widens (growth : Growth) : Edit → Edit → Prop where
  | same (edit : Edit) : Widens growth edit edit
  | region {first second : Parameters} (var : Var) (hcontext : second.context = first.context)
      (harity : first.arity ≤ second.arity) :
      Widens growth ⟨.repetition (some first), var⟩ ⟨.repetition (some second), var⟩
  | opened {parameters : Parameters} {var : Var} (hopens : growth.Opens var parameters) :
      Widens growth ⟨.repetition none, var⟩ ⟨.repetition (some parameters), var⟩

/-- The second list has the edits of the first, widened, and between them new ones. -/
inductive Grown (growth : Growth) : List Edit → List Edit → Prop where
  | nil : Grown growth [] []
  | keep {first second : Edit} {edits edits' : List Edit} (hedit : first.Widens growth second)
      (hrest : Grown growth edits edits') : Grown growth (first :: edits) (second :: edits')
  | add {new : Edit} {edits edits' : List Edit} (hnew : growth.IsNew new)
      (hrest : Grown growth edits edits') : Grown growth edits (new :: edits')

namespace Grown

theorem append {first first' second second' : List Edit} (h : Grown growth first first')
    (h' : Grown growth second second') : Grown growth (first ++ second) (first' ++ second') := by
  induction h with
  | nil => exact h'
  | keep hedit _ ih => exact .keep hedit ih
  | add hnew _ ih => exact .add hnew ih

theorem flatMap {α : Type} {f g : α → List Edit} {items : List α}
    (h : ∀ item ∈ items, Grown growth (f item) (g item)) :
    Grown growth (items.flatMap f) (items.flatMap g) := by
  induction items with
  | nil => exact .nil
  | cons item rest ih =>
    rw [List.forall_mem_cons] at h
    exact h.1.append (ih h.2)

theorem of_forall₂ {edits edits' : List Edit} (h : List.Forall₂ (Widens growth) edits edits') :
    Grown growth edits edits' := by
  induction h with
  | nil => exact .nil
  | cons hedit _ ih => exact .keep hedit ih

theorem of_new {edits : List Edit} (h : ∀ edit ∈ edits, growth.IsNew edit) :
    Grown growth [] edits := by
  induction edits with
  | nil => exact .nil
  | cons edit rest ih =>
    rw [List.forall_mem_cons] at h
    exact .add h.1 (ih h.2)

end Grown

end Edit

namespace Declarations

variable {d d' : Declarations} {IsFrame : ContextId → Frame → Prop}

/-- The edits of one scope. -/
def editsOf (d : Declarations) (i : ScopeId) : List Edit :=
  match d.scope? i with
  | some scope => scope.log.filterMap (d.edit? scope)
  | none => []

theorem edits_eq_flatMap_editsOf (d : Declarations) (node : NodeId) :
    d.edits node = (d.index.scopes node).flatMap d.editsOf := by
  rw [edits_eq_flatMap, touching]
  induction d.index.scopes node with
  | nil => rfl
  | cons i rest ih =>
    rw [List.filterMap_cons, List.flatMap_cons, ← ih, editsOf]
    cases d.scope? i <;> rfl

/-- What has changed from `d` to `d'`. New edits have slots that `d` did not have. -/
def growth (d d' : Declarations) (IsFrame : ContextId → Frame → Prop) : Growth where
  IsNew edit := (∃ node, edit ∈ d'.edits node) ∧ d.nextSlot edit.var.context ≤ edit.var.slot
  Opens var parameters := ∃ i s t logged c, d.scope? i = some s ∧ d'.scope? i = some t ∧
    s.nested = none ∧ t.nested = some c ∧ logged ∈ s.log ∧
    logged.mutation = { kind := Mutation.repeatEach } ∧ var = s.var logged ∧
    parameters = d'.loopParameters c
  IsFrame := IsFrame

namespace Extends

variable {i : ScopeId} {s t : Scope} {logged : LoggedMutation} {node : NodeId} {edit : Edit}

theorem widens_edit? (h : d.Extends d') (hd : d.WellFormed) (hd' : d'.WellFormed)
    (hs : d.scope? i = some s) (ht : d'.scope? i = some t) (hlogged : logged ∈ s.log) :
    Option.Rel (Edit.Widens (d.growth d' IsFrame)) (d.edit? s logged) (d'.edit? t logged) := by
  obtain ⟨-, hcontext, hnested, -⟩ := h.of_scope? hs ht
  have hvar : t.var logged = s.var logged := by simp only [Scope.var, hcontext]
  rw [hd.edit?_eq hs, hd'.edit?_eq ht, hvar]
  by_cases hrepeat : logged.mutation = { kind := Mutation.repeatEach }
  · rw [Mutation.change?_eq_repetition.mpr ⟨hrepeat, rfl⟩,
      Mutation.change?_eq_repetition.mpr ⟨hrepeat, rfl⟩]
    cases hs_nested : s.nested with
    | some c =>
      rw [hnested c hs_nested]
      exact .some (.region _ rfl (h.slots c))
    | none =>
      cases ht_nested : t.nested with
      | none => exact .some (.same _)
      | some c =>
        exact .some (.opened ⟨i, s, t, logged, c, hs, ht, hs_nested, ht_nested, hlogged, hrepeat,
          rfl, rfl⟩)
  · rw [Mutation.change?_congr hrepeat (t.nested.map d'.loopParameters)
      (s.nested.map d.loopParameters)]
    cases logged.mutation.change? (s.nested.map d.loopParameters) with
    | none => exact .none
    | some change => exact .some (.same _)

/-- The edits of mutations with new slots are new. -/
theorem isNew_of_mem (hi : i ∈ d'.index.scopes node) (ht : d'.scope? i = some t)
    {more : List LoggedMutation} (hmore : ∀ logged ∈ more, logged ∈ t.log)
    (hslots : ∀ logged ∈ more, d.nextSlot t.context ≤ logged.slot)
    (hedit : edit ∈ more.filterMap (d'.edit? t)) : (d.growth d' IsFrame).IsNew edit := by
  obtain ⟨logged, hlogged, hedit⟩ := List.mem_filterMap.mp hedit
  refine ⟨⟨node, ?_⟩, ?_⟩
  · rw [edits_eq_flatMap_editsOf, List.mem_flatMap]
    refine ⟨i, hi, ?_⟩
    rw [editsOf, ht]
    exact List.mem_filterMap.mpr ⟨logged, hmore logged hlogged, hedit⟩
  · obtain ⟨change, -, rfl⟩ := Option.map_eq_some_iff.mp hedit
    exact hslots logged hlogged

/-- The edits of a scope that mutated the node before, and may mutate it otherwise now. -/
theorem grown_editsOf (h : d.Extends d') (hd : d.WellFormed) (hd' : d'.WellFormed)
    (hi : i ∈ d'.index.scopes node) (hs : d.scope? i = some s) :
    Edit.Grown (d.growth d' IsFrame) (d.editsOf i) (d'.editsOf i) := by
  obtain ⟨t, more, ht, -, hcontext, -, hlog, hslots⟩ := h.scope hs
  have hkept : List.Forall₂ (Edit.Widens (d.growth d' IsFrame)) (s.log.filterMap (d.edit? s))
      (s.log.filterMap (d'.edit? t)) := by
    have hsame : List.Forall₂ (fun l m => l = m ∧ l ∈ s.log) s.log s.log :=
      List.forall₂_same.mpr fun l hl => ⟨rfl, hl⟩
    refine List.rel_filterMap ?_ hsame
    rintro l _ ⟨rfl, hl⟩
    exact h.widens_edit? hd hd' hs ht hl
  have hnew : Edit.Grown (d.growth d' IsFrame) [] (more.filterMap (d'.edit? t)) := by
    refine .of_new fun edit hedit => isNew_of_mem hi ht (fun l hl => ?_) (hcontext ▸ hslots) hedit
    exact hlog ▸ List.mem_append_right s.log hl
  simp only [editsOf, hs, ht, hlog, List.filterMap_append]
  rw [← List.append_nil (s.log.filterMap (d.edit? s))]
  exact (Edit.Grown.of_forall₂ hkept).append hnew

/-- The edits of a scope that did not mutate the node before. -/
theorem grown_nil_editsOf (h : d.Extends d') (hd : d.WellFormed) (hd' : d'.WellFormed)
    (hi : i ∈ d'.index.scopes node) (hnot : i ∉ d.index.scopes node) :
    Edit.Grown (d.growth d' IsFrame) [] (d'.editsOf i) := by
  obtain ⟨t, ht, -, hnode⟩ := hd'.mem_index.mp hi
  have hslots : ∀ logged ∈ t.log, d.nextSlot t.context ≤ logged.slot := by
    intro logged hlogged
    refine (h.of_mem_log ht hlogged).resolve_left ?_
    rintro ⟨s, hs, hlogged⟩
    obtain ⟨hnodes, -⟩ := h.of_scope? hs ht
    exact hnot (hd.mem_index.mpr ⟨s, hs, List.ne_nil_of_mem hlogged, hnodes ▸ hnode⟩)
  simp only [editsOf, ht]
  exact .of_new fun edit hedit => isNew_of_mem hi ht (fun _ => id) hslots hedit

/-- The edits of every node are kept and grow by new ones. -/
theorem grown_edits (h : d.Extends d') (hd : d.WellFormed) (hd' : d'.WellFormed)
    (IsFrame : ContextId → Frame → Prop) (node : NodeId) :
    Edit.Grown (d.growth d' IsFrame) (d.edits node) (d'.edits node) := by
  obtain ⟨more, hindex, hmore⟩ := h.index node
  have hlater {i : ScopeId} (hi : i ∈ d.index.scopes node ∨ i ∈ more) :
      i ∈ d'.index.scopes node := hindex ▸ List.mem_append.mpr hi
  rw [edits_eq_flatMap_editsOf, edits_eq_flatMap_editsOf, hindex, List.flatMap_append,
    ← List.append_nil (List.flatMap _ _)]
  refine Edit.Grown.append (.flatMap fun i hi => ?_) ?_
  · obtain ⟨s, hs, -⟩ := hd.mem_index.mp hi
    exact h.grown_editsOf hd hd' (hlater (.inl hi)) hs
  · have hnone : more.flatMap (fun _ => ([] : List Edit)) = [] := by simp
    rw [← hnone]
    exact .flatMap fun i hi => h.grown_nil_editsOf hd hd' (hlater (.inr hi)) (hmore i hi)

end Extends

end Declarations

end HtmlTemplate
