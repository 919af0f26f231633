-- SUMMARY: Walks along the links come to an end by themselves, and the one through descendants is in pre-order.
import HtmlTemplate.Proofs.Tree.Order

/-!
# Walks that end

The walks of the library are given a limit, so that they answer whatever the links are.
Here the same walks are told without any limit, as relations that hold only of a walk
that comes to an end: `Tree.Siblings` from node to next sibling, `Tree.Outwards` from a
node to its parent until there is a next sibling, and `Tree.Walks` through what is below
a node. None of them can end in two ways. Where links are in order, all of them end, with
the answers of the walks that are given limits; and the descendants of a node are its
children, each followed by its own descendants.
-/

namespace HtmlTemplate

namespace Tree

variable {tree : Tree} {top parent id : NodeId}

/-! ## Walks without limits -/

/-- Going from next sibling to next sibling passes these nodes and ends. -/
inductive Siblings (tree : Tree) : Option NodeId → List NodeId → Prop where
  | done : Siblings tree none []
  | lost {id : NodeId} (hnone : tree.get? id = none) : Siblings tree (some id) []
  | next {id : NodeId} {node : Node} {rest : List NodeId} (hnode : tree.get? id = some node)
      (h : Siblings tree node.nextSibling rest) : Siblings tree (some id) (id :: rest)

/-- Going from a node outwards below `top` ends at the next sibling of the nearest node
    that has one, or without any. -/
inductive Outwards (tree : Tree) (top : NodeId) : NodeId → Option NodeId → Prop where
  | top : Outwards tree top top none
  | lost {id : NodeId} (hne : id ≠ top) (hnone : tree.get? id = none) : Outwards tree top id none
  | sibling {id next : NodeId} {node : Node} (hne : id ≠ top) (hnode : tree.get? id = some node)
      (hnext : node.nextSibling = some next) : Outwards tree top id (some next)
  | parent {id parent : NodeId} {node : Node} {next : Option NodeId} (hne : id ≠ top)
      (hnode : tree.get? id = some node) (hlast : node.nextSibling = none)
      (hparent : node.parent = some parent) (h : Outwards tree top parent next) :
      Outwards tree top id next
  | detached {id : NodeId} {node : Node} (hne : id ≠ top) (hnode : tree.get? id = some node)
      (hlast : node.nextSibling = none) (hparent : node.parent = none) : Outwards tree top id none

/-- What comes after a node in the walk below `top`. -/
inductive Follows (tree : Tree) (top : NodeId) : NodeId → Option NodeId → Prop where
  | lost {id : NodeId} (hnone : tree.get? id = none) : Follows tree top id none
  | child {id child : NodeId} {node : Node} (hnode : tree.get? id = some node)
      (hchild : node.firstChild = some child) : Follows tree top id (some child)
  | outwards {id : NodeId} {node : Node} {next : Option NodeId} (hnode : tree.get? id = some node)
      (hleaf : node.firstChild = none) (h : Outwards tree top id next) : Follows tree top id next

/-- The walk below `top` passes these nodes and ends. -/
inductive Walks (tree : Tree) (top : NodeId) : Option NodeId → List NodeId → Prop where
  | done : Walks tree top none []
  | step {id : NodeId} {next : Option NodeId} {rest : List NodeId}
      (hnext : Follows tree top id next) (h : Walks tree top next rest) :
      Walks tree top (some id) (id :: rest)

/-! ## A walk that ends has one end -/

section Unique

variable {start : Option NodeId}

theorem Siblings.unique {first second : List NodeId} (h : tree.Siblings start first)
    (h' : tree.Siblings start second) : first = second := by
  induction h generalizing second with
  | done =>
    cases h'
    rfl
  | lost hnone =>
    cases h' with
    | lost => rfl
    | next hnode _ => cases hnone.symm.trans hnode
  | next hnode _ ih =>
    cases h' with
    | lost hnone => cases hnone.symm.trans hnode
    | next hnode' h' =>
      obtain rfl := Option.some.inj (hnode.symm.trans hnode')
      rw [ih h']

theorem Outwards.unique {next next' : Option NodeId} (h : tree.Outwards top id next)
    (h' : tree.Outwards top id next') : next = next' := by
  induction h with
  | top => cases h' <;> grind
  | lost hne hnone => cases h' <;> grind
  | sibling hne hnode hnext => cases h' <;> grind
  | parent hne hnode hlast hparent _ ih => cases h' <;> grind
  | detached hne hnode hlast hparent => cases h' <;> grind

theorem Follows.unique {next next' : Option NodeId} (h : tree.Follows top id next)
    (h' : tree.Follows top id next') : next = next' := by
  cases h with
  | lost hnone => cases h' <;> grind
  | child hnode hchild => cases h' <;> grind
  | outwards hnode hleaf h =>
    cases h' with
    | lost hnone => cases hnone.symm.trans hnode
    | child hnode' hchild => grind
    | outwards hnode' hleaf' h' => exact h.unique h'

theorem Walks.unique {first second : List NodeId} (h : tree.Walks top start first)
    (h' : tree.Walks top start second) : first = second := by
  induction h generalizing second with
  | done =>
    cases h'
    rfl
  | step hnext _ ih =>
    cases h' with
    | step hnext' h' =>
      obtain rfl := hnext.unique hnext'
      rw [ih h']

end Unique

/-- The link to the first child, if there is a node. -/
def firstChild? (tree : Tree) (id : NodeId) : Option NodeId := (tree.get? id).bind (·.firstChild)

namespace Linked

variable (h : tree.Linked tree.children)
include h

theorem firstChild?_eq (id : NodeId) : tree.firstChild? id = (tree.children id)[0]? := by
  unfold firstChild?
  cases hid : tree.get? id with
  | none => simp [h.kids_eq_nil hid]
  | some node => exact h.firstChild hid

/-! ## Children -/

theorem siblings_drop (parent : NodeId) {i : Nat} {rest : List NodeId}
    (hrest : (tree.children parent).drop i = rest) :
    tree.Siblings (tree.children parent)[i]? rest := by
  induction rest generalizing i with
  | nil =>
    rw [List.getElem?_eq_none (List.drop_eq_nil_iff.mp hrest)]
    exact .done
  | cons child rest ih =>
    have hi : (tree.children parent)[i]? = some child := by
      rw [← List.head?_drop, hrest, List.head?_cons]
    have hdrop : (tree.children parent).drop (i + 1) = rest := by
      rw [← List.tail_drop, hrest, List.tail_cons]
    obtain ⟨node, hnode⟩ := h.get?_child (List.mem_of_getElem? hi)
    rw [hi]
    exact .next hnode (h.nextSibling hnode hi ▸ ih hdrop)

/-- Going from the first child on ends, after listing the children. -/
theorem siblings_iff {parent : NodeId} {ids : List NodeId} :
    tree.Siblings (tree.firstChild? parent) ids ↔ ids = tree.children parent := by
  have hall : tree.Siblings (tree.firstChild? parent) (tree.children parent) := by
    rw [h.firstChild?_eq]
    exact h.siblings_drop parent (List.drop_zero ..)
  exact ⟨fun hids => hids.unique hall, fun heq => heq ▸ hall⟩

/-! ## Descendants -/

section Walk

variable {above : List NodeId} (htop : ∃ node, tree.get? top = some node)
include htop

/-- Going outwards ends at the top at the latest. -/
theorem outwards (hpath : tree.Path top above id) :
    tree.Outwards top id (tree.nextOutwards top tree.size id) := by
  induction hpath with
  | top =>
    rw [nextOutwards_top]
    exact .top
  | @child above parent id hpath hchild ih =>
    have hne : id ≠ top := by
      rintro rfl
      exact h.not_below_self id (.child hpath.within hchild)
    obtain ⟨i, hi⟩ := List.getElem?_of_mem hchild
    obtain ⟨node, hnode⟩ := h.get?_child hchild
    have hnext := h.nextSibling hnode hi
    rw [h.nextOutwards_size htop hpath hi, ← hnext]
    cases hsibling : node.nextSibling with
    | some next => exact .sibling hne hnode hsibling
    | none => exact .parent hne hnode hsibling ((h.parent hnode).mpr hchild) ih

theorem follows (hpath : tree.Path top above id) (hid : ∃ node, tree.get? id = some node) :
    tree.Follows top id (tree.successor? top id) := by
  obtain ⟨node, hnode⟩ := hid
  simp only [successor?, hnode]
  cases hchild : node.firstChild with
  | some child => exact .child hnode hchild
  | none => exact .outwards hnode hchild (h.outwards htop hpath)

/-- A walk that stops before its limit has come to its end. -/
theorem walks_of_length_lt {limit : Nat} {start : Option NodeId}
    (hstart : ∀ first ∈ start, tree.Below top first)
    (hlength : (tree.descendantsFrom top limit start).length < limit) :
    tree.Walks top start (tree.descendantsFrom top limit start) := by
  induction limit generalizing start with
  | zero => exact absurd hlength (Nat.not_lt_zero _)
  | succ limit ih =>
    cases start with
    | none => exact .done
    | some first =>
      have hfirst := hstart first rfl
      obtain ⟨above, hpath⟩ := hfirst.within.exists_path
      obtain ⟨parent, -, hchild⟩ := below_iff.mp hfirst
      refine .step (h.follows htop hpath (h.get?_child hchild)) (ih ?_ ?_)
      · exact fun next hnext => h.below_of_successor? hfirst.within hnext
      · rw [descendantsFrom, List.length_cons] at hlength
        exact Nat.lt_of_succ_lt_succ hlength

end Walk

theorem nodup_descendants (top : NodeId) : (tree.descendants top).Nodup := by
  refine (h.pairwise_descendants top).imp ?_
  rintro first second hprecedes rfl
  exact h.not_precedes_self first hprecedes

theorem walks_descendants (top : NodeId) :
    tree.Walks top (tree.firstChild? top) (tree.descendants top) := by
  cases htop : tree.get? top with
  | none =>
    simp only [firstChild?, descendants, descendantsWithin, htop]
    exact .done
  | some node =>
    have hwalk : tree.descendants top = tree.descendantsFrom top tree.size node.firstChild := by
      simp only [descendants, descendantsWithin, htop]
    have hstart : tree.firstChild? top = node.firstChild := by
      simp only [firstChild?, htop, Option.bind_some]
    have hfirst : ∀ first ∈ node.firstChild, tree.Below top first := by
      intro first hfirst
      rw [h.firstChild htop] at hfirst
      exact .child .top (List.mem_of_getElem? hfirst)
    rw [hstart, hwalk]
    refine h.walks_of_length_lt ⟨node, htop⟩ hfirst ?_
    rw [← hwalk]
    -- The top is a node of the tree beside its descendants.
    have hnodup : (top :: tree.descendants top).Nodup :=
      List.nodup_cons.mpr ⟨fun hmem => h.not_below_self top (h.mem_descendants.mp hmem),
        h.nodup_descendants top⟩
    refine length_le_size hnodup (List.forall_mem_cons.mpr ⟨⟨node, htop⟩, fun id hid => ?_⟩)
    obtain ⟨parent, -, hchild⟩ := below_iff.mp (h.mem_descendants.mp hid)
    exact h.get?_child hchild

/-- The walk through what is below a node ends, after passing the descendants. -/
theorem walks_iff {ids : List NodeId} :
    tree.Walks top (tree.firstChild? top) ids ↔ ids = tree.descendants top :=
  ⟨fun hids => hids.unique (h.walks_descendants top), fun heq => heq ▸ h.walks_descendants top⟩

/-! ## Pre-order -/

/-- A node and its descendants are in document order. -/
theorem pairwise_cons_descendants (id : NodeId) :
    (id :: tree.descendants id).Pairwise tree.Precedes := by
  refine List.pairwise_cons.mpr ⟨fun other hother => ?_, h.pairwise_descendants id⟩
  exact .inl (h.mem_descendants.mp hother)

theorem mem_cons_descendants {other : NodeId} :
    other ∈ id :: tree.descendants id ↔ tree.Within id other := by
  rw [List.mem_cons, h.mem_descendants]
  refine ⟨?_, Within.eq_or_below⟩
  rintro (rfl | hbelow)
  · exact .top
  · exact hbelow.within

/-- The descendants of a node are its children, each with its own descendants behind it. -/
theorem descendants_eq_flatMap (top : NodeId) :
    tree.descendants top =
      (tree.children top).flatMap fun child => child :: tree.descendants child := by
  have hpairwise : ((tree.children top).flatMap fun child =>
      child :: tree.descendants child).Pairwise tree.Precedes := by
    refine List.pairwise_flatMap.mpr ⟨fun child _ => h.pairwise_cons_descendants child, ?_⟩
    refine List.pairwise_iff_forall_sublist.mpr ?_
    intro a b hsiblings first hfirst second hsecond
    exact .inr ⟨top, a, b, hsiblings, h.mem_cons_descendants.mp hfirst,
      h.mem_cons_descendants.mp hsecond⟩
  have hnodup : ((tree.children top).flatMap fun child =>
      child :: tree.descendants child).Nodup := by
    refine hpairwise.imp ?_
    rintro first second hprecedes rfl
    exact h.not_precedes_self first hprecedes
  have hmem (id : NodeId) : id ∈ tree.descendants top ↔
      id ∈ (tree.children top).flatMap fun child => child :: tree.descendants child := by
    rw [h.mem_descendants, List.mem_flatMap]
    simp only [h.mem_cons_descendants, within_iff]
    exact Relation.TransGen.head'_iff
  -- Both lists are in document order and have the same nodes.
  have hperm := (List.perm_ext_iff_of_nodup (h.nodup_descendants top) hnodup).mpr hmem
  refine hperm.eq_of_pairwise ?_ (h.pairwise_descendants top) hpairwise
  intro first second _ _ hprecedes hprecedes'
  exact absurd hprecedes' (h.precedes_asymm hprecedes)

end Linked

end Tree

end HtmlTemplate
