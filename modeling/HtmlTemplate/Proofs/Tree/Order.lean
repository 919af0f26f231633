-- SUMMARY: Document order, and that walks along the links come upon the nodes below a node in it.
import HtmlTemplate.Proofs.Tree.Below

/-!
# Document order

A node comes before the nodes below it, and before what is within a later sibling of a
node that it is within. `Tree.Precedes` says this without any walk. Both walks of the
library keep to it: the one through the branch of a node, which the compiler takes, and
the one from link to link, which is what a search looks through.
-/

namespace HtmlTemplate

theorem Branch.visitAll_eq_flatMap (enters : Content → Bool) (branches : List Branch) :
    visitAll enters branches = branches.flatMap (visit enters) := by
  induction branches with
  | nil => rfl
  | cons branch rest ih => rw [visitAll, ih, List.flatMap_cons]

/-- The nodes of a branch in document order. -/
def Branch.ids (branch : Branch) : List NodeId := (branch.visit fun _ => true).map (·.1)

theorem Branch.ids_node (id : NodeId) (content : Content) (children : List Branch) :
    (Branch.node id content children).ids = id :: children.flatMap Branch.ids := by
  simp only [ids, visit, if_true, visitAll_eq_flatMap, List.map_cons, List.map_flatMap]
  rfl

namespace Tree

variable {tree : Tree} {top parent id first second : NodeId}

theorem Within.trans {a b c : NodeId} (h : tree.Within a b) (h' : tree.Within b c) :
    tree.Within a c := within_iff.mpr ((within_iff.mp h).trans (within_iff.mp h'))

theorem Below.trans_within {a b c : NodeId} (h : tree.Below a b) (h' : tree.Within b c) :
    tree.Below a c := h.trans_left (within_iff.mp h')

theorem Within.trans_below {a b c : NodeId} (h : tree.Within a b) (h' : tree.Below b c) :
    tree.Below a c := h'.trans_right (within_iff.mp h)

/-! ## The order -/

/-- Items of a list without repeats stand in one order. -/
theorem not_sublist_swap {α : Type} {items : List α} {a b : α} (hnodup : items.Nodup)
    (h : [a, b].Sublist items) : ¬ [b, a].Sublist items := by
  intro h'
  induction items with
  | nil => cases h
  | cons item rest ih =>
    obtain ⟨hnot, hnodup⟩ := List.nodup_cons.mp hnodup
    cases h with
    | cons _ h =>
      cases h' with
      | cons _ h' => exact ih hnodup h h'
      | cons_cons _ h' => exact hnot (h.subset (by simp))
    | cons_cons _ h =>
      cases h' with
      | cons _ h' => exact hnot (h'.subset (by simp))
      | cons_cons _ h' => exact hnot (h.subset (by simp))

/-- The first node comes before the second in document order. -/
def Precedes (tree : Tree) (first second : NodeId) : Prop :=
  tree.Below first second ∨
    ∃ parent a b, [a, b].Sublist (tree.children parent) ∧ tree.Within a first ∧
      tree.Within b second

namespace Linked

variable (h : tree.Linked tree.children)
include h

/-- Of two nodes that a node is within, one is within the other. -/
theorem within_or_within {a b : NodeId} (ha : tree.Within a id) (hb : tree.Within b id) :
    tree.Within a b ∨ tree.Within b a := by
  induction ha with
  | top => exact .inr hb
  | child ha hchild ih =>
    rcases hb.eq_or_below with rfl | hbelow
    · exact .inl (.child ha hchild)
    · obtain ⟨parent, hb', hchild'⟩ := below_iff.mp hbelow
      obtain rfl := h.parent_unique hchild hchild'
      exact ih hb'

/-- What is below a node and beside another is within the parent of both. -/
theorem within_of_below {a b : NodeId} (hb : b ∈ tree.children parent) (hab : tree.Below a b) :
    tree.Within a parent := by
  obtain ⟨parent', hwithin, hchild⟩ := below_iff.mp hab
  exact h.parent_unique hchild hb ▸ hwithin

/-- A node is within one child of a node at most. -/
theorem eq_of_within {a b : NodeId} (ha : a ∈ tree.children parent) (hb : b ∈ tree.children parent)
    (hida : tree.Within a id) (hidb : tree.Within b id) : a = b := by
  have hstrict {a b : NodeId} (ha : a ∈ tree.children parent) (hb : b ∈ tree.children parent)
      (hab : tree.Within a b) : b = a := by
    refine hab.eq_or_below.resolve_right fun hbelow => ?_
    exact h.not_below_self a (.child (h.within_of_below hb hbelow) ha)
  rcases h.within_or_within hida hidb with hab | hba
  · exact (hstrict ha hb hab).symm
  · exact hstrict hb ha hba

theorem not_within_of_sublist {a b : NodeId} (hsiblings : [a, b].Sublist (tree.children parent))
    (ha : tree.Within a id) : ¬ tree.Within b id := by
  intro hb
  have hmem : a ∈ tree.children parent ∧ b ∈ tree.children parent := by
    simpa using hsiblings.subset
  have hne : a ≠ b := by simpa using hsiblings.nodup (h.nodup parent)
  exact hne (h.eq_of_within hmem.1 hmem.2 ha hb)

theorem precedes_asymm (hprecedes : tree.Precedes first second) : ¬ tree.Precedes second first := by
  rintro (hbelow' | ⟨parent', a', b', hsiblings', ha', hb'⟩) <;>
    rcases hprecedes with hbelow | ⟨parent, a, b, hsiblings, ha, hb⟩
  · exact h.not_below_self _ (hbelow.trans hbelow')
  · exact h.not_within_of_sublist hsiblings ha (hb.trans_below hbelow').within
  · exact h.not_within_of_sublist hsiblings' ha' (hb'.trans_below hbelow).within
  · have hmem : a ∈ tree.children parent ∧ b ∈ tree.children parent := by
      simpa using hsiblings.subset
    have hmem' : a' ∈ tree.children parent' ∧ b' ∈ tree.children parent' := by
      simpa using hsiblings'.subset
    -- The siblings are the same ones, or two of them are below one of the others.
    by_cases hsame : a = b'
    · subst hsame
      obtain rfl := h.parent_unique hmem.1 hmem'.2
      obtain rfl := h.eq_of_within hmem.2 hmem'.1 hb ha'
      exact not_sublist_swap (h.nodup parent) hsiblings hsiblings'
    rcases h.within_or_within ha hb' with hab | hba
    · have hparent := h.within_of_below hmem'.2 (hab.eq_or_below.resolve_left (Ne.symm hsame))
      exact h.not_within_of_sublist hsiblings ((Within.child hparent hmem'.1).trans ha') hb
    · have hparent := h.within_of_below hmem.1 (hba.eq_or_below.resolve_left hsame)
      exact h.not_within_of_sublist hsiblings' ha' ((Within.child hparent hmem.2).trans hb)

theorem not_precedes_self (id : NodeId) : ¬ tree.Precedes id id :=
  fun hprecedes => h.precedes_asymm hprecedes hprecedes

end Linked

/-! ## The walk through a branch -/

/-- A branch is visited in document order. -/
theorem pairwise_visit {enters : Content → Bool} {depth : Nat} {branch : Branch}
    (hbranch : tree.branchWithin depth id = some branch) :
    (branch.visit enters).Pairwise fun first second => tree.Precedes first.1 second.1 := by
  induction depth generalizing id branch with
  | zero => cases hbranch
  | succ depth ih =>
    obtain ⟨found, -, rfl⟩ := Option.map_eq_some_iff.mp hbranch
    rw [Branch.visit]
    split
    · rw [Branch.visitAll_eq_flatMap, List.pairwise_cons, List.pairwise_flatMap]
      refine ⟨?_, ?_, ?_⟩
      · intro node hnode
        obtain ⟨branch, hmem, hnode⟩ := List.mem_flatMap.mp hnode
        obtain ⟨child, hchild, hbranch⟩ := List.mem_filterMap.mp hmem
        obtain ⟨hwithin, -⟩ := Branch.of_mem_visit hbranch .top hnode
        exact .inl (Below.trans_within (.single hchild) hwithin)
      · intro branch hmem
        obtain ⟨child, -, hbranch⟩ := List.mem_filterMap.mp hmem
        exact ih hbranch
      · refine List.pairwise_filterMap.mpr (List.pairwise_iff_forall_sublist.mpr ?_)
        intro a b hsiblings first hfirst second hsecond x hx y hy
        obtain ⟨ha, -⟩ := Branch.of_mem_visit hfirst .top hx
        obtain ⟨hb, -⟩ := Branch.of_mem_visit hsecond .top hy
        exact .inr ⟨id, a, b, hsiblings, ha, hb⟩
    · exact List.pairwise_singleton _ _

/-! ## The walk along the links -/

/-- From a node on, the walk passes the nodes of a branch, and goes on outwards. -/
def Passes (tree : Tree) (top id : NodeId) (branch : Branch) : Prop :=
  ∀ limit, tree.descendantsFrom top (branch.ids.length + limit) (some id) =
    branch.ids ++ tree.descendantsFrom top limit (tree.nextOutwards top tree.size id)

/-- Nothing comes after all that is below the top. -/
theorem nextOutwards_top (steps : Nat) : tree.nextOutwards top steps top = none := by
  cases steps with
  | zero => rfl
  | succ steps => rw [nextOutwards, if_pos rfl]

namespace Linked

variable {above : List NodeId}
variable (h : tree.Linked tree.children)
include h

/-- Outwards from a child comes its next sibling, or what is outwards from its parent. -/
theorem nextOutwards_child {i : Nat} (hpath : tree.Path top above parent)
    (hi : (tree.children parent)[i]? = some id) (steps : Nat) :
    tree.nextOutwards top (steps + 1) id =
      ((tree.children parent)[i + 1]? <|> tree.nextOutwards top steps parent) := by
  have hchild := List.mem_of_getElem? hi
  have hne : id ≠ top := by
    rintro rfl
    exact h.not_below_self id (.child hpath.within hchild)
  obtain ⟨node, hnode⟩ := h.get?_child hchild
  have hparent : node.parent = some parent := (h.parent hnode).mpr hchild
  simp only [nextOutwards, if_neg hne, hnode, h.nextSibling hnode hi, hparent]
  cases (tree.children parent)[i + 1]? <;> rfl

/-- More steps than a path has nodes make no difference. -/
theorem nextOutwards_eq {steps steps' : Nat} (hpath : tree.Path top above id)
    (hsteps : above.length < steps) (hsteps' : above.length < steps') :
    tree.nextOutwards top steps id = tree.nextOutwards top steps' id := by
  induction hpath generalizing steps steps' with
  | top => rw [nextOutwards_top, nextOutwards_top]
  | child hpath hchild ih =>
    obtain ⟨steps, rfl⟩ := Nat.exists_eq_succ_of_ne_zero (Nat.ne_zero_of_lt hsteps)
    obtain ⟨steps', rfl⟩ := Nat.exists_eq_succ_of_ne_zero (Nat.ne_zero_of_lt hsteps')
    obtain ⟨i, hi⟩ := List.getElem?_of_mem hchild
    rw [h.nextOutwards_child hpath hi, h.nextOutwards_child hpath hi,
      ih (Nat.lt_of_succ_lt_succ hsteps) (Nat.lt_of_succ_lt_succ hsteps')]

section Size

variable (htop : ∃ node, tree.get? top = some node)
include htop

/-- As many steps as the tree has nodes are always enough. -/
theorem nextOutwards_size {i : Nat} (hpath : tree.Path top above parent)
    (hi : (tree.children parent)[i]? = some id) :
    tree.nextOutwards top tree.size id =
      ((tree.children parent)[i + 1]? <|> tree.nextOutwards top tree.size parent) := by
  have hlength := h.length_path_lt htop (hpath.child (List.mem_of_getElem? hi))
  rw [List.length_cons] at hlength
  obtain ⟨steps, hsteps⟩ := Nat.exists_eq_succ_of_ne_zero (Nat.ne_zero_of_lt hlength)
  have hparent : tree.nextOutwards top steps parent = tree.nextOutwards top tree.size parent :=
    h.nextOutwards_eq hpath (by omega) (by omega)
  rw [← hparent, ← h.nextOutwards_child hpath hi, hsteps]

/-- From a child on, the walk passes the branches of this child and of those after it, and
    goes on outwards from the parent. -/
theorem descendantsFrom_children {depth : Nat} (hpath : tree.Path top above id)
    (hchildren : ∀ child ∈ tree.children id, ∃ branch,
      tree.branchWithin depth child = some branch ∧ tree.Passes top child branch)
    {i : Nat} {rest : List NodeId} (hrest : (tree.children id).drop i = rest) (limit : Nat) :
    tree.descendantsFrom top
        (((rest.filterMap (tree.branchWithin depth)).flatMap Branch.ids).length + limit)
        ((tree.children id)[i]? <|> tree.nextOutwards top tree.size id) =
      (rest.filterMap (tree.branchWithin depth)).flatMap Branch.ids ++
        tree.descendantsFrom top limit (tree.nextOutwards top tree.size id) := by
  induction rest generalizing i with
  | nil =>
    have hnone : (tree.children id)[i]? = none :=
      List.getElem?_eq_none (List.drop_eq_nil_iff.mp hrest)
    simp [hnone]
  | cons child rest ih =>
    have hi : (tree.children id)[i]? = some child := by
      rw [← List.head?_drop, hrest, List.head?_cons]
    have hdrop : (tree.children id).drop (i + 1) = rest := by
      rw [← List.tail_drop, hrest, List.tail_cons]
    obtain ⟨branch, hbranch, hpasses⟩ := hchildren child (List.mem_of_getElem? hi)
    have hstart : ((tree.children id)[i]? <|> tree.nextOutwards top tree.size id) =
        some child := by rw [hi]; rfl
    rw [List.filterMap_cons_some hbranch, List.flatMap_cons, List.length_append, Nat.add_assoc,
      hstart, hpasses, h.nextOutwards_size htop hpath hi, ih hdrop, List.append_assoc]

/-- From a node on, the walk passes the branch of the node. -/
theorem exists_passes {depth : Nat} (hpath : tree.Path top above id)
    (hid : ∃ node, tree.get? id = some node) (hdepth : above.length + depth = tree.size) :
    ∃ branch, tree.branchWithin depth id = some branch ∧ tree.Passes top id branch := by
  induction depth generalizing above id with
  | zero => exact absurd (h.length_path_lt htop hpath) (by omega)
  | succ depth ih =>
    obtain ⟨node, hnode⟩ := hid
    have hchildren : ∀ child ∈ tree.children id, ∃ branch,
        tree.branchWithin depth child = some branch ∧ tree.Passes top child branch := by
      intro child hchild
      refine ih (hpath.child hchild) (h.get?_child hchild) ?_
      rw [List.length_cons]
      omega
    refine ⟨_, Option.map_eq_some_iff.mpr ⟨node, hnode, rfl⟩, fun limit => ?_⟩
    have hnext : tree.successor? top id =
        ((tree.children id)[0]? <|> tree.nextOutwards top tree.size id) := by
      simp only [successor?, hnode, h.firstChild hnode]
    rw [Branch.ids_node, List.length_cons, Nat.add_right_comm, descendantsFrom, hnext,
      h.descendantsFrom_children htop hpath hchildren (List.drop_zero ..), List.cons_append]

/-- A branch that goes deep enough has all that is within its node. -/
theorem mem_ids {depth : Nat} {branch : Branch} {n : NodeId} (hpath : tree.Path top above id)
    (hdepth : above.length + depth = tree.size)
    (hbranch : tree.branchWithin depth id = some branch) :
    n ∈ branch.ids ↔ tree.Within id n := by
  constructor
  · intro hn
    obtain ⟨node, hnode, rfl⟩ := List.mem_map.mp hn
    exact (Branch.of_mem_visit hbranch .top hnode).1
  intro hn
  induction depth generalizing above id branch with
  | zero => exact absurd (h.length_path_lt htop hpath) (by omega)
  | succ depth ih =>
    obtain ⟨node, hnode, rfl⟩ := Option.map_eq_some_iff.mp hbranch
    rw [Branch.ids_node, List.mem_cons]
    refine hn.eq_or_below.imp_right fun hbelow => ?_
    obtain ⟨child, hchild, hwithin⟩ := Relation.TransGen.head'_iff.mp hbelow
    have hpath' := hpath.child hchild
    have hdepth' : (id :: above).length + depth = tree.size := by
      rw [List.length_cons]
      omega
    obtain ⟨branch, hbranch, -⟩ := h.exists_passes htop hpath' (h.get?_child hchild) hdepth'
    exact List.mem_flatMap.mpr ⟨branch, List.mem_filterMap.mpr ⟨child, hchild, hbranch⟩,
      ih hpath' hdepth' hbranch (within_iff.mpr hwithin)⟩

end Size

/-- The nodes of a branch are different ones. -/
theorem nodup_visit {enters : Content → Bool} {depth : Nat} {branch : Branch}
    (hbranch : tree.branchWithin depth id = some branch) :
    ((branch.visit enters).map (·.1)).Nodup := by
  refine List.pairwise_map.mpr ((pairwise_visit hbranch).imp ?_)
  intro first second hprecedes heq
  exact h.not_precedes_self second.1 (heq ▸ hprecedes)

/-- Going from link to link passes the nodes of the branch. -/
theorem exists_descendants (htop : ∃ node, tree.get? top = some node) :
    ∃ branch, tree.branch? top = some branch ∧ branch.ids = top :: tree.descendants top := by
  obtain ⟨branch, hbranch, hpasses⟩ := h.exists_passes htop .top htop (Nat.zero_add tree.size)
  refine ⟨branch, hbranch, ?_⟩
  have hlength : branch.ids.length ≤ tree.size := by
    refine length_le_size (h.nodup_visit hbranch) fun a ha => ?_
    obtain ⟨node, hnode, rfl⟩ := List.mem_map.mp ha
    obtain ⟨-, found, hfound, -⟩ := Branch.of_mem_visit hbranch .top hnode
    exact ⟨found, hfound⟩
  obtain ⟨node, hnode⟩ := htop
  have hwalk := hpasses (tree.size + 1 - branch.ids.length)
  have hnext : tree.successor? top top = node.firstChild := by
    simp only [successor?, hnode, nextOutwards_top]
    cases node.firstChild <;> rfl
  rw [Nat.add_sub_cancel' (Nat.le_succ_of_le hlength), descendantsFrom, hnext,
    nextOutwards_top] at hwalk
  have hnone (limit : Nat) : tree.descendantsFrom top limit none = [] := by
    cases limit <;> rfl
  rw [hnone, List.append_nil] at hwalk
  rw [← hwalk, descendants, descendantsWithin, hnode]

/-- The descendants of a node are the nodes strictly below it. -/
theorem mem_descendants : id ∈ tree.descendants top ↔ tree.Below top id := by
  refine ⟨h.below_of_mem_descendants, fun hbelow => ?_⟩
  obtain ⟨child, hchild, -⟩ := Relation.TransGen.head'_iff.mp hbelow
  have htop := h.get?_parent hchild
  obtain ⟨branch, hbranch, hids⟩ := h.exists_descendants htop
  have hmem : id ∈ branch.ids :=
    (h.mem_ids htop .top (Nat.zero_add tree.size) hbranch).mpr hbelow.within
  rw [hids, List.mem_cons] at hmem
  refine hmem.resolve_left ?_
  rintro rfl
  exact h.not_below_self id hbelow

/-- The descendants of a node are in document order. -/
theorem pairwise_descendants (top : NodeId) : (tree.descendants top).Pairwise tree.Precedes := by
  cases hnode : tree.get? top with
  | none =>
    rw [descendants, descendantsWithin, hnode]
    exact .nil
  | some node =>
    obtain ⟨branch, hbranch, hids⟩ := h.exists_descendants ⟨node, hnode⟩
    have hpairwise : branch.ids.Pairwise tree.Precedes :=
      List.pairwise_map.mpr (pairwise_visit hbranch)
    rw [hids] at hpairwise
    exact (List.pairwise_cons.mp hpairwise).2

end Linked

end Tree

end HtmlTemplate
