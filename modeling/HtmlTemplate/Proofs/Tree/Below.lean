-- SUMMARY: What is below a node of a tree that is built: searches stay there, and the walk comes upon it.
import HtmlTemplate.Proofs.Tree.Built
import HtmlTemplate.Selector.Matching

/-!
# Nodes below a node

A search from a node answers elements strictly below it. `Tree.Path` is the list of the
nodes from one node down to another; where links are in order it is never as long as the
tree has nodes, and has all that the lower node is below. The compiler walks from the
container through containers and elements alone; `Tree.Trail` is the path to a node that
it comes upon in this way.
-/

namespace HtmlTemplate

namespace Tree

variable {tree : Tree} {top id : NodeId}

/-! ## Searches -/

theorem Below.child {parent : NodeId} (h : tree.Within top parent)
    (hchild : id ∈ tree.children parent) : tree.Below top id :=
  below_iff.mpr ⟨parent, h, hchild⟩

namespace Linked

variable (h : tree.Linked tree.children)
include h

theorem not_below_self (id : NodeId) : ¬ tree.Below id id := h.acyclic id

/-- The nearest node outwards that has a next sibling is below the top, and so is the
    sibling. -/
theorem below_of_nextOutwards {steps : Nat} {next : NodeId} (hid : tree.Within top id)
    (hnext : tree.nextOutwards top steps id = some next) : tree.Below top next := by
  induction steps generalizing id with
  | zero => cases hnext
  | succ steps ih =>
    rw [nextOutwards] at hnext
    split at hnext
    · cases hnext
    next hne =>
    obtain ⟨parent, hparent, hchild⟩ := below_iff.mp (hid.eq_or_below.resolve_left hne)
    split at hnext
    · cases hnext
    next node hnode =>
    have hlink : node.parent = some parent := (h.parent hnode).mpr hchild
    split at hnext
    next sibling _ hsibling =>
      obtain rfl := Option.some.inj hnext
      obtain ⟨i, hi⟩ := List.getElem?_of_mem hchild
      rw [h.nextSibling hnode hi] at hsibling
      exact .child hparent (List.mem_of_getElem? hsibling)
    next outer _ houter =>
      obtain rfl := Option.some.inj (houter.symm.trans hlink)
      exact ih hparent hnext
    · cases hnext

theorem below_of_successor? {next : NodeId} (hid : tree.Within top id)
    (hnext : tree.successor? top id = some next) : tree.Below top next := by
  unfold successor? at hnext
  split at hnext
  · cases hnext
  next node hnode =>
  rw [h.firstChild hnode] at hnext
  cases hfirst : (tree.children id)[0]? with
  | some child =>
    rw [hfirst] at hnext
    obtain rfl := Option.some.inj hnext
    exact .child hid (List.mem_of_getElem? hfirst)
  | none =>
    rw [hfirst] at hnext
    exact h.below_of_nextOutwards hid hnext

theorem below_of_mem_descendantsFrom {limit : Nat} {start : Option NodeId}
    (hstart : ∀ first ∈ start, tree.Below top first)
    (hid : id ∈ tree.descendantsFrom top limit start) : tree.Below top id := by
  induction limit generalizing start with
  | zero => cases hid
  | succ limit ih =>
    cases start with
    | none => cases hid
    | some first =>
      have hfirst := hstart first rfl
      rcases List.mem_cons.mp hid with rfl | hid
      · exact hfirst
      · exact ih (fun next hnext => h.below_of_successor? hfirst.within hnext) hid

theorem below_of_mem_descendants (hid : id ∈ tree.descendants top) : tree.Below top id := by
  unfold descendants descendantsWithin at hid
  split at hid
  next node hnode =>
    refine h.below_of_mem_descendantsFrom (fun first hfirst => ?_) hid
    rw [h.firstChild hnode] at hfirst
    exact .child .top (List.mem_of_getElem? hfirst)
  · cases hid

/-- What a selector selects are elements strictly below the node that is searched. -/
theorem of_mem_select {selector : Selector} (hid : id ∈ tree.select top selector) :
    tree.Below top id ∧ tree.isElement id = true := by
  obtain ⟨hbelow, hfits⟩ := List.mem_filter.mp hid
  exact ⟨h.below_of_mem_descendants hbelow, (Bool.and_eq_true_iff.mp hfits).1⟩

end Linked

/-! ## Paths -/

/-- The nodes that a node is inside of, the nearest first, from `top` on. -/
inductive Path (tree : Tree) (top : NodeId) : List NodeId → NodeId → Prop where
  | top : Path tree top [] top
  | child {above : List NodeId} {parent id : NodeId} (h : Path tree top above parent)
      (hchild : id ∈ tree.children parent) : Path tree top (parent :: above) id

theorem Within.exists_path (h : tree.Within top id) : ∃ above, tree.Path top above id := by
  induction h with
  | top => exact ⟨[], .top⟩
  | child _ hchild ih =>
    obtain ⟨above, hpath⟩ := ih
    exact ⟨_, hpath.child hchild⟩

namespace Path

variable {above : List NodeId} {a : NodeId}

theorem within (h : tree.Path top above id) : tree.Within top id := by
  induction h with
  | top => exact .top
  | child _ hchild ih => exact .child ih hchild

theorem within_of_mem (h : tree.Path top above id) (ha : a ∈ above) : tree.Within top a := by
  induction h with
  | top => cases ha
  | child h _ ih =>
    rcases List.mem_cons.mp ha with rfl | ha
    · exact h.within
    · exact ih ha

theorem below_of_mem (h : tree.Path top above id) (ha : a ∈ above) : tree.Below a id := by
  induction h with
  | top => cases ha
  | child _ hchild ih =>
    rcases List.mem_cons.mp ha with rfl | ha
    · exact .single hchild
    · exact (ih ha).tail hchild

end Path

namespace Linked

variable {above : List NodeId}
variable (h : tree.Linked tree.children)
include h

/-- The nodes of a path and its node are different nodes of the tree. -/
theorem nodup_path (htop : ∃ node, tree.get? top = some node) (hpath : tree.Path top above id) :
    (id :: above).Nodup ∧ ∀ a ∈ id :: above, ∃ node, tree.get? a = some node := by
  induction hpath with
  | top => simpa using htop
  | @child above parent id hpath hchild ih =>
    refine ⟨List.nodup_cons.mpr ⟨fun hid => ?_, ih.1⟩, ?_⟩
    · exact h.not_below_self id ((hpath.child hchild).below_of_mem hid)
    · exact List.forall_mem_cons.mpr ⟨h.get?_child hchild, ih.2⟩

/-- No path is as long as the tree has nodes. -/
theorem length_path_lt (htop : ∃ node, tree.get? top = some node)
    (hpath : tree.Path top above id) : above.length < tree.size := by
  obtain ⟨hnodup, hnodes⟩ := h.nodup_path htop hpath
  exact length_le_size hnodup hnodes

/-- The nodes of a path are those that its node is strictly below, from the top on. -/
theorem mem_path {a : NodeId} (hpath : tree.Path top above id) :
    a ∈ above ↔ tree.Within top a ∧ tree.Below a id := by
  refine ⟨fun ha => ⟨hpath.within_of_mem ha, hpath.below_of_mem ha⟩, ?_⟩
  rintro ⟨htop, ha⟩
  induction hpath with
  | top => exact absurd (htop.eq_or_below.elim (· ▸ ha) (·.trans ha)) (h.not_below_self _)
  | child _ hchild ih =>
    obtain ⟨parent, hparent, hchild'⟩ := below_iff.mp ha
    obtain rfl := h.parent_unique hchild hchild'
    rcases hparent.eq_or_below with rfl | hbelow
    · exact List.mem_cons_self
    · exact List.mem_cons_of_mem _ (ih hbelow)

end Linked

/-! ## Trails -/

/-- The nodes that a node is inside of, the nearest first, from `top` on. All of them
    are such that what is below them counts. -/
inductive Trail (tree : Tree) (top : NodeId) : List NodeId → NodeId → Prop where
  | top : Trail tree top [] top
  | child {above : List NodeId} {parent id : NodeId} {node : Node} (h : Trail tree top above parent)
      (hnode : tree.get? parent = some node) (hholds : node.content.holdsNodes = true)
      (hchild : id ∈ tree.children parent) : Trail tree top (parent :: above) id

/-- The node belongs to the document: the walk from the container comes upon it. -/
def Holds (tree : Tree) (id : NodeId) : Prop := ∃ above, tree.Trail root above id

namespace Trail

variable {above : List NodeId} {a : NodeId}

theorem path (h : tree.Trail top above id) : tree.Path top above id := by
  induction h with
  | top => exact .top
  | child _ _ _ hchild ih => exact ih.child hchild

theorem exists_of_mem (h : tree.Trail top above id) (ha : a ∈ above) :
    ∃ above', tree.Trail top above' a := by
  induction h with
  | top => cases ha
  | child h _ _ _ ih =>
    rcases List.mem_cons.mp ha with rfl | ha
    · exact ⟨_, h⟩
    · exact ih ha

/-- A trail that starts one node further up. -/
theorem extend {first : NodeId} {node : Node} (hnode : tree.get? top = some node)
    (hholds : node.content.holdsNodes = true) (hfirst : first ∈ tree.children top)
    (h : tree.Trail first above id) : tree.Trail top (above ++ [top]) id := by
  induction h with
  | top => exact .child .top hnode hholds hfirst
  | child _ hparent hholds hchild ih => exact .child ih hparent hholds hchild

/-- A trail is that of its top, or it goes on below a child of it. -/
theorem eq_or_extend (h : tree.Trail top above id) : above = [] ∧ id = top ∨
    ∃ node first rest, tree.get? top = some node ∧ node.content.holdsNodes = true ∧
      first ∈ tree.children top ∧ above = rest ++ [top] ∧ tree.Trail first rest id := by
  induction h with
  | top => exact .inl ⟨rfl, rfl⟩
  | child _ hnode hholds hchild ih =>
    rcases ih with ⟨rfl, rfl⟩ | ⟨node, first, rest, htop, htopHolds, hfirst, rfl, htrail⟩
    · exact .inr ⟨_, _, [], hnode, hholds, hchild, rfl, .top⟩
    · exact .inr ⟨node, first, _, htop, htopHolds, hfirst, rfl,
        .child htrail hnode hholds hchild⟩

theorem exists_top (h : tree.Trail top above id) (hid : ∃ node, tree.get? id = some node) :
    ∃ node, tree.get? top = some node := by
  rcases h.eq_or_extend with ⟨-, rfl⟩ | ⟨node, -, -, hnode, -⟩
  · exact hid
  · exact ⟨node, hnode⟩

end Trail

end Tree

end HtmlTemplate
