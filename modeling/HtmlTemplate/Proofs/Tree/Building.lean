-- SUMMARY: Trees that are built call by call: their links and walks say what was appended to what.
import HtmlTemplate.Proofs.Tree.Walks

/-!
# Building trees

A tree comes from the container alone by creating nodes and appending them. As long as
each append attaches a node that has no parent yet, and not to a node within it, the
children of a node are what was appended to it, in this order. All links agree with these
lists, and so do the walks: a node is passed below another exactly when appends lead from
the one down to the other.
-/

namespace HtmlTemplate

namespace Tree

/-! ## Calls -/

/-- A call that builds a tree, with its arguments. -/
inductive Action where
  | intern (name : String)
  | create (content : Content)
  | createElement (tag : String)
  | createDoctype (name publicId systemId : String)
  | createInstruction (target text : String)
  | append (parent : NodeId) (child : Option NodeId)

/-- The tree after a call. -/
def perform (tree : Tree) : Action → Tree
  | .intern name => (tree.intern name).1
  | .create content => (tree.create content).1
  | .createElement tag => (tree.createElement tag).1
  | .createDoctype name publicId systemId => (tree.createDoctype name publicId systemId).1
  | .createInstruction target text => (tree.createInstruction target text).1
  | .append parent child => tree.append parent child

/-- The tree after calls one after the other. -/
def build (tree : Tree) (actions : List Action) : Tree := actions.foldl perform tree

/-- An append attaches a node of the tree that has no parent to another node of the tree,
    which is not below it. -/
def Admits (tree : Tree) : Action → Prop
  | .append parent (some child) => (tree.get? parent).isSome = true ∧
      (tree.get? child).map (·.parent) = some none ∧ ¬ tree.Within child parent
  | .append _ none => False
  | _ => True

/-- Each call is one that the tree admits when its turn comes. -/
def Orderly (tree : Tree) : List Action → Prop
  | [] => True
  | action :: rest => tree.Admits action ∧ (tree.perform action).Orderly rest

/-- What a call appends to a node. -/
def Action.appended? (parent : NodeId) : Action → Option NodeId
  | .append other child => if other = parent then child else none
  | _ => none

/-- The nodes that calls append to a node, in order. -/
def appendedTo (parent : NodeId) (actions : List Action) : List NodeId :=
  actions.filterMap (Action.appended? parent)

theorem appendedTo_cons (parent : NodeId) (action : Action) (rest : List Action) :
    appendedTo parent (action :: rest) =
      (action.appended? parent).toList ++ appendedTo parent rest := by
  cases happended : action.appended? parent <;> simp [appendedTo, happended]

variable {tree : Tree} {kids : NodeId → List NodeId} {actions : List Action}

/-! ## Links -/

/-- The links are those of nodes with `kids` as their children, and a node without parent
    has no siblings. -/
structure Records (tree : Tree) (kids : NodeId → List NodeId) : Prop where
  linked : tree.Linked kids
  alone : ∀ {id node}, tree.get? id = some node → node.parent = none →
    node.prevSibling = none ∧ node.nextSibling = none

namespace Records

theorem empty : Tree.empty.Records fun _ => [] := by
  have hlinked := Built.empty.linked
  have hkids : Tree.empty.children = fun _ => [] := by
    funext id
    obtain ⟨index⟩ := id
    cases index <;> rfl
  rw [hkids] at hlinked
  refine ⟨hlinked, fun {id node} hnode _ => ?_⟩
  obtain ⟨hlt, rfl⟩ := Array.getElem?_eq_some_iff.mp hnode
  have hindex : id.index = 0 := by simpa [Tree.empty] using hlt
  simp [Tree.empty, hindex]

theorem intern (h : tree.Records kids) (name : String) : (tree.intern name).1.Records kids :=
  ⟨{ h.linked with }, h.alone⟩

theorem create (h : tree.Records kids) (content : Content) :
    (tree.create content).1.Records kids := by
  refine ⟨h.linked.create content, fun {id node} hnode hparent => ?_⟩
  rw [get?_create] at hnode
  split at hnode
  next =>
    obtain rfl := Option.some.inj hnode
    exact ⟨rfl, rfl⟩
  next => exact h.alone hnode hparent

theorem append (h : tree.Records kids) {parent child : NodeId} {top node : Node}
    (hparent : tree.get? parent = some top) (hchild : tree.get? child = some node)
    (hdetached : node.parent = none) (hwithin : ¬ tree.Within child parent) :
    (tree.append parent (some child)).Records
      fun p => if p = parent then kids p ++ [child] else kids p := by
  rw [within_iff, funext h.linked.children_eq] at hwithin
  refine ⟨h.linked.append hparent hchild hdetached hwithin, fun {id later} hlater hnone => ?_⟩
  rw [get?_append hparent, Option.map_eq_some_iff] at hlater
  obtain ⟨old, hold, rfl⟩ := hlater
  have hid : id ≠ child := by
    rintro rfl
    rw [if_pos rfl] at hnone
    cases hnone
  simp only [if_neg hid] at hnone ⊢
  -- The node that gets a next sibling is the last child of the parent, so it has a parent.
  have hlast : top.lastChild ≠ some id := by
    intro hlast
    rw [h.linked.lastChild hparent] at hlast
    have hmem : old.parent = some parent :=
      (h.linked.parent hold).mpr (List.mem_of_getLast? hlast)
    cases hmem.symm.trans hnone
  rw [if_neg hlast]
  exact h.alone hold hnone

theorem of_built (h : tree.Built) : tree.Records tree.children := by
  suffices hkids : ∃ kids, tree.Records kids by
    obtain ⟨kids, hkids⟩ := hkids
    rwa [show tree.children = kids from funext hkids.linked.children_eq]
  induction h with
  | empty => exact ⟨_, .empty⟩
  | intern _ name ih => exact ih.imp fun _ hkids => hkids.intern name
  | create _ _ ih => exact ih.imp fun _ hkids => hkids.create _
  | append _ hparent hchild hdetached hcircle ih =>
    obtain ⟨kids, hkids⟩ := ih
    exact ⟨_, hkids.append hparent hchild hdetached hcircle⟩

/-- A call that is admitted adds what it appends to the children. -/
theorem perform (h : tree.Records kids) {action : Action} (hadmits : tree.Admits action) :
    (tree.perform action).Records fun p => kids p ++ (action.appended? p).toList := by
  have hnothing {next : Tree} (hnext : next.Records kids) :
      next.Records fun p => kids p ++ (none : Option NodeId).toList := by simpa using hnext
  cases action with
  | intern name => exact hnothing (h.intern name)
  | create content => exact hnothing (h.create content)
  | createElement tag => exact hnothing ((h.intern tag).create _)
  | createDoctype name publicId systemId => exact hnothing ((h.intern name).create _)
  | createInstruction target text => exact hnothing ((h.intern target).create _)
  | append parent child =>
    cases child with
    | none => exact hadmits.elim
    | some child =>
      obtain ⟨hparent, hchild, hwithin⟩ := hadmits
      obtain ⟨top, htop⟩ := Option.isSome_iff_exists.mp hparent
      obtain ⟨node, hnode, hdetached⟩ := Option.map_eq_some_iff.mp hchild
      have hkids : (fun p => if p = parent then kids p ++ [child] else kids p) =
          fun p => kids p ++ ((Action.append parent (some child)).appended? p).toList := by
        funext p
        by_cases hp : p = parent
        · simp [Action.appended?, hp]
        · simp [Action.appended?, hp, Ne.symm hp]
      exact hkids ▸ h.append htop hnode hdetached hwithin

/-- Calls that are admitted in turn add what they append to the children. -/
theorem build (h : tree.Records kids) (horderly : tree.Orderly actions) :
    (tree.build actions).Records fun p => kids p ++ appendedTo p actions := by
  induction actions generalizing tree kids with
  | nil => simpa [appendedTo, Tree.build] using h
  | cons action rest ih =>
    obtain ⟨hadmits, horderly⟩ := horderly
    have hkids : (fun p => kids p ++ appendedTo p (action :: rest)) =
        fun p => kids p ++ (action.appended? p).toList ++ appendedTo p rest := by
      funext p
      rw [appendedTo_cons, List.append_assoc]
    rw [hkids]
    exact ih (h.perform hadmits) horderly

/-- The links of a node that is a child are those of its place among the children. -/
theorem of_kids_eq (h : tree.Records kids) {parent id : NodeId} {node : Node}
    {before after : List NodeId} (hnode : tree.get? id = some node)
    (hkids : kids parent = before ++ id :: after) :
    node.parent = some parent ∧ node.prevSibling = before.getLast? ∧
      node.nextSibling = after.head? := by
  have hplace : (kids parent)[before.length]? = some id := by simp [hkids]
  refine ⟨(h.linked.parent hnode).mpr (List.mem_of_getElem? hplace), ?_, ?_⟩
  · rw [h.linked.prevSibling hnode hplace, List.getLast?_eq_getElem?, hkids]
    cases before with
    | nil => rfl
    | cons first rest =>
      have hlength : (first :: rest).length = rest.length + 1 := rfl
      rw [if_neg (by omega), List.getElem?_append_left (by omega)]
  · rw [h.linked.nextSibling hnode hplace, hkids, List.head?_eq_getElem?,
      List.getElem?_append_right (Nat.le_succ _)]
    simp

end Records

/-! ## Trees that are built -/

/-- A tree that is built by calls which are admitted in turn: the children of a node are
    what was appended to it, and to no other node; all links of a node agree with this, and
    a node that was not appended has no parent and no siblings; and walks come to an end,
    which is after listing the children, and after passing what is below a node, each node
    once and in pre-order. -/
theorem walks_build {actions : List Action} (h : Tree.empty.Orderly actions) :
    let tree := Tree.empty.build actions
    (∀ parent, tree.children parent = appendedTo parent actions ∧
      (tree.children parent).Nodup ∧
      ∀ ids, tree.Siblings (tree.firstChild? parent) ids ↔ ids = tree.children parent) ∧
    (∀ parent id, id ∈ appendedTo parent actions →
      (tree.get? parent).isSome = true ∧ (tree.get? id).isSome = true ∧
        ∀ other, id ∈ appendedTo other actions → other = parent) ∧
    (∀ id node, tree.get? id = some node →
      node.firstChild = (appendedTo id actions).head? ∧
      node.lastChild = (appendedTo id actions).getLast? ∧
      (∀ parent before after, appendedTo parent actions = before ++ id :: after →
        node.parent = some parent ∧ node.prevSibling = before.getLast? ∧
          node.nextSibling = after.head?) ∧
      ((∀ parent, id ∉ appendedTo parent actions) →
        node.parent = none ∧ node.prevSibling = none ∧ node.nextSibling = none)) ∧
    (∀ top, (∀ ids, tree.Walks top (tree.firstChild? top) ids ↔ ids = tree.descendants top) ∧
      tree.descendants top =
        (tree.children top).flatMap (fun child => child :: tree.descendants child) ∧
      (tree.descendants top).Nodup ∧
      (∀ id, id ∈ tree.descendants top ↔
        Relation.TransGen (fun parent child => child ∈ appendedTo parent actions) top id) ∧
      top ∉ tree.descendants top) := by
  intro tree
  have hrecords : tree.Records fun p => appendedTo p actions := by
    simpa using Records.empty.build h
  have hkids : tree.children = fun p => appendedTo p actions :=
    funext hrecords.linked.children_eq
  have hlinked : tree.Linked tree.children := hkids ▸ hrecords.linked
  refine ⟨fun parent => ⟨?_, hlinked.nodup parent, fun _ => hlinked.siblings_iff⟩, ?_, ?_, ?_⟩
  · rw [hkids]
  · intro parent id hid
    refine ⟨?_, ?_, fun other hother => hrecords.linked.parent_unique hother hid⟩
    · exact Option.isSome_iff_exists.mpr (hrecords.linked.get?_parent hid)
    · exact Option.isSome_iff_exists.mpr (hrecords.linked.get?_child hid)
  · intro id node hnode
    refine ⟨?_, hrecords.linked.lastChild hnode, fun parent before after hid =>
      hrecords.of_kids_eq hnode hid, fun hnot => ?_⟩
    · rw [hrecords.linked.firstChild hnode, List.head?_eq_getElem?]
    · have hparent : node.parent = none := by
        refine Option.eq_none_iff_forall_ne_some.mpr fun parent hparent => ?_
        exact hnot parent ((hrecords.linked.parent hnode).mp hparent)
      exact ⟨hparent, hrecords.alone hnode hparent⟩
  · intro top
    refine ⟨fun _ => hlinked.walks_iff, hlinked.descendants_eq_flatMap top,
      hlinked.nodup_descendants top, fun id => ?_, fun hmem => ?_⟩
    · rw [hlinked.mem_descendants, Below, hkids]
    · exact hlinked.not_below_self top (hlinked.mem_descendants.mp hmem)

/-- Two nodes appended to a third one, the second after a node was appended to the first. -/
theorem walks_build_section :
    let actions : List Action := [.createElement "div", .createElement "span", .create (.text "a"),
      .createElement "p", .append root (some ⟨1⟩), .append ⟨1⟩ (some ⟨2⟩), .append ⟨2⟩ (some ⟨3⟩),
      .append ⟨1⟩ (some ⟨4⟩)]
    Tree.empty.Orderly actions ∧
      (Tree.empty.build actions).descendants root = [⟨1⟩, ⟨2⟩, ⟨3⟩, ⟨4⟩] ∧
      (Tree.empty.build actions).Walks root (some ⟨1⟩) [⟨1⟩, ⟨2⟩, ⟨3⟩, ⟨4⟩] := by
  intro actions
  have hleaf {tree : Tree} {parent child : NodeId} (hparent : (tree.get? parent).isSome = true)
      (hchild : (tree.get? child).map (·.parent) = some none) (hleaf : tree.children child = [])
      (hne : parent ≠ child) : tree.Admits (.append parent (some child)) :=
    ⟨hparent, hchild, not_within_of_children_eq_nil hleaf hne⟩
  have horderly : Tree.empty.Orderly actions := by
    refine ⟨trivial, trivial, trivial, trivial, hleaf rfl rfl rfl ?_, hleaf rfl rfl rfl ?_,
      hleaf rfl rfl rfl ?_, hleaf rfl rfl rfl ?_, trivial⟩ <;> decide
  obtain ⟨-, -, -, hwalks⟩ := walks_build horderly
  exact ⟨horderly, rfl, ((hwalks root).1 _).mpr rfl⟩

end Tree

end HtmlTemplate
