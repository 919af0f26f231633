-- SUMMARY: Walking a tree: children, descendants, and the branch below a node.
import HtmlTemplate.Tree

/-!
# Walks

The children of a node are reached by the link to the first and from each to the
next. The descendants are reached from each node to its first child, or else to
the next sibling of the nearest ancestor that has one. Links may lead round in a
circle, so every walk is given a limit. Along links that do not, no walk takes
more steps than the tree has nodes, which is the limit of `children` and
`descendants`.

`Tree.branch?` gathers what is below a node into one value, a `Branch`.
-/

namespace HtmlTemplate.Tree

/-! ## Children -/

/-- Follow the links from a node to its next siblings, `limit` nodes at most. -/
def siblingsFrom (tree : Tree) : Nat → Option NodeId → List NodeId
  | 0, _ => []
  | _ + 1, none => []
  | limit + 1, some id =>
    match tree.get? id with
    | some node => id :: tree.siblingsFrom limit node.nextSibling
    | none => []

/-- The children of a node, `limit` of them at most. -/
def childrenWithin (tree : Tree) (limit : Nat) (parent : NodeId) : List NodeId :=
  match tree.get? parent with
  | some node => tree.siblingsFrom limit node.firstChild
  | none => []

/-- The children of a node. -/
def children (tree : Tree) (parent : NodeId) : List NodeId :=
  tree.childrenWithin tree.size parent

/-- The children that are elements, `limit` of them at most. In a circle each
    round passes every element of it. -/
def elementChildrenWithin (tree : Tree) (limit : Nat) (parent : NodeId) : List NodeId :=
  ((tree.childrenWithin ((limit + 1) * tree.size) parent).filter tree.isElement).take limit

/-- The children that are elements. -/
def elementChildren (tree : Tree) (parent : NodeId) : List NodeId :=
  (tree.children parent).filter tree.isElement

/-- The first top-level element. -/
def documentElement? (tree : Tree) : Option NodeId := (tree.elementChildren root).head?

/-! ## Descendants -/

/-- The next sibling of the nearest node that has one, from `id` outwards and
    below `top`. -/
def nextOutwards (tree : Tree) (top : NodeId) : Nat → NodeId → Option NodeId
  | 0, _ => none
  | steps + 1, id =>
    if id = top then none
    else match tree.get? id with
      | none => none
      | some node =>
        match node.nextSibling, node.parent with
        | some next, _ => some next
        | none, some parent => tree.nextOutwards top steps parent
        | none, none => none

/-- The node after `id` in document order below `top`. -/
def successor? (tree : Tree) (top id : NodeId) : Option NodeId :=
  match tree.get? id with
  | none => none
  | some node => node.firstChild <|> tree.nextOutwards top tree.size id

/-- The nodes from one on in document order below `top`, `limit` at most. -/
def descendantsFrom (tree : Tree) (top : NodeId) : Nat → Option NodeId → List NodeId
  | 0, _ => []
  | _ + 1, none => []
  | limit + 1, some id => id :: tree.descendantsFrom top limit (tree.successor? top id)

/-- The nodes below a node in document order, `limit` at most. -/
def descendantsWithin (tree : Tree) (limit : Nat) (top : NodeId) : List NodeId :=
  match tree.get? top with
  | some node => tree.descendantsFrom top limit node.firstChild
  | none => []

/-- The nodes below a node in document order. -/
def descendants (tree : Tree) (top : NodeId) : List NodeId :=
  tree.descendantsWithin tree.size top

end HtmlTemplate.Tree

namespace HtmlTemplate

/-! ## Branches -/

/-- A node with all that is below it. -/
inductive Branch where
  | node (id : NodeId) (content : Content) (children : List Branch)

namespace Tree

/-- The branch of a node down to a depth. -/
def branchWithin (tree : Tree) : Nat → NodeId → Option Branch
  | 0, _ => none
  | depth + 1, id =>
    (tree.get? id).map fun node =>
      .node id node.content ((tree.children id).filterMap (tree.branchWithin depth))

/-- The branch of a node. No node is deeper than there are nodes. -/
def branch? (tree : Tree) (id : NodeId) : Option Branch := tree.branchWithin tree.size id

/-- The branches of the children of a node. -/
def branches (tree : Tree) (id : NodeId) : List Branch :=
  (tree.children id).filterMap (tree.branchWithin tree.size)

end Tree

end HtmlTemplate
