-- SUMMARY: Which elements of a tree a selector selects.
import HtmlTemplate.Selector
import HtmlTemplate.Tree.Walk

/-!
# Matching

An element is tested from the subject of an alternative to the left. Each
combinator names the elements to go on with: the parent, the ancestors, the
element before it, all elements before it. A parent is gone to only if it lies
strictly below the node that the search starts from.

Searching from a node answers the elements below it in document order.
-/

namespace HtmlTemplate

open Selector

namespace Tree

/-! ## Going from an element to others -/

/-- The parent, if it is an element strictly below `top`. -/
def parentBelow? (tree : Tree) (top id : NodeId) : Option NodeId :=
  (tree.parent? id).filter fun parent => parent ≠ top && tree.isElement parent

/-- The elements around an element strictly below `top`, the nearest first, at
    most `steps` of them. -/
def ancestorsWithin (tree : Tree) (top : NodeId) : Nat → NodeId → List NodeId
  | 0, _ => []
  | steps + 1, id =>
    match tree.parentBelow? top id with
    | some parent => parent :: tree.ancestorsWithin top steps parent
    | none => []

/-- The elements around an element strictly below `top`, the nearest first. -/
def ancestorsBelow (tree : Tree) (top id : NodeId) : List NodeId :=
  tree.ancestorsWithin top tree.size id

/-- The nodes in front of a node among its siblings, the nearest first, at most
    `steps` of them. -/
def siblingsBefore (tree : Tree) : Nat → NodeId → List NodeId
  | 0, _ => []
  | steps + 1, id =>
    match (tree.get? id).bind (·.prevSibling) with
    | some sibling =>
      if (tree.get? sibling).isSome then sibling :: tree.siblingsBefore steps sibling else []
    | none => []

/-- The elements in front of a node among its siblings, the nearest first. -/
def elementsBefore (tree : Tree) (id : NodeId) : List NodeId :=
  (tree.siblingsBefore tree.size id).filter tree.isElement

/-- The place of an element among its siblings that are elements, counted from 1,
    and their number. With `ofType` only those with the same tag count. An element
    without parent is alone. -/
def place (tree : Tree) (ofType : Bool) (id : NodeId) : Nat × Nat :=
  match tree.parent? id with
  | none => (1, 1)
  | some parent =>
    let peers := (tree.elementChildren parent).filter fun sibling =>
      !ofType || tree.tag? sibling == tree.tag? id
    ((peers.idxOf? id).elim 0 (· + 1), peers.length)

/-- Whether a node counts as nothing inside an element. -/
def isNothing (tree : Tree) (id : NodeId) : Bool :=
  match (tree.get? id).map Node.content with
  | some (.comment _) => true
  | some (.instruction _ _) => true
  | some (.text text) => text.isEmpty
  | _ => false

end Tree

/-! ## Simple tests and compounds -/

/-- Whether a position holds of the `index`-th of `count` elements. -/
def Selector.Position.holds (position : Position) (index count : Nat) : Bool :=
  match position with
  | .first => index == 1
  | .last => index == count
  | .only => count == 1
  | .nth formula => formula.holds (.ofNat index)
  | .nthLast formula => formula.holds (.ofNat (count - index + 1))

namespace Tree

mutual

/-- Whether a test holds of an element. -/
def satisfies (tree : Tree) (id : NodeId) (element : Element) : Simple → Bool
  | .any => true
  | .tag name => eqIgnoringAsciiCase (tree.name element.name.localName) name
  | .id name => element.id.any fun own => tree.name own == name
  | .className name => (tree.names.lookup? name).any element.hasClass
  | .attr test => test.matches (tree.attribute? id test.name)
  | .root => tree.parent? id == some root
  | .empty => (tree.children id).all tree.isNothing
  | .position ofType position =>
    let (index, count) := tree.place ofType id
    position.holds index count
  | .not compound => !satisfiesAll tree id element compound

/-- Whether all tests of a compound hold of an element. -/
def satisfiesAll (tree : Tree) (id : NodeId) (element : Element) : List Simple → Bool
  | [] => true
  | test :: rest => satisfies tree id element test && satisfiesAll tree id element rest

end

/-- Whether a node is an element that satisfies a compound. -/
def fits (tree : Tree) (id : NodeId) (compound : Compound) : Bool :=
  match tree.element? id with
  | some element => tree.satisfiesAll id element compound
  | none => false

/-! ## Alternatives and selectors -/

/-- The elements that a combinator goes to from an element. -/
def reached (tree : Tree) (top id : NodeId) : Combinator → List NodeId
  | .descendant => tree.ancestorsBelow top id
  | .child => (tree.parentBelow? top id).toList
  | .nextSibling => (tree.elementsBefore id).head?.toList
  | .laterSibling => tree.elementsBefore id

/-- Whether an element fits an alternative below `top`. -/
def fitsComplex (tree : Tree) (top : NodeId) : Selector.Complex → NodeId → Bool
  | .single subject, id => tree.fits id subject
  | .combined left combinator subject, id =>
    tree.fits id subject && (tree.reached top id combinator).any (tree.fitsComplex top left)

/-- Whether an element fits a selector below `top`. -/
def fitsSelector (tree : Tree) (top : NodeId) (selector : Selector) (id : NodeId) : Bool :=
  tree.isElement id && selector.any fun complex => tree.fitsComplex top complex id

/-- The elements below `top` that a selector selects, in document order. -/
def select (tree : Tree) (top : NodeId) (selector : Selector) : List NodeId :=
  (tree.descendants top).filter (tree.fitsSelector top selector)

/-- The first element below `top` that a selector selects. -/
def selectFirst? (tree : Tree) (top : NodeId) (selector : Selector) : Option NodeId :=
  (tree.descendants top).find? (tree.fitsSelector top selector)

end Tree

end HtmlTemplate
