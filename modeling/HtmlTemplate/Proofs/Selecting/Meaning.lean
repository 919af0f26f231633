-- SUMMARY: What a selector means, in terms of names and of the children of nodes.
import HtmlTemplate.Proofs.Names
import HtmlTemplate.Proofs.Selecting.Named
import HtmlTemplate.Proofs.Tree.Below

/-!
# The meaning of selectors

A selector is told here without the table of names and without any walk. Names are the
texts that they stand for, and elements stand to each other as the lists of children say.
`Tree.Chain` is a list of elements, one for each compound of an alternative, the last of
them the one that is selected.
-/

namespace HtmlTemplate

open Selector

namespace Tree

/-! ## One element -/

/-- The value of the first attribute with a name. -/
def namedValue? (tree : Tree) (element : Element) (name : String) : Option String :=
  (element.attributes.find? fun attr => tree.name attr.name.localName == name).map (·.value)

/-- The nodes among which an element has its position: elements, with `ofType` those with
    the same tag. -/
def isPeer (tree : Tree) (ofType : Bool) (id other : NodeId) : Bool :=
  tree.isElement other && (!ofType || tree.tag? other == tree.tag? id)

mutual

/-- What a test asks of an element. -/
def Meets (tree : Tree) (id : NodeId) (element : Element) : Simple → Prop
  | .any => True
  | .tag name => asciiLower (tree.name element.name.localName) = asciiLower name
  | .id name => ∃ own, element.id = some own ∧ tree.name own = name
  | .className name => ∃ own ∈ element.classes, tree.name own = name
  | .attr test => test.matches (tree.namedValue? element test.name) = true
  | .root => id ∈ tree.children root
  | .empty => ∀ child ∈ tree.children id, tree.isNothing child = true
  | .position ofType position => ∃ parent before after,
    tree.children parent = before ++ id :: after ∧
      position.holds ((before.filter (tree.isPeer ofType id)).length + 1)
        ((tree.children parent).filter (tree.isPeer ofType id)).length = true
  | .not compound => ¬ MeetsAll tree id element compound

/-- What a compound asks of an element: each of its tests. -/
def MeetsAll (tree : Tree) (id : NodeId) (element : Element) : Compound → Prop
  | [] => True
  | test :: rest => Meets tree id element test ∧ MeetsAll tree id element rest

end

/-- The node is an element that meets a compound. -/
def Satisfies (tree : Tree) (id : NodeId) (compound : Compound) : Prop :=
  ∃ element, tree.element? id = some element ∧ tree.MeetsAll id element compound

/-! ## Several elements -/

/-- How the element of a compound stands to that of the next one. Ancestors are reached
    from parent to parent through elements alone. -/
def Stands (tree : Tree) : Combinator → NodeId → NodeId → Prop
  | .descendant, first, second =>
    Relation.TransGen (fun parent child => tree.isElement parent ∧ child ∈ tree.children parent)
      first second
  | .child, first, second => second ∈ tree.children first
  | .nextSibling, first, second => ∃ parent before between after,
    tree.children parent = before ++ first :: between ++ second :: after ∧
      ∀ other ∈ between, tree.isElement other = false
  | .laterSibling, first, second => ∃ parent before between after,
    tree.children parent = before ++ first :: between ++ second :: after

/-- Elements strictly below `top`, one for each compound of an alternative, each standing
    to the next one as the combinator between their compounds says. -/
inductive Chain (tree : Tree) (top : NodeId) : Selector.Complex → List NodeId → Prop where
  | single {subject : Compound} {id : NodeId} (hbelow : tree.Below top id)
      (hsubject : tree.Satisfies id subject) : Chain tree top (.single subject) [id]
  | combined {left : Selector.Complex} {combinator : Combinator} {subject : Compound}
      {elements : List NodeId} {last id : NodeId} (h : Chain tree top left elements)
      (hlast : elements.getLast? = some last) (hstands : tree.Stands combinator last id)
      (hbelow : tree.Below top id) (hsubject : tree.Satisfies id subject) :
      Chain tree top (.combined left combinator subject) (elements ++ [id])

/-- The node ends a chain for one of the alternatives. -/
def Means (tree : Tree) (top : NodeId) (selector : Selector) (id : NodeId) : Prop :=
  ∃ complex ∈ selector, ∃ elements, tree.Chain top complex elements ∧ elements.getLast? = some id

end Tree

/-! ## Names -/

/-- Texts other than the empty one are found at the one place that has them. -/
theorem Names.lookup?_eq_some_of_ne {names : Names} (hnodup : names.entries.Nodup) {text : String}
    (htext : text ≠ "") {id : NameId} : names.lookup? text = some id ↔ names.get id = text := by
  rw [lookup?_eq_some hnodup, holds_iff, and_iff_right_iff_imp]
  rintro rfl
  exact Nat.lt_of_not_le fun hle => htext (get_of_size_le hle)

/-- A tree that is built has no name twice in its table. -/
theorem Tree.Built.nodup_names {tree : Tree} (h : tree.Built) : tree.names.entries.Nodup := by
  induction h with
  | empty => exact Names.nodup_initial
  | intern _ name ih => exact Names.nodup_intern ih name
  | create _ _ ih => exact ih
  | append _ _ _ _ _ ih =>
    rw [names_append]
    exact ih

end HtmlTemplate
