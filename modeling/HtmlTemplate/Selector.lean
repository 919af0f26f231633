-- SUMMARY: Selectors: the simple tests of an element, compounds of them, and how compounds are combined.
import HtmlTemplate.Selector.Nth
import HtmlTemplate.Selector.Value

/-!
# Selectors

A selector is a list of alternatives. An alternative combines compounds from left
to right; the last of them is its subject, which the selected element satisfies,
and the others say where the element stands. A compound is a conjunction of
simple tests. Templates are not interacted with, so the only pseudo-classes are
those that depend on the shape of the tree.
-/

namespace HtmlTemplate

namespace Selector

/-- How the element of a compound stands to the element of the one before it. -/
inductive Combinator where
  /-- Somewhere inside it. -/
  | descendant
  /-- Right inside it. -/
  | child
  /-- The next element beside it. -/
  | nextSibling
  /-- An element further on beside it. -/
  | laterSibling
deriving DecidableEq

/-- The combinator as it is written. -/
def Combinator.sign : Combinator → String
  | .descendant => " "
  | .child => " > "
  | .nextSibling => " + "
  | .laterSibling => " ~ "

/-- Where an element stands among its siblings. -/
inductive Position where
  | first
  | last
  | only
  | nth (formula : Nth)
  | nthLast (formula : Nth)
deriving DecidableEq

/-- The name of the pseudo-class, among all siblings or those of one type. -/
def Position.name (ofType : Bool) (position : Position) : String :=
  (match position with
  | .first => "first"
  | .last => "last"
  | .only => "only"
  | .nth _ => "nth"
  | .nthLast _ => "nth-last") ++ (if ofType then "-of-type" else "-child")

/-- The formula that a pseudo-class takes as its argument. -/
def Position.formula? : Position → Option Nth
  | .nth formula => some formula
  | .nthLast formula => some formula
  | _ => none

/-- A test of one element. -/
inductive Simple where
  /-- `*` -/
  | any
  /-- The name of the element, whatever its case. -/
  | tag (name : String)
  | id (name : String)
  | className (name : String)
  | attr (test : AttributeTest)
  /-- A top-level element. -/
  | root
  /-- An element without elements and texts inside. -/
  | empty
  | position (ofType : Bool) (position : Position)
  /-- An element that fails one of the tests. -/
  | not (compound : List Simple)

/-- Tests that are all to hold of one element. -/
abbrev Compound := List Simple

/-- Compounds with combinators between them. -/
inductive Complex where
  | single (subject : Compound)
  | combined (left : Complex) (combinator : Combinator) (subject : Compound)

namespace Complex

/-- The compound that the selected element satisfies. -/
def subject : Complex → Compound
  | .single subject => subject
  | .combined _ _ subject => subject

/-- The compounds from left to right. -/
def compounds : Complex → List Compound
  | .single subject => [subject]
  | .combined left _ subject => left.compounds ++ [subject]

/-- The combinators from left to right. -/
def combinators : Complex → List Combinator
  | .single _ => []
  | .combined left combinator _ => left.combinators ++ [combinator]

theorem length_compounds (complex : Complex) :
    complex.compounds.length = complex.combinators.length + 1 := by
  induction complex with
  | single subject => rfl
  | combined left combinator subject ih => simp [compounds, combinators, ih]

end Complex

end Selector

/-- Alternatives: an element is selected when it fits one of them. -/
abbrev Selector := List Selector.Complex

end HtmlTemplate
