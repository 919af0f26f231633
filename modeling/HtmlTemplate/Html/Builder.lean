-- SUMMARY: The state in which an HTML document is built, and the steps that its rules are made of.
import HtmlTemplate.Html.OpenElement

/-!
# Building a document

A document is built token by token. The builder knows the elements that are
open, the innermost first, the formatting that is to be opened again in the next
block, and the mode that says what the next token means. This module holds the
steps that the rules are made of: looking into the open elements, closing them,
and putting nodes into the draft.
-/

namespace HtmlTemplate.Html

/-- Formatting that is open or to be opened again, or the border of an element
    that formatting does not cross. -/
inductive FormatEntry where
  | marker
  | element (node : Handle) (tag : Tag)

structure Builder where
  draft : Draft := .empty
  mode : Mode := .initial
  /-- The mode to go back to after text. -/
  returnMode : Mode := .initial
  templateModes : List Mode := []
  textMode : TextMode := .markup
  /-- Text of a table, the last character first. -/
  tableText : List Char := []
  /-- Rules from before the standard. -/
  old : Bool := false
  /-- The open elements, the innermost first. -/
  stack : List OpenElement := []
  /-- The formatting, the latest first. -/
  formatting : List FormatEntry := []
  head : Option OpenElement := none
  form : Option Handle := none
  framesetAllowed : Bool := true
  /-- A line feed that comes next is left out. -/
  skipLineFeed : Bool := false
  /-- A byte order mark that comes next is left out: reading starts here. -/
  skipMark : Bool := true
  /-- What a table cannot hold goes in front of it. -/
  fostering : Bool := false

namespace Builder

open OpenElement (inScope bordersScope bordersButtonScope annotationHoldsHtml)

/-! ## Scopes -/

def hasInScope (b : Builder) (border : OpenElement → Bool) (name : String) : Bool :=
  inScope border (·.isNamed name) b.stack

/-- Whether an HTML element of that name is open at all. -/
def hasOpen (b : Builder) (name : String) : Bool := b.stack.any (·.isNamed name)

/-- Whether the innermost open element is an HTML element of that name. -/
def currentIs (b : Builder) (name : String) : Bool :=
  match b.stack with
  | element :: _ => element.isNamed name
  | [] => false

def currentIsOneOf (b : Builder) (names : List String) : Bool :=
  match b.stack with
  | element :: _ => element.isOneOf names
  | [] => false

/-- The outermost open element, `html`. -/
def htmlNode? (b : Builder) : Option Handle := b.stack.getLast?.map (·.node)

/-- The `body`, if it is open right inside `html`. -/
def bodyNode? (b : Builder) : Option Handle :=
  match b.stack.reverse with
  | _ :: body :: _ => if body.isNamed "body" then some body.node else none
  | _ => none

/-! ## Closing elements -/

/-- Close the innermost element. -/
def pop (b : Builder) : Builder := { b with stack := b.stack.drop 1 }

/-- Close elements up to and with the first that fits. -/
def popThrough (b : Builder) (fits : OpenElement → Bool) : Builder :=
  { b with stack := (b.stack.dropWhile (!fits ·)).drop 1 }

def popThroughName (b : Builder) (name : String) : Builder := b.popThrough (·.isNamed name)

/-- Close elements until the innermost is one of the names. -/
def popUntilOneOf (b : Builder) (names : List String) : Builder :=
  { b with stack := b.stack.dropWhile (!·.isOneOf names) }

/-- Close the innermost elements as long as their end may be implied. -/
def impliedEnds (b : Builder) (names : List String) : Builder :=
  { b with stack := b.stack.dropWhile (·.isOneOf names) }

/-- Close the implied ends but those of one name. -/
def impliedEndsExcept (b : Builder) (name : String) : Builder :=
  b.impliedEnds (impliedEndNames.erase name)

/-- Close an open paragraph. -/
def closeParagraph (b : Builder) : Builder :=
  if b.hasInScope bordersButtonScope "p" then (b.impliedEndsExcept "p").popThroughName "p" else b

def removeFromStack (b : Builder) (node : Handle) : Builder :=
  { b with stack := b.stack.filter (·.node != node) }

/-- Forget the formatting inside the innermost border. -/
def clearFormatting (b : Builder) : Builder :=
  let isFormat := fun
    | FormatEntry.marker => false
    | .element _ _ => true
  { b with formatting := (b.formatting.dropWhile isFormat).drop 1 }

def pushMarker (b : Builder) : Builder := { b with formatting := .marker :: b.formatting }

/-- Go back to the mode that fits the open elements. -/
def resetMode (b : Builder) : Builder :=
  { b with
    mode := .ofStack b.head.isSome (b.templateModes.headD .inTemplate) b.stack }

/-! ## Putting nodes into the draft -/

/-- Where what a table cannot hold goes: in front of the innermost table, or into
    a template that is open inside it. -/
def fosterPlace (b : Builder) : List OpenElement → Draft.Place
  | [] => .lastIn Draft.root
  | element :: outer =>
    if element.isNamed "template" then .lastIn (b.draft.inside element.node)
    else if element.isNamed "table" then
      if (b.draft.parent? element.node).isSome then .before element.node
      else .lastIn ((outer.head?.map (·.node)).getD Draft.root)
    else if outer.isEmpty then .lastIn element.node
    else b.fosterPlace outer

/-- Where a node meant for an element goes. -/
def placeIn (b : Builder) (target : OpenElement) : Draft.Place :=
  if b.fostering && target.isOneOf tableStructureNames then b.fosterPlace b.stack
  else .lastIn (b.draft.inside target.node)

/-- Where the next node goes. -/
def place (b : Builder) : Draft.Place :=
  match b.stack with
  | element :: _ => b.placeIn element
  | [] => .lastIn Draft.root

/-- Put a character at the end of the text. -/
def putCharacter (b : Builder) (c : Char) : Builder :=
  { b with draft := b.draft.putCharacter b.place c }

def putCommentAt (b : Builder) (place : Draft.Place) (text : String) : Builder :=
  let (draft, node) := b.draft.add (.comment text)
  { b with draft := draft.put place node }

def putComment (b : Builder) (text : String) : Builder := b.putCommentAt b.place text

/-- Add an element to the draft without a place. -/
def create (b : Builder) (ns : Namespace) (name : String) (attributes : List Attribute) :
    Builder × OpenElement :=
  let (draft, node) := b.draft.addElement ns name attributes
  ({ b with draft }, ⟨node, ns, name, annotationHoldsHtml ns name attributes⟩)

/-- Put an element where the next node goes. -/
def putElement (b : Builder) (ns : Namespace) (name : String) (attributes : List Attribute) :
    Builder × OpenElement :=
  let place := b.place
  let (b, element) := b.create ns name attributes
  ({ b with draft := b.draft.put place element.node }, element)

def push (b : Builder) (element : OpenElement) : Builder :=
  { b with stack := element :: b.stack }

/-- Open an HTML element. -/
def openTag (b : Builder) (tag : Tag) : Builder :=
  let (b, element) := b.putElement .html tag.name (elementAttributes .html tag)
  b.push element

/-- Open an HTML element that the source does not name. -/
def openImplied (b : Builder) (name : String) : Builder := b.openTag (.plain name)

/-- Put an HTML element that holds nothing. -/
def putVoid (b : Builder) (tag : Tag) : Builder :=
  (b.putElement .html tag.name (elementAttributes .html tag)).1

/-- Put a foreign element, under the name that its vocabulary spells. -/
def openForeign (b : Builder) (ns : Namespace) (name : String) (tag : Tag) : Builder :=
  let (b, element) := b.putElement ns name (elementAttributes ns tag)
  if tag.selfClosing then b else b.push element

/-- Open an element whose content is text. -/
def openText (b : Builder) (tag : Tag) (textMode : TextMode) : Builder :=
  { b.openTag tag with returnMode := b.mode, mode := .inText, textMode }

end Builder

end HtmlTemplate.Html
