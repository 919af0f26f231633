-- SUMMARY: The elements that are open while a document is read, and what is looked for among them.
import HtmlTemplate.Html.Draft
import HtmlTemplate.Html.Vocabulary

/-!
# Open elements

What a tag means depends on the elements that are open where it stands. They are
listed from the innermost out. A search for one of them stops at the borders of
its scope, and the mode that reading is in can be told from all of them.
-/

namespace HtmlTemplate.Html

/-- What the next token means, by how far the document has come. -/
inductive Mode where
  | initial
  | beforeHtml
  | beforeHead
  | inHead
  | afterHead
  | inBody
  | inText
  | inTable
  | inTableText
  | inCaption
  | inColumnGroup
  | inTableBody
  | inRow
  | inCell
  | inSelect
  | inSelectInTable
  | inTemplate
  | afterBody
  | inFrameset
  | afterFrameset
  | afterAfterBody
  | afterAfterFrameset
deriving DecidableEq

/-- An element that is open. `holdsHtml` is set for the MathML element that is
    marked as holding HTML. -/
structure OpenElement where
  node : Handle
  ns : Namespace
  name : String
  holdsHtml : Bool

namespace OpenElement

/-- An HTML element of that name. -/
def isNamed (name : String) (element : OpenElement) : Bool :=
  element.ns == .html && element.name == name

/-- An HTML element of one of the names. -/
def isOneOf (names : List String) (element : OpenElement) : Bool :=
  element.ns == .html && names.contains element.name

/-- A MathML element that holds text as HTML does. -/
def holdsMathText (element : OpenElement) : Bool :=
  element.ns == .mathml && mathTextNames.contains element.name

/-- An SVG element that holds HTML. -/
def holdsSvgHtml (element : OpenElement) : Bool :=
  element.ns == .svg && svgHtmlNames.contains element.name

/-- Whether a start tag right inside the element is read as one of its vocabulary. -/
def readsForeign (element : OpenElement) (tag : Tag) : Bool :=
  element.ns != .html &&
    !((element.holdsMathText && !(["mglyph", "malignmark"].contains tag.name)) ||
      element.holdsSvgHtml || element.holdsHtml ||
      (element.ns == .mathml && element.name == "annotation-xml" && tag.name == "svg"))

/-- Whether a MathML annotation is marked as holding HTML. -/
def annotationHoldsHtml (ns : Namespace) (name : String) (attributes : List Attribute) : Bool :=
  ns == .mathml && name == "annotation-xml" &&
    attributes.any fun attr =>
      attr.name == "encoding" &&
        ["text/html", "application/xhtml+xml"].contains (asciiLower attr.value)

/-! ## Scopes -/

/-- Elements that a search for an open element does not look beyond. -/
def bordersScope (element : OpenElement) : Bool :=
  element.isOneOf
      ["applet", "caption", "html", "table", "td", "th", "marquee", "object", "template"] ||
    element.holdsMathText || element.holdsSvgHtml

def bordersListScope (element : OpenElement) : Bool :=
  bordersScope element || element.isOneOf ["ol", "ul"]

def bordersButtonScope (element : OpenElement) : Bool :=
  bordersScope element || element.isNamed "button"

def bordersTableScope (element : OpenElement) : Bool :=
  element.isOneOf ["html", "table", "template"]

def bordersSelectScope (element : OpenElement) : Bool :=
  !element.isOneOf ["optgroup", "option"]

/-- Whether an element is open that fits, with none of the borders further in. -/
def inScope (border fits : OpenElement → Bool) : List OpenElement → Bool
  | [] => false
  | element :: outer => fits element || (!border element && inScope border fits outer)

end OpenElement

/-- The mode that fits the open elements. It also depends on whether the head has been
    read, and on the mode inside the innermost template. -/
def Mode.ofStack (headRead : Bool) (template : Mode) : List OpenElement → Mode
  | [] => .inBody
  | element :: outer =>
    let isLast := outer.isEmpty
    if element.ns != .html then ofStack headRead template outer
    else match element.name with
      | "select" =>
        let borders := outer.find? fun e => e.isNamed "template" || e.isNamed "table"
        if borders.any (·.isNamed "table") then .inSelectInTable else .inSelect
      | "td" | "th" => if isLast then .inBody else .inCell
      | "tr" => .inRow
      | "tbody" | "thead" | "tfoot" => .inTableBody
      | "caption" => .inCaption
      | "colgroup" => .inColumnGroup
      | "table" => .inTable
      | "template" => template
      | "head" => if isLast then .inBody else .inHead
      | "body" => .inBody
      | "frameset" => .inFrameset
      | "html" => if headRead then .afterHead else .beforeHead
      | _ => ofStack headRead template outer

end HtmlTemplate.Html
