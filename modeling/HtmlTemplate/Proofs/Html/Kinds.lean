-- SUMMARY: The rules of the body, one for each kind of a tag.
import HtmlTemplate.Html.Builder.Rules
import HtmlTemplate.Proofs.Html.Places

/-!
# Kinds of tags

The rules of the body go through many names. `BodyStart` and `BodyEnd` list what they tell
apart: each kind of a tag has a rule of its own, and the rules of the body are to find the
kind by the name and to follow its rule. So what is said of tags in the body is said of
each kind, once.
-/

namespace HtmlTemplate.Html

-- ---------------------------------------------------------------------------
-- Start tags
-- ---------------------------------------------------------------------------

namespace Builder

open OpenElement (inScope bordersScope bordersListScope bordersButtonScope)

/-- From here on no frameset can take the place of the body. -/
def withoutFrameset (b : Builder) : Builder := { b with framesetAllowed := false }

/-- The rule of a kind of start tag. -/
def startRule (b : Builder) (tag : Tag) : BodyStart → Outcome
  | .html => .done (b.moreHtml tag)
  | .head => inHeadRule b (.startTag tag)
  | .body => .done (b.moreBody tag)
  | .frameset => .done (b.replaceBody tag)
  | .block => .done (b.closeParagraph.openTag tag)
  | .heading =>
    .done ((if b.closeParagraph.currentIsOneOf headingNames then b.closeParagraph.pop
      else b.closeParagraph).openTag tag)
  | .preformatted =>
    .done { (b.closeParagraph.openTag tag).withoutFrameset with skipLineFeed := true }
  | .form =>
    if b.form.isSome && !b.hasOpen "template" then .done b
    else
      .done (if b.hasOpen "template" then b.closeParagraph.openTag tag
        else { b.closeParagraph.openTag tag with
          form := (b.closeParagraph.openTag tag).stack.head?.map OpenElement.node })
  | .item names => .done ((b.withoutFrameset.closeItem names).closeParagraph.openTag tag)
  | .plaintext => .done { b.closeParagraph.openTag tag with textMode := .plain }
  | .button =>
    .done ((b.closeInScope bordersScope "button").reopenFormatting.openTag tag).withoutFrameset
  | .link => .done (b.closeOpenLink.reopenFormatting.openFormatting tag)
  | .formatting => .done (b.reopenFormatting.openFormatting tag)
  | .nobr =>
    .done ((if b.reopenFormatting.hasInScope bordersScope "nobr" then
      (b.reopenFormatting.closeFormatting "nobr").reopenFormatting
      else b.reopenFormatting).openFormatting tag)
  | .bordered => .done (b.reopenFormatting.openTag tag).pushMarker.withoutFrameset
  | .table =>
    .done { ((if b.old then b else b.closeParagraph).openTag tag).withoutFrameset with
      mode := .inTable }
  | .phrasingVoid => .done (b.putBodyVoid tag)
  | .plainVoid => .done (b.putVoid tag)
  | .rule => .done (b.closeParagraph.putVoid tag).withoutFrameset
  | .image => .done (b.putBodyVoid { tag with name := "img" })
  | .textarea =>
    .done { (b.openText tag (.escapable tag.name)).withoutFrameset with skipLineFeed := true }
  | .xmp =>
    .done ((b.closeParagraph.reopenFormatting.withoutFrameset).openText tag (.raw tag.name))
  | .iframe => .done (b.withoutFrameset.openText tag (.raw tag.name))
  | .rawText => .done (b.openText tag (.raw tag.name))
  | .select =>
    .done { (b.reopenFormatting.openTag tag).withoutFrameset with
      mode := if [Mode.inTable, .inCaption, .inTableBody, .inRow, .inCell].contains b.mode then
        .inSelectInTable else .inSelect }
  | .option =>
    .done ((if b.currentIs "option" then b.pop else b).reopenFormatting.openTag tag)
  | .rubyBase =>
    .done ((if b.hasInScope bordersScope "ruby" then b.impliedEnds impliedEndNames
      else b).openTag tag)
  | .rubyText =>
    .done ((if b.hasInScope bordersScope "ruby" then b.impliedEndsExcept "rtc" else b).openTag tag)
  | .foreign ns => .done (b.openForeign ns tag.name tag)
  | .ignored => .done b
  | .ordinary => .done (b.reopenFormatting.openTag tag)

theorem startTagInBody_eq (b : Builder) (tag : Tag) :
    b.startTagInBody tag = b.startRule tag (bodyStart tag.name) := by
  unfold startTagInBody bodyStart
  simp only [apply_ite (b.startRule tag)]
  rfl

end Builder

-- ---------------------------------------------------------------------------
-- End tags
-- ---------------------------------------------------------------------------

/-- What an end tag means in the body. -/
inductive BodyEnd where
  | template
  | body
  | html
  | block
  | form
  | paragraph
  | listItem
  | definition
  | heading
  | formatting
  | bordered
  | br
  | ordinary
deriving DecidableEq

def bodyEnd (name : String) : BodyEnd :=
  if name == "template" then .template
  else if name == "body" then .body
  else if name == "html" then .html
  else if closingBlockNames.contains name then .block
  else if name == "form" then .form
  else if name == "p" then .paragraph
  else if name == "li" then .listItem
  else if name == "dd" || name == "dt" then .definition
  else if headingNames.contains name then .heading
  else if name == "a" || name == "nobr" || formattingNames.contains name then .formatting
  else if ["applet", "marquee", "object"].contains name then .bordered
  else if name == "br" then .br
  else .ordinary

/-- The names of a kind; all other names are ordinary. -/
def BodyEnd.names : BodyEnd → List String
  | .template => ["template"]
  | .body => ["body"]
  | .html => ["html"]
  | .block => closingBlockNames
  | .form => ["form"]
  | .paragraph => ["p"]
  | .listItem => ["li"]
  | .definition => ["dd", "dt"]
  | .heading => headingNames
  | .formatting => "a" :: "nobr" :: formattingNames
  | .bordered => ["applet", "marquee", "object"]
  | .br => ["br"]
  | .ordinary => []

theorem BodyEnd.mem_names {name : String} {kind : BodyEnd} (h : bodyEnd name = kind)
    (hne : kind ≠ .ordinary) : name ∈ kind.names := by
  subst h
  fun_cases bodyEnd name <;> simp_all [BodyEnd.names, or_assoc]
  simp_all [bodyEnd]

namespace Builder

open OpenElement (inScope bordersScope bordersListScope bordersButtonScope)

/-- The rule of a kind of end tag. -/
def endRule (b : Builder) (tag : Tag) : BodyEnd → Outcome
  | .template => inHeadRule b (.endTag tag)
  | .body => .done (if b.hasInScope bordersScope "body" then { b with mode := .afterBody } else b)
  | .html => if b.hasInScope bordersScope "body" then .inMode .afterBody b else .done b
  | .block => .done (b.closeInScope bordersScope tag.name)
  | .form => .done b.closeForm
  | .paragraph =>
    .done (if b.hasInScope bordersButtonScope "p" then b else b.openImplied "p").closeParagraph
  | .listItem =>
    .done (if b.hasInScope bordersListScope "li" then
      (b.impliedEndsExcept "li").popThroughName "li" else b)
  | .definition =>
    .done (if b.hasInScope bordersScope tag.name then
      (b.impliedEndsExcept tag.name).popThroughName tag.name else b)
  | .heading =>
    .done (if inScope bordersScope (·.isOneOf headingNames) b.stack then
      (b.impliedEnds impliedEndNames).popThrough (·.isOneOf headingNames) else b)
  | .formatting => .done (b.closeFormatting tag.name)
  | .bordered =>
    .done (if b.hasInScope bordersScope tag.name then
      (b.closeInScope bordersScope tag.name).clearFormatting else b)
  | .br => .done (b.putBodyVoid (.plain "br"))
  | .ordinary => .done (b.closeByName tag.name)

theorem endTagInBody_eq (b : Builder) (tag : Tag) :
    b.endTagInBody tag = b.endRule tag (bodyEnd tag.name) := by
  unfold endTagInBody bodyEnd
  simp only [apply_ite (b.endRule tag)]
  rfl

end Builder

end HtmlTemplate.Html
