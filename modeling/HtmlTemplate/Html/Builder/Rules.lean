-- SUMMARY: What each token means in each mode of building a document.
import HtmlTemplate.Html.Reference
import HtmlTemplate.Html.Builder.Formatting

/-!
# Construction rules

One function for each mode says what a token does to the document. A rule may
hand the token on: it changes the mode, or closes an element, and answers
`again`, and the token is looked at anew. Rules that treat a token as another
mode does call the function of that mode. Scripting counts as switched on, so
that the content of `noscript` is text.
-/

namespace HtmlTemplate.Html.Builder

open OpenElement (inScope bordersScope bordersListScope bordersButtonScope bordersTableScope
  bordersSelectScope)

/-- The outcome of a rule: the token has been dealt with, or it is to be looked at
    again. -/
inductive Outcome where
  | done (builder : Builder)
  | again (builder : Builder)

/-- Change the builder of an outcome. -/
def Outcome.map (change : Builder → Builder) : Outcome → Outcome
  | .done b => .done (change b)
  | .again b => .again (change b)

/-- Look at the token again in another mode. -/
def Outcome.inMode (mode : Mode) (b : Builder) : Outcome := .again { b with mode }

def oneOf (names : List String) (tag : Tag) : Bool := names.contains tag.name

/-- A tag of an `input` that is not shown. -/
def isHiddenInput (tag : Tag) : Bool := (tag.value? "type").any (asciiLower · == "hidden")

-- ---------------------------------------------------------------------------
-- Parts of rules
-- ---------------------------------------------------------------------------

/-- A second `html` tag only adds attributes. -/
def moreHtml (b : Builder) (tag : Tag) : Builder :=
  if b.hasOpen "template" then b
  else match b.htmlNode? with
    | some node => { b with draft := b.draft.addMissing node (elementAttributes .html tag) }
    | none => b

/-- Open the outermost element. -/
def openHtml (b : Builder) (tag : Tag) : Builder := { b.openTag tag with mode := .beforeHead }

/-- Open the head and note it. -/
def openHead (b : Builder) (tag : Tag) : Builder :=
  let b := b.openTag tag
  { b with head := b.stack.head?, mode := .inHead }

/-- Close a template that is open. -/
def closeTemplate (b : Builder) : Builder :=
  let b := ((b.impliedEnds templateImpliedEndNames).popThroughName "template").clearFormatting
  ({ b with templateModes := b.templateModes.drop 1 }).resetMode

/-- Close a table cell that is open. -/
def closeCell (b : Builder) : Builder :=
  ((b.impliedEnds impliedEndNames).popThrough (·.isOneOf ["td", "th"])).clearFormatting

/-- Close an element that is in scope, with what is open inside it. -/
def closeInScope (b : Builder) (border : OpenElement → Bool) (name : String) : Builder :=
  if b.hasInScope border name then (b.impliedEnds impliedEndNames).popThroughName name else b

/-- What an item of a list or a definition closes: an item that is open, unless a
    special element other than `address`, `div` and `p` is open inside it. -/
def closeItem (b : Builder) (names : List String) : Builder :=
  let stops (e : OpenElement) :=
    e.isOneOf names ||
      (e.isOneOf specialNames && !e.isOneOf ["address", "div", "p"])
  match b.stack.find? stops with
  | some element =>
    if element.isOneOf names then
      (b.impliedEndsExcept element.name).popThroughName element.name
    else b
  | none => b

-- ---------------------------------------------------------------------------
-- Before the body
-- ---------------------------------------------------------------------------

def initialRule (b : Builder) : Token → Outcome
  | .character c => if isAsciiBlank c then .done b else .inMode .beforeHtml { b with old := true }
  | .comment text => .done (b.putCommentAt (.lastIn Draft.root) text)
  | _ => .inMode .beforeHtml { b with old := true }

def beforeHtmlRule (b : Builder) (token : Token) : Outcome :=
  let otherwise := Outcome.again (b.openHtml (.plain "html"))
  match token with
  | .comment text => .done (b.putCommentAt (.lastIn Draft.root) text)
  | .character c => if isAsciiBlank c then .done b else otherwise
  | .startTag tag => if tag.name == "html" then .done (b.openHtml tag) else otherwise
  | .endTag tag => if oneOf ["head", "body", "html", "br"] tag then otherwise else .done b
  | .endOfInput => otherwise

def beforeHeadRule (b : Builder) (token : Token) : Outcome :=
  let otherwise := Outcome.again (b.openHead (.plain "head"))
  match token with
  | .comment text => .done (b.putComment text)
  | .character c => if isAsciiBlank c then .done b else otherwise
  | .startTag tag =>
    match tag.name with
    | "html" => .done (b.moreHtml tag)
    | "head" => .done (b.openHead tag)
    | _ => otherwise
  | .endTag tag => if oneOf ["head", "body", "html", "br"] tag then otherwise else .done b
  | .endOfInput => otherwise

def inHeadRule (b : Builder) (token : Token) : Outcome :=
  let otherwise := Outcome.inMode .afterHead b.pop
  match token with
  | .comment text => .done (b.putComment text)
  | .character c => if isAsciiBlank c then .done (b.putCharacter c) else otherwise
  | .startTag tag =>
    match tag.name with
    | "html" => .done (b.moreHtml tag)
    | "base" | "basefont" | "bgsound" | "link" | "meta" => .done (b.putVoid tag)
    | "title" => .done (b.openText tag (.escapable tag.name))
    | "noframes" | "style" | "noscript" => .done (b.openText tag (.raw tag.name))
    | "script" => .done (b.openText tag .script)
    | "head" => .done b
    | "template" =>
      let b := (b.openTag tag).pushMarker
      .done { b with
        framesetAllowed := false
        mode := .inTemplate
        templateModes := .inTemplate :: b.templateModes }
    | _ => otherwise
  | .endTag tag =>
    match tag.name with
    | "head" => .done { b.pop with mode := .afterHead }
    | "template" => .done (if b.hasOpen "template" then b.closeTemplate else b)
    | "body" | "html" | "br" => otherwise
    | _ => .done b
  | .endOfInput => otherwise

def afterHeadRule (b : Builder) (token : Token) : Outcome :=
  let otherwise := Outcome.inMode .inBody (b.openImplied "body")
  match token with
  | .comment text => .done (b.putComment text)
  | .character c => if isAsciiBlank c then .done (b.putCharacter c) else otherwise
  | .startTag tag =>
    if tag.name == "html" then .done (b.moreHtml tag)
    else if tag.name == "body" then
      .done { b.openTag tag with framesetAllowed := false, mode := .inBody }
    else if tag.name == "frameset" then .done { b.openTag tag with mode := .inFrameset }
    else if tag.name == "head" then .done b
    else if oneOf headNames tag then
      match b.head with
      | some head => (inHeadRule (b.push head) token).map (·.removeFromStack head.node)
      | none => inHeadRule b token
    else otherwise
  | .endTag tag =>
    match tag.name with
    | "template" => inHeadRule b token
    | "body" | "html" | "br" => otherwise
    | _ => .done b
  | .endOfInput => otherwise

-- ---------------------------------------------------------------------------
-- The body
-- ---------------------------------------------------------------------------

/-- The end of the input closes the templates that are open. -/
def endInTemplate (b : Builder) : Outcome :=
  if b.hasOpen "template" then
    let b := (b.popThroughName "template").clearFormatting
    .again ({ b with templateModes := b.templateModes.drop 1 }).resetMode
  else .done b

/-- Put a void element of the body. -/
def putBodyVoid (b : Builder) (tag : Tag) : Builder :=
  let hidden := tag.name == "input" && isHiddenInput tag
  let b := b.reopenFormatting.putVoid tag
  if hidden then b else { b with framesetAllowed := false }

/-- A `body` tag inside the body only adds attributes. -/
def moreBody (b : Builder) (tag : Tag) : Builder :=
  match b.bodyNode? with
  | some node =>
    if b.hasOpen "template" then b
    else { b with
      framesetAllowed := false
      draft := b.draft.addMissing node (elementAttributes .html tag) }
  | none => b

/-- A frameset takes the place of a body that holds nothing yet. -/
def replaceBody (b : Builder) (tag : Tag) : Builder :=
  match b.bodyNode? with
  | some node =>
    if b.framesetAllowed then
      let html := b.stack.drop (b.stack.length - 1)
      let b := { b with draft := b.draft.detach node, stack := html }
      { b.openTag tag with mode := .inFrameset }
    else b
  | none => b

def startTagInBody (b : Builder) (tag : Tag) : Outcome :=
  let name := tag.name
  let noFrameset (b : Builder) : Builder := { b with framesetAllowed := false }
  if name == "html" then .done (b.moreHtml tag)
  else if headNames.contains name then inHeadRule b (.startTag tag)
  else if name == "body" then .done (b.moreBody tag)
  else if name == "frameset" then .done (b.replaceBody tag)
  else if blockNames.contains name then .done (b.closeParagraph.openTag tag)
  else if headingNames.contains name then
    let b := b.closeParagraph
    .done ((if b.currentIsOneOf headingNames then b.pop else b).openTag tag)
  else if name == "pre" || name == "listing" then
    .done { noFrameset (b.closeParagraph.openTag tag) with skipLineFeed := true }
  else if name == "form" then
    if b.form.isSome && !b.hasOpen "template" then .done b
    else
      let inTemplate := b.hasOpen "template"
      let b := b.closeParagraph.openTag tag
      .done (if inTemplate then b else { b with form := b.stack.head?.map OpenElement.node })
  else if name == "li" then .done (((noFrameset b).closeItem ["li"]).closeParagraph.openTag tag)
  else if name == "dd" || name == "dt" then
    .done (((noFrameset b).closeItem ["dd", "dt"]).closeParagraph.openTag tag)
  else if name == "plaintext" then
    .done { b.closeParagraph.openTag tag with textMode := .plain }
  else if name == "button" then
    .done (noFrameset ((b.closeInScope bordersScope "button").reopenFormatting.openTag tag))
  else if name == "a" then .done (b.closeOpenLink.reopenFormatting.openFormatting tag)
  else if formattingNames.contains name then .done (b.reopenFormatting.openFormatting tag)
  else if name == "nobr" then
    let b := b.reopenFormatting
    let b := if b.hasInScope bordersScope "nobr" then
      (b.closeFormatting "nobr").reopenFormatting else b
    .done (b.openFormatting tag)
  else if ["applet", "marquee", "object"].contains name then
    .done (noFrameset (b.reopenFormatting.openTag tag).pushMarker)
  else if name == "table" then
    let b := if b.old then b else b.closeParagraph
    .done { noFrameset (b.openTag tag) with mode := .inTable }
  else if ["area", "br", "embed", "img", "keygen", "wbr", "input"].contains name then
    .done (b.putBodyVoid tag)
  else if ["param", "source", "track"].contains name then .done (b.putVoid tag)
  else if name == "hr" then .done (noFrameset (b.closeParagraph.putVoid tag))
  else if name == "image" then .done (b.putBodyVoid { tag with name := "img" })
  else if name == "textarea" then
    .done { noFrameset (b.openText tag (.escapable name)) with skipLineFeed := true }
  else if name == "xmp" then
    .done ((noFrameset b.closeParagraph.reopenFormatting).openText tag (.raw name))
  else if name == "iframe" then .done ((noFrameset b).openText tag (.raw name))
  else if name == "noembed" || name == "noscript" then .done (b.openText tag (.raw name))
  else if name == "select" then
    let inTable := [Mode.inTable, .inCaption, .inTableBody, .inRow, .inCell].contains b.mode
    .done { noFrameset (b.reopenFormatting.openTag tag) with
      mode := if inTable then .inSelectInTable else .inSelect }
  else if name == "optgroup" || name == "option" then
    .done ((if b.currentIs "option" then b.pop else b).reopenFormatting.openTag tag)
  else if name == "rb" || name == "rtc" then
    let b := if b.hasInScope bordersScope "ruby" then b.impliedEnds impliedEndNames else b
    .done (b.openTag tag)
  else if name == "rp" || name == "rt" then
    let b := if b.hasInScope bordersScope "ruby" then b.impliedEndsExcept "rtc" else b
    .done (b.openTag tag)
  else if name == "math" then .done (b.openForeign .mathml name tag)
  else if name == "svg" then .done (b.openForeign .svg name tag)
  else if name == "head" || name == "frame" || tablePartNames.contains name then .done b
  else .done (b.reopenFormatting.openTag tag)

/-- The end of a form is the end of the form that was noted, wherever it is. -/
def closeForm (b : Builder) : Builder :=
  if b.hasOpen "template" then b.closeInScope bordersScope "form"
  else match b.form with
    | some node =>
      let b := { b with form := none }
      if inScope bordersScope (·.node == node) b.stack then
        (b.impliedEnds impliedEndNames).removeFromStack node
      else b
    | none => b

def endTagInBody (b : Builder) (tag : Tag) : Outcome :=
  let name := tag.name
  if name == "template" then inHeadRule b (.endTag tag)
  else if name == "body" then
    .done (if b.hasInScope bordersScope "body" then { b with mode := .afterBody } else b)
  else if name == "html" then
    if b.hasInScope bordersScope "body" then .inMode .afterBody b else .done b
  else if closingBlockNames.contains name then .done (b.closeInScope bordersScope name)
  else if name == "form" then .done b.closeForm
  else if name == "p" then
    let b := if b.hasInScope bordersButtonScope "p" then b else b.openImplied "p"
    .done b.closeParagraph
  else if name == "li" then
    .done (if b.hasInScope bordersListScope "li" then
      (b.impliedEndsExcept "li").popThroughName "li" else b)
  else if name == "dd" || name == "dt" then
    .done (if b.hasInScope bordersScope name then
      (b.impliedEndsExcept name).popThroughName name else b)
  else if headingNames.contains name then
    .done (if inScope bordersScope (·.isOneOf headingNames) b.stack then
      (b.impliedEnds impliedEndNames).popThrough (·.isOneOf headingNames) else b)
  else if name == "a" || name == "nobr" || formattingNames.contains name then
    .done (b.closeFormatting name)
  else if ["applet", "marquee", "object"].contains name then
    .done (if b.hasInScope bordersScope name then
      (b.closeInScope bordersScope name).clearFormatting else b)
  else if name == "br" then .done (b.putBodyVoid (.plain "br"))
  else .done (b.closeByName name)

def inBodyRule (b : Builder) : Token → Outcome
  | .character c =>
    if c == '\x00' then .done b
    else
      let b := b.reopenFormatting.putCharacter c
      .done (if isAsciiBlank c then b else { b with framesetAllowed := false })
  | .comment text => .done (b.putComment text)
  | .startTag tag => b.startTagInBody tag
  | .endTag tag => b.endTagInBody tag
  | .endOfInput => if b.templateModes.isEmpty then .done b else b.endInTemplate

/-- The content of an element that is text. -/
def inTextRule (b : Builder) : Token → Outcome
  | .character c => .done (b.putCharacter c)
  | .endOfInput => .inMode b.returnMode b.pop
  | .endTag tag =>
    .done { b.pop with mode := b.returnMode, skipMark := tag.name == "script" }
  | _ => .done b

-- ---------------------------------------------------------------------------
-- Tables
-- ---------------------------------------------------------------------------

/-- What a table cannot hold is treated as in the body, and goes in front of the
    table. -/
def fosterRule (b : Builder) (token : Token) : Outcome :=
  (inBodyRule { b with fostering := true } token).map fun b => { b with fostering := false }

/-- Close what is open inside a table. -/
def clearToTable (b : Builder) : Builder := b.popUntilOneOf ["table", "template", "html"]
def clearToTableBody (b : Builder) : Builder :=
  b.popUntilOneOf ["tbody", "tfoot", "thead", "template", "html"]
def clearToRow (b : Builder) : Builder := b.popUntilOneOf ["tr", "template", "html"]

def inTableRule (b : Builder) (token : Token) : Outcome :=
  match token with
  | .character _ =>
    if b.currentIsOneOf tableStructureNames then
      .again { b with tableText := [], returnMode := b.mode, mode := .inTableText }
    else b.fosterRule token
  | .comment text => .done (b.putComment text)
  | .startTag tag =>
    match tag.name with
    | "caption" => .done { b.clearToTable.pushMarker.openTag tag with mode := .inCaption }
    | "colgroup" => .done { b.clearToTable.openTag tag with mode := .inColumnGroup }
    | "col" => .inMode .inColumnGroup (b.clearToTable.openImplied "colgroup")
    | "tbody" | "tfoot" | "thead" => .done { b.clearToTable.openTag tag with mode := .inTableBody }
    | "td" | "th" | "tr" => .inMode .inTableBody (b.clearToTable.openImplied "tbody")
    | "table" =>
      if b.hasInScope bordersTableScope "table" then
        .again (b.popThroughName "table").resetMode
      else .done b
    | "style" | "script" | "template" => inHeadRule b token
    | "input" => if isHiddenInput tag then .done (b.putVoid tag) else b.fosterRule token
    | "form" =>
      if b.hasOpen "template" || b.form.isSome then .done b
      else
        let b := b.openTag tag
        .done { b with form := b.stack.head?.map OpenElement.node }.pop
    | _ => b.fosterRule token
  | .endTag tag =>
    match tag.name with
    | "table" =>
      .done (if b.hasInScope bordersTableScope "table" then
        (b.popThroughName "table").resetMode else b)
    | "template" => inHeadRule b token
    | "body" | "caption" | "col" | "colgroup" | "html" | "tbody" | "td" | "tfoot" | "th" | "thead"
    | "tr" => .done b
    | _ => b.fosterRule token
  | .endOfInput => inBodyRule b token

/-- Text of a table is kept until something else comes. If it is not all blank, it
    goes in front of the table. -/
def inTableTextRule (b : Builder) : Token → Outcome
  | .character c => .done (if c == '\x00' then b else { b with tableText := c :: b.tableText })
  | _ =>
    let text := b.tableText.reverse
    let put (b : Builder) (c : Char) : Builder :=
      if text.all isAsciiBlank then b.putCharacter c
      else match b.fosterRule (.character c) with
        | .done b => b
        | .again b => b
    .inMode b.returnMode { text.foldl put b with tableText := [] }

def inCaptionRule (b : Builder) (token : Token) : Outcome :=
  let close (next : Builder → Outcome) : Outcome :=
    if b.hasInScope bordersTableScope "caption" then
      next ({ b.closeInScope bordersTableScope "caption" with mode := .inTable }).clearFormatting
    else .done b
  match token with
  | .startTag tag => if oneOf tablePartNames tag then close .again else inBodyRule b token
  | .endTag tag =>
    match tag.name with
    | "caption" => close .done
    | "table" => close .again
    | "body" | "col" | "colgroup" | "html" | "tbody" | "td" | "tfoot" | "th" | "thead" | "tr" =>
      .done b
    | _ => inBodyRule b token
  | _ => inBodyRule b token

def inColumnGroupRule (b : Builder) (token : Token) : Outcome :=
  let otherwise := if b.currentIs "colgroup" then .inMode .inTable b.pop else .done b
  match token with
  | .character c => if isAsciiBlank c then .done (b.putCharacter c) else otherwise
  | .comment text => .done (b.putComment text)
  | .startTag tag =>
    match tag.name with
    | "html" => .done (b.moreHtml tag)
    | "col" => .done (b.putVoid tag)
    | "template" => inHeadRule b token
    | _ => otherwise
  | .endTag tag =>
    match tag.name with
    | "colgroup" => .done (if b.currentIs "colgroup" then { b.pop with mode := .inTable } else b)
    | "col" => .done b
    | "template" => inHeadRule b token
    | _ => otherwise
  | .endOfInput => inBodyRule b token

def inTableBodyRule (b : Builder) (token : Token) : Outcome :=
  let closeSection : Outcome :=
    if inScope bordersTableScope (·.isOneOf sectionHolderNames) b.stack then
      .inMode .inTable b.clearToTableBody.pop
    else .done b
  match token with
  | .startTag tag =>
    match tag.name with
    | "tr" => .done { b.clearToTableBody.openTag tag with mode := .inRow }
    | "th" | "td" => .inMode .inRow (b.clearToTableBody.openImplied "tr")
    | "caption" | "col" | "colgroup" | "tbody" | "tfoot" | "thead" => closeSection
    | _ => inTableRule b token
  | .endTag tag =>
    match tag.name with
    | "tbody" | "tfoot" | "thead" =>
      .done (if b.hasInScope bordersTableScope tag.name then
        { b.clearToTableBody.pop with mode := .inTable } else b)
    | "table" => closeSection
    | "body" | "caption" | "col" | "colgroup" | "html" | "td" | "th" | "tr" => .done b
    | _ => inTableRule b token
  | _ => inTableRule b token

def inRowRule (b : Builder) (token : Token) : Outcome :=
  let hasRow := b.hasInScope bordersTableScope "tr"
  let closed : Builder := { b.clearToRow.pop with mode := .inTableBody }
  let closeRow : Outcome := if hasRow then .again closed else .done b
  match token with
  | .startTag tag =>
    match tag.name with
    | "th" | "td" => .done { (b.clearToRow.openTag tag).pushMarker with mode := .inCell }
    | "caption" | "col" | "colgroup" | "tbody" | "tfoot" | "thead" | "tr" => closeRow
    | _ => inTableRule b token
  | .endTag tag =>
    match tag.name with
    | "tr" => .done (if hasRow then closed else b)
    | "table" => closeRow
    | "tbody" | "tfoot" | "thead" =>
      if b.hasInScope bordersTableScope tag.name then closeRow else .done b
    | "body" | "caption" | "col" | "colgroup" | "html" | "td" | "th" => .done b
    | _ => inTableRule b token
  | _ => inTableRule b token

def inCellRule (b : Builder) (token : Token) : Outcome :=
  match token with
  | .startTag tag =>
    if oneOf tablePartNames tag then
      if inScope bordersTableScope (·.isOneOf ["td", "th"]) b.stack then
        .inMode .inRow b.closeCell
      else .done b
    else inBodyRule b token
  | .endTag tag =>
    match tag.name with
    | "td" | "th" =>
      .done (if b.hasInScope bordersTableScope tag.name then
        ({ b.closeInScope bordersTableScope tag.name with mode := .inRow }).clearFormatting else b)
    | "body" | "caption" | "col" | "colgroup" | "html" => .done b
    | "table" | "tbody" | "tfoot" | "thead" | "tr" =>
      if b.hasInScope bordersTableScope tag.name then .inMode .inRow b.closeCell else .done b
    | _ => inBodyRule b token
  | _ => inBodyRule b token

-- ---------------------------------------------------------------------------
-- Selections
-- ---------------------------------------------------------------------------

def closeSelect (b : Builder) : Builder := (b.popThroughName "select").resetMode

def inSelectRule (b : Builder) (token : Token) : Outcome :=
  let popIf (name : String) (b : Builder) : Builder := if b.currentIs name then b.pop else b
  let hasSelect := b.hasInScope bordersSelectScope "select"
  match token with
  | .character c => .done (if c == '\x00' then b else b.putCharacter c)
  | .comment text => .done (b.putComment text)
  | .startTag tag =>
    match tag.name with
    | "html" => .done (b.moreHtml tag)
    | "option" => .done ((popIf "option" b).openTag tag)
    | "optgroup" => .done ((popIf "optgroup" (popIf "option" b)).openTag tag)
    | "hr" => .done ((popIf "optgroup" (popIf "option" b)).putVoid tag)
    | "select" => .done (if hasSelect then b.closeSelect else b)
    | "input" | "keygen" | "textarea" => if hasSelect then .again b.closeSelect else .done b
    | "script" | "template" => inHeadRule b token
    | _ => .done b
  | .endTag tag =>
    match tag.name with
    | "optgroup" =>
      let inGroup := (b.stack.drop 1).head?.any (·.isNamed "optgroup")
      .done (popIf "optgroup" (if inGroup then popIf "option" b else b))
    | "option" => .done (popIf "option" b)
    | "select" => .done (if hasSelect then b.closeSelect else b)
    | "template" => inHeadRule b token
    | _ => .done b
  | .endOfInput => inBodyRule b token

def inSelectInTableRule (b : Builder) (token : Token) : Outcome :=
  let parts := ["caption", "table", "tbody", "tfoot", "thead", "tr", "td", "th"]
  match token with
  | .startTag tag => if oneOf parts tag then .again b.closeSelect else inSelectRule b token
  | .endTag tag =>
    if oneOf parts tag then
      if b.hasInScope bordersTableScope tag.name then .again b.closeSelect else .done b
    else inSelectRule b token
  | _ => inSelectRule b token

-- ---------------------------------------------------------------------------
-- Templates
-- ---------------------------------------------------------------------------

def inTemplateRule (b : Builder) (token : Token) : Outcome :=
  let become (mode : Mode) : Outcome :=
    .inMode mode { b with templateModes := mode :: b.templateModes.drop 1 }
  match token with
  | .character _ | .comment _ => inBodyRule b token
  | .startTag tag =>
    if oneOf headNames tag then inHeadRule b token
    else match tag.name with
      | "caption" | "colgroup" | "tbody" | "tfoot" | "thead" => become .inTable
      | "col" => become .inColumnGroup
      | "tr" => become .inTableBody
      | "td" | "th" => become .inRow
      | _ => become .inBody
  | .endTag tag => if tag.name == "template" then inHeadRule b token else .done b
  | .endOfInput => b.endInTemplate

-- ---------------------------------------------------------------------------
-- After the body, and framesets
-- ---------------------------------------------------------------------------

def afterBodyRule (b : Builder) (token : Token) : Outcome :=
  let otherwise := Outcome.inMode .inBody b
  match token with
  | .character c => if isAsciiBlank c then inBodyRule b token else otherwise
  | .comment text => .done (b.putCommentAt (.lastIn (b.htmlNode?.getD Draft.root)) text)
  | .startTag tag => if tag.name == "html" then .done (b.moreHtml tag) else otherwise
  | .endTag tag => if tag.name == "html" then .done { b with mode := .afterAfterBody } else otherwise
  | .endOfInput => .done b

def afterAfterBodyRule (b : Builder) (token : Token) : Outcome :=
  let otherwise := Outcome.inMode .inBody b
  match token with
  | .character c => if isAsciiBlank c then inBodyRule b token else otherwise
  | .comment text => .done (b.putCommentAt (.lastIn Draft.root) text)
  | .startTag tag => if tag.name == "html" then .done (b.moreHtml tag) else otherwise
  | .endTag _ => otherwise
  | .endOfInput => .done b

def inFramesetRule (b : Builder) (token : Token) : Outcome :=
  match token with
  | .character c => .done (if isAsciiBlank c then b.putCharacter c else b)
  | .comment text => .done (b.putComment text)
  | .startTag tag =>
    match tag.name with
    | "html" => .done (b.moreHtml tag)
    | "frameset" => .done (b.openTag tag)
    | "frame" => .done (b.putVoid tag)
    | "noframes" => inHeadRule b token
    | _ => .done b
  | .endTag tag =>
    if tag.name == "frameset" && b.stack.length > 1 then
      let b := b.pop
      .done (if b.currentIs "frameset" then b else { b with mode := .afterFrameset })
    else .done b
  | _ => .done b

def afterFramesetRule (b : Builder) (token : Token) : Outcome :=
  match token with
  | .character c => .done (if isAsciiBlank c then b.putCharacter c else b)
  | .comment text => .done (b.putComment text)
  | .startTag tag =>
    match tag.name with
    | "html" => .done (b.moreHtml tag)
    | "noframes" => inHeadRule b token
    | _ => .done b
  | .endTag tag =>
    .done (if tag.name == "html" then { b with mode := .afterAfterFrameset } else b)
  | _ => .done b

def afterAfterFramesetRule (b : Builder) (token : Token) : Outcome :=
  match token with
  | .character c => if isAsciiBlank c then inBodyRule b token else .done b
  | .comment text => .done (b.putCommentAt (.lastIn Draft.root) text)
  | .startTag tag =>
    match tag.name with
    | "html" => .done (b.moreHtml tag)
    | "noframes" => inHeadRule b token
    | _ => .done b
  | _ => .done b

-- ---------------------------------------------------------------------------
-- Choosing the rule
-- ---------------------------------------------------------------------------

/-- The rule of the current mode. -/
def modeRule (b : Builder) (token : Token) : Outcome :=
  match b.mode with
  | .initial => b.initialRule token
  | .beforeHtml => b.beforeHtmlRule token
  | .beforeHead => b.beforeHeadRule token
  | .inHead => b.inHeadRule token
  | .afterHead => b.afterHeadRule token
  | .inBody => b.inBodyRule token
  | .inText => b.inTextRule token
  | .inTable => b.inTableRule token
  | .inTableText => b.inTableTextRule token
  | .inCaption => b.inCaptionRule token
  | .inColumnGroup => b.inColumnGroupRule token
  | .inTableBody => b.inTableBodyRule token
  | .inRow => b.inRowRule token
  | .inCell => b.inCellRule token
  | .inSelect => b.inSelectRule token
  | .inSelectInTable => b.inSelectInTableRule token
  | .inTemplate => b.inTemplateRule token
  | .afterBody => b.afterBodyRule token
  | .inFrameset => b.inFramesetRule token
  | .afterFrameset => b.afterFramesetRule token
  | .afterAfterBody => b.afterAfterBodyRule token
  | .afterAfterFrameset => b.afterAfterFramesetRule token

/-- An HTML element inside foreign ones closes them. -/
def breakOut (b : Builder) (token : Token) : Outcome :=
  let holdsHtml (e : OpenElement) := e.ns == .html || e.holdsMathText || e.holdsSvgHtml
  modeRule { b with stack := b.stack.dropWhile (!holdsHtml ·) } token

/-- Open an element inside a foreign one, in the same vocabulary. -/
def openInForeign (b : Builder) (tag : Tag) : Builder :=
  match b.stack with
  | element :: _ =>
    let name := if element.ns == .svg then respell svgElementSpellings tag.name else tag.name
    b.openForeign element.ns name tag
  | [] => b

/-- Find the foreign element that an end tag closes, from the innermost out. An
    HTML element further out ends the search: then the rule of the mode holds. -/
def closeForeign (b : Builder) (tag : Tag) (innermost : Bool) : List OpenElement → Outcome
  | [] => .done b
  | element :: outer =>
    if outer.isEmpty then .done b
    else if !innermost && element.ns == .html then modeRule b (.endTag tag)
    else if asciiLower element.name == tag.name then .done { b with stack := outer }
    else closeForeign b tag false outer

/-- The rule inside foreign elements. -/
def foreignRule (b : Builder) (token : Token) : Outcome :=
  match token with
  | .character c =>
    if c == '\x00' then .done (b.putCharacter replacement)
    else
      let b := b.putCharacter c
      .done (if isAsciiBlank c then b else { b with framesetAllowed := false })
  | .comment text => .done (b.putComment text)
  | .startTag tag =>
    let shapesFont := ["color", "face", "size"].any fun name => (tag.value? name).isSome
    if oneOf breakoutNames tag || (tag.name == "font" && shapesFont) then b.breakOut token
    else .done (b.openInForeign tag)
  | .endTag tag =>
    if tag.name == "br" || tag.name == "p" then b.breakOut token
    else b.closeForeign tag true b.stack
  | .endOfInput => modeRule b token

/-- Whether the innermost element is foreign and the token is not one of those
    that it treats as HTML. -/
def isForeign (b : Builder) (token : Token) : Bool :=
  match b.stack with
  | [] => false
  | element :: _ =>
    if element.ns == .html then false
    else match token with
      | .endOfInput => false
      | .character _ => !(element.holdsMathText || element.holdsSvgHtml || element.holdsHtml)
      | .startTag tag => element.readsForeign tag
      | _ => true

/-- Deal with a token, looking at it again as often as the rules ask, `fuel` times
    at most. -/
def processWithin : Nat → Builder → Token → Builder
  | 0, b, _ => b
  | fuel + 1, b, token =>
    match if b.isForeign token then b.foreignRule token else b.modeRule token with
    | .done b => b
    | .again b => processWithin fuel b token

/-- A document type declaration counts at the start of the document alone. -/
def declare (b : Builder) (doctype : Declaration) : Builder :=
  if b.mode = .initial then
    let (draft, node) := b.draft.add
      (.doctype (doctype.name.getD "") (doctype.publicId.getD "") (doctype.systemId.getD ""))
    { b with
      draft := draft.put (.lastIn Draft.root) node
      old := doctype.isOld
      mode := .beforeHtml }
  else b

/-- Deal with a lexeme. A line feed is left out only as the very next lexeme after
    the tag that asks for it: even a fault in between lets it stand. Looking at a
    token again closes an element or moves the mode towards the body, and there are
    fewer than thirty modes. -/
def process (b : Builder) (lexeme : Lexeme) : Builder :=
  let skipped := b.skipLineFeed
  let b := { b with skipLineFeed := false }
  match lexeme with
  | .fault => b
  | .declaration doctype => b.declare doctype
  | .token token =>
    match skipped, token with
    | true, .character '\n' => b
    | _, _ => processWithin (2 * b.stack.length + 30) b token

end HtmlTemplate.Html.Builder
