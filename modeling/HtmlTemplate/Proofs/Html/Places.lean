-- SUMMARY: What may stand where: the start tags and texts that are read right inside some open elements.
import HtmlTemplate.Html.OpenElement

/-!
# Places

Whether a start tag opens an element where it stands, and which one, depends on its name and
on the elements that are open, which are listed from the innermost out. A block inside a
paragraph ends the paragraph, a link inside a link the link, and a row outside a table is no
row. `opensIn` says when nothing of this kind happens, `opened` which element is opened, and
`holdsTexts` where a text is read.

These are conditions for a tag to be read as it stands, not all that is read so. Where a
search among the open elements goes on beyond a foreign element, it may stop there as well.
-/

namespace HtmlTemplate.Html

def formattingBorderNames : List String :=
  ["applet", "marquee", "object", "td", "th", "caption", "template"]

namespace OpenElement

/-- The element without its handle. -/
def bare (element : OpenElement) : OpenElement := { element with node := 0 }

/-- The element under a handle. -/
def under (element : OpenElement) (node : Handle) : OpenElement := { element with node }

/-- An HTML element, without a handle. -/
def html (name : String) : OpenElement := ⟨0, .html, name, false⟩

/-- A foreign element, without a handle. -/
def foreign (ns : Namespace) (name : String) (tag : Tag) : OpenElement :=
  ⟨0, ns, name, annotationHoldsHtml ns name (elementAttributes ns tag)⟩

/-- Elements that formatting does not cross. -/
def bordersFormatting (element : OpenElement) : Bool := element.isOneOf formattingBorderNames

end OpenElement

open OpenElement (inScope bordersScope bordersButtonScope)

-- ---------------------------------------------------------------------------
-- Kinds of start tags
-- ---------------------------------------------------------------------------

/-- What a start tag means in the body. -/
inductive BodyStart where
  | html
  | head
  | body
  | frameset
  | block
  | heading
  | preformatted
  | form
  /-- An item closes another one of these names. -/
  | item (names : List String)
  | plaintext
  | button
  | link
  | formatting
  | nobr
  /-- An element that formatting does not cross. -/
  | bordered
  | table
  /-- A void element that reopens formatting. -/
  | phrasingVoid
  | plainVoid
  | rule
  | image
  | textarea
  | xmp
  | iframe
  | rawText
  | select
  | option
  | rubyBase
  | rubyText
  | foreign (ns : Namespace)
  | ignored
  | ordinary
deriving DecidableEq

def bodyStart (name : String) : BodyStart :=
  if name == "html" then .html
  else if headNames.contains name then .head
  else if name == "body" then .body
  else if name == "frameset" then .frameset
  else if blockNames.contains name then .block
  else if headingNames.contains name then .heading
  else if name == "pre" || name == "listing" then .preformatted
  else if name == "form" then .form
  else if name == "li" then .item ["li"]
  else if name == "dd" || name == "dt" then .item ["dd", "dt"]
  else if name == "plaintext" then .plaintext
  else if name == "button" then .button
  else if name == "a" then .link
  else if formattingNames.contains name then .formatting
  else if name == "nobr" then .nobr
  else if ["applet", "marquee", "object"].contains name then .bordered
  else if name == "table" then .table
  else if ["area", "br", "embed", "img", "keygen", "wbr", "input"].contains name then .phrasingVoid
  else if ["param", "source", "track"].contains name then .plainVoid
  else if name == "hr" then .rule
  else if name == "image" then .image
  else if name == "textarea" then .textarea
  else if name == "xmp" then .xmp
  else if name == "iframe" then .iframe
  else if name == "noembed" || name == "noscript" then .rawText
  else if name == "select" then .select
  else if name == "optgroup" || name == "option" then .option
  else if name == "rb" || name == "rtc" then .rubyBase
  else if name == "rp" || name == "rt" then .rubyText
  else if name == "math" then .foreign .mathml
  else if name == "svg" then .foreign .svg
  else if name == "head" || name == "frame" || tablePartNames.contains name then .ignored
  else .ordinary

/-- The names of a kind; all other names are ordinary. -/
def BodyStart.names : BodyStart → List String
  | .html => ["html"]
  | .head => headNames
  | .body => ["body"]
  | .frameset => ["frameset"]
  | .block => blockNames
  | .heading => headingNames
  | .preformatted => ["pre", "listing"]
  | .form => ["form"]
  | .item names => names
  | .plaintext => ["plaintext"]
  | .button => ["button"]
  | .link => ["a"]
  | .formatting => formattingNames
  | .nobr => ["nobr"]
  | .bordered => ["applet", "marquee", "object"]
  | .table => ["table"]
  | .phrasingVoid => ["area", "br", "embed", "img", "keygen", "wbr", "input"]
  | .plainVoid => ["param", "source", "track"]
  | .rule => ["hr"]
  | .image => ["image"]
  | .textarea => ["textarea"]
  | .xmp => ["xmp"]
  | .iframe => ["iframe"]
  | .rawText => ["noembed", "noscript"]
  | .select => ["select"]
  | .option => ["optgroup", "option"]
  | .rubyBase => ["rb", "rtc"]
  | .rubyText => ["rp", "rt"]
  | .foreign .mathml => ["math"]
  | .foreign .svg => ["svg"]
  | .foreign .html => []
  | .ignored => "head" :: "frame" :: tablePartNames
  | .ordinary => []

theorem BodyStart.mem_names {name : String} {start : BodyStart} (h : bodyStart name = start)
    (hne : start ≠ .ordinary) : name ∈ start.names := by
  subst h
  fun_cases bodyStart name <;> simp_all [BodyStart.names, or_assoc]
  simp_all [bodyStart]

-- ---------------------------------------------------------------------------
-- What may stand inside
-- ---------------------------------------------------------------------------

/-- What the next token means inside the open elements. -/
def contentMode (stack : List OpenElement) : Mode :=
  .ofStack true .inTemplate stack

/-- A paragraph that the tag of a block would end. -/
def hasParagraph (stack : List OpenElement) : Bool :=
  inScope bordersButtonScope (·.isNamed "p") stack

/-- An element of the name with no border of a scope further in. -/
def hasInScope (name : String) (stack : List OpenElement) : Bool :=
  inScope bordersScope (·.isNamed name) stack

def innermostIsOneOf (names : List String) (stack : List OpenElement) : Bool :=
  stack.head?.any (·.isOneOf names)

/-- Where the search for an open item stops at the latest. An `isindex` stops it for some
    readers only. -/
def stopsItemSearch (names : List String) (element : OpenElement) : Bool :=
  element.isOneOf names ||
    (element.isOneOf specialNames && !element.isOneOf ["address", "div", "p", "isindex"])

/-- An item that another item would end. -/
def hasItem (names : List String) (stack : List OpenElement) : Bool :=
  (stack.find? (stopsItemSearch names)).any (·.isOneOf names)

/-- A link that another link would end. -/
def hasLink (stack : List OpenElement) : Bool :=
  (stack.takeWhile (!·.bordersFormatting)).any (·.isNamed "a")

/-- Whether a start tag in the body ends nothing and is not ignored. -/
def BodyStart.opensIn (stack : List OpenElement) : BodyStart → Bool
  | .block | .preformatted | .rule | .xmp => !hasParagraph stack
  | .heading => !hasParagraph stack && !innermostIsOneOf headingNames stack
  | .form => !hasParagraph stack && !stack.any (·.isNamed "form")
  | .item names => !hasItem names stack && !hasParagraph stack
  | .button => !hasInScope "button" stack
  | .link => !hasLink stack
  | .nobr => !hasInScope "nobr" stack
  | .option => !innermostIsOneOf ["option"] stack
  | .rubyBase => !(hasInScope "ruby" stack && innermostIsOneOf impliedEndNames stack)
  | .rubyText =>
    !(hasInScope "ruby" stack && innermostIsOneOf (impliedEndNames.erase "rtc") stack)
  | .head | .formatting | .bordered | .table | .phrasingVoid | .plainVoid | .textarea | .iframe
  | .rawText | .select | .foreign _ | .ordinary => true
  | .html | .body | .frameset | .plaintext | .image | .ignored => false

/-- The parts of tables that hold nodes, each with the mode it stands in and the mode inside. -/
def tableParts : List (String × Mode × Mode) :=
  [("caption", .inTable, .inCaption), ("colgroup", .inTable, .inColumnGroup),
   ("tbody", .inTable, .inTableBody), ("tfoot", .inTable, .inTableBody),
   ("thead", .inTable, .inTableBody), ("tr", .inTableBody, .inRow), ("td", .inRow, .inCell),
   ("th", .inRow, .inCell)]

/-- The elements that a part with this mode around it stands in. -/
def holderNames : Mode → List String
  | .inTable => ["table"]
  | .inTableBody => ["tbody", "tfoot", "thead"]
  | .inRow => ["tr"]
  | _ => []

/-- Elements that may stand anywhere in a table. -/
def tableScriptNames : List String := ["style", "script", "template"]

/-- Whether a start tag in a table, or in a part that holds further parts, opens such a part or
    one of the elements that may stand anywhere there. -/
def opensInTable (stack : List OpenElement) (name : String) : Bool :=
  innermostIsOneOf (holderNames (contentMode stack)) stack &&
    (tableScriptNames.contains name ||
      tableParts.any fun part => part.1 == name && part.2.1 == contentMode stack)

/-- Whether a start tag in a selection ends nothing and is not ignored. -/
def opensInSelect (stack : List OpenElement) (name : String) : Bool :=
  if name == "option" then !innermostIsOneOf ["option"] stack
  else if name == "optgroup" || name == "hr" then !innermostIsOneOf ["option", "optgroup"] stack
  else ["script", "template"].contains name

/-- Whether the innermost element is foreign, and a tag is read as one of its vocabulary. -/
def readsForeign (stack : List OpenElement) (tag : Tag) : Bool :=
  stack.head?.any (·.readsForeign tag)

/-- Whether a start tag opens an element right inside the innermost one. -/
def opensIn (stack : List OpenElement) (tag : Tag) : Bool :=
  if readsForeign stack tag then
    !breakoutNames.contains tag.name &&
      !(tag.name == "font" && ["color", "face", "size"].any fun name => (tag.value? name).isSome)
  else match contentMode stack with
    | .inBody | .inCell | .inCaption => (bodyStart tag.name).opensIn stack
    | .inTable | .inTableBody | .inRow => opensInTable stack tag.name
    | .inColumnGroup => innermostIsOneOf ["colgroup"] stack && ["col", "template"].contains tag.name
    | .inSelect | .inSelectInTable => opensInSelect stack tag.name
    | _ => false

/-- The element that a start tag opens in the body. -/
def openedInBody (tag : Tag) : OpenElement :=
  match bodyStart tag.name with
  | .foreign ns => .foreign ns tag.name tag
  | _ => .html tag.name

/-- The element that a start tag opens. -/
def opened (stack : List OpenElement) (tag : Tag) : OpenElement :=
  if readsForeign stack tag then
    match stack with
    | [] => .html tag.name
    | top :: _ =>
      .foreign top.ns
        (if top.ns == .svg then respell svgElementSpellings tag.name else tag.name) tag
  else openedInBody tag

/-- Whether a text is read where it stands. Parts of tables hold none. -/
def holdsTexts (stack : List OpenElement) : Bool :=
  match contentMode stack with
  | .inBody | .inCell | .inCaption | .inSelect | .inSelectInTable => true
  | _ => false

-- ---------------------------------------------------------------------------
-- What is opened
-- ---------------------------------------------------------------------------

section Opened

variable {tag : Tag} {top : OpenElement} {outer stack : List OpenElement}

theorem openedInBody_eq {tag : Tag} (h : ∀ ns, bodyStart tag.name ≠ .foreign ns) :
    openedInBody tag = .html tag.name := by
  unfold openedInBody
  split
  · next ns hkind => exact absurd hkind (h ns)
  · rfl

theorem ns_ne_html_of_bodyStart {name : String} {ns : Namespace} (h : bodyStart name = .foreign ns) :
    ns ≠ .html := by
  rintro rfl
  exact absurd (BodyStart.mem_names h nofun) List.not_mem_nil

theorem ns_ne_html_of_readsForeign
    (hforeign : readsForeign (top :: outer) tag = true) : top.ns ≠ .html := by
  intro hns
  simp [readsForeign, OpenElement.readsForeign, hns] at hforeign

theorem opened_of_html (hforeign : readsForeign stack tag = false) :
    opened stack tag = openedInBody tag := by
  unfold opened
  rw [hforeign, if_neg Bool.false_ne_true]

theorem opened_of_foreign
    (hforeign : readsForeign (top :: outer) tag = true) :
    opened (top :: outer) tag = .foreign top.ns
      (if top.ns == .svg then respell svgElementSpellings tag.name else tag.name) tag := by
  unfold opened
  rw [hforeign, if_pos rfl]

/-- An HTML element is opened under the name of its tag. -/
theorem opened_eq_html (hns : (opened stack tag).ns = .html) :
    readsForeign stack tag = false ∧ opened stack tag = .html tag.name := by
  have hforeign : readsForeign stack tag = false := by
    rw [Bool.eq_false_iff]
    intro hforeign
    cases stack with
    | nil => cases hforeign
    | cons top outer =>
      rw [opened_of_foreign hforeign] at hns
      exact ns_ne_html_of_readsForeign hforeign hns
  rw [opened_of_html hforeign] at hns ⊢
  refine ⟨hforeign, openedInBody_eq fun ns hkind => ?_⟩
  rw [openedInBody, hkind] at hns
  exact ns_ne_html_of_bodyStart hkind hns

theorem openedInBody_of_mem {names : List String}
    (hnames : ∀ name ∈ names, name ≠ "math" ∧ name ≠ "svg") (hname : tag.name ∈ names) :
    openedInBody tag = .html tag.name := by
  refine openedInBody_eq fun ns hkind => ?_
  have hmem := BodyStart.mem_names hkind nofun
  cases ns with
  | html => cases hmem
  | svg => exact (hnames _ hname).2 (List.mem_singleton.mp hmem)
  | mathml => exact (hnames _ hname).1 (List.mem_singleton.mp hmem)

theorem mem_of_opensInTable {name : String}
    (hopens : opensInTable stack name = true) :
    name ∈ tableScriptNames ++ tableParts.map (·.1) := by
  rw [opensInTable, Bool.and_eq_true, Bool.or_eq_true, List.any_eq_true] at hopens
  obtain ⟨-, hscript | ⟨part, hpart, hfits⟩⟩ := hopens
  · exact List.mem_append_left _ (List.contains_iff_mem.mp hscript)
  · rw [Bool.and_eq_true, beq_iff_eq] at hfits
    exact List.mem_append_right _ (List.mem_map.mpr ⟨part, hpart, hfits.1⟩)

theorem opensInSelect_iff {name : String} :
    opensInSelect stack name = true ↔
    name = "option" ∧ innermostIsOneOf ["option"] stack = false ∨
      (name = "optgroup" ∨ name = "hr") ∧
        innermostIsOneOf ["option", "optgroup"] stack = false ∨
      name = "script" ∨ name = "template" := by
  rw [opensInSelect]
  split
  · next hname => simp [beq_iff_eq.mp hname]
  · split
    · next hname =>
      obtain hname | hname : name = "optgroup" ∨ name = "hr" := by simpa using hname
      all_goals simp [hname]
    · simp_all

end Opened

end HtmlTemplate.Html
