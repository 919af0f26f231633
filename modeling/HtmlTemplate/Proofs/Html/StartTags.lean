-- SUMMARY: What start tags do in tables, in selections and among foreign elements.
import HtmlTemplate.Proofs.Html.Opening

/-!
# Start tags

Which rule a start tag follows depends on where reading stands. A tag that opens an element
there follows the rule of the mode that goes with the open elements, or that of foreign
elements. In each case the element is opened, or put there if it holds nothing, or its text
is read next.
-/

namespace HtmlTemplate.Html

/-- Nothing is put inside. -/
def Holding.isEmpty : Holding → Bool
  | .void | .nothing => true
  | .template | .text | .nodes => false

/-- How the content of an element is cut if it is text. -/
def contentTextMode (name : String) : TextMode :=
  if name == "script" then .script
  else if ["title", "textarea"].contains name then .escapable name
  else .raw name

/-- Elements of the body whose content is text without references. -/
def rawContentNames : List String := ["xmp", "iframe", "noembed", "noscript"]

theorem rawContent_of_mem {name : String} (h : name ∈ rawContentNames) :
    (OpenElement.html name).holding = .text ∧ contentTextMode name = .raw name ∧
      (OpenElement.html name).skipsLineFeed = false := by
  simp only [rawContentNames, List.mem_cons, List.not_mem_nil, or_false] at h
  obtain rfl | rfl | rfl | rfl := h <;> exact ⟨by decide, rfl, by decide⟩

namespace Builder

section Starts

variable (b : Builder) (element : OpenElement) (attributes : List Attribute)

/-- The draft with an element put into the innermost one. -/
def draftWith : Draft :=
  b.draft.putElement b.innermost element.ns element.name attributes

/-- An element without content has been put. -/
def Puts (later : Builder) : Prop :=
  ∃ allowed, later = { b with draft := b.draftWith element attributes, framesetAllowed := allowed }

/-- An element has been opened whose text comes next. -/
def OpensText (later : Builder) : Prop :=
  ∃ allowed, later = { b with
    draft := b.draftWith element attributes
    stack := element.under b.draft.size :: b.stack
    returnMode := b.mode
    mode := .inText
    textMode := contentTextMode element.name
    framesetAllowed := allowed
    skipLineFeed := b.skipLineFeed || element.skipsLineFeed }

/-- A template has been opened. -/
def OpensTemplate (later : Builder) : Prop :=
  later = { b with
    draft := b.draftWith element attributes
    stack := element.under b.draft.size :: b.stack
    formatting := .marker :: b.formatting
    mode := .inTemplate
    templateModes := .inTemplate :: b.templateModes
    framesetAllowed := false }

/-- What has happened to an element, by what is inside it. -/
def Starts (later : Builder) : Prop :=
  match element.holding with
  | .void | .nothing => b.Puts element attributes later
  | .template => b.OpensTemplate element attributes later
  | .text => b.OpensText element attributes later
  | .nodes => b.Opens element attributes later

variable {b element attributes} {later : Builder}

theorem starts_of_puts (hholding : element.holding.isEmpty = true)
    (h : b.Puts element attributes later) : b.Starts element attributes later := by
  rw [Starts]
  cases hkind : element.holding <;> rw [hkind] at hholding <;> first | exact h | cases hholding

theorem starts_of_opensText (hholding : element.holding = .text)
    (h : b.OpensText element attributes later) : b.Starts element attributes later := by
  rwa [Starts, hholding]

end Starts

end Builder

-- ---------------------------------------------------------------------------
-- Which rule a start tag follows
-- ---------------------------------------------------------------------------

theorem Mode.eq_of_plain {mode other : Mode} (h : mode.plain = other.plain)
    (hne : other.plain ≠ .inSelect) : mode = other := by
  cases mode <;> cases other <;> first | rfl | exact absurd rfl hne | cases h

def rowHolderNames : List String := ["tbody", "tfoot", "thead"]

def cellNames : List String := ["td", "th"]

/-- The kinds of parts, by the rule that their tags follow. -/
inductive TablePart (name : String) : Mode → Mode → Prop where
  | caption (h : name = "caption") : TablePart name .inTable .inCaption
  | columns (h : name = "colgroup") : TablePart name .inTable .inColumnGroup
  | rows (h : name ∈ rowHolderNames) : TablePart name .inTable .inTableBody
  | row (h : name = "tr") : TablePart name .inTableBody .inRow
  | cell (h : name ∈ cellNames) : TablePart name .inRow .inCell

theorem tableParts_cases {name : String} {outside inside : Mode}
    (h : (name, outside, inside) ∈ tableParts) : TablePart name outside inside := by
  simp only [tableParts, List.mem_cons, Prod.mk.injEq, List.not_mem_nil, or_false] at h
  obtain ⟨rfl, rfl, rfl⟩ | ⟨rfl, rfl, rfl⟩ | ⟨rfl, rfl, rfl⟩ | ⟨rfl, rfl, rfl⟩ | ⟨rfl, rfl, rfl⟩ |
    ⟨rfl, rfl, rfl⟩ | ⟨rfl, rfl, rfl⟩ | ⟨rfl, rfl, rfl⟩ := h
  · exact .caption rfl
  · exact .columns rfl
  · exact .rows (by decide)
  · exact .rows (by decide)
  · exact .rows (by decide)
  · exact .row rfl
  · exact .cell (by decide)
  · exact .cell (by decide)

namespace Builder

/-- The rule for a token, among foreign elements or not. -/
def rule (b : Builder) (token : Token) : Outcome :=
  if b.isForeign token then b.foreignRule token else b.modeRule token

variable {b : Builder} {tag : Tag}

theorem isForeign_startTag (b : Builder) (tag : Tag) :
    b.isForeign (.startTag tag) = readsForeign b.stack tag := by
  rw [readsForeign, isForeign]
  cases b.stack with
  | nil => rfl
  | cons top outer => cases hns : top.ns <;> simp [OpenElement.readsForeign, hns]

theorem modeRule_startTag
    (hmode : b.mode = .inBody ∨ b.mode = .inCell ∨ b.mode = .inCaption)
    (hkind : bodyStart tag.name ≠ .ignored) :
    b.modeRule (.startTag tag) = b.startRule tag (bodyStart tag.name) := by
  have hparts : ∀ name ∈ tablePartNames, bodyStart name = .ignored := by decide +kernel
  have hpart : oneOf tablePartNames tag = false := by
    rw [oneOf, List.contains_eq_mem, decide_eq_false_iff_not]
    exact fun hmem => hkind (hparts _ hmem)
  rw [← startTagInBody_eq]
  obtain hm | hm | hm := hmode <;> rw [modeRule, hm]
  · rfl
  · rw [inCellRule]
    dsimp only
    rw [hpart, if_neg Bool.false_ne_true]
    rfl
  · rw [inCaptionRule]
    dsimp only
    rw [hpart, if_neg Bool.false_ne_true]
    rfl

/-! ### Parts of tables -/

theorem modeRule_caption (hmode : b.mode = .inTable) (hname : tag.name = "caption") :
    b.modeRule (.startTag tag) =
      .done { b.clearToTable.pushMarker.openTag tag with mode := .inCaption } := by
  obtain ⟨name, attributes, selfClosing⟩ := tag
  obtain rfl : name = _ := hname
  rw [modeRule, hmode]
  rfl

theorem modeRule_columns (hmode : b.mode = .inTable) (hname : tag.name = "colgroup") :
    b.modeRule (.startTag tag) =
      .done { b.clearToTable.openTag tag with mode := .inColumnGroup } := by
  obtain ⟨name, attributes, selfClosing⟩ := tag
  obtain rfl : name = _ := hname
  rw [modeRule, hmode]
  rfl

theorem modeRule_rows (hmode : b.mode = .inTable) (hname : tag.name ∈ rowHolderNames) :
    b.modeRule (.startTag tag) =
      .done { b.clearToTable.openTag tag with mode := .inTableBody } := by
  obtain ⟨name, attributes, selfClosing⟩ := tag
  simp only [rowHolderNames, List.mem_cons, List.not_mem_nil, or_false] at hname
  rw [modeRule, hmode]
  obtain rfl | rfl | rfl := hname <;> rfl

theorem modeRule_row (hmode : b.mode = .inTableBody) (hname : tag.name = "tr") :
    b.modeRule (.startTag tag) =
      .done { b.clearToTableBody.openTag tag with mode := .inRow } := by
  obtain ⟨name, attributes, selfClosing⟩ := tag
  obtain rfl : name = _ := hname
  rw [modeRule, hmode]
  rfl

theorem modeRule_cell (hmode : b.mode = .inRow) (hname : tag.name ∈ cellNames) :
    b.modeRule (.startTag tag) =
      .done { (b.clearToRow.openTag tag).pushMarker with mode := .inCell } := by
  obtain ⟨name, attributes, selfClosing⟩ := tag
  simp only [cellNames, List.mem_cons, List.not_mem_nil, or_false] at hname
  rw [modeRule, hmode]
  obtain rfl | rfl := hname <;> rfl

/-- The elements that may stand anywhere in a table are those of the head. -/
theorem modeRule_tableScript
    (hmode : b.mode = .inTable ∨ b.mode = .inTableBody ∨ b.mode = .inRow)
    (hname : tag.name ∈ tableScriptNames) :
    b.modeRule (.startTag tag) = b.inHeadRule (.startTag tag) := by
  obtain ⟨name, attributes, selfClosing⟩ := tag
  simp only [tableScriptNames, List.mem_cons, List.not_mem_nil, or_false] at hname
  obtain hm | hm | hm := hmode <;> rw [modeRule, hm] <;>
    obtain rfl | rfl | rfl := hname <;> rfl

theorem modeRule_startTag_select (hmode : b.mode.plain = .inSelect)
    (hname : tag.name ∈ ["option", "optgroup", "hr", "script", "template"]) :
    b.modeRule (.startTag tag) = b.inSelectRule (.startTag tag) := by
  have hparts : ∀ name ∈ ["option", "optgroup", "hr", "script", "template"],
      ["caption", "table", "tbody", "tfoot", "thead", "tr", "td", "th"].contains name = false := by
    decide
  cases hm : b.mode <;> rw [hm] at hmode <;> cases hmode <;> rw [modeRule, hm]
  rw [inSelectInTableRule]
  dsimp only
  rw [oneOf, hparts _ hname, if_neg Bool.false_ne_true]

/-- In a selection, nothing is closed by a tag that may stand there. -/
theorem popIf_eq {name : String} (hnone : innermostIsOneOf ["option", "optgroup"] b.stack = false)
    (hname : name ∈ ["option", "optgroup"]) : (if b.currentIs name then b.pop else b) = b := by
  rw [currentIs_eq, innermostIsOneOf_subset hnone (by simpa using hname), if_neg Bool.false_ne_true]

end Builder

namespace Builder.Ready

variable {b : Builder} (h : b.Ready) {tag : Tag}
include h

-- ---------------------------------------------------------------------------
-- Elements of the head
-- ---------------------------------------------------------------------------

theorem putVoid_puts (tag : Tag) :
    b.Puts (.html tag.name) (elementAttributes .html tag) (b.putVoid tag) :=
  ⟨b.framesetAllowed, putVoid_eq h.place_eq tag⟩

theorem openText_opensText (tag : Tag) {textMode : TextMode}
    (hmode : contentTextMode tag.name = textMode) (allowed : Bool) {skip : Bool}
    (hskip : skip = (b.skipLineFeed || (OpenElement.html tag.name).skipsLineFeed)) :
    b.OpensText (.html tag.name) (elementAttributes .html tag)
      { b.openText tag textMode with framesetAllowed := allowed, skipLineFeed := skip } := by
  subst hmode
  refine ⟨allowed, ?_⟩
  rw [openText, openTag_eq h.place_eq, hskip]
  rfl

/-- Only for a text area a line feed is left out. -/
theorem openText_opensText_plain (tag : Tag) {textMode : TextMode}
    (hmode : contentTextMode tag.name = textMode)
    (hskip : (OpenElement.html tag.name).skipsLineFeed = false) :
    b.OpensText (.html tag.name) (elementAttributes .html tag) (b.openText tag textMode) := by
  have hopens := h.openText_opensText tag hmode b.framesetAllowed
    (OpenElement.or_skipsLineFeed hskip _)
  rw [openText, openTag_eq h.place_eq] at hopens ⊢
  exact hopens

theorem openText_withoutFrameset (tag : Tag) (textMode : TextMode) :
    b.withoutFrameset.openText tag textMode = (b.openText tag textMode).withoutFrameset := by
  have hplace : b.withoutFrameset.place = .lastIn b.innermost := h.place_of rfl rfl rfl
  rw [openText, openText, openTag_eq hplace, openTag_eq h.place_eq]
  rfl

/-- Raw text is awaited, whatever becomes of the frame set. -/
theorem starts_rawContent (hraw : tag.name ∈ rawContentNames) (allowed : Bool) :
    b.Starts (.html tag.name) (elementAttributes .html tag)
      { b.openText tag (.raw tag.name) with framesetAllowed := allowed } := by
  obtain ⟨hholding, hmode, hskip⟩ := rawContent_of_mem hraw
  have hopens := h.openText_opensText tag hmode allowed (OpenElement.or_skipsLineFeed hskip _)
  rw [openText, openTag_eq h.place_eq] at hopens ⊢
  exact starts_of_opensText hholding hopens

theorem openTemplate_eq (tag : Tag) :
    b.OpensTemplate (.html tag.name) (elementAttributes .html tag)
      { (b.openTag tag).pushMarker with
        framesetAllowed := false
        mode := .inTemplate
        templateModes := .inTemplate :: (b.openTag tag).pushMarker.templateModes } := by
  rw [openTag_eq h.place_eq]
  rfl

/-- The elements of the head are opened or put wherever they stand. -/
theorem inHeadRule_starts (hname : tag.name ∈ headNames) :
    ∃ later, b.inHeadRule (.startTag tag) = .done later ∧
      b.Starts (.html tag.name) (elementAttributes .html tag) later := by
  have hskip := (by decide : ∀ name ∈ headNames,
    (OpenElement.html name).skipsLineFeed = false) _ hname
  obtain ⟨name, attributes, selfClosing⟩ := tag
  simp only [headNames, List.mem_cons, List.not_mem_nil, or_false] at hname
  obtain rfl | rfl | rfl | rfl | rfl | rfl | rfl | rfl | rfl | rfl := hname
  · exact ⟨_, rfl, h.putVoid_puts _⟩
  · exact ⟨_, rfl, h.putVoid_puts _⟩
  · exact ⟨_, rfl, h.putVoid_puts _⟩
  · exact ⟨_, rfl, h.putVoid_puts _⟩
  · exact ⟨_, rfl, h.putVoid_puts _⟩
  · exact ⟨_, rfl, h.openText_opensText_plain _ rfl hskip⟩
  · exact ⟨_, rfl, h.openText_opensText_plain _ rfl hskip⟩
  · exact ⟨_, rfl, h.openText_opensText_plain _ rfl hskip⟩
  · exact ⟨_, rfl, h.openTemplate_eq _⟩
  · exact ⟨_, rfl, h.openText_opensText_plain _ rfl hskip⟩

-- ---------------------------------------------------------------------------
-- In the body
-- ---------------------------------------------------------------------------

theorem putBodyVoid_puts (tag : Tag) :
    b.Puts (.html tag.name) (elementAttributes .html tag) (b.putBodyVoid tag) := by
  rw [putBodyVoid, h.reopenFormatting_eq, putVoid_eq h.place_eq]
  dsimp only
  split
  · exact ⟨b.framesetAllowed, rfl⟩
  · exact ⟨false, rfl⟩

/-- A start tag that may stand in the body puts or opens its element. -/
theorem startRule_starts (hclosing : tag.selfClosing = false)
    (hopens : (bodyStart tag.name).opensIn b.stack = true) :
    ∃ later, b.startRule tag (bodyStart tag.name) = .done later ∧
      b.Starts (openedInBody tag) (elementAttributes (openedInBody tag).ns tag) later := by
  cases hleaf : (bodyStart tag.name).opensLeaf with
  | false =>
    have hne : bodyStart tag.name ≠ .ignored := by
      intro hkind
      rw [hkind] at hopens
      cases hopens
    have hholding := holding_openedInBody hleaf hne
    obtain ⟨later, hrule, hlater⟩ := h.startRule_opens hclosing hopens hholding
    exact ⟨later, hrule, by rwa [Starts, hholding]⟩
  | true =>
  have hvoid : ∀ kind ∈ [BodyStart.phrasingVoid, .plainVoid, .rule], ∀ name ∈ kind.names,
      (OpenElement.html name).holding.isEmpty = true := by decide
  have hraw (kind : BodyStart) (hmem : kind ∈ [BodyStart.xmp, .iframe, .rawText])
      (hkind : bodyStart tag.name = kind) : tag.name ∈ rawContentNames := by
    have hnames : ∀ kind ∈ [BodyStart.xmp, .iframe, .rawText], kind ≠ .ordinary ∧
        kind.names ⊆ rawContentNames := by decide
    obtain ⟨hne, hsubset⟩ := hnames kind hmem
    exact hsubset (BodyStart.mem_names hkind hne)
  rw [openedInBody_eq fun ns hns => by rw [hns] at hleaf; cases hleaf]
  cases hkind : bodyStart tag.name <;> rw [hkind] at hopens hleaf
  case head => exact h.inHeadRule_starts (BodyStart.mem_names hkind (by decide))
  case phrasingVoid =>
    have hholding := hvoid _ (by decide) _ (BodyStart.mem_names hkind (by decide))
    exact ⟨_, rfl, starts_of_puts hholding (h.putBodyVoid_puts tag)⟩
  case plainVoid =>
    have hholding := hvoid _ (by decide) _ (BodyStart.mem_names hkind (by decide))
    exact ⟨_, rfl, starts_of_puts hholding (h.putVoid_puts tag)⟩
  case rule =>
    have hholding := hvoid _ (by decide) _ (BodyStart.mem_names hkind (by decide))
    simp only [BodyStart.opensIn, Bool.not_eq_true'] at hopens
    refine ⟨_, ?_, starts_of_puts hholding ⟨false, rfl⟩⟩
    rw [startRule, closeParagraph_eq hopens, putVoid_eq h.place_eq]
    rfl
  case textarea =>
    have hmem := BodyStart.mem_names hkind (by decide)
    have hname : tag.name = "textarea" := List.mem_singleton.mp hmem
    have hmode : contentTextMode tag.name = .escapable tag.name := by rw [hname]; rfl
    have hskips : (OpenElement.html tag.name).skipsLineFeed = true := by rw [hname]; decide
    exact ⟨_, rfl, starts_of_opensText (by rw [hname]; decide)
      (h.openText_opensText tag hmode false (by rw [hskips, Bool.or_true]))⟩
  case xmp =>
    simp only [BodyStart.opensIn, Bool.not_eq_true'] at hopens
    refine ⟨_, ?_, h.starts_rawContent (hraw _ (by decide) hkind) false⟩
    rw [startRule, closeParagraph_eq hopens, h.reopenFormatting_eq, h.openText_withoutFrameset]
    rfl
  case iframe =>
    refine ⟨_, ?_, h.starts_rawContent (hraw _ (by decide) hkind) false⟩
    rw [startRule, h.openText_withoutFrameset]
    rfl
  case rawText =>
    obtain ⟨hholding, hmode, hskip⟩ := rawContent_of_mem (hraw _ (by decide) hkind)
    exact ⟨_, rfl, starts_of_opensText hholding (h.openText_opensText_plain tag hmode hskip)⟩
  all_goals cases hleaf

-- ---------------------------------------------------------------------------
-- In tables
-- ---------------------------------------------------------------------------

/-- A part of a table is opened, with a border for formatting or none. -/
theorem opens_part {name : String} {outside inside : Mode}
    (hpart : (name, outside, inside) ∈ tableParts) :
    b.Opens (.html name) (elementAttributes .html tag)
      { b with
        draft := b.draft.putElement b.innermost .html name (elementAttributes .html tag)
        stack := (OpenElement.html name).under b.draft.size :: b.stack
        formatting :=
          if (OpenElement.html name).bordersFormatting then .marker :: b.formatting
          else b.formatting
        mode := inside } := by
  have hparts : ∀ part ∈ tableParts, (OpenElement.html part.1).holding = .nodes ∧
      (OpenElement.html part.1).skipsLineFeed = false ∧
      (OpenElement.html part.1).isNamed "form" = false := by decide
  obtain ⟨hholding, hskip, hform⟩ := hparts _ hpart
  have hformatting : Follows
      (if (OpenElement.html name).bordersFormatting then .marker :: b.formatting else b.formatting)
      ((OpenElement.html name).under b.draft.size :: b.stack) := by
    cases hborder : (OpenElement.html name).bordersFormatting with
    | true => exact .border h.formatting hborder
    | false => exact .skip h.formatting hborder
  exact h.opens hholding rfl rfl (OpenElement.or_skipsLineFeed hskip _)
    (by rw [contentMode_part hpart h.nonempty]) hformatting (b.form_eq hform) rfl
    ⟨rfl, rfl, rfl, rfl, rfl⟩

/-- In a table, and in the parts of a table that hold further parts, a tag of such a part opens
    it. -/
theorem modeRule_part {name : String} {outside inside : Mode}
    (hpart : (name, outside, inside) ∈ tableParts) (hname : tag.name = name)
    (hmode : b.mode = outside) (hholder : innermostIsOneOf (holderNames outside) b.stack = true) :
    b.modeRule (.startTag tag) = .done { b with
      draft := b.draft.putElement b.innermost .html name (elementAttributes .html tag)
      stack := (OpenElement.html name).under b.draft.size :: b.stack
      formatting :=
        if (OpenElement.html name).bordersFormatting then .marker :: b.formatting
        else b.formatting
      mode := inside } := by
  subst hname
  have hplace := h.place_eq
  cases tableParts_cases hpart with
  | caption hkind =>
    have hplace' : b.pushMarker.place = .lastIn b.innermost := h.place_of rfl rfl rfl
    have hclear : b.clearToTable = b := popUntilOneOf_eq hholder (by decide)
    rw [modeRule_caption hmode hkind, hclear, openTag_eq hplace', hkind]
    rfl
  | columns hkind =>
    have hclear : b.clearToTable = b := popUntilOneOf_eq hholder (by decide)
    rw [modeRule_columns hmode hkind, hclear, openTag_eq hplace, hkind]
    rfl
  | rows hkind =>
    have hclear : b.clearToTable = b := popUntilOneOf_eq hholder (by decide)
    have hborder := (by decide : ∀ name ∈ rowHolderNames,
      (OpenElement.html name).bordersFormatting = false) _ hkind
    rw [modeRule_rows hmode hkind, hclear, openTag_eq hplace, hborder]
    rfl
  | row hkind =>
    have hclear : b.clearToTableBody = b := popUntilOneOf_eq hholder (by decide)
    rw [modeRule_row hmode hkind, hclear, openTag_eq hplace, hkind]
    rfl
  | cell hkind =>
    have hclear : b.clearToRow = b := popUntilOneOf_eq hholder (by decide)
    have hborder := (by decide : ∀ name ∈ cellNames,
      (OpenElement.html name).bordersFormatting = true) _ hkind
    rw [modeRule_cell hmode hkind, hclear, openTag_eq hplace, hborder]
    rfl

theorem modeRule_starts_table
    (hmode : b.mode = .inTable ∨ b.mode = .inTableBody ∨ b.mode = .inRow)
    (hcontent : contentMode b.stack = b.mode) (hopens : opensInTable b.stack tag.name = true) :
    ∃ later, b.modeRule (.startTag tag) = .done later ∧
      b.Starts (.html tag.name) (elementAttributes .html tag) later := by
  rw [opensInTable, hcontent, Bool.and_eq_true, Bool.or_eq_true, List.any_eq_true] at hopens
  obtain ⟨hholder, hscript | ⟨⟨name, outside, inside⟩, hpart, hfits⟩⟩ := hopens
  · rw [List.contains_iff_mem] at hscript
    rw [modeRule_tableScript hmode hscript]
    exact h.inHeadRule_starts ((by decide : tableScriptNames ⊆ headNames) hscript)
  · simp only [Bool.and_eq_true, beq_iff_eq] at hfits
    obtain ⟨rfl, rfl⟩ := hfits
    refine ⟨_, h.modeRule_part hpart rfl rfl hholder, ?_⟩
    have hholding := (by decide : ∀ part ∈ tableParts,
      (OpenElement.html part.1).holding = .nodes) _ hpart
    rw [Starts, hholding]
    exact h.opens_part hpart

theorem modeRule_starts_columns (hmode : b.mode = .inColumnGroup)
    (hname : tag.name ∈ ["col", "template"]) :
    ∃ later, b.modeRule (.startTag tag) = .done later ∧
      b.Starts (.html tag.name) (elementAttributes .html tag) later := by
  obtain ⟨name, attributes, selfClosing⟩ := tag
  rw [modeRule, hmode]
  simp only [List.mem_cons, List.not_mem_nil, or_false] at hname
  obtain rfl | rfl := hname
  · exact ⟨_, rfl, h.putVoid_puts _⟩
  · have hhead : Tag.name ⟨"template", attributes, selfClosing⟩ ∈ headNames :=
      (by decide : "template" ∈ headNames)
    exact h.inHeadRule_starts hhead

-- ---------------------------------------------------------------------------
-- In selections
-- ---------------------------------------------------------------------------

theorem starts_option (hname : tag.name ∈ ["option", "optgroup"]) :
    b.Starts (.html tag.name) (elementAttributes .html tag) (b.openTag tag) := by
  obtain ⟨hholding, hskip, hkind⟩ := (by decide +kernel : ∀ name ∈ ["option", "optgroup"],
    (OpenElement.html name).holding = .nodes ∧ (OpenElement.html name).skipsLineFeed = false ∧
      (bodyStart name).opensPlainly = true) _ hname
  have hopens := h.opens_openTag (isNeutral_of_bodyStart (.inl hkind)) hholding b.framesetAllowed
    (OpenElement.or_skipsLineFeed hskip _)
  rw [openTag_eq h.place_eq] at hopens ⊢
  rw [Starts, hholding]
  exact hopens

theorem modeRule_starts_select (hmode : b.mode.plain = .inSelect)
    (hopens : opensInSelect b.stack tag.name = true) :
    ∃ later, b.modeRule (.startTag tag) = .done later ∧
      b.Starts (.html tag.name) (elementAttributes .html tag) later := by
  rw [opensInSelect_iff] at hopens
  have hrule : tag.name ∈ ["option", "optgroup", "hr", "script", "template"] →
      b.modeRule (.startTag tag) = b.inSelectRule (.startTag tag) := modeRule_startTag_select hmode
  obtain ⟨name, attributes, selfClosing⟩ := tag
  obtain ⟨hname, hnone⟩ | ⟨hname | hname, hnone⟩ | hname | hname := hopens <;>
    obtain rfl : name = _ := hname <;> rw [hrule (by simp)]
  · have hgroup : "option" ∈ ["option", "optgroup"] := by decide
    refine ⟨_, ?_, h.starts_option hgroup⟩
    show Outcome.done ((if b.currentIs "option" then b.pop else b).openTag _) = _
    rw [currentIs_eq, hnone]
    rfl
  · have hgroup : "optgroup" ∈ ["option", "optgroup"] := by decide
    refine ⟨_, ?_, h.starts_option hgroup⟩
    show Outcome.done ((if (if b.currentIs "option" then b.pop else b).currentIs "optgroup" then
      (if b.currentIs "option" then b.pop else b).pop else
      (if b.currentIs "option" then b.pop else b)).openTag _) = _
    rw [popIf_eq hnone (by decide), popIf_eq hnone (by decide)]
  · refine ⟨_, ?_, h.putVoid_puts _⟩
    show Outcome.done ((if (if b.currentIs "option" then b.pop else b).currentIs "optgroup" then
      (if b.currentIs "option" then b.pop else b).pop else
      (if b.currentIs "option" then b.pop else b)).putVoid _) = _
    rw [popIf_eq hnone (by decide), popIf_eq hnone (by decide)]
  · have hhead : Tag.name ⟨"script", attributes, selfClosing⟩ ∈ headNames :=
      (by decide : "script" ∈ headNames)
    exact h.inHeadRule_starts hhead
  · have hhead : Tag.name ⟨"template", attributes, selfClosing⟩ ∈ headNames :=
      (by decide : "template" ∈ headNames)
    exact h.inHeadRule_starts hhead

-- ---------------------------------------------------------------------------
-- Wherever reading stands
-- ---------------------------------------------------------------------------

/-- A start tag that is read as one of the foreign vocabulary opens its element. -/
theorem foreignRule_opens (hforeign : readsForeign b.stack tag = true)
    (hclosing : tag.selfClosing = false) (hopens : opensIn b.stack tag = true) :
    ∃ later, b.foreignRule (.startTag tag) = .done later ∧
      b.Opens (opened b.stack tag) (elementAttributes (opened b.stack tag).ns tag) later := by
  obtain ⟨top, outer, hstack, -⟩ := h.exists_top
  simp only [opensIn, hforeign, if_true, Bool.and_eq_true, Bool.not_eq_true'] at hopens
  have hns := ns_ne_html_of_readsForeign (hstack ▸ hforeign)
  have hopened : opened b.stack tag = .foreign top.ns
      (if top.ns == .svg then respell svgElementSpellings tag.name else tag.name) tag := by
    rw [hstack] at hforeign ⊢
    exact opened_of_foreign hforeign
  refine ⟨b.openInForeign tag, ?_, ?_⟩
  · rw [foreignRule, oneOf, hopens.1, hopens.2]
    rfl
  · rw [hopened, openInForeign, hstack]
    exact h.opens_openForeign hns _ hclosing

/-- A start tag that may stand where it is puts or opens its element. -/
theorem rule_startTag (hclosing : tag.selfClosing = false) (hopens : opensIn b.stack tag = true) :
    ∃ later, b.rule (.startTag tag) = .done later ∧
      b.Starts (opened b.stack tag) (elementAttributes (opened b.stack tag).ns tag) later := by
  rw [rule, isForeign_startTag]
  cases hforeign : readsForeign b.stack tag with
  | true =>
    obtain ⟨later, hrule, hlater⟩ := h.foreignRule_opens hforeign hclosing hopens
    refine ⟨later, hrule, ?_⟩
    have hholding := hlater.ready.holding _ (hlater.stack ▸ List.mem_cons_self)
    rw [Starts, show (opened b.stack tag).holding = .nodes from hholding]
    exact hlater
  | false =>
    rw [opened_of_html hforeign]
    rw [opensIn, hforeign] at hopens
    rw [if_neg Bool.false_ne_true] at hopens ⊢
    have hmode := h.mode
    have hplain (hne : (contentMode b.stack).plain ≠ .inSelect) := Mode.eq_of_plain h.mode hne
    cases hcontent : contentMode b.stack <;> rw [hcontent] at hopens hmode hplain
    case inBody | inCell | inCaption =>
      have hkind : bodyStart tag.name ≠ .ignored := by
        intro hkind
        rw [hkind] at hopens
        cases hopens
      rw [modeRule_startTag (by simp [hplain (by decide)]) hkind]
      exact h.startRule_starts hclosing hopens
    case inTable | inTableBody | inRow =>
      rw [openedInBody_of_mem (by decide) (mem_of_opensInTable hopens)]
      exact h.modeRule_starts_table (by simp [hplain (by decide)])
        (hcontent.trans (hplain (by decide)).symm) hopens
    case inColumnGroup =>
      rw [Bool.and_eq_true, List.contains_iff_mem] at hopens
      rw [openedInBody_of_mem (by decide) hopens.2]
      exact h.modeRule_starts_columns (hplain (by decide)) hopens.2
    case inSelect | inSelectInTable =>
      have hname : tag.name ∈ ["option", "optgroup", "hr", "script", "template"] := by
        obtain ⟨hname, -⟩ | ⟨hname | hname, -⟩ | hname | hname := opensInSelect_iff.mp hopens <;>
          rw [hname] <;> decide
      rw [openedInBody_of_mem (by decide) hname]
      exact h.modeRule_starts_select hmode hopens
    all_goals cases hopens

end Builder.Ready

end HtmlTemplate.Html
