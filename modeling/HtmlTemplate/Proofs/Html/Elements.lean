-- SUMMARY: Reading what an element is written with, by what is inside it.
import HtmlTemplate.Proofs.Html.Reading

/-!
# Reading elements

An element is written as its start tag and, unless it is void, what is inside and an end tag.
Reading it puts the element behind the children of the innermost one and stands there again.
There is one theorem for each way to hold something: for nothing, a template, a text, and for
nodes, where reading what is inside is taken as given.
-/

namespace HtmlTemplate.Html

open Syntax (Writes WritesText WritesContent WritesAttributes startTag endTag textNames)

namespace IsReadableTag

variable {stack : List OpenElement} {ns name : String} {attributes : List Attribute}
  (h : IsReadableTag stack ns name attributes)
include h

theorem skipsLineFeed_eq :
    (opened stack (readTag name attributes)).skipsLineFeed = skipsLineFeed ns name := by
  rw [skipsLineFeed, OpenElement.skipsLineFeed, OpenElement.isOneOf, h.isHtml_eq, h.sameName]

theorem content_is (children : Forest) :
    let element := opened stack (readTag name attributes)
    Draft.Content.Is (.element element.ns element.name
        (elementAttributes element.ns (readTag name attributes)))
      (.element ns name attributes children) :=
  ⟨h.sameNs, h.sameName, h.sameAttributes⟩

end IsReadableTag

namespace Builder

-- ---------------------------------------------------------------------------
-- Start tags
-- ---------------------------------------------------------------------------

/-- What has come of reading nodes inside the innermost element. -/
structure Reads (b : Builder) (nodes : Forest) (later : Builder) : Prop where
  stack : later.stack = b.stack
  receives : b.draft.Receives b.innermost nodes later.draft
  ready : later.Ready

/-- The markup of a node has been read. A byte order mark is left out behind a script only. -/
structure Passes (b : Builder) (node : Node) (later : Builder) : Prop
    extends b.Reads [node] later where
  skipLineFeed : later.skipLineFeed = false
  skipMark : later.skipMark = true → node.isElementNamed "script" = true

variable {b later : Builder} {ns name : String} {attributes : List Attribute}

theorem Ready.reaches_startTag (h : b.Ready) (htag : IsReadableTag b.stack ns name attributes)
    {written : List Char} (hwritten : WritesAttributes (labels attributes) written)
    (rest : List Char) :
    let element := opened b.stack (readTag name attributes)
    ∃ later, Reaches b (startTag name written ++ rest) later rest ∧
      b.settled.Starts element (elementAttributes element.ns (readTag name attributes)) later := by
  have hclosing : (readTag name attributes).selfClosing = false := rfl
  obtain ⟨later, hrule, hstarts⟩ := h.settled.rule_startTag hclosing htag.opens
  have htoken : Token.startTag (readTag name attributes) ≠ .character '\n' := nofun
  refine ⟨later, reaches_tag h.textMode rfl htoken (fun foreign => ?_) hrule, hstarts⟩
  exact Lexer.markup_startTag htag.isTagName hwritten htag.isWritable htag.distinct rest

theorem reaches_endTag (h : b.textMode = .markup)
    (hname : Syntax.isTagName name = true)
    (hrule : b.settled.rule (.endTag (.plain (asciiLower name))) = .done later)
    (rest : List Char) : Reaches b (endTag name ++ rest) later rest := by
  have htoken : Token.endTag (.plain (asciiLower name)) ≠ .character '\n' := nofun
  exact reaches_tag h rfl htoken (fun foreign => Lexer.markup_endTag hname rest) hrule

-- ---------------------------------------------------------------------------
-- Elements that hold nothing
-- ---------------------------------------------------------------------------

theorem Ready.puts_passes (h : b.Ready) (htag : IsReadableTag b.stack ns name attributes)
    (hputs : b.settled.Puts (opened b.stack (readTag name attributes))
      (elementAttributes (opened b.stack (readTag name attributes)).ns (readTag name attributes))
      later) :
    b.Passes (.element ns name attributes []) later := by
  obtain ⟨allowed, rfl⟩ := hputs
  let element := opened b.stack (readTag name attributes)
  have hadds := (Draft.adds_putElement h.innermost_lt element.ns element.name
    (elementAttributes element.ns (readTag name attributes))).1
  have hreads : b.Reads [.element ns name attributes []] { b.settled with
      draft := b.settled.draftWith element
        (elementAttributes element.ns (readTag name attributes))
      framesetAllowed := allowed } :=
    ⟨rfl, .leaf h.innermost_lt hadds (htag.content_is []) rfl,
      h.stays ⟨⟨rfl, rfl, rfl, rfl, rfl⟩, rfl, rfl, rfl, rfl⟩ (h.cells.mono hadds.contents)⟩
  exact ⟨hreads, rfl, nofun⟩

/-- The end tag of an element that was put and not opened is ignored. -/
theorem Ready.rule_ignoredEnd (h : b.Ready) (htop : b.stack.head?.any (·.ns == .html) = true)
    (hmode : b.mode = .inBody ∨ b.mode = .inCell ∨ b.mode = .inCaption)
    (hname : name ∈ Holding.nothing.names) : b.rule (.endTag (.plain name)) = .done b := by
  have hnames : ∀ name ∈ Holding.nothing.names, name ∉ tableEndNames ∧
      bodyEnd name = .ordinary ∧ (OpenElement.html name).holding = .nothing := by decide
  obtain ⟨hends, hkind, hholding⟩ := hnames name hname
  obtain ⟨top, outer, hstack, -⟩ := h.exists_top
  have hforeign : b.isForeign (.endTag (.plain name)) = false := by
    rw [hstack] at htop
    rw [isForeign, hstack]
    simpa using htop
  have hclose : b.closeByName name = b := by
    rw [closeByName]
    split
    · next element hfound =>
      refine if_neg fun hnamed => ?_
      have hnodes := h.holding element (List.mem_of_find?_eq_some hfound)
      simp only [OpenElement.isNamed, Bool.and_eq_true, beq_iff_eq] at hnamed
      obtain ⟨hns, rfl⟩ := hnamed
      have hsame : element.holding = (OpenElement.html element.name).holding := by
        rw [OpenElement.holding, hns]
        rfl
      rw [← hsame, hnodes] at hholding
      cases hholding
    · rfl
  rw [rule, hforeign, if_neg Bool.false_ne_true, modeRule_endTag hmode hends, hkind, endRule]
  exact congrArg _ hclose

/-- An element that holds nothing stands in the body. -/
theorem bodyMode_of_nothing {stack : List OpenElement}
    (htag : IsReadableTag stack ns name attributes) (hholding : holding ns name = .nothing) :
    contentMode stack = .inBody ∨ contentMode stack = .inCell ∨ contentMode stack = .inCaption := by
  obtain ⟨hforeign, -, hname⟩ := htag.opened_eq_of_holding (by rw [hholding]; decide)
  have hmem : asciiLower name ∈ Holding.nothing.names := by
    rw [hname]
    exact mem_names_of_holding hholding (by decide)
  have hnames : ∀ name ∈ Holding.nothing.names,
      name ∉ tableScriptNames ++ tableParts.map (·.1) ∧ name ∉ ["col", "template"] ∧
        name ∉ ["option", "optgroup", "hr", "script", "template"] := by decide
  obtain ⟨htable, hcolumns, hselect⟩ := hnames _ hmem
  have hopens := htag.opens
  rw [opensIn, hforeign, if_neg Bool.false_ne_true] at hopens
  cases hcontent : contentMode stack <;> rw [hcontent] at hopens
  case inBody | inCell | inCaption => simp
  case inTable | inTableBody | inRow => exact absurd (mem_of_opensInTable hopens) htable
  case inColumnGroup =>
    rw [Bool.and_eq_true, List.contains_iff_mem] at hopens
    exact absurd hopens.2 hcolumns
  case inSelect | inSelectInTable =>
    refine absurd ?_ hselect
    obtain ⟨heq, -⟩ | ⟨heq | heq, -⟩ | heq | heq := opensInSelect_iff.mp hopens <;>
      rw [show asciiLower name = _ from heq] <;> decide
  all_goals cases hopens

/-- A void element is its start tag. -/
theorem Ready.reaches_void (h : b.Ready) (htag : IsReadableTag b.stack ns name attributes)
    (hvoid : Html.holding ns name = .void) {written : List Char}
    (hwritten : WritesAttributes (labels attributes) written) (rest : List Char) :
    ∃ later, Reaches b (startTag name written ++ rest) later rest ∧
      b.Passes (.element ns name attributes []) later := by
  obtain ⟨later, hreaches, hstarts⟩ := h.reaches_startTag htag hwritten rest
  rw [Starts, htag.holding_eq, hvoid] at hstarts
  exact ⟨later, hreaches, h.puts_passes htag hstarts⟩

/-- The end tag of an element that holds nothing is ignored. -/
theorem Ready.reaches_nothing (h : b.Ready) (htag : IsReadableTag b.stack ns name attributes)
    (hholding : Html.holding ns name = .nothing) {written : List Char}
    (hwritten : WritesAttributes (labels attributes) written) (rest : List Char) :
    ∃ later, Reaches b (startTag name written ++ (endTag name ++ rest)) later rest ∧
      b.Passes (.element ns name attributes []) later := by
  obtain ⟨later, hreaches, hstarts⟩ := h.reaches_startTag htag hwritten (endTag name ++ rest)
  rw [Starts, htag.holding_eq, hholding] at hstarts
  have hpasses := h.puts_passes htag hstarts
  obtain ⟨-, -, hname⟩ := htag.opened_eq_of_holding (by rw [hholding]; decide)
  have hmem := mem_names_of_holding hholding (by decide)
  have hbody := bodyMode_of_nothing htag hholding
  have hmode : later.mode = contentMode b.stack := by
    have hplain := hpasses.ready.mode
    rw [hpasses.stack] at hplain
    refine Mode.eq_of_plain hplain ?_
    obtain hc | hc | hc := hbody <;> rw [hc] <;> decide
  have hrule : later.settled.rule (.endTag (.plain (asciiLower name))) = .done later.settled := by
    rw [hname]
    refine hpasses.ready.settled.rule_ignoredEnd ?_ ?_ hmem
    · show later.stack.head?.any (·.ns == .html) = true
      rw [hpasses.stack]
      exact htag.endIgnored hholding
    · show later.mode = .inBody ∨ later.mode = .inCell ∨ later.mode = .inCaption
      rwa [hmode]
  refine ⟨later.settled, ?_, ?_⟩
  · exact hreaches.trans (reaches_endTag hpasses.ready.textMode htag.isTagName hrule rest)
  · exact ⟨⟨hpasses.stack, hpasses.receives, hpasses.ready.settled⟩, rfl, by rintro ⟨⟩⟩

-- ---------------------------------------------------------------------------
-- Templates
-- ---------------------------------------------------------------------------

/-- The end tag of a template that has just been opened closes it. -/
theorem Ready.rule_endTemplate (h : b.Ready) {attributes : List Attribute}
    (hopens : b.OpensTemplate (.html "template") attributes later) :
    later.rule (.endTag (.plain "template")) = .done { b with
      draft := b.draftWith (.html "template") attributes
      mode := contentMode b.stack
      framesetAllowed := false } := by
  obtain rfl := hopens
  let opened : Builder := { b with
    draft := b.draftWith (.html "template") attributes
    stack := (OpenElement.html "template").under b.draft.size :: b.stack
    formatting := .marker :: b.formatting
    mode := .inTemplate
    templateModes := .inTemplate :: b.templateModes
    framesetAllowed := false }
  have hstack : opened.stack = (OpenElement.html "template").under b.draft.size :: b.stack := rfl
  have hopen : opened.hasOpen "template" = true := rfl
  have hends : opened.impliedEnds templateImpliedEndNames = opened :=
    impliedEnds_top hstack
      (by decide : (OpenElement.html "template").isOneOf templateImpliedEndNames = false)
  have hpop : opened.popThroughName "template" = { opened with stack := b.stack } :=
    popThrough_top hstack (by decide : (OpenElement.html "template").isNamed "template" = true)
  have hnoted : ({ opened with stack := b.stack } : Builder).formatting =
      .marker :: b.formatting := rfl
  show Outcome.done (if opened.hasOpen "template" then opened.closeTemplate else opened) = _
  rw [if_pos hopen, closeTemplate, hends, hpop, clearFormatting_eq hnoted]
  dsimp only
  rw [resetMode_eq (by exact h.head) (by exact h.templateModes)]
  rfl

theorem Ready.reaches_template (h : b.Ready) (htag : IsReadableTag b.stack ns name attributes)
    (hholding : Html.holding ns name = .template) {written : List Char}
    (hwritten : WritesAttributes (labels attributes) written) (rest : List Char) :
    ∃ later, Reaches b (startTag name written ++ (endTag name ++ rest)) later rest ∧
      b.Passes (.element ns name attributes []) later := by
  obtain ⟨-, hopened, hname⟩ := htag.opened_eq_of_holding (by rw [hholding]; decide)
  obtain rfl : name = "template" := List.mem_singleton.mp (mem_names_of_holding hholding (by decide))
  obtain ⟨middle, hreaches, hstarts⟩ :=
    h.reaches_startTag htag hwritten (endTag "template" ++ rest)
  have hcontent := htag.content_is []
  rw [Starts, htag.holding_eq, hholding] at hstarts
  rw [hopened] at hstarts hcontent
  have hmiddle : middle.settled = middle := by rw [hstarts]; rfl
  have hmarkup : middle.textMode = .markup := by rw [hstarts]; exact h.textMode
  have hrule := h.settled.rule_endTemplate hstarts
  have hadds := (Draft.adds_putElement h.innermost_lt .html "template"
    (elementAttributes .html (readTag "template" attributes))).1
  refine ⟨{ b.settled with
    draft := b.settled.draftWith (.html "template")
      (elementAttributes .html (readTag "template" attributes))
    mode := contentMode b.stack
    framesetAllowed := false }, ?_, ?_⟩
  · refine hreaches.trans (reaches_endTag hmarkup htag.isTagName ?_ rest)
    rw [hmiddle, hname]
    exact hrule
  · have hready : ({ b.settled with
        draft := b.settled.draftWith (.html "template")
          (elementAttributes .html (readTag "template" attributes))
        mode := contentMode b.stack
        framesetAllowed := false } : Builder).Ready :=
      h.stays ⟨⟨rfl, rfl, rfl, rfl, rfl⟩, h.mode.symm, rfl, rfl, rfl⟩ (h.cells.mono hadds.contents)
    exact ⟨⟨rfl, .leaf h.innermost_lt hadds hcontent rfl, hready⟩, rfl, by rintro ⟨⟩⟩

end Builder

-- ---------------------------------------------------------------------------
-- Texts up to an end tag
-- ---------------------------------------------------------------------------

/-- If a line feed is left out of what is written, it is left out of what it is written for. -/
theorem exists_text_of_dropLineFeed {marks text : List Char} (hfeed : '\n' ∉ marks) {skip : Bool}
    {written : List Char} (h : WritesText marks text (dropLineFeed skip written)) :
    ∃ whole, WritesText marks whole written ∧ dropLineFeed skip whole = text := by
  obtain ⟨rfl, heq⟩ | ⟨heq, hhead⟩ := dropLineFeed_cases skip written
  · exact ⟨'\n' :: text, heq ▸ .plain hfeed h, rfl⟩
  · rw [heq] at h
    refine ⟨text, h, ?_⟩
    cases h with
    | nil => cases skip <;> rfl
    | plain =>
      refine dropLineFeed_of_ne ?_ _
      cases skip with
      | false => exact .inl rfl
      | true => exact .inr fun hc => hhead rfl (congrArg some hc)
    | reference hmem =>
      have hreferences : ∀ reference ∈ Syntax.references, reference.1 ≠ '\n' := by decide
      exact dropLineFeed_of_ne (.inr (hreferences _ hmem)) _

theorem isTextName_of_mem {name : String} (h : name ∈ textNames) : Lexer.IsTextName name := by
  have hnames : ∀ name ∈ textNames, Syntax.isTagName name = true ∧
      name.toList.all Char.isAlpha = true ∧ asciiLower name = name := by decide
  obtain ⟨hisTag, halpha, hlower⟩ := hnames name h
  exact ⟨hisTag, List.all_eq_true.mp halpha, hlower⟩

/-- Raw text is cut as it stands. -/
theorem cutsText_rawContent {name : String} (hname : name ∈ Syntax.rawNames) {text : List Char}
    (hplain : ∀ c ∈ text, Syntax.isPlain c = true) (h : isRawContent name text = true) :
    Lexer.CutsText name (contentTextMode name) text text := by
  simp only [isRawContent, Bool.and_eq_true, Bool.or_eq_true, List.all_eq_true, List.mem_tails,
    Bool.not_eq_true'] at h
  obtain ⟨hends, hscript⟩ := h
  replace hends := fun suffix hsuffix => Lexer.startsEndTag_eq_false (hends suffix hsuffix)
  rw [contentTextMode]
  by_cases hisScript : name = "script"
  · subst hisScript
    refine Lexer.cutsText_script ?_ hplain hends
    obtain (hne | hcomment) | hnested := hscript
    · cases hne
    · exact .inl ⟨rfl, hcomment⟩
    · exact .inr ⟨.inl rfl, fun suffix hsuffix =>
        Lexer.startsScript_eq_false (hnested suffix hsuffix)⟩
  · have hnot : ["title", "textarea"].contains name = false :=
      (by decide : ∀ name ∈ Syntax.rawNames, ["title", "textarea"].contains name = false) name hname
    rw [if_neg (by simpa using hisScript), hnot]
    exact Lexer.cutsText_raw (isTextName_of_mem (List.mem_append_right _ hname)) hplain hends

/-- The text inside an element whose content is text. -/
def contentText : Forest → String
  | [.text content] => content
  | _ => ""

theorem writesContent_of_writes {raw : Bool} {name : String} {children : Forest}
    (hchildren : isReadableContent name children = true) {written : List Char}
    (h : Writes raw children written) :
    WritesContent raw (contentText children).toList written := by
  unfold isReadableContent at hchildren
  split at hchildren
  · cases h
    cases raw with
    | true => rfl
    | false => exact .nil
  · cases h with
    | text hcontent hnodes =>
      cases hnodes
      rwa [List.append_nil]
  · cases hchildren

theorem isRawContent_of_readable {name : String} (hraw : name ∈ Syntax.rawNames)
    {children : Forest} (h : isReadableContent name children = true) :
    (∀ c ∈ (contentText children).toList, Syntax.isPlain c = true) ∧
      isRawContent name (contentText children).toList = true := by
  unfold isReadableContent at h
  split at h
  · exact ⟨List.forall_mem_nil _,
      (by decide : ∀ name ∈ Syntax.rawNames, isRawContent name [] = true) name hraw⟩
  · simp only [isReadableText, Bool.and_eq_true, Bool.or_eq_true, Bool.not_eq_true',
      List.all_eq_true] at h
    refine ⟨h.1.2, h.2.resolve_left ?_⟩
    simp [hraw]
  · cases h

/-- The content of an element whose content is text is cut up to the end tag, but for a line
    feed that is left out. -/
theorem cutsText_content {ns name : String} (hholding : holding ns name = .text)
    {children : Forest} (hchildren : isReadableContent name children = true)
    {written : List Char}
    (hwritten : Writes (isRaw ns name) children (dropLineFeed (skipsLineFeed ns name) written)) :
    ∃ whole, Lexer.CutsText name (contentTextMode name) written whole ∧
      (∀ c ∈ whole, Syntax.isPlain c = true) ∧
      dropLineFeed (skipsLineFeed ns name) whole = (contentText children).toList := by
  obtain ⟨hhtml, hname⟩ := mem_names_of_holdingOf hholding (by decide)
  have hcontent := writesContent_of_writes hchildren hwritten
  by_cases hraw : name ∈ Syntax.rawNames
  · have hisRaw : isRaw ns name = true :=
      Bool.and_eq_true_iff.mpr ⟨hhtml, List.contains_iff_mem.mpr hraw⟩
    have hskips : skipsLineFeed ns name = false := by
      rw [Bool.eq_false_iff]
      intro hskips
      rw [isRaw_of_skipsLineFeed hskips] at hisRaw
      cases hisRaw
    rw [hisRaw, hskips, dropLineFeed_false, WritesContent, if_pos rfl] at hcontent
    rw [hskips]
    obtain ⟨hplain, hends⟩ := isRawContent_of_readable hraw hchildren
    refine ⟨_, ?_, hplain, dropLineFeed_false _⟩
    rw [hcontent]
    exact cutsText_rawContent hraw hplain hends
  · have hescapable : name ∈ Syntax.escapableNames :=
      (List.mem_append.mp hname).resolve_right hraw
    have hisRaw : isRaw ns name = false := by
      rw [isRaw, Bool.and_eq_false_iff]
      exact .inr (by simpa using hraw)
    rw [hisRaw, WritesContent, if_neg Bool.false_ne_true] at hcontent
    obtain ⟨whole, hwhole, hdrop⟩ := exists_text_of_dropLineFeed (by decide) hcontent
    refine ⟨whole, ?_, (hwhole.allPlain (by decide) (by decide)).1, hdrop⟩
    have hmode : contentTextMode name = .escapable name := by
      obtain rfl | rfl : name = "title" ∨ name = "textarea" := by
        simpa [Syntax.escapableNames] using hescapable
      all_goals rfl
    rw [hmode]
    exact Lexer.cutsText_escapable (isTextName_of_mem hname) hwhole

/-- A text that is not blank is received as one node. -/
theorem receives_text {draft : Draft} {parent : Handle} (hparent : parent < draft.size)
    (hclosed : draft.EndsClosed parent) {content : String} (hblank : isBlankText content = false) :
    draft.Receives parent [.text content] (draft.putText parent content.toList) := by
  refine Draft.receives_putText hparent hclosed ?_
  rintro rfl
  cases hblank

theorem receives_content {draft : Draft} {parent : Handle} (hparent : parent < draft.size)
    (hclosed : draft.EndsClosed parent) {name : String} {children : Forest}
    (h : isReadableContent name children = true) :
    draft.Receives parent children (draft.putText parent (contentText children).toList) := by
  unfold isReadableContent at h
  split at h
  · exact .nil draft parent
  · simp only [isReadableText, Bool.and_eq_true, Bool.not_eq_true'] at h
    exact receives_text hparent hclosed h.1.1
  · cases h

namespace Builder

variable {b later : Builder} {ns name : String} {attributes : List Attribute} {children : Forest}

/-- The text of an element that has just been opened is put into it, and the element is closed. -/
theorem Ready.opensText_reaches (h : b.Ready) {middle : Builder}
    (hopens : b.OpensText (.html name) attributes middle) (hmark : b.skipMark = false)
    (htemplate : (OpenElement.html name).isNamed "template" = false) {written shown : List Char}
    (hcuts : Lexer.CutsText name (contentTextMode name) written shown)
    (hplain : ∀ c ∈ shown, Syntax.isPlain c = true) (rest : List Char) :
    ∃ later, Reaches middle (written ++ (endTag name ++ rest)) later rest ∧
      b.Stays later ∧ later.draft = (b.draftWith (.html name) attributes).putText b.draft.size
        (dropLineFeed (b.skipLineFeed || (OpenElement.html name).skipsLineFeed) shown) ∧
      later.skipLineFeed = false ∧ later.skipMark = (name == "script") := by
  obtain ⟨allowed, hmiddle⟩ := hopens
  have hcells := h.holdsOpen_putElement htemplate attributes
  have hintext : middle.InText := by
    rw [hmiddle]
    exact ⟨rfl, h.fostering, ⟨_, _, rfl, rfl⟩, hcells⟩
  obtain ⟨allowed', hread⟩ := hintext.reaches (by rw [hmiddle]; exact hmark)
    (by rw [hmiddle]; exact hcuts) hplain rest
  refine ⟨_, hread, ?_, ?_, rfl, rfl⟩
  · rw [hmiddle]
    exact ⟨⟨h.textMode.symm, rfl, rfl, rfl, rfl⟩, rfl, rfl, rfl, rfl⟩
  · rw [hmiddle]
    rfl

theorem Ready.reaches_textElement (h : b.Ready) (htag : IsReadableTag b.stack ns name attributes)
    (hholding : Html.holding ns name = .text) (hcontent : isReadableContent name children = true)
    {written inside : List Char} (hwritten : WritesAttributes (labels attributes) written)
    (hinside : Writes (isRaw ns name) children (dropLineFeed (skipsLineFeed ns name) inside))
    (rest : List Char) :
    ∃ later, Reaches b (startTag name written ++ (inside ++ (endTag name ++ rest))) later rest ∧
      b.Passes (.element ns name attributes children) later := by
  have hskips := htag.skipsLineFeed_eq
  have hnode := htag.content_is children
  obtain ⟨-, hopened, -⟩ := htag.opened_eq_of_holding (by rw [hholding]; decide)
  obtain ⟨whole, hcuts, hplain, hdrop⟩ := cutsText_content hholding hcontent hinside
  obtain ⟨middle, hreaches, hstarts⟩ :=
    h.reaches_startTag htag hwritten (inside ++ (endTag name ++ rest))
  rw [Starts, htag.holding_eq, hholding] at hstarts
  rw [hopened] at hstarts hnode hskips
  have htemplate : (OpenElement.html name).isNamed "template" = false :=
    (by decide : ∀ name ∈ textNames, (OpenElement.html name).isNamed "template" = false) name
      (mem_names_of_holding hholding (by decide))
  obtain ⟨later, hread, hstays, hdraft, hskip, hmark⟩ :=
    h.settled.opensText_reaches hstarts rfl htemplate hcuts hplain rest
  have hdraft' : later.draft = (b.draft.putElement b.innermost .html name
      (elementAttributes .html (readTag name attributes))).putText b.draft.size
        (contentText children).toList := by
    rw [hdraft, hskips, ← hdrop]
    rfl
  have hcells :=
    h.holdsOpen_putElement htemplate (elementAttributes .html (readTag name attributes))
  have hadds := (Draft.adds_putElement h.innermost_lt .html name
    (elementAttributes .html (readTag name attributes))).1
  have hreceives := receives_content hadds.size (Draft.endsClosed_of_adds hadds) hcontent
  have hopen := holdsOpen_putText hcells List.mem_cons_self (contentText children).toList
  refine ⟨later, hreaches.trans hread, ⟨⟨hstays.stack, ?_, ?_⟩, hskip, fun hscript => ?_⟩⟩
  · rw [hdraft']
    exact .node h.innermost_lt hadds hnode hreceives
  · refine h.settled.stays hstays ?_
    rw [hdraft']
    exact fun e he => hopen e (.tail _ he)
  · rw [hmark] at hscript
    exact hscript

-- ---------------------------------------------------------------------------
-- Elements that hold nodes
-- ---------------------------------------------------------------------------

/-- Between its tags, an element that holds nodes is read like what is around it. -/
theorem Ready.reaches_nodesElement (h : b.Ready) (htag : IsReadableTag b.stack ns name attributes)
    (hholding : Html.holding ns name = .nodes) {written inside : List Char}
    (hwritten : WritesAttributes (labels attributes) written)
    (hinside : ∀ {middle : Builder}, middle.Ready →
      middle.stack = (opened b.stack (readTag name attributes)).under b.draft.size :: b.stack →
      middle.draft.EndsClosed middle.innermost → middle.skipMark = false →
      middle.skipLineFeed = skipsLineFeed ns name → ∀ more,
      ∃ later, Reaches middle (inside ++ (endTag name ++ more)) later (endTag name ++ more) ∧
        middle.Reads children later)
    (rest : List Char) :
    ∃ later, Reaches b (startTag name written ++ (inside ++ (endTag name ++ rest))) later rest ∧
      b.Passes (.element ns name attributes children) later := by
  obtain ⟨first, hfirst, hstarts⟩ :=
    h.reaches_startTag htag hwritten (inside ++ (endTag name ++ rest))
  rw [Starts, htag.holding_eq, hholding] at hstarts
  have hopens : b.settled.Opens _ _ first := hstarts
  have hinnermost : first.innermost = b.draft.size := by
    rw [innermost, hopens.stack]
    rfl
  obtain ⟨second, hsecond, hreads⟩ := hinside hopens.ready hopens.stack
    (hinnermost ▸ Draft.endsClosed_of_adds hopens.adds) hopens.skipMark
    (hopens.skipLineFeed.trans htag.skipsLineFeed_eq) rest
  have hstack : second.settled.stack =
      (opened b.stack (readTag name attributes)).under b.draft.size :: b.stack :=
    hreads.stack.trans hopens.stack
  obtain ⟨later, hrule, hcloses⟩ := hreads.ready.settled.rule_endTag hstack h.nonempty htag.opens
    (by rw [htag.sameName]; rfl)
  refine ⟨later, ?_, ⟨⟨hcloses.stack, ?_, hcloses.ready⟩, hcloses.skipLineFeed, fun hmark => ?_⟩⟩
  · exact hfirst.trans (hsecond.trans
      (reaches_endTag hreads.ready.textMode htag.isTagName hrule rest))
  · have hreceives := hreads.receives
    rw [hinnermost] at hreceives
    rw [hcloses.draft]
    exact .node h.innermost_lt hopens.adds (htag.content_is children) hreceives
  · rw [hcloses.skipMark] at hmark
    cases hmark

end Builder

end HtmlTemplate.Html
