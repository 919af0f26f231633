-- SUMMARY: What end tags do where they close the innermost element.
import HtmlTemplate.Proofs.Html.StartTags

/-!
# End tags

The end tag of the innermost element closes this element and no other. Then reading stands
behind it, as it stood in front of its start tag: `Builder.Closes`. This needs little of the
elements further out, since each rule for an end tag finds the innermost element first.
-/

namespace HtmlTemplate.Html

open OpenElement (inScope bordersScope bordersButtonScope bordersTableScope bordersSelectScope)

namespace Builder

/-- The innermost element has been closed. -/
structure Closes (b : Builder) (outer : List OpenElement) (later : Builder) : Prop where
  stack : later.stack = outer
  draft : later.draft = b.draft
  skipLineFeed : later.skipLineFeed = b.skipLineFeed
  skipMark : later.skipMark = b.skipMark
  ready : later.Ready

variable {b later : Builder} {top : OpenElement} {outer : List OpenElement} {name : String}

theorem Ready.closes (h : b.Ready) (hstack : b.stack = top :: outer) (houter : outer ≠ [])
    (hlater : later.stack = outer) (hdraft : later.draft = b.draft)
    (hmode : later.mode.plain = (contentMode outer).plain)
    (hformatting : Follows later.formatting outer)
    (hform : later.form = (outer.find? (·.isNamed "form")).map (·.node))
    (hskip : later.skipLineFeed = b.skipLineFeed) (hmark : later.skipMark = b.skipMark)
    (hsame : b.Alike later) : b.Closes outer later := by
  have hmem : ∀ e ∈ later.stack, e ∈ b.stack := fun e he =>
    hstack ▸ .tail _ (hlater ▸ he)
  refine ⟨hlater, hdraft, hskip, hmark, ?_⟩
  exact {
    mode := by rw [hmode, hlater]
    textMode := hsame.textMode.trans h.textMode
    templateModes := hsame.templateModes.trans h.templateModes
    old := hsame.old.trans h.old
    head := hsame.head ▸ h.head
    fostering := hsame.fostering.trans h.fostering
    formatting := by rwa [hlater]
    form := by rw [hform, hlater]
    nonempty := hlater ▸ houter
    holding := fun e he => h.holding e (hmem e he)
    handles := by
      rw [hlater]
      exact (List.pairwise_cons.mp (hstack ▸ h.handles)).2
    cells := by
      rw [hdraft]
      exact fun e he => h.cells e (hmem e he) }

-- ---------------------------------------------------------------------------
-- The innermost element is found first
-- ---------------------------------------------------------------------------

theorem impliedEnds_top {names : List String} (hstack : b.stack = top :: outer)
    (hnot : top.isOneOf names = false) : b.impliedEnds names = b :=
  impliedEnds_eq (by rw [hstack]; exact hnot)

theorem popThrough_top {fits : OpenElement → Bool} (hstack : b.stack = top :: outer)
    (hfits : fits top = true) : b.popThrough fits = { b with stack := outer } := by
  rw [popThrough, hstack, List.dropWhile_cons_of_neg (by simp [hfits]), List.drop_one,
    List.tail_cons]

theorem inScope_top (border : OpenElement → Bool) {fits : OpenElement → Bool}
    (hstack : b.stack = top :: outer) (hfits : fits top = true) :
    inScope border fits b.stack = true := by
  rw [hstack, inScope, hfits, Bool.true_or]

theorem hasInScope_top (border : OpenElement → Bool) (hstack : b.stack = top :: outer)
    (hnamed : top.isNamed name = true) : b.hasInScope border name = true :=
  inScope_top border hstack hnamed

theorem isOneOf_of_isNamed (hnamed : top.isNamed name = true) (names : List String) :
    top.isOneOf names = names.contains name := by
  simp only [OpenElement.isNamed, Bool.and_eq_true, beq_iff_eq] at hnamed
  simp [OpenElement.isOneOf, hnamed.1, hnamed.2]

theorem closeInScope_top (border : OpenElement → Bool) (hstack : b.stack = top :: outer)
    (hnamed : top.isNamed name = true) (hnot : impliedEndNames.contains name = false) :
    b.closeInScope border name = { b with stack := outer } := by
  rw [closeInScope, if_pos (hasInScope_top border hstack hnamed),
    impliedEnds_top hstack (by rw [isOneOf_of_isNamed hnamed, hnot]), popThroughName,
    popThrough_top hstack hnamed]

theorem impliedEndsExcept_top (hstack : b.stack = top :: outer)
    (hnamed : top.isNamed name = true) : b.impliedEndsExcept name = b := by
  have hnot : name ∉ impliedEndNames.erase name :=
    List.Nodup.not_mem_erase (by decide)
  refine impliedEnds_top hstack ?_
  rw [isOneOf_of_isNamed hnamed, List.contains_eq_mem, decide_eq_false_iff_not]
  exact hnot

theorem popThroughName_top (hstack : b.stack = top :: outer) (hnamed : top.isNamed name = true) :
    (b.impliedEndsExcept name).popThroughName name = { b with stack := outer } := by
  rw [impliedEndsExcept_top hstack hnamed, popThroughName, popThrough_top hstack hnamed]

/-- A border that is the latest entry is forgotten. -/
theorem clearFormatting_eq {earlier : List FormatEntry}
    (hnoted : b.formatting = .marker :: earlier) :
    b.clearFormatting = { b with formatting := earlier } := by
  rw [clearFormatting, hnoted]
  rfl

theorem closeByName_top (hstack : b.stack = top :: outer) (hnamed : top.isNamed name = true) :
    b.closeByName name = { b with stack := outer } := by
  rw [closeByName, hstack, List.find?_cons_of_pos (by simp [hnamed])]
  dsimp only
  rw [if_pos hnamed, impliedEndsExcept_top hstack hnamed,
    popThrough_top hstack (beq_self_eq_true top.node)]

/-- The handles further out are others. -/
theorem Ready.node_ne (h : b.Ready) (hstack : b.stack = top :: outer) {e : OpenElement}
    (he : e ∈ outer) : e.node ≠ top.node :=
  Nat.ne_of_lt ((List.pairwise_cons.mp (hstack ▸ h.handles)).1 e he)

theorem closeForm_top (h : b.Ready) (hstack : b.stack = top :: outer)
    (hnamed : top.isNamed "form" = true) :
    b.closeForm = { b with form := none, stack := outer } := by
  have hform : b.form = some top.node := by
    rw [h.form, hstack, List.find?_cons_of_pos (by exact hnamed)]
    rfl
  have hrest : (top :: outer).filter (·.node != top.node) = outer := by
    rw [List.filter_cons_of_neg (by simp), List.filter_eq_self]
    exact fun e he => bne_iff_ne.mpr (h.node_ne hstack he)
  let noForm : Builder := { b with form := none }
  have hstack' : noForm.stack = top :: outer := hstack
  rw [closeForm, h.hasOpen_template, if_neg Bool.false_ne_true, hform]
  show (if inScope bordersScope (·.node == top.node) noForm.stack then
    (noForm.impliedEnds impliedEndNames).removeFromStack top.node else noForm) = _
  rw [if_pos (inScope_top _ hstack' (beq_self_eq_true top.node)),
    impliedEnds_top hstack' (by rw [isOneOf_of_isNamed hnamed]; decide), removeFromStack, hstack',
    hrest]

/-- The latest formatting of the name is the innermost element, and nothing is to be mended. -/
theorem closeFormattingOnce_top {tag : Tag} {entries : List FormatEntry}
    (hstack : b.stack = top :: outer) (hname : tag.name = name)
    (hnoted : b.formatting = .element top.node tag :: entries) :
    b.closeFormattingOnce name =
      (({ b with stack := outer } : Builder).removeFormatting top.node, false) := by
  have hfound : b.findFormatting? name = some (top.node, tag) := by
    rw [findFormatting?, recentFormatting, hnoted, List.takeWhile_cons_of_pos (by rfl),
      List.findSome?_cons]
    simp [hname]
  have hinner : b.stack.takeWhile (·.node != top.node) = [] := by
    rw [hstack, List.takeWhile_cons_of_neg (by simp)]
  rw [closeFormattingOnce, hfound]
  dsimp only
  rw [hinner, inScope_top _ hstack (beq_self_eq_true top.node), hstack]
  rfl

/-- Where formatting is the innermost element, its end tag closes it, noted or not. -/
theorem closeFormatting_top (h : b.Ready) (hstack : b.stack = top :: outer)
    (hnamed : top.isNamed name = true) (hformat : bodyEnd name = .formatting) :
    ∃ entries, b.closeFormatting name = { b with stack := outer, formatting := entries } ∧
      Follows entries outer := by
  have hother {entries : List FormatEntry} (hentries : Follows entries outer) :
      ∀ entry ∈ entries, isEntryOf top.node entry = false := by
    intro entry hentry
    cases entry with
    | marker => rfl
    | element node tag =>
      obtain ⟨e, he, rfl⟩ := hentries.mem_nodes hentry
      exact beq_eq_false_iff_ne.mpr (h.node_ne hstack he)
  have hfollows := h.formatting
  rw [hstack] at hfollows
  rw [closeFormatting, hstack]
  dsimp only
  rw [hnamed, Bool.true_and]
  generalize hnoted : b.formatting = noted at hfollows
  cases hfollows with
  | skip hentries _ =>
    refine ⟨noted, ?_, hentries⟩
    have hnone : noted.any (isEntryOf top.node) = false := by
      rw [List.any_eq_false]
      exact fun entry hentry => Bool.eq_false_iff.mp (hother hentries entry hentry)
    rw [hnone, pop, hstack, ← hnoted]
    rfl
  | @entry entries _ _ tag hentries hname _ =>
    refine ⟨entries, ?_, hentries⟩
    have hsame : tag.name = name := by
      simp only [OpenElement.isNamed, Bool.and_eq_true, beq_iff_eq] at hname hnamed
      exact hname.2.symm.trans hnamed.2
    have hthere :
        (FormatEntry.element top.node tag :: entries).any (isEntryOf top.node) = true := by
      simp [isEntryOf]
    have hrest : (FormatEntry.element top.node tag :: entries).filter (!isEntryOf top.node ·) =
        entries := by
      rw [List.filter_cons_of_neg (by simp [isEntryOf]), List.filter_eq_self]
      exact fun entry hentry => by rw [hother hentries entry hentry]; rfl
    rw [hthere, if_neg (by decide), closeFormattingWithin,
      closeFormattingOnce_top hstack hsame hnoted]
    dsimp only
    rw [removeFormatting, hnoted, hrest]
  | border _ hborder =>
    rw [bordersFormatting_of_formatting hnamed hformat] at hborder
    cases hborder

-- ---------------------------------------------------------------------------
-- In the body
-- ---------------------------------------------------------------------------

theorem name_unique {other : String} (hnamed : top.isNamed name = true)
    (hother : top.isNamed other = true) : other = name := by
  simp only [OpenElement.isNamed, Bool.and_eq_true, beq_iff_eq] at hnamed hother
  exact hother.2.symm.trans hnamed.2

theorem isNamed_eq_false {other : String} (hnamed : top.isNamed name = true) (hne : name ≠ other) :
    top.isNamed other = false :=
  Bool.eq_false_iff.mpr fun hother => hne (name_unique hnamed hother).symm

/-- What borders formatting is closed as a border, or it changes the mode. -/
theorem bordersFormatting_eq_false (hnamed : top.isNamed name = true)
    (hmode : modeNames.contains name = false) (hkind : bodyEnd name ≠ .bordered) :
    top.bordersFormatting = false := by
  have hborders : ∀ name ∈ formattingBorderNames,
      bodyEnd name = .bordered ∨ modeNames.contains name = true := by decide
  rw [OpenElement.bordersFormatting, isOneOf_of_isNamed hnamed, List.contains_eq_mem,
    decide_eq_false_iff_not]
  exact fun hmem => (hborders name hmem).elim hkind (Bool.eq_false_iff.mp hmode)

/-- What is noted belongs to elements further out, unless the innermost one is formatting or
    a border for it. -/
theorem Ready.formatting_outer (h : b.Ready) (hstack : b.stack = top :: outer)
    (hnamed : top.isNamed name = true) (hborder : top.bordersFormatting = false)
    (hformat : bodyEnd name ≠ .formatting) : Follows b.formatting outer := by
  have hfollows := h.formatting
  rw [hstack] at hfollows
  exact hfollows.tail hborder fun other hother => name_unique hnamed hother ▸ hformat

theorem Ready.plain_outer (h : b.Ready) (hstack : b.stack = top :: outer)
    (hmode : top.isOneOf modeNames = false) : b.mode.plain = (contentMode outer).plain := by
  rw [← contentMode_cons hmode, ← hstack, ← h.mode]

/-- Only the stack, the mode and what is noted change when an element is closed that is
    no form. -/
theorem Ready.closes_inMode (h : b.Ready) (hstack : b.stack = top :: outer) (houter : outer ≠ [])
    (hform : top.isNamed "form" = false) {mode : Mode}
    (hmode : mode.plain = (contentMode outer).plain) {entries : List FormatEntry}
    (hentries : Follows entries outer) :
    b.Closes outer { b with stack := outer, mode, formatting := entries } := by
  have hform' := h.form
  rw [hstack, List.find?_cons_of_neg (by simp [hform])] at hform'
  exact h.closes hstack houter rfl rfl hmode hentries hform' rfl rfl ⟨rfl, rfl, rfl, rfl, rfl⟩

/-- Only the stack changes when most elements are closed. -/
theorem Ready.closes_plain (h : b.Ready) (hstack : b.stack = top :: outer) (houter : outer ≠ [])
    (hmode : top.isOneOf modeNames = false) (hform : top.isNamed "form" = false)
    (hborder : top.bordersFormatting = false)
    (hnot : ∀ name, top.isNamed name = true → bodyEnd name ≠ .formatting) :
    b.Closes outer { b with stack := outer } := by
  have hfollows := h.formatting
  rw [hstack] at hfollows
  exact h.closes_inMode hstack houter hform (h.plain_outer hstack hmode)
    (hfollows.tail hborder hnot)

/-- The end tag of a form closes it, where no form is open further out. -/
theorem Ready.endForm_closes (h : b.Ready) (hstack : b.stack = top :: outer) (houter : outer ≠ [])
    (hnamed : top.isNamed "form" = true) (hnone : outer.any (·.isNamed "form") = false) :
    ∃ later, b.endRule (.plain "form") .form = .done later ∧ b.Closes outer later := by
  refine ⟨_, congrArg _ (closeForm_top h hstack hnamed), ?_⟩
  have hmode := h.plain_outer hstack (by rw [isOneOf_of_isNamed hnamed]; decide)
  have hborder := bordersFormatting_eq_false hnamed (by decide) (by decide)
  have hentries := h.formatting_outer hstack hnamed hborder (by decide)
  have hform : none = (outer.find? (·.isNamed "form")).map (·.node) := by
    rw [List.find?_eq_none.mpr (List.any_eq_false.mp hnone), Option.map_none]
  exact h.closes hstack houter rfl rfl hmode hentries hform rfl rfl ⟨rfl, rfl, rfl, rfl, rfl⟩

/-- The end tag of a border closes it, and the border is forgotten. -/
theorem Ready.endBordered_closes (h : b.Ready) (hstack : b.stack = top :: outer)
    (houter : outer ≠ []) (hnamed : top.isNamed name = true)
    (hmode : b.mode.plain = (contentMode outer).plain) (hmem : name ∈ BodyEnd.bordered.names) :
    ∃ later, b.endRule (.plain name) .bordered = .done later ∧ b.Closes outer later := by
  have hnames : ∀ name ∈ BodyEnd.bordered.names, impliedEndNames.contains name = false ∧
      formattingBorderNames.contains name = true ∧ name ≠ "form" := by decide
  obtain ⟨hnot, hborder, hform⟩ := hnames name hmem
  rw [← isOneOf_of_isNamed hnamed] at hborder
  have hfollows := h.formatting
  rw [hstack] at hfollows
  obtain ⟨earlier, hnoted, hearlier⟩ := hfollows.of_border hborder
  refine ⟨_, congrArg _ ((if_pos (hasInScope_top _ hstack hnamed)).trans
    (congrArg clearFormatting (closeInScope_top _ hstack hnamed hnot))), ?_⟩
  rw [clearFormatting_eq (b := { b with stack := outer }) hnoted]
  exact h.closes_inMode hstack houter (isNamed_eq_false hnamed hform) hmode hearlier

/-- The end tag of the innermost element closes it, in the body. -/
theorem Ready.endRule_closes (h : b.Ready) (hstack : b.stack = top :: outer) (houter : outer ≠ [])
    (hnamed : top.isNamed name = true) (hmode : modeNames.contains name = false)
    (hbr : name ≠ "br") (hform : name = "form" → outer.any (·.isNamed "form") = false) :
    ∃ later, b.endRule (.plain name) (bodyEnd name) = .done later ∧ b.Closes outer later := by
  have hmode' : top.isOneOf modeNames = false := by rw [isOneOf_of_isNamed hnamed, hmode]
  have hcontent := h.plain_outer hstack hmode'
  have hnotForm (hne : bodyEnd name ≠ .form) : top.isNamed "form" = false :=
    isNamed_eq_false hnamed fun hname => hne (hname ▸ rfl)
  have hplain (h₁ : bodyEnd name ≠ .bordered) (h₂ : bodyEnd name ≠ .form)
      (h₃ : bodyEnd name ≠ .formatting) : b.Closes outer { b with stack := outer } :=
    h.closes_plain hstack houter hmode' (hnotForm h₂) (bordersFormatting_eq_false hnamed hmode h₁)
      fun other hother => name_unique hnamed hother ▸ h₃
  cases hkind : bodyEnd name <;> rw [hkind] at hplain hnotForm
  case block =>
    have hnot := (by decide : ∀ name ∈ closingBlockNames, impliedEndNames.contains name = false) _
      (BodyEnd.mem_names hkind (by decide))
    refine ⟨_, ?_, hplain (by decide) (by decide) (by decide)⟩
    rw [endRule]
    exact congrArg _ (closeInScope_top _ hstack hnamed hnot)
  case paragraph =>
    obtain rfl : name = "p" := List.mem_singleton.mp (BodyEnd.mem_names hkind (by decide))
    have hopen : b.hasInScope bordersButtonScope "p" = true := hasInScope_top _ hstack hnamed
    refine ⟨_, ?_, hplain (by decide) (by decide) (by decide)⟩
    rw [endRule, if_pos hopen, closeParagraph, if_pos hopen, popThroughName_top hstack hnamed]
  case listItem =>
    obtain rfl : name = "li" := List.mem_singleton.mp (BodyEnd.mem_names hkind (by decide))
    refine ⟨_, ?_, hplain (by decide) (by decide) (by decide)⟩
    rw [endRule, if_pos (hasInScope_top _ hstack hnamed), popThroughName_top hstack hnamed]
  case definition =>
    refine ⟨_, ?_, hplain (by decide) (by decide) (by decide)⟩
    exact congrArg _ ((if_pos (hasInScope_top _ hstack hnamed)).trans
      (popThroughName_top hstack hnamed))
  case heading =>
    have hmem := BodyEnd.mem_names hkind (by decide)
    have hheading : top.isOneOf headingNames = true := by
      rw [isOneOf_of_isNamed hnamed]
      exact List.contains_iff_mem.mpr hmem
    have hnot := (by decide : ∀ name ∈ headingNames, impliedEndNames.contains name = false) _ hmem
    refine ⟨_, ?_, hplain (by decide) (by decide) (by decide)⟩
    rw [endRule, if_pos (inScope_top _ hstack hheading),
      impliedEnds_top hstack (by rw [isOneOf_of_isNamed hnamed, hnot]),
      popThrough_top hstack hheading]
  case ordinary =>
    refine ⟨_, ?_, hplain (by decide) (by decide) (by decide)⟩
    exact congrArg _ (closeByName_top hstack hnamed)
  case form =>
    obtain rfl : name = "form" := List.mem_singleton.mp (BodyEnd.mem_names hkind (by decide))
    exact h.endForm_closes hstack houter hnamed (hform rfl)
  case formatting =>
    obtain ⟨entries, hclosed, hentries⟩ := closeFormatting_top h hstack hnamed hkind
    refine ⟨_, congrArg _ hclosed, ?_⟩
    exact h.closes_inMode hstack houter (hnotForm (by decide)) hcontent hentries
  case bordered =>
    exact h.endBordered_closes hstack houter hnamed hcontent (BodyEnd.mem_names hkind (by decide))
  case template | body | html =>
    have hmem := BodyEnd.mem_names hkind (by decide)
    rw [BodyEnd.names, List.mem_singleton] at hmem
    rw [hmem] at hmode
    exact absurd hmode (by decide)
  case br => exact absurd (List.mem_singleton.mp (BodyEnd.mem_names hkind (by decide))) hbr

/-- Which end tags do something of their own in cells and captions. -/
def tableEndNames : List String :=
  ["td", "th", "body", "caption", "col", "colgroup", "html", "table", "tbody", "tfoot", "thead",
   "tr"]

theorem modeRule_endTag (hmode : b.mode = .inBody ∨ b.mode = .inCell ∨ b.mode = .inCaption)
    (hname : name ∉ tableEndNames) :
    b.modeRule (.endTag (.plain name)) = b.endRule (.plain name) (bodyEnd name) := by
  simp only [tableEndNames, List.mem_cons, List.not_mem_nil, or_false, not_or] at hname
  have hbody : b.inBodyRule (.endTag (.plain name)) = b.endRule (.plain name) (bodyEnd name) :=
    endTagInBody_eq b (.plain name)
  rw [← hbody]
  obtain hm | hm | hm := hmode <;> rw [modeRule, hm]
  · rw [inCellRule]
    split <;> first | rfl | simp_all [Tag.plain]
  · rw [inCaptionRule]
    split <;> first | rfl | simp_all [Tag.plain]

-- ---------------------------------------------------------------------------
-- In tables and selections
-- ---------------------------------------------------------------------------

/-- The end of a table or of a selection looks at the open elements for the mode. -/
theorem Ready.resetMode_closes (h : b.Ready) (hstack : b.stack = top :: outer) (houter : outer ≠ [])
    (hnamed : top.isNamed name = true) (hname : name = "table" ∨ name = "select") :
    b.Closes outer (b.popThroughName name).resetMode := by
  have hnames : ∀ name ∈ ["table", "select"], formattingBorderNames.contains name = false ∧
      bodyEnd name ≠ .formatting ∧ name ≠ "form" := by decide
  obtain ⟨hborder, hformat, hform⟩ := hnames name (by simpa using hname)
  rw [← isOneOf_of_isNamed hnamed] at hborder
  have hentries := h.formatting_outer hstack hnamed hborder hformat
  rw [popThroughName, popThrough_top hstack hnamed,
    resetMode_eq (b := { b with stack := outer }) h.head h.templateModes]
  exact h.closes_inMode hstack houter (isNamed_eq_false hnamed hform) rfl hentries

theorem clearTo_top {names : List String} (hstack : b.stack = top :: outer)
    (hone : top.isOneOf names = true) :
    (b.popUntilOneOf names).pop = { b with stack := outer } := by
  rw [popUntilOneOf, hstack, List.dropWhile_cons_of_neg (by simp [hone]), pop, List.drop_one,
    List.tail_cons]

/-- What is noted inside a part that may be a border for formatting. -/
theorem Ready.entries_of_part (h : b.Ready) (hstack : b.stack = top :: outer)
    (hnamed : top.isNamed name = true) (hformat : bodyEnd name ≠ .formatting) :
    ∃ entries, Follows entries outer ∧ b.formatting =
      if (OpenElement.html name).bordersFormatting then .marker :: entries else entries := by
  have hborder : top.bordersFormatting = (OpenElement.html name).bordersFormatting := by
    rw [OpenElement.bordersFormatting, isOneOf_of_isNamed hnamed]
    rfl
  cases hborders : (OpenElement.html name).bordersFormatting with
  | true =>
    have hfollows := h.formatting
    rw [hstack] at hfollows
    obtain ⟨earlier, hnoted, hearlier⟩ := hfollows.of_border (hborder.trans hborders)
    exact ⟨earlier, hearlier, hnoted⟩
  | false =>
    exact ⟨b.formatting, h.formatting_outer hstack hnamed (hborder.trans hborders) hformat, rfl⟩

/-! ### Parts of tables -/

theorem modeRule_endCaption (hmode : b.mode = .inCaption) :
    b.modeRule (.endTag (.plain "caption")) =
      .done (if b.hasInScope bordersTableScope "caption" then
        ({ b.closeInScope bordersTableScope "caption" with
          mode := .inTable } : Builder).clearFormatting else b) := by
  rw [modeRule, hmode]
  show (if b.hasInScope bordersTableScope "caption" then Outcome.done
    ({ b.closeInScope bordersTableScope "caption" with
      mode := .inTable } : Builder).clearFormatting else .done b) = _
  split <;> rfl

theorem modeRule_endColumns (hmode : b.mode = .inColumnGroup) :
    b.modeRule (.endTag (.plain "colgroup")) =
      .done (if b.currentIs "colgroup" then { b.pop with mode := .inTable } else b) := by
  rw [modeRule, hmode]
  rfl

theorem modeRule_endRows (hmode : b.mode = .inTableBody) (hname : name ∈ rowHolderNames) :
    b.modeRule (.endTag (.plain name)) =
      .done (if b.hasInScope bordersTableScope name then
        { b.clearToTableBody.pop with mode := .inTable } else b) := by
  simp only [rowHolderNames, List.mem_cons, List.not_mem_nil, or_false] at hname
  rw [modeRule, hmode]
  obtain rfl | rfl | rfl := hname <;> rfl

theorem modeRule_endRow (hmode : b.mode = .inRow) :
    b.modeRule (.endTag (.plain "tr")) =
      .done (if b.hasInScope bordersTableScope "tr" then
        { b.clearToRow.pop with mode := .inTableBody } else b) := by
  rw [modeRule, hmode]
  rfl

theorem modeRule_endCell (hmode : b.mode = .inCell) (hname : name ∈ cellNames) :
    b.modeRule (.endTag (.plain name)) =
      .done (if b.hasInScope bordersTableScope name then
        ({ b.closeInScope bordersTableScope name with
          mode := .inRow } : Builder).clearFormatting else b) := by
  simp only [cellNames, List.mem_cons, List.not_mem_nil, or_false] at hname
  rw [modeRule, hmode]
  obtain rfl | rfl := hname <;> rfl

/-- In a part of a table its end tag closes it. -/
theorem Ready.modeRule_part_closes (h : b.Ready) (hstack : b.stack = top :: outer)
    (houter : outer ≠ []) (hnamed : top.isNamed name = true) {outside inside : Mode}
    (hpart : (name, outside, inside) ∈ tableParts) (hmode : b.mode = inside)
    (hcontent : contentMode outer = outside) :
    ∃ later, b.modeRule (.endTag (.plain name)) = .done later ∧ b.Closes outer later := by
  have hparts : ∀ part ∈ tableParts, bodyEnd part.1 ≠ .formatting ∧ part.1 ≠ "form" ∧
      impliedEndNames.contains part.1 = false := by decide
  obtain ⟨hformat, hform, hnot⟩ := hparts _ hpart
  obtain ⟨entries, hentries, hnoted⟩ := h.entries_of_part hstack hnamed hformat
  have hplain : outside.plain = (contentMode outer).plain := by rw [hcontent]
  have hcloses := h.closes_inMode hstack houter (isNamed_eq_false hnamed hform) hplain hentries
  refine ⟨_, ?_, hcloses⟩
  have hscope := hasInScope_top bordersTableScope hstack hnamed
  have hclosed := closeInScope_top bordersTableScope hstack hnamed hnot
  have hone {names : List String} (hmem : name ∈ names) : top.isOneOf names = true := by
    rw [isOneOf_of_isNamed hnamed]
    exact List.contains_iff_mem.mpr hmem
  cases tableParts_cases hpart with
  | caption hkind =>
    subst hkind
    rw [modeRule_endCaption hmode, if_pos hscope, hclosed]
    exact congrArg _ (clearFormatting_eq hnoted)
  | columns hkind =>
    subst hkind
    have hcurrent : b.currentIs "colgroup" = true := by rwa [currentIs, hstack]
    have hpop : b.pop = { b with stack := outer } := by rw [pop, hstack]; rfl
    have hsame : b.formatting = entries := hnoted
    rw [modeRule_endColumns hmode, if_pos hcurrent, hpop, ← hsame]
  | rows hkind =>
    have hborder := (by decide : ∀ name ∈ rowHolderNames,
      (OpenElement.html name).bordersFormatting = false) _ hkind
    rw [hborder, if_neg Bool.false_ne_true] at hnoted
    have hclear : b.clearToTableBody.pop = { b with stack := outer } :=
      clearTo_top hstack (hone (List.mem_append_left ["template", "html"] hkind))
    rw [modeRule_endRows hmode hkind, if_pos hscope, hclear, ← hnoted]
  | row hkind =>
    subst hkind
    have hclear : b.clearToRow.pop = { b with stack := outer } :=
      clearTo_top hstack (hone (by decide))
    have hsame : b.formatting = entries := hnoted
    rw [modeRule_endRow hmode, if_pos hscope, hclear, ← hsame]
  | cell hkind =>
    have hborder := (by decide : ∀ name ∈ cellNames,
      (OpenElement.html name).bordersFormatting = true) _ hkind
    rw [hborder, if_pos rfl] at hnoted
    rw [modeRule_endCell hmode hkind, if_pos hscope, hclosed]
    exact congrArg _ (clearFormatting_eq hnoted)

/-! ### Selections -/

theorem modeRule_endTag_select (hmode : b.mode.plain = .inSelect)
    (hname : name ∈ ["option", "optgroup", "select"]) :
    b.modeRule (.endTag (.plain name)) = b.inSelectRule (.endTag (.plain name)) := by
  have hparts : ∀ name ∈ ["option", "optgroup", "select"],
      ["caption", "table", "tbody", "tfoot", "thead", "tr", "td", "th"].contains name = false := by
    decide
  cases hm : b.mode <;> rw [hm] at hmode <;> cases hmode <;> rw [modeRule, hm]
  rw [inSelectInTableRule, oneOf, show (Tag.plain name).name = name from rfl, hparts _ hname,
    if_neg Bool.false_ne_true]

theorem currentIs_top (hstack : b.stack = top :: outer) (other : String) :
    b.currentIs other = top.isNamed other := by
  rw [currentIs, hstack]

/-- In a selection, the end tag of an option or a group closes it. -/
theorem Ready.option_closes (h : b.Ready) (hstack : b.stack = top :: outer) (houter : outer ≠ [])
    (hmode : b.mode.plain = .inSelect) (hnamed : top.isNamed name = true)
    (hname : name = "option" ∨ name = "optgroup") :
    ∃ later, b.modeRule (.endTag (.plain name)) = .done later ∧ b.Closes outer later := by
  have hnames : ∀ name ∈ ["option", "optgroup"], modeNames.contains name = false ∧
      name ≠ "form" ∧ bodyEnd name ≠ .formatting ∧
        formattingBorderNames.contains name = false := by decide
  obtain ⟨hmodes, hform, hformat, hborder⟩ := hnames name (by simpa using hname)
  rw [← isOneOf_of_isNamed hnamed] at hmodes hborder
  have hcloses := h.closes_plain hstack houter hmodes (isNamed_eq_false hnamed hform) hborder
    fun other hother => name_unique hnamed hother ▸ hformat
  have hpop : b.pop = { b with stack := outer } := by rw [pop, hstack]; rfl
  rw [modeRule_endTag_select hmode (by obtain rfl | rfl := hname <;> decide)]
  refine ⟨_, ?_, hcloses⟩
  obtain rfl | rfl := hname
  · show Outcome.done (if b.currentIs "option" then b.pop else b) = _
    rw [currentIs_top hstack, hnamed, if_pos rfl, hpop]
  · have hoption : (if b.currentIs "option" then b.pop else b) = b := by
      rw [currentIs_top hstack, if_neg]
      exact fun hother => absurd (name_unique hnamed hother) (by decide)
    have hgroup : (if (b.stack.drop 1).head?.any (·.isNamed "optgroup") then
        (if b.currentIs "option" then b.pop else b) else b) = b := by rw [hoption, ite_self]
    show Outcome.done (let inner : Builder :=
        if (b.stack.drop 1).head?.any (·.isNamed "optgroup") then
          (if b.currentIs "option" then b.pop else b) else b
      if inner.currentIs "optgroup" then inner.pop else inner) = _
    rw [hgroup]
    dsimp only
    rw [currentIs_top hstack, hnamed, if_pos rfl, hpop]

-- ---------------------------------------------------------------------------
-- Among foreign elements
-- ---------------------------------------------------------------------------

/-- The end tag of a foreign element is found by its name in lower case. -/
theorem Ready.foreign_closes (h : b.Ready) (hstack : b.stack = top :: outer) (houter : outer ≠ [])
    (hns : top.ns ≠ .html) (hlower : asciiLower top.name = name)
    (hname : name ≠ "br" ∧ name ≠ "p") :
    ∃ later, b.rule (.endTag (.plain name)) = .done later ∧ b.Closes outer later := by
  have hnone (names : List String) : top.isOneOf names = false :=
    Bool.and_eq_false_imp.mpr fun heq => absurd (beq_iff_eq.mp heq) hns
  have hnot (other : String) : top.isNamed other = false :=
    Bool.and_eq_false_imp.mpr fun heq => absurd (beq_iff_eq.mp heq) hns
  refine ⟨_, ?_, h.closes_plain hstack houter (hnone _) (hnot _) (hnone _)
    fun other hother => absurd hother (Bool.eq_false_iff.mp (hnot other))⟩
  have hforeign : b.isForeign (.endTag (.plain name)) = true := by
    rw [isForeign, hstack]
    simp [hns]
  rw [rule, hforeign, if_pos rfl, foreignRule]
  have hempty : outer.isEmpty = false := by simpa using houter
  simp [Tag.plain, hname.1, hname.2, hstack, closeForeign, hempty, hlower]

-- ---------------------------------------------------------------------------
-- Wherever reading stands
-- ---------------------------------------------------------------------------

section

variable {tag : Tag} {node : Handle}

/-- What was opened in the body is closed by its end tag. -/
theorem Ready.modeRule_closes_body (h : b.Ready)
    (hstack : b.stack = (OpenElement.html tag.name).under node :: outer) (houter : outer ≠ [])
    (hbody : contentMode outer = .inBody ∨ contentMode outer = .inCell ∨
      contentMode outer = .inCaption)
    (hopens : (bodyStart tag.name).opensIn outer = true) :
    ∃ later, b.modeRule (.endTag (.plain tag.name)) = .done later ∧ b.Closes outer later := by
  have hnamed : ((OpenElement.html tag.name).under node).isNamed tag.name = true :=
    OpenElement.isNamed_html tag.name
  have hholding : ((OpenElement.html tag.name).under node).holding = .nodes :=
    h.holding _ (hstack ▸ List.mem_cons_self)
  have hmode := h.mode
  rw [hstack] at hmode
  by_cases htable : tag.name = "table"
  · rw [htable] at hstack hnamed hmode ⊢
    have hm : b.mode = .inTable := Mode.eq_of_plain hmode (by decide)
    refine ⟨_, ?_, h.resetMode_closes hstack houter hnamed (.inl rfl)⟩
    rw [modeRule, hm]
    show Outcome.done (if b.hasInScope bordersTableScope "table" then
      (b.popThroughName "table").resetMode else b) = _
    rw [if_pos (hasInScope_top _ hstack hnamed)]
  by_cases hselect : tag.name = "select"
  · rw [hselect] at hstack hnamed hmode ⊢
    refine ⟨_, ?_, h.resetMode_closes hstack houter hnamed (.inr rfl)⟩
    rw [modeRule_endTag_select (hmode.trans (contentMode_select outer)) (by decide)]
    show Outcome.done (if b.hasInScope bordersSelectScope "select" then b.closeSelect else b) = _
    rw [if_pos (hasInScope_top _ hstack hnamed)]
    rfl
  have hmodes : tag.name ∉ "br" :: "col" :: modeNames := fun hmem => by
    have hnames : ∀ name ∈ "br" :: "col" :: modeNames, name = "table" ∨ name = "select" ∨
        (OpenElement.html name).holding ≠ .nodes ∨ (bodyStart name).opensNothing = true := by
      decide +kernel
    obtain hname | hname | hname | hname := hnames _ hmem
    · exact htable hname
    · exact hselect hname
    · exact hname hholding
    · rw [BodyStart.opensIn_of_opensNothing hname] at hopens
      cases hopens
  have hmodes' : modeNames.contains tag.name = false := by
    rw [List.contains_eq_mem, decide_eq_false_iff_not]
    exact fun hmem => hmodes (.tail _ (.tail _ hmem))
  have hends : tag.name ∉ tableEndNames := fun hmem =>
    hmodes ((by decide : tableEndNames ⊆ "br" :: "col" :: modeNames) hmem)
  have hb : b.mode = contentMode outer := by
    rw [contentMode_cons (by rw [isOneOf_of_isNamed hnamed, hmodes'])] at hmode
    exact Mode.eq_of_plain hmode (by obtain hc | hc | hc := hbody <;> rw [hc] <;> decide)
  rw [modeRule_endTag (by rwa [hb]) hends]
  refine h.endRule_closes hstack houter hnamed hmodes' (fun hbr => hmodes (hbr ▸ .head _)) ?_
  intro hform
  rw [hform, show bodyStart "form" = .form from rfl] at hopens
  simp only [BodyStart.opensIn, Bool.and_eq_true, Bool.not_eq_true'] at hopens
  exact hopens.2

/-- So is what was opened in a table. -/
theorem Ready.modeRule_closes_table (h : b.Ready)
    (hstack : b.stack = (OpenElement.html tag.name).under node :: outer) (houter : outer ≠ [])
    (hopens : opensInTable outer tag.name = true) :
    ∃ later, b.modeRule (.endTag (.plain tag.name)) = .done later ∧ b.Closes outer later := by
  have hnamed : ((OpenElement.html tag.name).under node).isNamed tag.name = true :=
    OpenElement.isNamed_html tag.name
  have hholding : ((OpenElement.html tag.name).under node).holding = .nodes :=
    h.holding _ (hstack ▸ List.mem_cons_self)
  have hmode := h.mode
  rw [hstack] at hmode
  rw [opensInTable, Bool.and_eq_true, Bool.or_eq_true, List.any_eq_true] at hopens
  obtain ⟨-, hscript | ⟨⟨name, outside, inside⟩, hpart, hfits⟩⟩ := hopens
  · exact absurd hholding ((by decide : ∀ name ∈ tableScriptNames,
      (OpenElement.html name).holding ≠ .nodes) _ (List.contains_iff_mem.mp hscript))
  · simp only [Bool.and_eq_true, beq_iff_eq] at hfits
    obtain ⟨rfl, rfl⟩ := hfits
    have hinside : contentMode ((OpenElement.html tag.name).under node :: outer) = inside :=
      contentMode_part hpart houter
    have hplain : inside.plain ≠ .inSelect :=
      (by decide : ∀ part ∈ tableParts, part.2.2.plain ≠ .inSelect) _ hpart
    rw [hinside] at hmode
    exact h.modeRule_part_closes hstack houter hnamed hpart (Mode.eq_of_plain hmode hplain) rfl

/-- And what was opened in a selection. -/
theorem Ready.modeRule_closes_select (h : b.Ready)
    (hstack : b.stack = (OpenElement.html tag.name).under node :: outer) (houter : outer ≠ [])
    (hselect : (contentMode outer).plain = .inSelect)
    (hopens : opensInSelect outer tag.name = true) :
    ∃ later, b.modeRule (.endTag (.plain tag.name)) = .done later ∧ b.Closes outer later := by
  have hnamed : ((OpenElement.html tag.name).under node).isNamed tag.name = true :=
    OpenElement.isNamed_html tag.name
  have hholding : ((OpenElement.html tag.name).under node).holding = .nodes :=
    h.holding _ (hstack ▸ List.mem_cons_self)
  have hnone : ∀ name ∈ ["hr", "script", "template"], (OpenElement.html name).holding ≠ .nodes := by
    decide
  have hmodes : ∀ name ∈ ["option", "optgroup"], modeNames.contains name = false := by decide
  have hoption : tag.name = "option" ∨ tag.name = "optgroup" := by
    obtain ⟨hname, -⟩ | ⟨hname | hname, -⟩ | hname | hname := opensInSelect_iff.mp hopens
    · exact .inl hname
    · exact .inr hname
    all_goals exact absurd hholding (hnone tag.name (by rw [hname]; decide))
  have hmode : b.mode.plain = .inSelect := by
    rw [h.mode, hstack, contentMode_cons, hselect]
    rw [isOneOf_of_isNamed hnamed]
    exact hmodes _ (by simpa using hoption)
  exact h.option_closes hstack houter hmode hnamed hoption

/-- The end tag of the element that a tag has opened closes it. -/
theorem Ready.rule_endTag (h : b.Ready) (hstack : b.stack = (opened outer tag).under node :: outer)
    (houter : outer ≠ []) (hopens : opensIn outer tag = true)
    (hlower : asciiLower (opened outer tag).name = tag.name) :
    ∃ later, b.rule (.endTag (.plain tag.name)) = .done later ∧ b.Closes outer later := by
  by_cases hns : (opened outer tag).ns = .html
  · obtain ⟨hforeign, hopened⟩ := opened_eq_html hns
    rw [hopened] at hstack
    have hholding : ((OpenElement.html tag.name).under node).holding = .nodes :=
      h.holding _ (hstack ▸ List.mem_cons_self)
    have hrule : b.rule (.endTag (.plain tag.name)) = b.modeRule (.endTag (.plain tag.name)) := by
      rw [rule, isForeign, hstack]
      rfl
    rw [opensIn, hforeign, if_neg Bool.false_ne_true] at hopens
    rw [hrule]
    cases hcontent : contentMode outer <;> rw [hcontent] at hopens
    case inBody | inCell | inCaption =>
      exact h.modeRule_closes_body hstack houter (by simp [hcontent]) hopens
    case inTable | inTableBody | inRow => exact h.modeRule_closes_table hstack houter hopens
    case inColumnGroup =>
      rw [Bool.and_eq_true, List.contains_iff_mem] at hopens
      exact absurd hholding ((by decide : ∀ name ∈ ["col", "template"],
        (OpenElement.html name).holding ≠ .nodes) _ hopens.2)
    case inSelect | inSelectInTable =>
      exact h.modeRule_closes_select hstack houter (by rw [hcontent]; rfl) hopens
    all_goals cases hopens
  · refine h.foreign_closes hstack houter hns hlower ?_
    cases hforeign : readsForeign outer tag with
    | true =>
      rw [opensIn, hforeign, if_pos rfl, Bool.and_eq_true, Bool.not_eq_true'] at hopens
      have hnot : tag.name ∉ breakoutNames := by
        have hone := hopens.1
        rwa [List.contains_eq_mem, decide_eq_false_iff_not] at hone
      exact ⟨fun hname => hnot (hname ▸ by decide), fun hname => hnot (hname ▸ by decide)⟩
    | false =>
      rw [opened_of_html hforeign] at hns
      by_cases hname : tag.name ∈ ["br", "p"]
      · rw [openedInBody_of_mem (by decide) hname] at hns
        exact absurd rfl hns
      · simpa using hname

end

end Builder

end HtmlTemplate.Html
