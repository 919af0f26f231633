-- SUMMARY: What start tags do where they open an element right inside the innermost one.
import HtmlTemplate.Proofs.Html.Standing

/-!
# Opening elements

A start tag that may stand where it is puts an element behind the children of the innermost
one and makes it the innermost. `Builder.Opens` says this, and that reading stands again
between two nodes, inside the new element. What differs from kind to kind is what is noted
beside it: formatting, a form, another mode.

An element without content is put there and not opened.
-/

namespace HtmlTemplate.Html.Builder

open OpenElement (annotationHoldsHtml)

-- ---------------------------------------------------------------------------
-- Putting elements
-- ---------------------------------------------------------------------------

theorem putElement_eq {b : Builder} {parent : Handle} (hplace : b.place = .lastIn parent)
    (ns : Namespace) (name : String) (attributes : List Attribute) :
    b.putElement ns name attributes =
      ({ b with draft := b.draft.putElement parent ns name attributes },
        ⟨b.draft.size, ns, name, annotationHoldsHtml ns name attributes⟩) := by
  rw [putElement, hplace, create]
  dsimp only
  rw [Draft.addElement_snd, Draft.putElement]

theorem openTag_eq {b : Builder} {parent : Handle} (hplace : b.place = .lastIn parent)
    (tag : Tag) :
    b.openTag tag =
      { b with
        draft := b.draft.putElement parent .html tag.name (elementAttributes .html tag)
        stack := ⟨b.draft.size, .html, tag.name, false⟩ :: b.stack } := by
  rw [openTag, putElement_eq hplace]
  rfl

theorem putVoid_eq {b : Builder} {parent : Handle} (hplace : b.place = .lastIn parent)
    (tag : Tag) :
    b.putVoid tag =
      { b with
        draft := b.draft.putElement parent .html tag.name (elementAttributes .html tag) } := by
  rw [putVoid, putElement_eq hplace]

end HtmlTemplate.Html.Builder

namespace HtmlTemplate.Html

open OpenElement (inScope bordersScope)

/-- Whether a line feed right behind the start tag is left out. -/
def OpenElement.skipsLineFeed (element : OpenElement) : Bool :=
  element.isOneOf ["pre", "listing", "textarea"]

/-- Start tags that open an element and note nothing. -/
def BodyStart.opensPlainly : BodyStart → Bool
  | .block | .heading | .preformatted | .item _ | .button | .option | .rubyBase | .rubyText
  | .ordinary => true
  | _ => false

/-- Start tags that open an element and note it as formatting. -/
def BodyStart.opensFormatting : BodyStart → Bool
  | .link | .formatting | .nobr => true
  | _ => false

/-- Start tags of elements that hold no nodes. -/
def BodyStart.opensLeaf : BodyStart → Bool
  | .head | .phrasingVoid | .plainVoid | .rule | .textarea | .xmp | .iframe | .rawText => true
  | _ => false

/-- Start tags that open nothing anywhere in the body. -/
def BodyStart.opensNothing : BodyStart → Bool
  | .html | .body | .frameset | .plaintext | .image | .ignored => true
  | _ => false

theorem BodyStart.opensIn_of_opensNothing {start : BodyStart} (h : start.opensNothing = true)
    (stack : List OpenElement) : start.opensIn stack = false := by
  cases start <;> first | rfl | cases h

/-- Elements that are a border for formatting, in the body. -/
def borderNames : List String := ["applet", "marquee", "object"]

/-- Elements whose content is read like what is around them, and beside which nothing is noted. -/
def OpenElement.isNeutral (element : OpenElement) : Bool :=
  !element.isOneOf ("form" :: (borderNames ++ modeNames))

namespace OpenElement

variable {element : OpenElement}

theorem isNamed_of_isNeutral (h : element.isNeutral = true) {name : String}
    (hname : name ∈ "form" :: (borderNames ++ modeNames)) : element.isNamed name = false := by
  rw [Bool.eq_false_iff]
  intro hnamed
  simp only [isNamed, Bool.and_eq_true, beq_iff_eq] at hnamed
  simp [isNeutral, isOneOf, hnamed.1, hnamed.2] at h
  simp_all

theorem isNamed_html (name : String) : (html name).isNamed name = true := by simp [isNamed, html]

/-- Whether a line feed is to be left out stays as it is. -/
theorem or_skipsLineFeed (h : element.skipsLineFeed = false) (skip : Bool) :
    skip = (skip || element.skipsLineFeed) := by rw [h, Bool.or_false]

theorem isOneOf_of_isNeutral (h : element.isNeutral = true) {names : List String}
    (hnames : names ⊆ "form" :: (borderNames ++ modeNames)) : element.isOneOf names = false := by
  rw [Bool.eq_false_iff]
  intro hone
  simp only [isOneOf, Bool.and_eq_true, beq_iff_eq, List.contains_iff_mem] at hone
  simp only [isNeutral, isOneOf, Bool.not_eq_true', Bool.and_eq_false_imp, beq_iff_eq] at h
  have hnot := h hone.1
  rw [List.contains_eq_mem, decide_eq_false_iff_not] at hnot
  exact hnot (hnames hone.2)

theorem bordersFormatting_of_isNeutral (h : element.isNeutral = true) :
    element.bordersFormatting = false :=
  isOneOf_of_isNeutral h (by decide)

end OpenElement

namespace Builder

/-- An element has been opened inside the innermost one. -/
structure Opens (b : Builder) (element : OpenElement) (attributes : List Attribute)
    (later : Builder) : Prop where
  stack : later.stack = element.under b.draft.size :: b.stack
  adds : b.draft.Adds b.innermost (.element element.ns element.name attributes) later.draft
  skipLineFeed : later.skipLineFeed = (b.skipLineFeed || element.skipsLineFeed)
  skipMark : later.skipMark = b.skipMark
  ready : later.Ready

/-- No form is noted for another element. -/
theorem form_eq (b : Builder) {element : OpenElement} (h : element.isNamed "form" = false) :
    b.form = if element.isNamed "form" then some b.draft.size else b.form :=
  (if_neg (Bool.eq_false_iff.mp h)).symm

namespace Ready

variable {b later : Builder} (h : b.Ready)
include h

/-- A new element takes its children itself, unless it is a template. -/
theorem holdsOpen_putElement {element : OpenElement} (hnot : element.isNamed "template" = false)
    (attributes : List Attribute) :
    (b.draft.putElement b.innermost element.ns element.name attributes).HoldsOpen
      (element.under b.draft.size :: b.stack) := by
  obtain ⟨hadds, hcontents⟩ :=
    Draft.adds_putElement h.innermost_lt element.ns element.name attributes
  exact List.forall_mem_cons.mpr ⟨hcontents hnot, h.cells.mono hadds.contents⟩

theorem opens {element : OpenElement} {attributes : List Attribute}
    (hholding : element.holding = .nodes)
    (hstack : later.stack = element.under b.draft.size :: b.stack)
    (hdraft : later.draft = b.draft.putElement b.innermost element.ns element.name attributes)
    (hskip : later.skipLineFeed = (b.skipLineFeed || element.skipsLineFeed))
    (hmode : later.mode.plain = (contentMode (element :: b.stack)).plain)
    (hformatting : Follows later.formatting (element.under b.draft.size :: b.stack))
    (hform : later.form = if element.isNamed "form" then some b.draft.size else b.form)
    (hmark : later.skipMark = b.skipMark) (hsame : b.Alike later) :
    b.Opens element attributes later := by
  have hadds := (Draft.adds_putElement h.innermost_lt element.ns element.name attributes).1
  rw [← hdraft] at hadds
  refine ⟨hstack, hadds, hskip, hmark, ?_⟩
  exact {
    mode := by
      rw [hmode, hstack]
      rfl
    textMode := hsame.textMode.trans h.textMode
    templateModes := hsame.templateModes.trans h.templateModes
    old := hsame.old.trans h.old
    head := hsame.head ▸ h.head
    fostering := hsame.fostering.trans h.fostering
    formatting := by rwa [hstack]
    form := by
      have hnamed : (element.under b.draft.size).isNamed "form" = element.isNamed "form" := rfl
      rw [hform, hstack, h.form, List.find?_cons, hnamed]
      cases element.isNamed "form" <;> rfl
    nonempty := by
      rw [hstack]
      exact List.cons_ne_nil _ _
    holding := by
      rw [hstack]
      exact List.forall_mem_cons.mpr ⟨hholding, h.holding⟩
    handles := by
      rw [hstack]
      exact List.pairwise_cons.mpr ⟨fun e he => h.node_lt he, h.handles⟩
    cells := by
      rw [hstack, hdraft]
      exact h.holdsOpen_putElement (OpenElement.isNamed_template hholding) attributes }

/-- A neutral element is opened, with formatting noted or not. -/
theorem opens_neutral {element : OpenElement} {attributes : List Attribute}
    (hneutral : element.isNeutral = true) (hholding : element.holding = .nodes)
    (hstack : later.stack = element.under b.draft.size :: b.stack)
    (hdraft : later.draft = b.draft.putElement b.innermost element.ns element.name attributes)
    (hskip : later.skipLineFeed = (b.skipLineFeed || element.skipsLineFeed))
    (hmode : later.mode = b.mode)
    (hformatting : Follows later.formatting (element.under b.draft.size :: b.stack))
    (hform : later.form = b.form)
    (hmark : later.skipMark = b.skipMark) (hsame : b.Alike later) :
    b.Opens element attributes later := by
  have hmem : "form" ∈ "form" :: (borderNames ++ modeNames) := List.mem_cons_self
  have hnot := OpenElement.isNamed_of_isNeutral hneutral hmem
  refine h.opens hholding hstack hdraft hskip ?_ hformatting ?_ hmark hsame
  · rw [hmode, h.mode, contentMode_cons (OpenElement.isOneOf_of_isNeutral hneutral (by decide))]
  · rw [hform]
    exact b.form_eq hnot

end Ready

-- ---------------------------------------------------------------------------
-- In the body
-- ---------------------------------------------------------------------------

/-! ### What ends nothing -/

theorem stops_of_stopsItemSearch {names : List String} {e : OpenElement}
    (h : stopsItemSearch names e = true) :
    (e.isOneOf names || (e.isOneOf specialNames && !e.isOneOf ["address", "div", "p"])) = true := by
  simp only [stopsItemSearch, OpenElement.isOneOf] at h ⊢
  grind

/-- No item is found if there is none where the search stops at the latest. -/
theorem isOneOf_of_find? {names : List String} {stack : List OpenElement} {e : OpenElement}
    (hnone : hasItem names stack = false) (hfound : (stack.find? fun e => e.isOneOf names ||
      (e.isOneOf specialNames && !e.isOneOf ["address", "div", "p"])) = some e) :
    e.isOneOf names = false := by
  obtain ⟨-, inside, outside, hstack, hinside⟩ := List.find?_eq_some_iff_append.mp hfound
  rw [Bool.eq_false_iff]
  intro hitem
  have hsame : stack.find? (stopsItemSearch names) = some e := by
    refine List.find?_eq_some_iff_append.mpr
      ⟨Bool.or_eq_true_iff.mpr (.inl hitem), inside, outside, hstack, fun a ha => ?_⟩
    have hnot := hinside a ha
    rw [Bool.not_eq_true'] at hnot ⊢
    rw [Bool.eq_false_iff] at hnot ⊢
    exact fun h => hnot (stops_of_stopsItemSearch h)
  rw [hasItem, hsame, Option.any_some, hitem] at hnone
  cases hnone

theorem closeItem_eq {b : Builder} {names : List String} (hnone : hasItem names b.stack = false) :
    b.closeItem names = b := by
  unfold closeItem
  dsimp only
  split
  · next hfound => exact if_neg (Bool.eq_false_iff.mp (isOneOf_of_find? hnone hfound))
  · rfl

theorem closeInScope_eq {b : Builder} {name : String}
    (hnone : Html.hasInScope name b.stack = false) :
    b.closeInScope bordersScope name = b :=
  if_neg (Bool.eq_false_iff.mp hnone)

theorem impliedEnds_eq {b : Builder} {names : List String}
    (hnone : innermostIsOneOf names b.stack = false) : b.impliedEnds names = b := by
  rw [impliedEnds]
  cases hstack : b.stack with
  | nil => rw [List.dropWhile_nil, ← hstack]
  | cons top outer =>
    have htop : top.isOneOf names = false := by rwa [hstack] at hnone
    rw [List.dropWhile_cons_of_neg (Bool.eq_false_iff.mp htop), ← hstack]

/-- Nothing is closed down to the innermost element. -/
theorem popUntilOneOf_eq {b : Builder} {names more : List String}
    (hinnermost : innermostIsOneOf names b.stack = true) (hnames : names ⊆ more) :
    b.popUntilOneOf more = b := by
  rw [popUntilOneOf]
  cases hstack : b.stack with
  | nil => rw [List.dropWhile_nil, ← hstack]
  | cons top outer =>
    have htop : top.isOneOf names = true := by rwa [hstack] at hinnermost
    rw [OpenElement.isOneOf, Bool.and_eq_true, List.contains_iff_mem] at htop
    have hmore : top.isOneOf more = true := by
      rw [OpenElement.isOneOf, Bool.and_eq_true, List.contains_iff_mem]
      exact ⟨htop.1, hnames htop.2⟩
    rw [List.dropWhile_cons_of_neg (by simp [hmore]), ← hstack]

theorem currentIsOneOf_eq (b : Builder) (names : List String) :
    b.currentIsOneOf names = innermostIsOneOf names b.stack := by
  rw [currentIsOneOf, innermostIsOneOf]
  cases b.stack <;> rfl

theorem innermostIsOneOf_subset {names more : List String} {stack : List OpenElement}
    (hnone : innermostIsOneOf more stack = false) (hnames : names ⊆ more) :
    innermostIsOneOf names stack = false := by
  cases stack with
  | nil => rfl
  | cons top outer =>
    have htop : top.isOneOf more = false := hnone
    show top.isOneOf names = false
    simp only [OpenElement.isOneOf, Bool.and_eq_false_imp, List.contains_eq_mem,
      decide_eq_false_iff_not] at htop ⊢
    exact fun hns hmem => htop hns (hnames hmem)

theorem currentIs_eq (b : Builder) (name : String) :
    b.currentIs name = innermostIsOneOf [name] b.stack := by
  rw [currentIs, innermostIsOneOf]
  cases b.stack with
  | nil => rfl
  | cons top outer => simp [OpenElement.isNamed, OpenElement.isOneOf, Bool.beq_eq_decide_eq]

/-- No link is noted that is not open. -/
theorem closeOpenLink_eq {b : Builder} (hformatting : Follows b.formatting b.stack)
    (hnone : hasLink b.stack = false) : b.closeOpenLink = b := by
  have hfound : b.findFormatting? "a" = none := by
    rw [findFormatting?, List.findSome?_eq_none_iff]
    intro entry hentry
    cases entry with
    | marker => rfl
    | element node tag =>
      dsimp only
      rw [ite_eq_right_iff]
      intro hname
      obtain ⟨e, he, hnamed⟩ := hformatting.exists_of_recent hentry
      rw [hasLink, List.any_eq_false] at hnone
      exact absurd (beq_iff_eq.mp hname ▸ hnamed) (hnone e he)
  rw [closeOpenLink, hfound]

namespace Ready

variable {b : Builder} (h : b.Ready) {tag : Tag}
include h

/-- A neutral element is opened by its tag. -/
theorem opens_openTag (hneutral : (OpenElement.html tag.name).isNeutral = true)
    (hholding : (OpenElement.html tag.name).holding = .nodes) (allowed : Bool) {skip : Bool}
    (hskip : skip = (b.skipLineFeed || (OpenElement.html tag.name).skipsLineFeed)) :
    b.Opens (.html tag.name) (elementAttributes .html tag)
      { b.openTag tag with framesetAllowed := allowed, skipLineFeed := skip } := by
  have hborder := OpenElement.bordersFormatting_of_isNeutral hneutral
  rw [openTag_eq h.place_eq]
  exact h.opens_neutral hneutral hholding rfl rfl hskip rfl (.skip h.formatting hborder) rfl
    rfl ⟨rfl, rfl, rfl, rfl, rfl⟩

theorem startRule_openTag (hopens : (bodyStart tag.name).opensIn b.stack = true)
    (hkind : (bodyStart tag.name).opensPlainly = true) :
    ∃ allowed, b.startRule tag (bodyStart tag.name) =
      .done { b.openTag tag with
        framesetAllowed := allowed
        skipLineFeed := bodyStart tag.name == .preformatted || b.skipLineFeed } := by
  have hreopen := h.reopenFormatting_eq
  have hplace := h.place_eq
  cases hstart : bodyStart tag.name <;> rw [hstart] at hopens hkind <;>
    simp only [BodyStart.opensIn, Bool.and_eq_true, Bool.not_eq_true'] at hopens <;>
    rw [startRule]
  case block =>
    rw [closeParagraph_eq hopens]
    exact ⟨_, rfl⟩
  case heading =>
    rw [closeParagraph_eq hopens.1, currentIsOneOf_eq, hopens.2]
    exact ⟨_, rfl⟩
  case preformatted =>
    rw [closeParagraph_eq hopens]
    exact ⟨_, rfl⟩
  case item names =>
    have hplace' : b.withoutFrameset.place = .lastIn b.innermost := h.place_of rfl rfl rfl
    rw [closeItem_eq (b := b.withoutFrameset) hopens.1,
      closeParagraph_eq (b := b.withoutFrameset) hopens.2, openTag_eq hplace', openTag_eq hplace]
    exact ⟨false, rfl⟩
  case button =>
    rw [closeInScope_eq hopens, hreopen]
    exact ⟨false, rfl⟩
  case option =>
    rw [currentIs_eq, hopens, if_neg Bool.false_ne_true, hreopen]
    exact ⟨_, rfl⟩
  case rubyBase =>
    have hruby : (if b.hasInScope bordersScope "ruby" then b.impliedEnds impliedEndNames else b) =
        b :=
      ite_eq_right_iff.mpr fun hscope => impliedEnds_eq (Bool.and_eq_false_imp.mp hopens hscope)
    rw [hruby]
    exact ⟨_, rfl⟩
  case rubyText =>
    have hruby : (if b.hasInScope bordersScope "ruby" then b.impliedEndsExcept "rtc" else b) =
        b :=
      ite_eq_right_iff.mpr fun hscope => impliedEnds_eq (Bool.and_eq_false_imp.mp hopens hscope)
    rw [hruby]
    exact ⟨_, rfl⟩
  case ordinary =>
    rw [hreopen]
    exact ⟨_, rfl⟩
  all_goals cases hkind

theorem startRule_openFormatting (hopens : (bodyStart tag.name).opensIn b.stack = true)
    (hkind : (bodyStart tag.name).opensFormatting = true) :
    b.startRule tag (bodyStart tag.name) = .done (b.openFormatting tag) := by
  have hreopen := h.reopenFormatting_eq
  cases hstart : bodyStart tag.name <;> rw [hstart] at hopens hkind <;>
    simp only [BodyStart.opensIn, Bool.not_eq_true'] at hopens <;> rw [startRule]
  case link => rw [closeOpenLink_eq h.formatting hopens, hreopen]
  case formatting => rw [hreopen]
  case nobr =>
    rw [hreopen, hasInScope, show inScope _ _ _ = false from hopens, if_neg Bool.false_ne_true]
  all_goals cases hkind

/-- Formatting is noted as the latest. -/
theorem opens_openFormatting (hneutral : (OpenElement.html tag.name).isNeutral = true)
    (hholding : (OpenElement.html tag.name).holding = .nodes)
    (hskip : (OpenElement.html tag.name).skipsLineFeed = false)
    (hformat : bodyEnd tag.name = .formatting) :
    b.Opens (.html tag.name) (elementAttributes .html tag) (b.openFormatting tag) := by
  have hrecent : Follows (b.recentFormatting ++ b.formatting.dropWhile (!isMarker ·)) b.stack := by
    rw [recentFormatting, List.takeWhile_append_dropWhile]
    exact h.formatting
  rw [openFormatting, openTag_eq h.place_eq]
  exact h.opens_neutral hneutral hholding rfl rfl (OpenElement.or_skipsLineFeed hskip _) rfl
    (.entry (hrecent.dropFourth tag) (OpenElement.isNamed_html _) hformat) rfl rfl
    ⟨rfl, rfl, rfl, rfl, rfl⟩

/-- A form is noted, to be closed wherever its end tag comes. -/
theorem opens_form (hname : tag.name = "form") :
    b.Opens (.html tag.name) (elementAttributes .html tag)
      { b.openTag tag with form := (b.openTag tag).stack.head?.map OpenElement.node } := by
  have hmode : b.mode.plain = (contentMode (.html "form" :: b.stack)).plain := by
    rw [contentMode_cons (by decide), h.mode]
  have hborder : (OpenElement.html "form").bordersFormatting = false := by decide
  have hskip : (OpenElement.html "form").skipsLineFeed = false := by decide
  rw [openTag_eq h.place_eq, hname]
  exact h.opens (by decide) rfl rfl (OpenElement.or_skipsLineFeed hskip _) hmode
    (.skip h.formatting hborder) (if_pos (OpenElement.isNamed_html _)).symm rfl
    ⟨rfl, rfl, rfl, rfl, rfl⟩

/-- Formatting does not cross the border. -/
theorem opens_bordered (hname : tag.name ∈ borderNames) (allowed : Bool) :
    b.Opens (.html tag.name) (elementAttributes .html tag)
      { (b.openTag tag).pushMarker with framesetAllowed := allowed } := by
  have hnames : ∀ name ∈ borderNames, (OpenElement.html name).holding = .nodes ∧
      (OpenElement.html name).skipsLineFeed = false ∧
      (OpenElement.html name).isOneOf modeNames = false ∧
      (OpenElement.html name).isNamed "form" = false ∧
      (OpenElement.html name).bordersFormatting = true := by decide
  obtain ⟨hholding, hskip, hmode, hform, hborder⟩ := hnames _ hname
  have hmode' : b.mode.plain = (contentMode (.html tag.name :: b.stack)).plain := by
    rw [contentMode_cons hmode, h.mode]
  rw [openTag_eq h.place_eq]
  exact h.opens hholding rfl rfl (OpenElement.or_skipsLineFeed hskip _) hmode'
    (.border h.formatting hborder) (b.form_eq hform) rfl ⟨rfl, rfl, rfl, rfl, rfl⟩

/-- Neither what is noted nor the formatting changes, but the mode may. -/
theorem opens_inMode {name : String} (hname : tag.name = name)
    (hholding : (OpenElement.html name).holding = .nodes)
    (hskip : (OpenElement.html name).skipsLineFeed = false)
    (hform : (OpenElement.html name).isNamed "form" = false)
    (hborder : (OpenElement.html name).bordersFormatting = false) {mode : Mode}
    (hmode : mode.plain = (contentMode (.html name :: b.stack)).plain) (allowed : Bool) :
    b.Opens (.html name) (elementAttributes .html tag)
      { b.openTag tag with mode, framesetAllowed := allowed } := by
  rw [openTag_eq h.place_eq, hname]
  exact h.opens hholding rfl rfl (OpenElement.or_skipsLineFeed hskip _) hmode
    (.skip h.formatting hborder) (b.form_eq hform) rfl ⟨rfl, rfl, rfl, rfl, rfl⟩

/-- A foreign element is opened under the name that its vocabulary spells. -/
theorem opens_openForeign {ns : Namespace} (hns : ns ≠ .html) (name : String)
    (hclosing : tag.selfClosing = false) :
    b.Opens (.foreign ns name tag) (elementAttributes ns tag) (b.openForeign ns name tag) := by
  have hnone (names : List String) : (OpenElement.foreign ns name tag).isOneOf names = false :=
    Bool.and_eq_false_imp.mpr fun heq => absurd (beq_iff_eq.mp heq) hns
  have hneutral : (OpenElement.foreign ns name tag).isNeutral = true := by
    rw [OpenElement.isNeutral, hnone]
    rfl
  have hholding : (OpenElement.foreign ns name tag).holding = .nodes :=
    if_pos (bne_iff_ne.mpr hns)
  rw [openForeign, putElement_eq h.place_eq]
  dsimp only
  rw [hclosing, if_neg Bool.false_ne_true]
  exact h.opens_neutral hneutral hholding rfl rfl (OpenElement.or_skipsLineFeed (hnone _) _) rfl
    (.skip h.formatting (hnone _)) rfl rfl ⟨rfl, rfl, rfl, rfl, rfl⟩

end Ready

end Builder

/-! ### The kinds -/

section Kinds

variable {name : String}

/-- Elements of these kinds are read like what is around them. -/
theorem isNeutral_of_bodyStart
    (h : (bodyStart name).opensPlainly = true ∨ (bodyStart name).opensFormatting = true) :
    (OpenElement.html name).isNeutral = true := by
  have hkinds : ∀ name ∈ "form" :: (borderNames ++ modeNames),
      (bodyStart name).opensPlainly = false ∧ (bodyStart name).opensFormatting = false := by
    decide +kernel
  rw [OpenElement.isNeutral, Bool.not_eq_true', OpenElement.isOneOf]
  refine Bool.and_eq_false_imp.mpr fun _ => ?_
  rw [List.contains_eq_mem, decide_eq_false_iff_not]
  intro hmem
  simp [hkinds name hmem] at h

/-- Elements of these kinds have no nodes inside. -/
theorem opensLeaf_of_holding (h : (OpenElement.html name).holding = .nodes) :
    (bodyStart name).opensLeaf = false := by
  have hkinds : ∀ kind ∈ [BodyStart.head, .phrasingVoid, .plainVoid, .rule, .textarea, .xmp,
      .iframe, .rawText], ∀ name ∈ kind.names, (OpenElement.html name).holding ≠ .nodes := by
    decide +kernel
  rw [Bool.eq_false_iff]
  intro hleaf
  cases hkind : bodyStart name <;> rw [hkind] at hleaf
  case head | phrasingVoid | plainVoid | rule | textarea | xmp | iframe | rawText =>
    exact hkinds _ (by decide) name (BodyStart.mem_names hkind nofun) h
  all_goals cases hleaf

/-- All other elements that are opened have nodes inside. -/
theorem holding_of_bodyStart (hleaf : (bodyStart name).opensLeaf = false)
    (hne : bodyStart name ≠ .ignored) : (OpenElement.html name).holding = .nodes := by
  have hkinds : ∀ other ∈ Syntax.voidNames ++ (Syntax.emptyNames ++ ("template" ::
      Syntax.textNames)), (bodyStart other).opensLeaf = true ∨ bodyStart other = .ignored := by
    decide +kernel
  have hnot : name ∉ Syntax.voidNames ++ (Syntax.emptyNames ++ ("template" ::
      Syntax.textNames)) := fun hmem => (hkinds name hmem).elim (Bool.eq_false_iff.mp hleaf) hne
  simp only [List.mem_append, List.mem_cons, not_or] at hnot
  obtain ⟨hvoid, hempty, htemplate, htext⟩ := hnot
  simp [OpenElement.holding, holdingOf, OpenElement.html, hvoid, hempty, htemplate, htext]

theorem holding_openedInBody {tag : Tag} (hleaf : (bodyStart tag.name).opensLeaf = false)
    (hne : bodyStart tag.name ≠ .ignored) : (openedInBody tag).holding = .nodes := by
  by_cases hforeign : ∃ ns, bodyStart tag.name = .foreign ns
  · obtain ⟨ns, hkind⟩ := hforeign
    rw [openedInBody, hkind]
    exact if_pos (by simpa [OpenElement.foreign] using ns_ne_html_of_bodyStart hkind)
  · rw [openedInBody_eq fun ns hns => hforeign ⟨ns, hns⟩]
    exact holding_of_bodyStart hleaf hne

theorem skipsLineFeed_of_bodyStart (h : (bodyStart name).opensLeaf = false) :
    (OpenElement.html name).skipsLineFeed = (bodyStart name == .preformatted) := by
  have hnames : ∀ name ∈ BodyStart.preformatted.names,
      (OpenElement.html name).skipsLineFeed = true := by decide
  have hkinds : ∀ name ∈ ["pre", "listing", "textarea"],
      bodyStart name = .preformatted ∨ (bodyStart name).opensLeaf = true := by decide +kernel
  rw [Bool.eq_iff_iff, beq_iff_eq]
  constructor
  · intro hskips
    rw [OpenElement.skipsLineFeed, OpenElement.isOneOf, Bool.and_eq_true,
      List.contains_iff_mem] at hskips
    exact (hkinds name hskips.2).resolve_right (Bool.eq_false_iff.mp h)
  · exact fun hkind => hnames name (BodyStart.mem_names hkind (by decide))

theorem bodyEnd_of_opensFormatting (h : (bodyStart name).opensFormatting = true) :
    bodyEnd name = .formatting := by
  have hkinds : ∀ kind ∈ [BodyStart.link, .formatting, .nobr], ∀ name ∈ kind.names,
      bodyEnd name = .formatting := by decide +kernel
  cases hkind : bodyStart name <;> rw [hkind] at h
  case link | formatting | nobr =>
    exact hkinds _ (by decide) name (BodyStart.mem_names hkind nofun)
  all_goals cases h

end Kinds

namespace Builder.Ready

variable {b : Builder} (h : b.Ready) {tag : Tag}
include h

/-- A start tag that may stand in the body opens its element, if this has nodes inside. -/
theorem startRule_opens (hclosing : tag.selfClosing = false)
    (hopens : (bodyStart tag.name).opensIn b.stack = true)
    (hholding : (openedInBody tag).holding = .nodes) :
    ∃ later, b.startRule tag (bodyStart tag.name) = .done later ∧
      b.Opens (openedInBody tag) (elementAttributes (openedInBody tag).ns tag) later := by
  by_cases hforeign : ∃ ns, bodyStart tag.name = .foreign ns
  · obtain ⟨ns, hkind⟩ := hforeign
    have hns := ns_ne_html_of_bodyStart hkind
    have hopened : openedInBody tag = .foreign ns tag.name tag := by rw [openedInBody, hkind]
    rw [hopened, hkind]
    exact ⟨_, rfl, h.opens_openForeign hns tag.name hclosing⟩
  rw [openedInBody_eq fun ns hns => hforeign ⟨ns, hns⟩] at hholding ⊢
  have hnodes := opensLeaf_of_holding hholding
  have hskip := skipsLineFeed_of_bodyStart hnodes
  have hreopen := h.reopenFormatting_eq
  cases hplain : (bodyStart tag.name).opensPlainly with
  | true =>
    obtain ⟨allowed, hrule⟩ := h.startRule_openTag hopens hplain
    refine ⟨_, hrule, h.opens_openTag (isNeutral_of_bodyStart (.inl hplain)) hholding allowed ?_⟩
    rw [hskip, Bool.or_comm]
  | false =>
  cases hformat : (bodyStart tag.name).opensFormatting with
  | true =>
    refine ⟨_, h.startRule_openFormatting hopens hformat, h.opens_openFormatting
      (isNeutral_of_bodyStart (.inr hformat)) hholding ?_ (bodyEnd_of_opensFormatting hformat)⟩
    rw [hskip, beq_eq_false_iff_ne]
    intro hkind
    rw [hkind] at hformat
    cases hformat
  | false =>
  cases hkind : bodyStart tag.name <;> rw [hkind] at hopens hnodes hplain hformat
  case form =>
    simp only [BodyStart.opensIn, Bool.and_eq_true, Bool.not_eq_true'] at hopens
    have hnone : b.form = none := by
      rw [h.form, List.find?_eq_none.mpr (List.any_eq_false.mp hopens.2)]
      rfl
    have hname : tag.name = "form" := List.mem_singleton.mp (BodyStart.mem_names hkind (by decide))
    refine ⟨_, ?_, h.opens_form hname⟩
    rw [startRule, hnone, h.hasOpen_template, closeParagraph_eq hopens.1]
    rfl
  case bordered =>
    refine ⟨_, ?_, h.opens_bordered (BodyStart.mem_names hkind (by decide)) false⟩
    rw [startRule, hreopen]
    rfl
  case table =>
    have hname : tag.name = "table" := List.mem_singleton.mp (BodyStart.mem_names hkind (by decide))
    have hmode : Mode.plain .inTable = (contentMode (.html "table" :: b.stack)).plain := by
      rw [contentMode_table]
    rw [hname]
    refine ⟨_, ?_, h.opens_inMode hname (by decide) (by decide) (by decide) (by decide) hmode false⟩
    rw [startRule, h.old]
    rfl
  case select =>
    have hmem := BodyStart.mem_names hkind (by decide)
    have hname : tag.name = "select" := List.mem_singleton.mp hmem
    have hmode : Mode.plain (if [Mode.inTable, .inCaption, .inTableBody, .inRow, .inCell].contains
        b.mode then .inSelectInTable else .inSelect) =
          (contentMode (.html "select" :: b.stack)).plain := by
      rw [contentMode_select]
      split <;> rfl
    rw [hname]
    refine ⟨_, ?_, h.opens_inMode hname (by decide) (by decide) (by decide) (by decide) hmode false⟩
    rw [startRule, hreopen]
    rfl
  case foreign ns => exact absurd ⟨ns, hkind⟩ hforeign
  case html | body | frameset | plaintext | image | ignored => cases hopens
  case head | phrasingVoid | plainVoid | rule | textarea | xmp | iframe | rawText => cases hnodes
  case link | formatting | nobr => cases hformat
  all_goals cases hplain

end Builder.Ready

end HtmlTemplate.Html
