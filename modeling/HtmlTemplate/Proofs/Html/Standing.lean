-- SUMMARY: Where the reading of markup stands: the open elements, and what follows from them.
import HtmlTemplate.Proofs.Html.Drafts
import HtmlTemplate.Proofs.Html.Kinds
import HtmlTemplate.Proofs.Html.Readable

/-!
# Where reading stands

Between two nodes of a readable forest the builder is `Ready`: it reads markup, its mode is
that of the open elements, formatting is noted for open elements only and in their order,
and the form that is noted is the one that is open. In such a state much of what the rules
do is nothing at all. No formatting is to be opened again, and where a start tag opens an
element right there it ends nothing before.
-/

namespace HtmlTemplate.Html

open OpenElement (inScope bordersScope bordersButtonScope)

-- ---------------------------------------------------------------------------
-- Open elements without their handles
-- ---------------------------------------------------------------------------

section Bare

variable {border fits : OpenElement → Bool} {stack : List OpenElement}

theorem inScope_map_bare (hborder : ∀ e : OpenElement, border e.bare = border e)
    (hfits : ∀ e : OpenElement, fits e.bare = fits e) (stack : List OpenElement) :
    inScope border fits (stack.map OpenElement.bare) = inScope border fits stack := by
  induction stack with
  | nil => rfl
  | cons e outer ih => rw [List.map_cons, inScope, inScope, hborder, hfits, ih]

theorem any_map_bare (hfits : ∀ e : OpenElement, fits e.bare = fits e) (stack : List OpenElement) :
    (stack.map OpenElement.bare).any fits = stack.any fits := by
  rw [List.any_map, show fits ∘ OpenElement.bare = fits from funext hfits]

theorem find?_map_bare (hfits : ∀ e : OpenElement, fits e.bare = fits e)
    (stack : List OpenElement) :
    (stack.map OpenElement.bare).find? fits = (stack.find? fits).map OpenElement.bare := by
  rw [List.find?_map, show fits ∘ OpenElement.bare = fits from funext hfits]

theorem takeWhile_map_bare (hfits : ∀ e : OpenElement, fits e.bare = fits e)
    (stack : List OpenElement) :
    (stack.map OpenElement.bare).takeWhile fits = (stack.takeWhile fits).map OpenElement.bare := by
  rw [List.takeWhile_map, show fits ∘ OpenElement.bare = fits from funext hfits]

theorem ofStack_map_bare (headRead : Bool) (template : Mode) (stack : List OpenElement) :
    Mode.ofStack headRead template (stack.map OpenElement.bare) =
      .ofStack headRead template stack := by
  induction stack with
  | nil => rfl
  | cons e outer ih =>
    have hborders : ((outer.map OpenElement.bare).find? fun e =>
          e.isNamed "template" || e.isNamed "table").any (·.isNamed "table") =
        (outer.find? fun e => e.isNamed "template" || e.isNamed "table").any
          (·.isNamed "table") := by
      rw [find?_map_bare fun _ => rfl]
      cases outer.find? _ <;> rfl
    rw [List.map_cons, Mode.ofStack, Mode.ofStack, ih]
    simp only [hborders, List.isEmpty_map]
    rfl

theorem contentMode_map_bare (stack : List OpenElement) :
    contentMode (stack.map OpenElement.bare) = contentMode stack :=
  ofStack_map_bare _ _ stack

theorem innermostIsOneOf_map_bare (names : List String) (stack : List OpenElement) :
    innermostIsOneOf names (stack.map OpenElement.bare) = innermostIsOneOf names stack := by
  cases stack <;> rfl

theorem hasParagraph_map_bare (stack : List OpenElement) :
    hasParagraph (stack.map OpenElement.bare) = hasParagraph stack :=
  inScope_map_bare (fun _ => rfl) (fun _ => rfl) stack

theorem hasInScope_map_bare (name : String) (stack : List OpenElement) :
    hasInScope name (stack.map OpenElement.bare) = hasInScope name stack :=
  inScope_map_bare (fun _ => rfl) (fun _ => rfl) stack

theorem hasItem_map_bare (names : List String) (stack : List OpenElement) :
    hasItem names (stack.map OpenElement.bare) = hasItem names stack := by
  rw [hasItem, hasItem, find?_map_bare fun _ => rfl, Option.any_map]
  rfl

theorem hasLink_map_bare (stack : List OpenElement) :
    hasLink (stack.map OpenElement.bare) = hasLink stack := by
  rw [hasLink, hasLink, takeWhile_map_bare fun _ => rfl, any_map_bare fun _ => rfl]

theorem readsForeign_map_bare (stack : List OpenElement) (tag : Tag) :
    readsForeign (stack.map OpenElement.bare) tag = readsForeign stack tag := by
  cases stack <;> rfl

theorem opensIn_map_bare (stack : List OpenElement) (tag : Tag) :
    opensIn (stack.map OpenElement.bare) tag = opensIn stack tag := by
  have hform : (stack.map OpenElement.bare).any (·.isNamed "form") =
      stack.any (·.isNamed "form") := any_map_bare (fun _ => rfl) stack
  have hbody (start : BodyStart) :
      start.opensIn (stack.map OpenElement.bare) = start.opensIn stack := by
    cases start <;> simp only [BodyStart.opensIn, hasParagraph_map_bare, hasInScope_map_bare,
      innermostIsOneOf_map_bare, hasItem_map_bare, hasLink_map_bare, hform]
  simp only [opensIn, opensInTable, opensInSelect, readsForeign_map_bare, contentMode_map_bare,
    hbody, innermostIsOneOf_map_bare]

theorem opened_map_bare (stack : List OpenElement) (tag : Tag) :
    opened (stack.map OpenElement.bare) tag = opened stack tag := by
  simp only [opened, readsForeign_map_bare]
  cases stack <;> rfl

theorem holdsTexts_map_bare (stack : List OpenElement) :
    holdsTexts (stack.map OpenElement.bare) = holdsTexts stack := by
  rw [holdsTexts, holdsTexts, contentMode_map_bare]

theorem bare_opened (stack : List OpenElement) (tag : Tag) :
    (opened stack tag).bare = opened stack tag := by
  unfold opened openedInBody
  split
  · cases stack <;> rfl
  · split <;> rfl

theorem isReadableTag_map_bare (stack : List OpenElement) (ns name : String)
    (attributes : List Attribute) :
    IsReadableTag (stack.map OpenElement.bare) ns name attributes ↔
      IsReadableTag stack ns name attributes := by
  have htop : (stack.map OpenElement.bare).head?.any (·.ns == .html) =
      stack.head?.any (·.ns == .html) := by
    cases stack <;> rfl
  simp only [isReadableTag_iff, opensIn_map_bare, opened_map_bare, htop]

mutual

theorem isReadable_map_bare (stack : List OpenElement) (node : Node) :
    node.IsReadable (stack.map OpenElement.bare) ↔ node.IsReadable stack := by
  cases node with
  | element ns name attributes children =>
    have hchildren :=
      areReadable_map_bare (opened stack (readTag name attributes) :: stack) children
    rw [List.map_cons, bare_opened] at hchildren
    rw [Node.IsReadable, Node.IsReadable, isReadableTag_map_bare, opened_map_bare, hchildren]
  | text => rw [Node.IsReadable, Node.IsReadable, holdsTexts_map_bare]
  | comment | instruction | doctype => rfl

/-- What may stand inside does not depend on handles. -/
theorem areReadable_map_bare (stack : List OpenElement) (nodes : Forest) :
    AreReadable (stack.map OpenElement.bare) nodes ↔ AreReadable stack nodes := by
  cases nodes with
  | nil => rfl
  | cons node rest =>
    rw [AreReadable, AreReadable, isReadable_map_bare, areReadable_map_bare]

end

theorem areReadable_under (element : OpenElement) (node : Handle) (stack : List OpenElement)
    (nodes : Forest) :
    AreReadable (element.under node :: stack) nodes ↔ AreReadable (element :: stack) nodes := by
  rw [← areReadable_map_bare, ← areReadable_map_bare (element :: stack)]
  rfl

end Bare

-- ---------------------------------------------------------------------------
-- Modes
-- ---------------------------------------------------------------------------

/-- Elements whose content is not read like what is around them. -/
def modeNames : List String :=
  ["select", "td", "th", "tr", "tbody", "thead", "tfoot", "caption", "colgroup", "table",
   "template", "head", "body", "frameset", "html"]

/-- Inside other elements the mode stays as it is. -/
theorem contentMode_cons {element : OpenElement} (h : element.isOneOf modeNames = false)
    (stack : List OpenElement) : contentMode (element :: stack) = contentMode stack := by
  unfold contentMode
  rw [Mode.ofStack]
  by_cases hns : element.ns = .html
  · have hname : modeNames.contains element.name = false := by
      simpa [OpenElement.isOneOf, hns] using h
    rw [if_neg (by simp [hns])]
    split <;> first | rfl | simp_all [modeNames]
  · rw [if_pos (by simpa using hns)]

/-- Going back to the mode that fits the open elements. -/
theorem Builder.resetMode_eq {b : Builder} (hhead : b.head.isSome = true)
    (hmodes : b.templateModes = []) : b.resetMode = { b with mode := contentMode b.stack } := by
  rw [resetMode, hhead, hmodes]
  rfl

theorem contentMode_table (stack : List OpenElement) :
    contentMode (.html "table" :: stack) = .inTable := rfl

theorem contentMode_part {name : String} {outside inside : Mode}
    (hpart : (name, outside, inside) ∈ tableParts) {stack : List OpenElement} (hne : stack ≠ []) :
    contentMode (.html name :: stack) = inside := by
  obtain ⟨e, outer, rfl⟩ := List.exists_cons_of_ne_nil hne
  simp only [tableParts, List.mem_cons, Prod.mk.injEq, List.not_mem_nil, or_false] at hpart
  obtain ⟨rfl, -, rfl⟩ | ⟨rfl, -, rfl⟩ | ⟨rfl, -, rfl⟩ | ⟨rfl, -, rfl⟩ | ⟨rfl, -, rfl⟩ |
    ⟨rfl, -, rfl⟩ | ⟨rfl, -, rfl⟩ | ⟨rfl, -, rfl⟩ := hpart <;> rfl

/-- Selections inside and outside tables are read alike. -/
def Mode.plain : Mode → Mode
  | .inSelectInTable => .inSelect
  | mode => mode

theorem contentMode_select (stack : List OpenElement) :
    (contentMode (.html "select" :: stack)).plain = .inSelect := by
  have hselect : contentMode (.html "select" :: stack) =
      if (stack.find? fun e => e.isNamed "template" || e.isNamed "table").any (·.isNamed "table")
        then .inSelectInTable else .inSelect := rfl
  rw [hselect]
  split <;> rfl

-- ---------------------------------------------------------------------------
-- Formatting
-- ---------------------------------------------------------------------------

/-- The entries are those of open formatting elements, not necessarily of all, in their
    order, with the borders between them. -/
inductive Follows : List FormatEntry → List OpenElement → Prop where
  | nil : Follows [] []
  | skip {entries : List FormatEntry} {stack : List OpenElement} {element : OpenElement}
      (h : Follows entries stack) (hborder : element.bordersFormatting = false) :
      Follows entries (element :: stack)
  | entry {entries : List FormatEntry} {stack : List OpenElement} {element : OpenElement}
      {tag : Tag} (h : Follows entries stack) (hname : element.isNamed tag.name = true)
      (hformat : bodyEnd tag.name = .formatting) :
      Follows (.element element.node tag :: entries) (element :: stack)
  | border {entries : List FormatEntry} {stack : List OpenElement} {element : OpenElement}
      (h : Follows entries stack) (hborder : element.bordersFormatting = true) :
      Follows (.marker :: entries) (element :: stack)

theorem bordersFormatting_of_formatting {element : OpenElement} {name : String}
    (hname : element.isNamed name = true) (hformat : bodyEnd name = .formatting) :
    element.bordersFormatting = false := by
  have hnone : ∀ name ∈ formattingBorderNames, bodyEnd name ≠ .formatting := by decide
  simp only [OpenElement.isNamed, Bool.and_eq_true, beq_iff_eq] at hname
  rw [Bool.eq_false_iff]
  intro hborder
  simp only [OpenElement.bordersFormatting, OpenElement.isOneOf, Bool.and_eq_true,
    List.contains_iff_mem] at hborder
  exact hnone _ (hname.2 ▸ hborder.2) hformat

namespace Follows

variable {entries : List FormatEntry} {stack : List OpenElement}

/-- An entry can be left out. -/
theorem remove {node : Handle} {tag : Tag} {before after : List FormatEntry}
    (h : Follows (before ++ .element node tag :: after) stack) :
    Follows (before ++ after) stack := by
  generalize hentries : before ++ .element node tag :: after = entries at h
  induction h generalizing before with
  | nil => exact absurd hentries (List.append_ne_nil_of_right_ne_nil _ (List.cons_ne_nil _ _))
  | skip _ hborder ih => exact .skip (ih hentries) hborder
  | @entry entries stack element tag' h hname hformat ih =>
    cases before with
    | nil =>
      obtain ⟨-, rfl⟩ := List.cons.inj hentries
      exact .skip h (bordersFormatting_of_formatting hname hformat)
    | cons first before =>
      obtain ⟨rfl, hrest⟩ := List.cons.inj hentries
      exact .entry (ih hrest) hname hformat
  | border h hborder ih =>
    cases before with
    | nil => cases hentries
    | cons first before =>
      obtain ⟨rfl, hrest⟩ := List.cons.inj hentries
      exact .border (ih hrest) hborder

/-- One entry of many that look alike can be left out. -/
theorem dropFourth {recent earlier : List FormatEntry} (tag : Tag)
    (h : Follows (recent ++ earlier) stack) :
    Follows (Builder.dropFourth tag recent ++ earlier) stack := by
  rw [Builder.dropFourth]
  split
  · exact h
  obtain hsame | ⟨entry, before, after, -, hentry, hsplit, herased⟩ :=
    List.exists_or_eq_self_of_eraseP (Builder.sameFormat tag) recent.reverse
  · rwa [hsame, List.reverse_reverse]
  · rw [herased, List.reverse_append]
    rw [List.reverse_eq_iff, List.reverse_append, List.reverse_cons, List.append_assoc,
      List.singleton_append] at hsplit
    rw [hsplit, List.append_assoc, List.cons_append] at h
    cases entry with
    | marker => cases hentry
    | element node other =>
      rw [List.append_assoc]
      exact h.remove

/-- What is noted is open. -/
theorem mem_nodes (h : Follows entries stack) {node : Nat} {tag : Tag}
    (hmem : .element node tag ∈ entries) : ∃ e ∈ stack, e.node = node := by
  induction h with
  | nil => cases hmem
  | skip _ _ ih =>
    obtain ⟨e, he, hnode⟩ := ih hmem
    exact ⟨e, .tail _ he, hnode⟩
  | @entry _ _ element _ _ _ _ ih =>
    cases hmem with
    | head => exact ⟨element, .head _, rfl⟩
    | tail _ hmem =>
      obtain ⟨e, he, hnode⟩ := ih hmem
      exact ⟨e, .tail _ he, hnode⟩
  | border _ _ ih =>
    cases hmem with
    | tail _ hmem =>
      obtain ⟨e, he, hnode⟩ := ih hmem
      exact ⟨e, .tail _ he, hnode⟩

/-- An element that is neither formatting nor a border is not noted. -/
theorem tail {element : OpenElement} (h : Follows entries (element :: stack))
    (hborder : element.bordersFormatting = false)
    (hnot : ∀ name, element.isNamed name = true → bodyEnd name ≠ .formatting) :
    Follows entries stack := by
  cases h with
  | skip h _ => exact h
  | entry _ hname hformat => exact absurd hformat (hnot _ hname)
  | border _ hborder' => rw [hborder] at hborder'; cases hborder'

/-- A border is the latest entry as long as its element is the innermost. -/
theorem of_border {element : OpenElement} (h : Follows entries (element :: stack))
    (hborder : element.bordersFormatting = true) :
    ∃ earlier, entries = .marker :: earlier ∧ Follows earlier stack := by
  cases h with
  | skip _ hborder' => rw [hborder] at hborder'; cases hborder'
  | entry _ hname hformat =>
    rw [bordersFormatting_of_formatting hname hformat] at hborder
    cases hborder
  | border h _ => exact ⟨_, rfl, h⟩

/-- What is noted inside the innermost border is open inside it, too. -/
theorem exists_of_recent (h : Follows entries stack) {node : Nat} {tag : Tag}
    (hmem : .element node tag ∈ entries.takeWhile (!Builder.isMarker ·)) :
    ∃ e ∈ stack.takeWhile (!·.bordersFormatting), e.isNamed tag.name = true := by
  induction h with
  | nil => cases hmem
  | skip _ hborder ih =>
    obtain ⟨e, he, hname⟩ := ih hmem
    exact ⟨e, by rw [List.takeWhile_cons_of_pos (by simp [hborder])]; exact .tail _ he, hname⟩
  | @entry _ _ element _ _ hnamed hformat ih =>
    have hborder := bordersFormatting_of_formatting hnamed hformat
    rw [List.takeWhile_cons_of_pos (by rfl)] at hmem
    rw [List.takeWhile_cons_of_pos (by simp [hborder])]
    cases hmem with
    | head => exact ⟨element, .head _, hnamed⟩
    | tail _ hmem =>
      obtain ⟨e, he, hname⟩ := ih hmem
      exact ⟨e, .tail _ he, hname⟩
  | border =>
    rw [List.takeWhile_cons_of_neg (by simp [Builder.isMarker])] at hmem
    cases hmem

end Follows

-- ---------------------------------------------------------------------------
-- Ready builders
-- ---------------------------------------------------------------------------

theorem OpenElement.isNamed_template {element : OpenElement} (h : element.holding = .nodes) :
    element.isNamed "template" = false := by
  rw [Bool.eq_false_iff]
  intro hname
  simp only [isNamed, Bool.and_eq_true, beq_iff_eq] at hname
  rw [holding, hname.1, hname.2] at h
  exact absurd h (by decide)

/-- Every open element is in the draft, and takes its children itself. -/
def Draft.HoldsOpen (draft : Draft) (stack : List OpenElement) : Prop :=
  ∀ e ∈ stack, ∃ cell, draft.get? e.node = some cell ∧ cell.contents = none

/-- So they do when nodes have grown. -/
theorem Draft.HoldsOpen.mono {draft later : Draft} {stack : List OpenElement}
    (h : draft.HoldsOpen stack)
    (hcells : ∀ {node : Handle} {cell : Cell}, draft.get? node = some cell →
      ∃ cell', later.get? node = some cell' ∧ cell'.contents = cell.contents) :
    later.HoldsOpen stack := by
  intro e he
  obtain ⟨cell, hcell, hnone⟩ := h e he
  obtain ⟨cell', hcell', hsame⟩ := hcells hcell
  exact ⟨cell', hcell', hsame.trans hnone⟩

namespace Builder

/-- The node of the innermost open element. -/
def innermost (b : Builder) : Handle := (b.stack.head?.map (·.node)).getD Draft.root

section Innermost

variable {b : Builder} (h : b.draft.HoldsOpen b.stack) (hne : b.stack ≠ [])
include h hne

theorem innermost_lt : b.innermost < b.draft.size := by
  obtain ⟨top, outer, hstack⟩ := List.exists_cons_of_ne_nil hne
  obtain ⟨cell, hcell, -⟩ := h top (hstack ▸ List.mem_cons_self)
  rw [innermost, hstack]
  exact Draft.lt_of_get? hcell

/-- What comes next goes into the innermost element. -/
theorem place_eq_innermost (hfostering : b.fostering = false) : b.place = .lastIn b.innermost := by
  obtain ⟨top, outer, hstack⟩ := List.exists_cons_of_ne_nil hne
  obtain ⟨cell, hcell, hnone⟩ := h top (hstack ▸ List.mem_cons_self)
  have hinside : b.draft.inside top.node = top.node := by
    rw [Draft.inside, hcell, Option.bind_some, hnone]
    rfl
  rw [place, innermost, hstack]
  dsimp only
  rw [placeIn, hfostering, hinside]
  rfl

end Innermost

/-- Reading stands between two nodes of a readable forest. -/
structure Ready (b : Builder) : Prop where
  mode : b.mode.plain = (contentMode b.stack).plain
  textMode : b.textMode = .markup
  templateModes : b.templateModes = []
  old : b.old = true
  head : b.head.isSome = true
  fostering : b.fostering = false
  formatting : Follows b.formatting b.stack
  form : b.form = (b.stack.find? (·.isNamed "form")).map (·.node)
  nonempty : b.stack ≠ []
  holding : ∀ e ∈ b.stack, e.holding = .nodes
  handles : b.stack.Pairwise fun inner outer => outer.node < inner.node
  cells : b.draft.HoldsOpen b.stack

/-- What is the same wherever reading stands. -/
structure Alike (b later : Builder) : Prop where
  textMode : later.textMode = b.textMode
  templateModes : later.templateModes = b.templateModes
  old : later.old = b.old
  head : later.head = b.head
  fostering : later.fostering = b.fostering

/-- Reading stands inside the same elements. -/
structure Stays (b later : Builder) : Prop extends Alike b later where
  mode : later.mode.plain = b.mode.plain
  stack : later.stack = b.stack
  formatting : later.formatting = b.formatting
  form : later.form = b.form

namespace Ready

variable {b : Builder} (h : b.Ready)
include h

theorem stays {later : Builder} (hstays : b.Stays later)
    (hopen : later.draft.HoldsOpen b.stack) : later.Ready where
  mode := by rw [hstays.mode, hstays.stack, h.mode]
  textMode := hstays.textMode.trans h.textMode
  templateModes := hstays.templateModes.trans h.templateModes
  old := hstays.old.trans h.old
  head := hstays.head ▸ h.head
  fostering := hstays.fostering.trans h.fostering
  formatting := by
    rw [hstays.formatting, hstays.stack]
    exact h.formatting
  form := by rw [hstays.form, hstays.stack, h.form]
  nonempty := hstays.stack ▸ h.nonempty
  holding := hstays.stack ▸ h.holding
  handles := hstays.stack ▸ h.handles
  cells := by rwa [hstays.stack]

theorem exists_top : ∃ top outer, b.stack = top :: outer ∧ b.innermost = top.node := by
  obtain ⟨top, outer, hstack⟩ := List.exists_cons_of_ne_nil h.nonempty
  exact ⟨top, outer, hstack, by rw [innermost, hstack]; rfl⟩

theorem node_lt {e : OpenElement} (he : e ∈ b.stack) : e.node < b.draft.size := by
  obtain ⟨cell, hcell, -⟩ := h.cells e he
  exact Draft.lt_of_get? hcell

theorem innermost_lt : b.innermost < b.draft.size := Builder.innermost_lt h.cells h.nonempty

/-- No template is open: what it held would be lost. -/
theorem hasOpen_template : b.hasOpen "template" = false :=
  List.any_eq_false.mpr fun e he =>
    Bool.eq_false_iff.mp (OpenElement.isNamed_template (h.holding e he))

/-- What comes next goes into the innermost element, whatever else is noted. -/
theorem place_of {later : Builder} (hdraft : later.draft = b.draft) (hstack : later.stack = b.stack)
    (hfostering : later.fostering = b.fostering) : later.place = .lastIn b.innermost := by
  have hopen : later.draft.HoldsOpen later.stack := by
    rw [hdraft, hstack]
    exact h.cells
  rw [place_eq_innermost hopen (hstack ▸ h.nonempty) (hfostering.trans h.fostering), innermost,
    innermost, hstack]

theorem place_eq : b.place = .lastIn b.innermost := h.place_of rfl rfl rfl

/-- No formatting is to be opened again. -/
theorem reopenFormatting_eq : b.reopenFormatting = b := by
  have hnone : b.formatting.takeWhile (!b.isOpenOrMarker ·) = [] := by
    cases hentries : b.formatting with
    | nil => rfl
    | cons entry earlier =>
      refine List.takeWhile_cons_of_neg ?_
      have hformatting := h.formatting
      rw [hentries] at hformatting
      cases entry with
      | marker => simp [isOpenOrMarker]
      | element node tag =>
        obtain ⟨e, he, hnode⟩ := hformatting.mem_nodes List.mem_cons_self
        have hopen : b.stack.any (·.node == node) = true :=
          List.any_eq_true.mpr ⟨e, he, beq_iff_eq.mpr hnode⟩
        simp [isOpenOrMarker, hopen]
  rw [reopenFormatting, hnone]
  rfl

end Ready

theorem closeParagraph_eq {b : Builder} (hnone : hasParagraph b.stack = false) :
    b.closeParagraph = b := by
  rw [closeParagraph, if_neg]
  rw [hasInScope]
  exact Bool.eq_false_iff.mp hnone

end Builder

end HtmlTemplate.Html
