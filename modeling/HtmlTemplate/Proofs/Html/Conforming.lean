-- SUMMARY: The markup of a readable forest as one of the ways to write it, but for line feeds that are left out.
import HtmlTemplate.Proofs.Escaping.Undoing
import HtmlTemplate.Proofs.Html.Tidy
import HtmlTemplate.Proofs.Html.Trimmed
import HtmlTemplate.Proofs.Tree.Outlines

/-!
# Markup by the syntax of HTML

The markup of a readable forest is what the syntax of HTML writes a forest with. This forest is
not quite the same: a line feed right behind the start tag of a `pre`, a `listing` or a
`textarea` belongs to the tag, so the markup writes the forest without it. That forest is
readable as well.

Markup tells by the names of elements alone which of them are void and which hold raw text. So it
follows the syntax only if no foreign element is written like the HTML element of its name.
-/

namespace HtmlTemplate.Html

open Syntax (WritesText WritesAttributes WritesContent Writes textMarks valueMarks startTag)

mutual

/-- Foreign elements are not written like void elements, nor their texts as raw ones, unless it
    makes no difference. -/
def Node.IsToldApart : Node → Prop
  | .element ns name _ children =>
    (ns ≠ Namespace.html.uri → Markup.isVoid name = false ∧
      forestMarkup (Markup.isRawText name) children = forestMarkup false children) ∧
      AreToldApart children
  | _ => True

def AreToldApart : Forest → Prop
  | [] => True
  | node :: rest => node.IsToldApart ∧ AreToldApart rest

end

mutual

def decIsToldApart : (node : Node) → Decidable node.IsToldApart
  | .element _ _ _ children =>
    have := decAreToldApart children
    inferInstanceAs (Decidable (_ ∧ _))
  | .doctype _ _ _ | .text _ | .comment _ | .instruction _ _ => .isTrue trivial

def decAreToldApart : (nodes : Forest) → Decidable (AreToldApart nodes)
  | [] => .isTrue trivial
  | node :: rest =>
    have := decIsToldApart node
    have := decAreToldApart rest
    inferInstanceAs (Decidable (_ ∧ _))

end

instance : DecidablePred AreToldApart := decAreToldApart

-- ---------------------------------------------------------------------------
-- Forests without the line feeds that are left out
-- ---------------------------------------------------------------------------

theorem isReadableText_dropLineFeed {content : String} (h : isReadableText content = true)
    (skip : Bool) : isReadableText (String.ofList (dropLineFeed skip content.toList)) = true := by
  obtain ⟨-, heq⟩ | ⟨heq, -⟩ := dropLineFeed_cases skip content.toList
  · rw [isReadableText, isBlankText, heq] at h
    rw [isReadableText, isBlankText, String.toList_ofList]
    have hblank : isBlank '\n' = true := by decide
    have hplain : Syntax.isPlain '\n' = true := by decide
    simpa only [List.all_cons, hblank, hplain, Bool.true_and] using h
  · rwa [heq, String.ofList_toList]

theorem mayFollow_trimmed (node next : Node) :
    mayFollow node.trimmed next.trimmed = mayFollow node next := by
  cases node <;> cases next <;> rfl

theorem head?_trimmedAll (nodes : Forest) :
    (trimmedAll nodes).head? = nodes.head?.map Node.trimmed := by
  cases nodes <;> rfl

theorem areReadable_afterLineFeed {stack : List OpenElement} {nodes : Forest}
    (h : AreReadable stack nodes) (skip : Bool) : AreReadable stack (afterLineFeed skip nodes) := by
  unfold afterLineFeed
  split
  · next content rest =>
    obtain ⟨⟨hreadable, htexts⟩, hnext, hrest⟩ := h
    refine ⟨⟨isReadableText_dropLineFeed hreadable skip, htexts⟩, ?_, hrest⟩
    have hsame : mayFollow (.text (String.ofList (dropLineFeed skip content.toList))) =
        mayFollow (.text content) := by
      funext next
      cases next <;> rfl
    rwa [hsame]
  · exact h

theorem isReadableContent_trimmed {ns name : String} {children : Forest}
    (h : isReadableContent name children = true) :
    isReadableContent name (afterLineFeed (skipsLineFeed ns name) (trimmedAll children)) = true := by
  unfold isReadableContent at h
  split at h
  · rfl
  · next content =>
    cases hskips : skipsLineFeed ns name with
    | false =>
      rw [trimmedAll, trimmedAll, afterLineFeed_false]
      exact h
    | true =>
      have hnames : ∀ name ∈ ["pre", "listing", "textarea"],
          Syntax.rawNames.contains name = false := by decide
      have hraw : Syntax.rawNames.contains name = false :=
        hnames name (List.contains_iff_mem.mp (Bool.and_eq_true_iff.mp hskips).2)
      rw [Bool.and_eq_true] at h
      show (isReadableText _ && (!Syntax.rawNames.contains name || _)) = true
      rw [hraw, isReadableText_dropLineFeed h.1 true]
      rfl
  · cases h

mutual

theorem Node.isReadable_trimmed {stack : List OpenElement} {node : Node}
    (h : node.IsReadable stack) : node.trimmed.IsReadable stack := by
  cases node with
  | element ns name attributes children =>
    obtain ⟨htag, hadmits⟩ := h
    refine ⟨htag, ?_⟩
    cases hholding : holding ns name <;> rw [hholding] at hadmits
    case void | nothing | template =>
      obtain rfl : children = [] := hadmits
      rfl
    case text => exact isReadableContent_trimmed hadmits
    case nodes => exact areReadable_afterLineFeed (areReadable_trimmedAll hadmits) _
  | text => exact h
  | comment | instruction | doctype => exact h.elim

/-- A readable forest stays readable without the line feeds that are left out. -/
theorem areReadable_trimmedAll {stack : List OpenElement} {nodes : Forest}
    (h : AreReadable stack nodes) : AreReadable stack (trimmedAll nodes) := by
  cases nodes with
  | nil => trivial
  | cons node rest =>
    obtain ⟨hnode, hnext, hrest⟩ := h
    refine ⟨Node.isReadable_trimmed hnode, ?_, areReadable_trimmedAll hrest⟩
    rw [head?_trimmedAll, Option.all_map]
    simpa only [Function.comp_def, mayFollow_trimmed] using hnext

end

-- ---------------------------------------------------------------------------
-- Texts and attributes
-- ---------------------------------------------------------------------------

/-- A text is written character by character, if all that cannot stand for itself is escaped. -/
theorem writesText_flatMap {marks : List Char} {references : List (Char × String)}
    {piece : Char → List Char} (hreferences : ∀ reference ∈ references, reference ∈ Syntax.references)
    (hmarks : ∀ mark ∈ marks, mark ∈ references.map (·.1) ∨ Syntax.isPlain mark = false)
    (hwrites : ∀ c, Markup.Writes references c (piece c)) {text : List Char}
    (hplain : ∀ c ∈ text, Syntax.isPlain c = true) :
    WritesText marks text (text.flatMap piece) := by
  induction text with
  | nil => exact .nil
  | cons c text ih =>
    obtain ⟨hc, htext⟩ := List.forall_mem_cons.mp hplain
    obtain ⟨reference, hmem, rfl, heq⟩ | ⟨-, hnone, heq⟩ := hwrites c <;>
      rw [List.flatMap_cons, heq]
    · exact .reference (hreferences _ hmem) (ih htext)
    · refine .plain (fun hmark => ?_) (ih htext)
      obtain hmem | hnot := hmarks c hmark
      · exact hnone hmem
      · rw [hc] at hnot
        cases hnot

theorem writesText_escapedText {content : String}
    (h : ∀ c ∈ content.toList, Syntax.isPlain c = true) :
    WritesText textMarks content.toList (Markup.escapedText content).toList := by
  rw [Markup.escapedText, String.toList_ofList]
  have hmarks : ∀ mark ∈ textMarks,
      mark ∈ Markup.textReferences.map (·.1) ∨ Syntax.isPlain mark = false := by
    simp [textMarks, Markup.textReferences, Syntax.isPlain]
  exact writesText_flatMap (by decide) hmarks Markup.writes_textCharacter h

theorem writesText_escapedValue {value : String}
    (h : ∀ c ∈ value.toList, Syntax.isPlain c = true) :
    WritesText valueMarks value.toList (Markup.escapedValue value).toList := by
  rw [Markup.escapedValue, String.toList_ofList]
  have hmarks : ∀ mark ∈ valueMarks,
      mark ∈ Markup.valueReferences.map (·.1) ∨ Syntax.isPlain mark = false := by
    simp [valueMarks, Markup.valueReferences, Markup.textReferences, Syntax.isPlain]
  exact writesText_flatMap (by decide) hmarks Markup.writes_valueCharacter h

theorem writesContent_text (raw : Bool) {content : String} (h : isReadableText content = true) :
    WritesContent raw content.toList (Markup.text raw content).toList := by
  rw [isReadableText, Bool.and_eq_true, List.all_eq_true] at h
  cases raw with
  | true => rfl
  | false => exact writesText_escapedText h.2

theorem writesAttributes_attributesMarkup {attributes : List Attribute}
    (h : ∀ pair ∈ labels attributes, isWritable pair = true) :
    WritesAttributes (labels attributes) (attributesMarkup attributes).toList := by
  induction attributes with
  | nil => exact .nil
  | cons attr rest ih =>
    obtain ⟨hattr, hrest⟩ := List.forall_mem_cons.mp h
    rw [toList_attributesMarkup_cons]
    have hvalue := List.all_eq_true.mp (Bool.and_eq_true_iff.mp hattr).2
    exact .cons (writesText_escapedValue hvalue) (ih hrest)

-- ---------------------------------------------------------------------------
-- Elements
-- ---------------------------------------------------------------------------

/-- A line feed that is left out of what is written is left out of the text. -/
theorem writesText_dropLineFeed {marks text markup : List Char} (h : WritesText marks text markup)
    (skip : Bool) : WritesText marks (dropLineFeed skip text) (dropLineFeed skip markup) := by
  cases h with
  | nil => cases skip <;> exact .nil
  | @plain c text markup hc hmore =>
    by_cases hdrop : skip = true ∧ c = '\n'
    · obtain ⟨rfl, rfl⟩ := hdrop
      exact hmore
    · have hne : skip = false ∨ c ≠ '\n' := by
        rw [not_and_or, Bool.not_eq_true] at hdrop
        exact hdrop
      rw [dropLineFeed_of_ne hne, dropLineFeed_of_ne hne]
      exact .plain hc hmore
  | @reference reference text markup hmem hmore =>
    have hreferences : ∀ reference ∈ Syntax.references, reference.1 ≠ '\n' ∧
        reference.2.toList.head? = some '&' := by decide
    obtain ⟨hfirst, hhead⟩ := hreferences _ hmem
    obtain ⟨more, hmarkup⟩ := List.head?_eq_some_iff.mp hhead
    rw [dropLineFeed_of_ne (.inr hfirst), hmarkup, List.cons_append,
      dropLineFeed_of_ne (.inr (by decide)), ← List.cons_append, ← hmarkup]
    exact .reference hmem hmore

theorem dropLineFeed_startTag (skip : Bool) (name : String) (attributes rest : List Char) :
    dropLineFeed skip (startTag name attributes ++ rest) = startTag name attributes ++ rest :=
  dropLineFeed_of_ne (.inr (by decide)) _

/-- What nodes are written with writes them without a line feed in front, if it is left out. -/
theorem writes_afterLineFeed {raw skip : Bool} {nodes : Forest} {written : List Char}
    (h : Writes raw nodes written) (hraw : skip = true → raw = false)
    (hne : ∀ content, nodes.head? = some (.text content) → content.toList ≠ []) :
    Writes raw (afterLineFeed skip nodes) (dropLineFeed skip written) := by
  cases skip with
  | false => rwa [afterLineFeed_false, dropLineFeed_false]
  | true =>
    obtain rfl := hraw rfl
    cases h with
    | nil => exact .nil false
    | @text _ content nodes markup rest hcontent hnodes =>
      have hnonempty : markup ≠ [] := WritesText.ne_nil hcontent (hne content rfl)
      rw [dropLineFeed_append, List.isEmpty_eq_false_iff.mpr hnonempty, Bool.and_false,
        dropLineFeed_false]
      refine .text ?_ hnodes
      rw [String.toList_ofList]
      exact writesText_dropLineFeed hcontent true
    | void hvoid hattributes hnodes =>
      rw [dropLineFeed_startTag]
      exact .void hvoid hattributes hnodes
    | element hvoid hattributes hchildren hnodes =>
      rw [dropLineFeed_startTag]
      exact .element hvoid hattributes hchildren hnodes

theorem ne_nil_of_head?_trimmedAll {nodes : Forest} (h : AreTidy nodes) (content : String)
    (hhead : (trimmedAll nodes).head? = some (.text content)) : content.toList ≠ [] := by
  cases nodes with
  | nil => cases hhead
  | cons node rest =>
    cases node with
    | text other =>
      cases hhead
      intro hnil
      have hblank : isBlankText content = false := h.1
      rw [isBlankText, hnil] at hblank
      cases hblank
    | element | comment | instruction | doctype => cases hhead

/-! ### Elements by their names -/

namespace IsReadableTag

variable {stack : List OpenElement} {ns name : String} {attributes : List Attribute}
  (h : IsReadableTag stack ns name attributes)
include h

/-- There is no end of plain text. -/
theorem ne_plaintext (hns : ns = Namespace.html.uri) : name ≠ "plaintext" := by
  rintro rfl
  obtain ⟨hforeign, -, -⟩ := h.opened_eq hns
  have hopens := h.opens
  have hname : (readTag "plaintext" attributes).name = "plaintext" := by rfl
  rw [opensIn, hforeign, if_neg Bool.false_ne_true, hname] at hopens
  cases hcontent : contentMode stack <;> rw [hcontent] at hopens
  case inBody | inCell | inCaption => cases hopens
  case inTable | inTableBody | inRow =>
    exact absurd (mem_of_opensInTable hopens) (by decide)
  case inColumnGroup => simp at hopens
  case inSelect | inSelectInTable => simp [opensInSelect_iff] at hopens
  all_goals cases hopens

/-- Markup takes the texts of the element for raw exactly if they are, where it matters. -/
theorem markup_isRawText {children : Forest}
    (happart : (Node.element ns name attributes children).IsToldApart) :
    forestMarkup (Markup.isRawText name) children = forestMarkup (isRaw ns name) children := by
  by_cases hns : ns = Namespace.html.uri
  · have hplaintext := h.ne_plaintext hns
    have hraw : Markup.isRawText name = isRaw ns name := by
      rw [isRaw, beq_iff_eq.mpr hns, Bool.true_and, Bool.eq_iff_iff]
      simp [Markup.isRawText, Markup.rawTextNames, Syntax.rawNames, hplaintext]
      tauto
    rw [hraw]
  · have hraw : isRaw ns name = false := by
      rw [isRaw, beq_eq_false_iff_ne.mpr hns, Bool.false_and]
    rw [hraw]
    exact (happart.1 hns).2

end IsReadableTag

/-- Markup takes the element for void exactly if it is. -/
theorem isVoid_eq {ns name : String} (happart : ns ≠ Namespace.html.uri → Markup.isVoid name = false) :
    Markup.isVoid name = true ↔ holding ns name = .void := by
  refine ⟨fun hvoid => ?_, fun hholding => ?_⟩
  · have hns : ns = Namespace.html.uri := by
      by_contra hns
      rw [happart hns] at hvoid
      cases hvoid
    rw [holding, beq_iff_eq.mpr hns, holdingOf, if_neg (by decide)]
    exact if_pos hvoid
  · exact List.contains_iff_mem.mpr (mem_names_of_holding hholding (by decide))

-- ---------------------------------------------------------------------------
-- Nodes
-- ---------------------------------------------------------------------------

theorem writes_content {name : String} {children : Forest}
    (h : isReadableContent name children = true) (raw : Bool) :
    Writes raw (trimmedAll children) (forestMarkup raw children).toList := by
  unfold isReadableContent at h
  split at h
  · exact .nil raw
  · next content =>
    rw [forestMarkup, String.toList_append]
    exact .text (writesContent_text raw (Bool.and_eq_true_iff.mp h).1) (.nil raw)
  · cases h

/-- An element is written with its markup, if its children are written with what is inside. -/
theorem IsReadableTag.writes_element {stack : List OpenElement} {ns name : String}
    {attributes : List Attribute} {children : Forest}
    (h : IsReadableTag stack ns name attributes)
    (happart : (Node.element ns name attributes children).IsToldApart)
    (htidy : AreTidy children) (hvoid : holding ns name = .void → children = [])
    (hchildren : Writes (isRaw ns name) (trimmedAll children)
      (forestMarkup (isRaw ns name) children).toList)
    {raw : Bool} {nodes : Forest} {rest : List Char} (hrest : Writes raw nodes rest) :
    Writes raw ((Node.element ns name attributes children).trimmed :: nodes)
      (((Node.element ns name attributes children).markup raw).toList ++ rest) := by
  have hattributes := writesAttributes_attributesMarkup h.isWritable
  have hisVoid := isVoid_eq fun hns => (happart.1 hns).1
  rw [Node.trimmed, Node.markup, Markup.toList_element, h.markup_isRawText happart]
  by_cases hholding : holding ns name = .void
  · obtain rfl := hvoid hholding
    have hnone : afterLineFeed (skipsLineFeed ns name) (trimmedAll []) = [] := rfl
    rw [if_pos (hisVoid.mpr hholding), hnone]
    have hwrites := Writes.void hholding hattributes hrest
    simpa [startTag] using hwrites
  · rw [if_neg (mt hisVoid.mp hholding)]
    have hinside := writes_afterLineFeed hchildren isRaw_of_skipsLineFeed
      (ne_nil_of_head?_trimmedAll htidy)
    have hwrites := Writes.element hholding hattributes hinside hrest
    simpa [startTag, Syntax.endTag] using hwrites

mutual

theorem Node.writes_markup {stack : List OpenElement} {node : Node} (h : node.IsReadable stack)
    (happart : node.IsToldApart) {raw : Bool} {nodes : Forest} {rest : List Char}
    (hrest : Writes raw nodes rest) :
    Writes raw (node.trimmed :: nodes) ((node.markup raw).toList ++ rest) := by
  cases node with
  | element ns name attributes children =>
    have htidy := (Node.isTidy_of_readable h).2
    obtain ⟨htag, hadmits⟩ := h
    cases hholding : holding ns name <;> rw [hholding] at hadmits
    case void | nothing | template =>
      obtain rfl : children = [] := hadmits
      exact htag.writes_element happart htidy (fun _ => rfl) (.nil _) hrest
    case text =>
      exact htag.writes_element happart htidy (by simp [hholding]) (writes_content hadmits _) hrest
    case nodes =>
      exact htag.writes_element happart htidy (by simp [hholding])
        (writes_forestMarkup hadmits happart.2 _) hrest
  | text content => exact .text (writesContent_text raw h.1) hrest
  | comment | instruction | doctype => exact h.elim

/-- The markup of a readable forest is what the forest without the line feeds that are left out
    is written with. -/
theorem writes_forestMarkup {stack : List OpenElement} {nodes : Forest}
    (h : AreReadable stack nodes) (happart : AreToldApart nodes) (raw : Bool) :
    Writes raw (trimmedAll nodes) (forestMarkup raw nodes).toList := by
  cases nodes with
  | nil => exact .nil raw
  | cons node rest =>
    rw [forestMarkup, String.toList_append]
    exact Node.writes_markup h.1 happart.1 (writes_forestMarkup h.2.2 happart.2 raw)

end

end HtmlTemplate.Html
