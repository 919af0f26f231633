-- SUMMARY: Line ends in markup: what is read as line feeds there, and the forest that is read then.
import HtmlTemplate.Proofs.Escaping.Undoing
import HtmlTemplate.Proofs.Html.Readable
import HtmlTemplate.Proofs.Html.Written
import HtmlTemplate.Proofs.Tree.Outlines

/-!
# Line ends in markup

A source text says a carriage return by a reference. Markup writes it as it is, so that it is
read as a line end: `normalizedAll` is the forest with line feeds for all line ends. Where no two
texts stand side by side, its markup is the markup of the forest with line feeds for line ends.
-/

namespace HtmlTemplate.Html

/-- The text with line feeds for line ends. -/
def withLineFeeds (text : String) : String := String.ofList (normalizeLineEnds text.toList)

@[simp] theorem toList_withLineFeeds (text : String) :
    (withLineFeeds text).toList = normalizeLineEnds text.toList := String.toList_ofList

theorem withLineFeeds_of_notMem {text : String} (h : '\r' ∉ text.toList) :
    withLineFeeds text = text := by
  rw [withLineFeeds, normalizeLineEnds_of_notMem h, String.ofList_toList]

def Attribute.normalized (attr : Attribute) : Attribute :=
  { attr with value := withLineFeeds attr.value }

mutual

/-- The node with line feeds for the line ends in its values and texts. -/
def Node.normalized : Node → Node
  | .element ns name attributes children =>
    .element ns name (attributes.map Attribute.normalized) (normalizedAll children)
  | .text content => .text (withLineFeeds content)
  | node => node

def normalizedAll : Forest → Forest
  | [] => []
  | node :: rest => node.normalized :: normalizedAll rest

end

-- ---------------------------------------------------------------------------
-- Texts and values
-- ---------------------------------------------------------------------------

section Pieces

variable {references : List (Char × String)} {piece : Char → List Char}
  (hreferences : ∀ reference ∈ references, reference ∈ Markup.valueReferences)
  (hwrites : ∀ c, Markup.Writes references c (piece c))
include hreferences hwrites

/-- A character is written as itself, or as something without line ends. -/
theorem piece_cases (c : Char) :
    piece c = [c] ∨ c ≠ '\r' ∧ c ≠ '\n' ∧ '\r' ∉ piece c ∧ (piece c).head? = some '&' := by
  have hfree : ∀ reference ∈ Markup.valueReferences, reference.1 ≠ '\r' ∧ reference.1 ≠ '\n' ∧
      '\r' ∉ reference.2.toList ∧ reference.2.toList.head? = some '&' := by decide
  obtain ⟨reference, hmem, rfl, heq⟩ | ⟨-, -, heq⟩ := hwrites c
  · rw [heq]
    exact .inr (hfree _ (hreferences _ hmem))
  · exact .inl heq

theorem notMem_piece {c : Char} (h : c ≠ '\r') : '\r' ∉ piece c := by
  obtain heq | ⟨-, -, hnone, -⟩ := piece_cases hreferences hwrites c
  · rw [heq]
    simpa using h.symm
  · exact hnone

theorem piece_of_lineEnd {c : Char} (h : c = '\r' ∨ c = '\n') : piece c = [c] :=
  (piece_cases hreferences hwrites c).resolve_right fun ⟨hreturn, hfeed, _⟩ => h.elim hreturn hfeed

theorem head?_flatMap_piece {text : List Char} (h : text.head? ≠ some '\n') :
    (text.flatMap piece).head? ≠ some '\n' := by
  cases text with
  | nil => nofun
  | cons c rest =>
    have hhead : (piece c).head? ≠ none ∧ (piece c).head? ≠ some '\n' := by
      obtain heq | ⟨-, -, -, heq⟩ := piece_cases hreferences hwrites c <;> rw [heq]
      · exact ⟨nofun, h⟩
      · exact ⟨nofun, by decide⟩
    obtain ⟨d, hd⟩ := Option.ne_none_iff_exists'.mp hhead.1
    rw [List.flatMap_cons, List.head?_append, hd]
    rw [hd] at hhead
    exact hhead.2

/-- Line ends are written as they are. -/
theorem normalizeLineEnds_flatMap (text : List Char) :
    normalizeLineEnds (text.flatMap piece) = (normalizeLineEnds text).flatMap piece := by
  have hreturn : piece '\r' = ['\r'] := piece_of_lineEnd hreferences hwrites (.inl rfl)
  have hfeed : piece '\n' = ['\n'] := piece_of_lineEnd hreferences hwrites (.inr rfl)
  fun_induction normalizeLineEnds text with
  | case1 => rfl
  | case2 rest ih =>
    simp only [List.flatMap_cons, hreturn, hfeed, List.singleton_append, normalizeLineEnds, ih]
  | case3 c rest hnone ih =>
    rw [List.flatMap_cons, List.flatMap_cons, ← ih]
    by_cases hc : c = '\r'
    · subst hc
      have hhead : rest.head? ≠ some '\n' := fun hhead => by
        obtain ⟨more, rfl⟩ := List.head?_eq_some_iff.mp hhead
        exact hnone more rfl rfl
      rw [hreturn, List.singleton_append,
        normalizeLineEnds_return (head?_flatMap_piece hreferences hwrites hhead)]
      exact congrArg (· ++ _) hfeed.symm
    · rw [normalizeLineEnds_append_of_notMem (notMem_piece hreferences hwrites hc),
        if_neg (by simpa using hc)]

end Pieces

theorem withLineFeeds_escapedText (content : String) :
    withLineFeeds (Markup.escapedText content) = Markup.escapedText (withLineFeeds content) := by
  simp only [withLineFeeds, Markup.escapedText, String.toList_ofList]
  exact congrArg _ (normalizeLineEnds_flatMap (fun _ h => Markup.mem_valueReferences h)
    Markup.writes_textCharacter content.toList)

theorem withLineFeeds_escapedValue (value : String) :
    withLineFeeds (Markup.escapedValue value) = Markup.escapedValue (withLineFeeds value) := by
  simp only [withLineFeeds, Markup.escapedValue, String.toList_ofList]
  exact congrArg _ (normalizeLineEnds_flatMap (fun _ h => h) Markup.writes_valueCharacter
    value.toList)

theorem withLineFeeds_text (raw : Bool) (content : String) :
    withLineFeeds (Markup.text raw content) = Markup.text raw (withLineFeeds content) := by
  cases raw with
  | true => rfl
  | false => exact withLineFeeds_escapedText content

-- ---------------------------------------------------------------------------
-- Tags
-- ---------------------------------------------------------------------------

theorem normalizeLineEnds_attributesMarkup {attributes : List Attribute}
    (h : ∀ attr ∈ attributes, '\r' ∉ attr.writtenName.toList) :
    normalizeLineEnds (attributesMarkup attributes).toList =
      (attributesMarkup (attributes.map Attribute.normalized)).toList := by
  induction attributes with
  | nil => rfl
  | cons attr rest ih =>
    obtain ⟨hname, hrest⟩ := List.forall_mem_cons.mp h
    have hvalue := congrArg String.toList (withLineFeeds_escapedValue attr.value)
    rw [toList_withLineFeeds] at hvalue
    rw [List.map_cons, toList_attributesMarkup_cons, toList_attributesMarkup_cons,
      normalizeLineEnds_cons (by decide), normalizeLineEnds_append_of_notMem hname,
      normalizeLineEnds_cons (by decide), normalizeLineEnds_cons (by decide),
      normalizeLineEnds_append_cons (by decide), normalizeLineEnds_cons (by decide), hvalue,
      ih hrest]
    rfl

/-- Names have no line ends in them. -/
theorem IsReadableTag.notMem {stack : List OpenElement} {ns name : String}
    {attributes : List Attribute}
    (h : IsReadableTag stack ns name (attributes.map Attribute.normalized)) :
    '\r' ∉ name.toList ∧ ∀ attr ∈ attributes, '\r' ∉ attr.writtenName.toList := by
  refine ⟨notMem_of_isTagName h.isTagName, fun attr hattr => ?_⟩
  have hpair : (attr.normalized.writtenName, attr.normalized.value) ∈
      labels (attributes.map Attribute.normalized) :=
    List.mem_map_of_mem (List.mem_map_of_mem hattr)
  exact notMem_of_isAttributeName (Bool.and_eq_true_iff.mp (h.isWritable _ hpair)).1

-- ---------------------------------------------------------------------------
-- Nodes
-- ---------------------------------------------------------------------------

theorem normalizeLineEnds_text (raw : Bool) (content : String) :
    normalizeLineEnds ((Node.text content).markup raw).toList =
      ((Node.text (withLineFeeds content)).markup raw).toList := by
  have htext := congrArg String.toList (withLineFeeds_text raw content)
  rwa [toList_withLineFeeds] at htext

/-- The markup of an element has its line ends in the values and in what is inside. -/
theorem normalizeLineEnds_element {stack : List OpenElement} {ns name : String}
    {attributes : List Attribute} {children : Forest}
    (h : IsReadableTag stack ns name (attributes.map Attribute.normalized))
    (hchildren : normalizeLineEnds (forestMarkup (Markup.isRawText name) children).toList =
      (forestMarkup (Markup.isRawText name) (normalizedAll children)).toList) (raw : Bool) :
    normalizeLineEnds ((Node.element ns name attributes children).markup raw).toList =
      (((Node.element ns name attributes children).normalized).markup raw).toList := by
  obtain ⟨hname, hnames⟩ := h.notMem
  have hend : '\r' ∉ name.toList ++ ['>'] := by simpa using hname
  rw [Node.normalized, Node.markup, Node.markup, Markup.toList_element, Markup.toList_element,
    normalizeLineEnds_cons (by decide), normalizeLineEnds_append_of_notMem hname,
    normalizeLineEnds_append_cons (by decide), normalizeLineEnds_attributesMarkup hnames,
    normalizeLineEnds_cons (by decide)]
  split
  · rfl
  · rw [normalizeLineEnds_append_cons (by decide), hchildren, normalizeLineEnds_cons (by decide),
      normalizeLineEnds_cons (by decide), normalizeLineEnds_of_notMem hend]

theorem normalizeLineEnds_content {name : String} {children : Forest}
    (h : isReadableContent name (normalizedAll children) = true) (raw : Bool) :
    normalizeLineEnds (forestMarkup raw children).toList =
      (forestMarkup raw (normalizedAll children)).toList := by
  match children with
  | [] => rfl
  | [.text content] =>
    have htext := normalizeLineEnds_text raw content
    simpa [forestMarkup, normalizedAll, Node.normalized] using htext
  | .text _ :: _ :: _ => cases h
  | .element _ _ _ _ :: _ | .comment _ :: _ | .instruction _ _ :: _ | .doctype _ _ _ :: _ => cases h

/-- What follows a node in markup does not begin with a line feed that could end a line with it. -/
theorem markups_apart {stack : List OpenElement} {node : Node} {rest : Forest}
    (h : AreReadable stack (normalizedAll (node :: rest))) (raw : Bool) :
    (node.markup raw).toList.getLast? ≠ some '\r' ∨
      (forestMarkup raw rest).toList.head? ≠ some '\n' := by
  obtain ⟨hnode, hnext, hrest⟩ := h
  cases node with
  | element ns name attributes children =>
    refine .inl ?_
    rw [Node.markup, Markup.toList_element]
    split <;> simp [List.getLast?_cons, List.getLast?_append]
  | text content =>
    refine .inr ?_
    match rest with
    | [] => nofun
    | .element ns name attributes children :: _ =>
      rw [forestMarkup, String.toList_append, Node.markup, Markup.toList_element]
      simp
    | .text _ :: _ => cases hnext
    | .comment _ :: _ | .instruction _ _ :: _ | .doctype _ _ _ :: _ => exact hrest.1.elim
  | comment | instruction | doctype => exact hnode.elim

mutual

theorem Node.normalizeLineEnds_markup {stack : List OpenElement} {node : Node}
    (h : node.normalized.IsReadable stack) (raw : Bool) :
    normalizeLineEnds (node.markup raw).toList = (node.normalized.markup raw).toList := by
  cases node with
  | element ns name attributes children =>
    obtain ⟨htag, hadmits⟩ := h
    refine normalizeLineEnds_element htag ?_ raw
    cases hholding : holding ns name <;> rw [hholding] at hadmits
    case void | nothing | template =>
      cases children with
      | nil => rfl
      | cons => cases hadmits
    case text => exact normalizeLineEnds_content hadmits _
    case nodes => exact normalizeLineEnds_forestMarkup hadmits _
  | text content => exact normalizeLineEnds_text raw content
  | comment | instruction | doctype => exact h.elim

/-- The markup with line feeds for line ends is that of the forest with line feeds for line ends. -/
theorem normalizeLineEnds_forestMarkup {stack : List OpenElement} {nodes : Forest}
    (h : AreReadable stack (normalizedAll nodes)) (raw : Bool) :
    normalizeLineEnds (forestMarkup raw nodes).toList =
      (forestMarkup raw (normalizedAll nodes)).toList := by
  cases nodes with
  | nil => rfl
  | cons node rest =>
    rw [forestMarkup, String.toList_append, normalizeLineEnds_append (markups_apart h raw),
      Node.normalizeLineEnds_markup h.1 raw, normalizeLineEnds_forestMarkup h.2.2 raw,
      normalizedAll, forestMarkup, String.toList_append]

end

mutual

theorem Node.hasDistinctAttributes_of_normalized {node : Node}
    (h : node.normalized.HasDistinctAttributes) : node.HasDistinctAttributes := by
  cases node with
  | element ns name attributes children =>
    refine ⟨?_, haveDistinctAttributes_of_normalizedAll h.2⟩
    have hnodup := h.1
    rwa [List.map_map] at hnodup
  | text | comment | instruction | doctype => trivial

theorem haveDistinctAttributes_of_normalizedAll {nodes : Forest}
    (h : HaveDistinctAttributes (normalizedAll nodes)) : HaveDistinctAttributes nodes := by
  cases nodes with
  | nil => trivial
  | cons node rest =>
    exact ⟨Node.hasDistinctAttributes_of_normalized h.1,
      haveDistinctAttributes_of_normalizedAll h.2⟩

end

end HtmlTemplate.Html
