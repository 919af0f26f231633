-- SUMMARY: Undoing escapes: one pass that replaces references by their characters gives back what was escaped.
import HtmlTemplate.Proofs.Escaping

/-!
# Undoing escapes

`unescape` goes through markup once, from left to right, and replaces the references
that escaping writes. It reads back what was escaped also where the text itself looks
like a reference or like a part of one, since no ampersand is left that does not begin a
reference. Both ways of escaping write each character on its own, so that all is shown
of their pieces.
-/

namespace HtmlTemplate.Markup

/-- The references of a text, each with its character. -/
def textReferences : List (Char × String) := [('&', "&amp;"), ('<', "&lt;"), ('>', "&gt;")]

/-- The references of an attribute value. -/
def valueReferences : List (Char × String) := ('"', "&quot;") :: textReferences

/-- Replace references by their characters, from left to right. What a reference stands
    for is not read again. -/
def unescape : List Char → List Char
  | '&' :: 'a' :: 'm' :: 'p' :: ';' :: rest => '&' :: unescape rest
  | '&' :: 'l' :: 't' :: ';' :: rest => '<' :: unescape rest
  | '&' :: 'g' :: 't' :: ';' :: rest => '>' :: unescape rest
  | '&' :: 'q' :: 'u' :: 'o' :: 't' :: ';' :: rest => '"' :: unescape rest
  | c :: rest => c :: unescape rest
  | [] => []

theorem unescape_cons {c : Char} (h : c ≠ '&') (rest : List Char) :
    unescape (c :: rest) = c :: unescape rest := by
  rw [unescape.eq_def]
  split <;> simp_all

/-- A way of escaping that takes the marks out of a text, writes ampersands only in front
    of the references, can be undone, and goes through the text piece by piece. -/
structure Undoable (escape : String → String) (marks : List Char)
    (references : List (Char × String)) : Prop where
  notMem : ∀ text, ∀ mark ∈ marks, mark ∉ (escape text).toList
  reference : ∀ text rest, '&' :: rest <:+ (escape text).toList →
    ∃ reference ∈ references, reference.2.toList <+: '&' :: rest
  unescape_eq : ∀ text, unescape (escape text).toList = text.toList
  append : ∀ text other, escape (text ++ other) = escape text ++ escape other

/-- A character is written as one of the references, or as it is. -/
def Writes (references : List (Char × String)) (c : Char) (piece : List Char) : Prop :=
  (∃ reference ∈ references, reference.1 = c ∧ piece = reference.2.toList) ∨
    c ≠ '&' ∧ c ∉ references.map (·.1) ∧ piece = [c]

theorem writes_textCharacter (c : Char) : Writes textReferences c (textCharacter c) := by
  unfold textCharacter
  split
  case h_4 hamp hlt hgt =>
    exact .inr ⟨hamp, by simpa [textReferences] using ⟨hamp, hlt, hgt⟩, rfl⟩
  all_goals exact .inl (by simp [textReferences])

theorem writes_valueCharacter (c : Char) : Writes valueReferences c (valueCharacter c) := by
  unfold valueCharacter
  split
  next => exact .inl (by simp [valueReferences])
  next hquote =>
    obtain ⟨reference, hmem, h⟩ | ⟨hamp, hnot, h⟩ := writes_textCharacter c
    · exact .inl ⟨reference, List.mem_cons_of_mem _ hmem, h⟩
    · exact .inr ⟨hamp, by simpa [valueReferences] using ⟨hquote, by simpa using hnot⟩, h⟩

/-- Both ways of escaping write no other references. -/
theorem mem_valueReferences {reference : Char × String} (h : reference ∈ textReferences) :
    reference ∈ valueReferences := List.mem_cons_of_mem _ h

theorem unescape_reference {reference : Char × String} (h : reference ∈ valueReferences)
    (rest : List Char) :
    unescape (reference.2.toList ++ rest) = reference.1 :: unescape rest := by
  revert reference
  simp [valueReferences, textReferences, unescape]

/-- Inside a reference there is no other ampersand and no mark. -/
theorem exists_cons_of_reference {reference : Char × String} (h : reference ∈ valueReferences) :
    ∃ inside, reference.2.toList = '&' :: inside ∧
      ∀ c ∈ inside, c ≠ '&' ∧ c ∉ valueReferences.map (·.1) := by
  revert reference
  simp [valueReferences, textReferences]

/-- An ampersand behind characters that are none comes after all of them. -/
theorem suffix_of_suffix_append {inside more rest : List Char} (hinside : ∀ c ∈ inside, c ≠ '&')
    (h : '&' :: rest <:+ inside ++ more) : '&' :: rest <:+ more := by
  induction inside with
  | nil => exact h
  | cons c inside ih =>
    obtain ⟨hc, hinside⟩ := List.forall_mem_cons.mp hinside
    rw [List.cons_append, List.suffix_cons_iff] at h
    exact ih hinside (h.resolve_left fun heq => hc (List.cons_eq_cons.mp heq).1.symm)

/-- What is written character by character can be undone. -/
theorem undoable_flatMap {marks : List Char} {references : List (Char × String)}
    {piece : Char → List Char} (hmarks : ∀ mark ∈ marks, mark ≠ '&' ∧ mark ∈ references.map (·.1))
    (hreferences : references ⊆ valueReferences)
    (hpiece : ∀ c, Writes references c (piece c)) :
    Undoable (fun text => String.ofList (text.toList.flatMap piece)) marks references where
  notMem text mark hmark := by
    obtain ⟨hamp, hmark⟩ := hmarks mark hmark
    rw [String.toList_ofList, List.mem_flatMap]
    rintro ⟨c, -, hc⟩
    obtain ⟨reference, hreference, -, h⟩ | ⟨-, hnot, h⟩ := hpiece c
    · obtain ⟨inside, hinside, hfree⟩ := exists_cons_of_reference (hreferences hreference)
      rw [h, hinside, List.mem_cons] at hc
      exact (hfree mark (hc.resolve_left hamp)).2 (List.map_subset _ hreferences hmark)
    · obtain rfl := List.mem_singleton.mp (h ▸ hc)
      exact hnot hmark
  reference text rest hsuffix := by
    rw [String.toList_ofList] at hsuffix
    generalize text.toList = text at hsuffix
    induction text with
    | nil => simp at hsuffix
    | cons c text ih =>
      rw [List.flatMap_cons] at hsuffix
      obtain ⟨reference, hreference, -, h⟩ | ⟨hamp, -, h⟩ := hpiece c
      · obtain ⟨inside, hinside, hfree⟩ := exists_cons_of_reference (hreferences hreference)
        rw [h, hinside, List.cons_append, List.suffix_cons_iff] at hsuffix
        obtain heq | hlater := hsuffix
        · exact ⟨reference, hreference, by rw [heq, hinside]; exact List.prefix_append _ _⟩
        · exact ih (suffix_of_suffix_append (fun c hc => (hfree c hc).1) hlater)
      · rw [h] at hsuffix
        exact ih (suffix_of_suffix_append (List.forall_mem_singleton.mpr hamp) hsuffix)
  unescape_eq text := by
    rw [String.toList_ofList]
    induction text.toList with
    | nil => rfl
    | cons c text ih =>
      rw [List.flatMap_cons]
      obtain ⟨reference, hreference, hc, h⟩ | ⟨hamp, -, h⟩ := hpiece c
      · rw [h, unescape_reference (hreferences hreference), ih, hc]
      · rw [h, List.singleton_append, unescape_cons hamp, ih]
  append text other := by
    rw [String.toList_append, List.flatMap_append, String.ofList_append]

/-- Escaped texts are free of the marks of tags, escaped values of quotes, too, and both
    are given back by a single pass, whatever references the text itself contains. -/
theorem undoable_escaped :
    Undoable escapedText ['<', '>'] textReferences ∧
      Undoable escapedValue ['<', '>', '"'] valueReferences := by
  constructor
  · refine undoable_flatMap ?_ (fun _ => mem_valueReferences) writes_textCharacter
    simp [textReferences]
  · refine undoable_flatMap ?_ (List.Subset.refl _) writes_valueCharacter
    simp [valueReferences, textReferences]

end HtmlTemplate.Markup
