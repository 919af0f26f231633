-- SUMMARY: The words of a text are what stands in it between separators.
import HtmlTemplate.Proofs.Selecting.Reading

/-!
# Words

`words` splits a text at all characters of a set. A text is among the words exactly if it
is not empty, has no separator, and stands somewhere between separators or the ends of the
text: `StandsAlone` says so without the splitting.
-/

namespace HtmlTemplate

open Selector

/-- The text starts with the word, and a separator is next to it. -/
def StandsFirst (sep : Char → Bool) (word text : List Char) : Prop :=
  ∃ after, text = word ++ after ∧ ∀ c ∈ after.head?, sep c = true

/-- The word stands behind a separator, and another one is next to it. -/
def StandsBehind (sep : Char → Bool) (word text : List Char) : Prop :=
  ∃ before c after, text = before ++ c :: (word ++ after) ∧ sep c = true ∧
    ∀ c ∈ after.head?, sep c = true

/-- The word stands in the text with separators, or nothing, on both sides. -/
def StandsAlone (sep : Char → Bool) (word text : List Char) : Prop :=
  ∃ before after, text = before ++ word ++ after ∧ (∀ c ∈ before.getLast?, sep c = true) ∧
    ∀ c ∈ after.head?, sep c = true

section Words

variable {sep : Char → Bool} {word rest : List Char}

theorem standsBehind_cons {first : Char} : StandsBehind sep word (first :: rest) ↔
    sep first = true ∧ StandsFirst sep word rest ∨ StandsBehind sep word rest := by
  constructor
  · rintro ⟨before, c, after, heq, hsep, hafter⟩
    cases before with
    | nil =>
      cases heq
      exact .inl ⟨hsep, after, rfl, hafter⟩
    | cons _ before =>
      cases heq
      exact .inr ⟨before, c, after, rfl, hsep, hafter⟩
  · rintro (⟨hsep, after, rfl, hafter⟩ | ⟨before, c, after, rfl, hsep, hafter⟩)
    · exact ⟨[], first, after, rfl, hsep, hafter⟩
    · exact ⟨first :: before, c, after, rfl, hsep, hafter⟩

theorem standsAlone_iff {text : List Char} :
    StandsAlone sep word text ↔ StandsFirst sep word text ∨ StandsBehind sep word text := by
  constructor
  · rintro ⟨before, after, rfl, hbefore, hafter⟩
    obtain rfl | ⟨before, c, rfl⟩ := List.eq_nil_or_concat before
    · exact .inl ⟨after, rfl, hafter⟩
    · rw [List.concat_eq_append] at hbefore ⊢
      have hsep : sep c = true := hbefore c List.getLast?_concat
      exact .inr ⟨before, c, after, by simp, hsep, hafter⟩
  · rintro (⟨after, rfl, hafter⟩ | ⟨before, c, after, rfl, hsep, hafter⟩)
    · exact ⟨[], after, rfl, nofun, hafter⟩
    · refine ⟨before ++ [c], after, by simp, ?_, hafter⟩
      rw [List.getLast?_concat]
      rintro _ ⟨⟩
      exact hsep

theorem StandsAlone.imp {sep' : Char → Bool} {text : List Char} (h : StandsAlone sep word text)
    (himp : ∀ c ∈ text, sep c = true → sep' c = true) : StandsAlone sep' word text := by
  obtain ⟨before, after, rfl, hbefore, hafter⟩ := h
  refine ⟨before, after, rfl, fun c hc => ?_, fun c hc => ?_⟩
  · exact himp c (by simp [List.mem_of_getLast? hc]) (hbefore c hc)
  · exact himp c (by simp [List.mem_of_head? hc]) (hafter c hc)

/-! ## Splitting -/

theorem stops_not {text : List Char} : Stops (!sep ·) text ↔ ∀ c ∈ text.head?, sep c = true := by
  simp only [Stops, Bool.not_eq_false']

theorem splitWords_fst (sep : Char → Bool) (text : List Char) :
    (splitWords sep text).1 = text.takeWhile (!sep ·) := by
  induction text with
  | nil => rfl
  | cons c rest ih =>
    rw [splitWords, List.takeWhile_cons]
    cases hsep : sep c <;> simp [ih]

theorem mem_consWord {first : List Char} {others : List (List Char)} :
    word ∈ consWord first others ↔ word ≠ [] ∧ word = first ∨ word ∈ others := by
  unfold consWord
  cases first with
  | nil => simp
  | cons c first =>
    have hne : word = c :: first → word ≠ [] := by
      rintro rfl
      exact List.cons_ne_nil _ _
    simpa using or_congr_left (and_iff_right_of_imp hne).symm

/-- The word that a text starts with goes up to the first separator. -/
theorem eq_splitWords_fst {text : List Char} : word = (splitWords sep text).1 ↔
    (∀ c ∈ word, sep c = false) ∧ StandsFirst sep word text := by
  rw [splitWords_fst]
  constructor
  · rintro rfl
    have hfree : ∀ c ∈ text.takeWhile (!sep ·), sep c = false := by
      intro c hc
      simpa using List.all_eq_true.mp List.all_takeWhile c hc
    exact ⟨hfree, _, List.takeWhile_append_dropWhile.symm, stops_not.mp (stops_dropWhile _ _)⟩
  · rintro ⟨hfree, after, rfl, hafter⟩
    exact (takeWhile_append (by simpa using hfree) (stops_not.mpr hafter)).symm

theorem mem_splitWords_snd {text : List Char} : word ∈ (splitWords sep text).2 ↔
    word ≠ [] ∧ (∀ c ∈ word, sep c = false) ∧ StandsBehind sep word text := by
  induction text with
  | nil => simp [splitWords, StandsBehind]
  | cons first rest ih =>
    rw [standsBehind_cons, splitWords]
    cases hsep : sep first with
    | true =>
      simp only [if_true, mem_consWord, eq_splitWords_fst, ih, true_and, and_or_left]
    | false => simp only [Bool.false_eq_true, if_false, ih, false_and, false_or]

end Words

/-- The words of a text are the texts without separators that stand alone in it. -/
theorem mem_words {sep : Char → Bool} {word text : String} : word ∈ words sep text ↔
    word ≠ "" ∧ (∀ c ∈ word.toList, sep c = false) ∧ StandsAlone sep word.toList text.toList := by
  have hmem : word ∈ words sep text ↔
      word.toList ∈ consWord (splitWords sep text.toList).1 (splitWords sep text.toList).2 := by
    rw [words, List.mem_map]
    constructor
    · rintro ⟨_, hword, rfl⟩
      rwa [String.toList_ofList]
    · exact fun hword => ⟨_, hword, String.ofList_toList⟩
  have hne : word ≠ "" ↔ word.toList ≠ [] := not_congr String.toList_eq_nil_iff.symm
  simp only [hmem, mem_consWord, eq_splitWords_fst, mem_splitWords_snd, standsAlone_iff, hne,
    and_or_left]

end HtmlTemplate
