-- SUMMARY: Escaped texts and values: which characters they are free of, and that they can be told apart.
import HtmlTemplate.Markup.Escape

/-!
# Escaping is safe and loses nothing

An escaped text has none of the characters that open and close tags, an escaped value
none that closes the quotes around it either. Each character is escaped to a piece that
is no beginning of the piece of another one, so that texts can be told apart by their
markup.
-/

namespace HtmlTemplate.Markup

/-! ## Characters that are escaped -/

theorem ne_of_mem_textCharacter {c d : Char} (h : c ∈ textCharacter d) : c ≠ '<' ∧ c ≠ '>' := by
  unfold textCharacter at h
  split at h
  case h_4 hnot_amp hnot_lt hnot_gt =>
    obtain rfl := List.mem_singleton.mp h
    exact ⟨hnot_lt, hnot_gt⟩
  all_goals
    constructor <;> rintro rfl <;> revert h <;> decide

theorem ne_of_mem_valueCharacter {c d : Char} (h : c ∈ valueCharacter d) :
    c ≠ '<' ∧ c ≠ '>' ∧ c ≠ '"' := by
  unfold valueCharacter at h
  split at h
  next => refine ⟨?_, ?_, ?_⟩ <;> rintro rfl <;> revert h <;> decide
  next hnot_quote =>
    obtain ⟨hlt, hgt⟩ := ne_of_mem_textCharacter h
    refine ⟨hlt, hgt, ?_⟩
    rintro rfl
    unfold textCharacter at h
    split at h
    case h_4 => exact hnot_quote (List.mem_singleton.mp h).symm
    all_goals revert h; decide

theorem ne_of_mem_escapedText {c : Char} {text : String} (h : c ∈ (escapedText text).toList) :
    c ≠ '<' ∧ c ≠ '>' := by
  rw [escapedText, String.toList_ofList, List.mem_flatMap] at h
  obtain ⟨d, -, hc⟩ := h
  exact ne_of_mem_textCharacter hc

theorem ne_of_mem_escapedValue {c : Char} {value : String} (h : c ∈ (escapedValue value).toList) :
    c ≠ '<' ∧ c ≠ '>' ∧ c ≠ '"' := by
  rw [escapedValue, String.toList_ofList, List.mem_flatMap] at h
  obtain ⟨d, -, hc⟩ := h
  exact ne_of_mem_valueCharacter hc

/-! ## Telling escaped texts apart -/

theorem textCharacter_cases (c : Char) :
    c ∈ ['&', '<', '>'] ∨ '&' ≠ c ∧ textCharacter c = [c] := by
  unfold textCharacter
  split
  case h_4 hnot_amp _ _ => exact .inr ⟨Ne.symm hnot_amp, rfl⟩
  all_goals simp

theorem valueCharacter_cases (c : Char) :
    c ∈ ['"', '&', '<', '>'] ∨ '&' ≠ c ∧ valueCharacter c = [c] := by
  unfold valueCharacter
  split
  next => exact .inl List.mem_cons_self
  next => exact (textCharacter_cases c).imp_left (List.mem_cons_of_mem _)

/-- What is escaped begins with the ampersand, which itself is escaped. So no piece begins
    another one if this is so among the characters that are escaped. -/
theorem eq_of_prefix {piece : Char → List Char} {escaped : List Char}
    (hcases : ∀ c, c ∈ escaped ∨ '&' ≠ c ∧ piece c = [c])
    (hescaped : ∀ c ∈ escaped, (piece c).head? = some '&' ∧
      ∀ d ∈ escaped, piece c <+: piece d → c = d)
    {c d : Char} (h : piece c <+: piece d) : c = d := by
  have hhead {first : Char} (hfirst : (piece c).head? = some first) :
      (piece d).head? = some first := by
    obtain ⟨rest, hrest⟩ := h
    rw [← hrest, List.head?_append, hfirst, Option.some_or]
  rcases hcases c with hc | ⟨hc, hplain⟩ <;> rcases hcases d with hd | ⟨hd, hplain'⟩
  · exact (hescaped c hc).2 d hd h
  · have hfirst := hhead (hescaped c hc).1
    rw [hplain', List.head?_cons, Option.some_inj] at hfirst
    exact absurd hfirst.symm hd
  · have hfirst := hhead (hplain ▸ List.head?_cons)
    rw [(hescaped d hd).1, Option.some_inj] at hfirst
    exact absurd hfirst hc
  · have hfirst := hhead (hplain ▸ List.head?_cons)
    rw [hplain', List.head?_cons, Option.some_inj] at hfirst
    exact hfirst.symm

theorem eq_of_textCharacter_prefix {c d : Char} (h : textCharacter c <+: textCharacter d) :
    c = d := by
  refine eq_of_prefix textCharacter_cases ?_ h
  simp only [List.forall_mem_cons, List.not_mem_nil, false_implies, implies_true]
  decide

theorem eq_of_valueCharacter_prefix {c d : Char} (h : valueCharacter c <+: valueCharacter d) :
    c = d := by
  refine eq_of_prefix valueCharacter_cases ?_ h
  simp only [List.forall_mem_cons, List.not_mem_nil, false_implies, implies_true]
  decide

/-- Texts can be told apart by their pieces if none of these begins another one. -/
theorem flatMap_injective {piece : Char → List Char} (hne : ∀ c, piece c ≠ [])
    (hbegins : ∀ {c d}, piece c <+: piece d → c = d) :
    Function.Injective fun text : String => String.ofList (text.toList.flatMap piece) := by
  have hpiece {c d : Char} {rest rest' : List Char} (h : piece c ++ rest = piece d ++ rest') :
      c = d ∧ rest = rest' := by
    have heq : c = d := by
      rcases List.prefix_or_prefix_of_prefix ⟨rest, h⟩ (List.prefix_append _ rest') with h | h
      · exact hbegins h
      · exact (hbegins h).symm
    subst heq
    exact ⟨rfl, List.append_cancel_left h⟩
  have hlists : ∀ first second : List Char,
      first.flatMap piece = second.flatMap piece → first = second := by
    intro first
    induction first with
    | nil =>
      intro second h
      cases second with
      | nil => rfl
      | cons d second => simp [hne] at h
    | cons c first ih =>
      intro second h
      cases second with
      | nil => simp [hne] at h
      | cons d second =>
        obtain ⟨rfl, hrest⟩ := hpiece h
        rw [ih second hrest]
  intro first second h
  exact String.toList_inj.mp (hlists _ _ (String.ofList_inj.mp h))

theorem textCharacter_ne_nil (c : Char) : textCharacter c ≠ [] := by
  unfold textCharacter
  split <;> simp

theorem valueCharacter_ne_nil (c : Char) : valueCharacter c ≠ [] := by
  unfold valueCharacter
  split
  next => simp
  next => exact textCharacter_ne_nil c

theorem escapedText_injective : Function.Injective escapedText :=
  flatMap_injective textCharacter_ne_nil eq_of_textCharacter_prefix

theorem escapedValue_injective : Function.Injective escapedValue :=
  flatMap_injective valueCharacter_ne_nil eq_of_valueCharacter_prefix

end HtmlTemplate.Markup
