-- SUMMARY: The flag of attribute selectors widens a match, unless a final sigma is in the way.
import HtmlTemplate.Proofs.LowerCase
import HtmlTemplate.Proofs.Words
import HtmlTemplate.Selector.Value

/-!
# Comparing without case

With the flag, an attribute selector compares operand and value as lower-case texts. What
matched without it should match with it, and so it does for whole values, words and stems,
and for all operands without `Σ`. But the operand is lower-cased alone and the value as a
whole: a `Σ` that ends the operand becomes `ς` there, and `σ` in a value that goes on.

Each operator looks for the operand at some place of the value: `Operator.Allows` says which
places it takes.
-/

namespace HtmlTemplate.Selector

/-! ## Places -/

/-- The operator takes an operand that stands between the two other parts of a value. -/
def Operator.Allows (operator : Operator) (operand before after : List Char) : Prop :=
  match operator with
  | .equals => before = [] ∧ after = []
  | .hasWord =>
    operand ≠ [] ∧ (∀ c ∈ operand, isAsciiBlank c = false) ∧
      (∀ c ∈ before.getLast?, isAsciiBlank c = true) ∧ ∀ c ∈ after.head?, isAsciiBlank c = true
  | .hasStem => before = [] ∧ ∀ c ∈ after.head?, c = '-'
  | .startsWith => operand ≠ [] ∧ before = []
  | .endsWith => operand ≠ [] ∧ after = []
  | .contains => operand ≠ []

section Places

variable {operator : Operator} {operand value : String}

theorem isPart_iff {part text : List Char} : isPart part text = true ↔
    ∃ before after, text = before ++ part ++ after := by
  induction text with
  | nil => simp [isPart]
  | cons c rest ih =>
    rw [isPart, Bool.or_eq_true, List.isPrefixOf_iff_prefix, ih]
    constructor
    · rintro (⟨after, heq⟩ | ⟨before, after, rfl⟩)
      · exact ⟨[], after, heq.symm⟩
      · exact ⟨c :: before, after, rfl⟩
    · rintro ⟨before, after, heq⟩
      cases before with
      | nil => exact .inl ⟨after, heq.symm⟩
      | cons _ before =>
        cases heq
        exact .inr ⟨before, after, rfl⟩

theorem isStem_iff {stem text : List Char} : isStem stem text = true ↔
    ∃ after, text = stem ++ after ∧ ∀ c ∈ after.head?, c = '-' := by
  unfold isStem
  rw [Bool.and_eq_true, List.isPrefixOf_iff_prefix]
  constructor
  · rintro ⟨⟨after, rfl⟩, hafter⟩
    rw [List.drop_left] at hafter
    refine ⟨after, rfl, ?_⟩
    cases after with
    | nil => exact nofun
    | cons c rest =>
      rintro _ ⟨⟩
      exact eq_of_beq hafter
  · rintro ⟨after, rfl, hafter⟩
    refine ⟨List.prefix_append _ _, ?_⟩
    rw [List.drop_left]
    cases after with
    | nil => rfl
    | cons c rest => exact beq_iff_eq.mpr (hafter c rfl)

/-- An operator finds the operand in a value if it takes one of the places where it is. -/
theorem Operator.test_iff : operator.test operand value = true ↔
    ∃ before after, value.toList = before ++ operand.toList ++ after ∧
      operator.Allows operand.toList before after := by
  have hne : (!operand.isEmpty) = true ↔ operand.toList ≠ [] := by
    simp
  cases operator with
  | equals =>
    rw [test, beq_iff_eq, ← String.toList_inj]
    constructor
    · intro heq
      exact ⟨[], [], by rw [heq, List.append_nil, List.nil_append], rfl, rfl⟩
    · rintro ⟨_, _, heq, rfl, rfl⟩
      rwa [List.append_nil, List.nil_append] at heq
  | hasWord =>
    rw [test, List.contains_iff_mem, mem_words]
    constructor
    · rintro ⟨hword, hfree, before, after, heq, hbefore, hafter⟩
      have hword : operand.toList ≠ [] := fun hnil => hword (String.toList_eq_nil_iff.mp hnil)
      exact ⟨before, after, heq, hword, hfree, hbefore, hafter⟩
    · rintro ⟨before, after, heq, hword, hfree, hbefore, hafter⟩
      have hword : operand ≠ "" := fun hempty => hword (String.toList_eq_nil_iff.mpr hempty)
      exact ⟨hword, hfree, before, after, heq, hbefore, hafter⟩
  | hasStem =>
    rw [test, isStem_iff]
    constructor
    · rintro ⟨after, heq, hafter⟩
      exact ⟨[], after, heq, rfl, hafter⟩
    · rintro ⟨_, after, heq, rfl, hafter⟩
      exact ⟨after, heq, hafter⟩
  | startsWith =>
    rw [test, Bool.and_eq_true, hne, List.isPrefixOf_iff_prefix]
    constructor
    · rintro ⟨hoperand, after, heq⟩
      exact ⟨[], after, heq.symm, hoperand, rfl⟩
    · rintro ⟨_, after, heq, hoperand, rfl⟩
      exact ⟨hoperand, after, heq.symm⟩
  | endsWith =>
    rw [test, Bool.and_eq_true, hne, List.isSuffixOf_iff_suffix]
    constructor
    · rintro ⟨hoperand, before, heq⟩
      exact ⟨before, [], by rw [List.append_nil, heq], hoperand, rfl⟩
    · rintro ⟨before, _, heq, hoperand, rfl⟩
      exact ⟨hoperand, before, by rw [heq, List.append_nil]⟩
  | contains =>
    rw [test, Bool.and_eq_true, hne, isPart_iff]
    constructor
    · rintro ⟨hoperand, before, after, heq⟩
      exact ⟨before, after, heq, hoperand⟩
    · rintro ⟨before, after, heq, hoperand⟩
      exact ⟨hoperand, before, after, heq⟩

end Places

/-! ## Places in lower case -/

theorem bounded_of_isAsciiBlank {text : List Char}
    (h : ∀ c ∈ text.head?, isAsciiBlank c = true) : Bounded text := by
  intro c hc
  rw [isBoundary, h c hc, Bool.true_or]

theorem bounded_of_hyphen {text : List Char} (h : ∀ c ∈ text.head?, c = '-') : Bounded text := by
  intro c hc
  rw [h c hc]
  rfl

section Lower

variable {operator : Operator} {operand before after : List Char}

/-- In lower case, the parts of a value are at a place that the operator takes, too. -/
theorem Operator.Allows.lower (h : operator.Allows operand before after)
    {front front' front'' rest rest' rest'' : List Char} :
    operator.Allows (lowerBetween front operand rest) (lowerBetween front' before rest')
      (lowerBetween front'' after rest'') := by
  have hne (hoperand : operand ≠ []) : lowerBetween front operand rest ≠ [] :=
    fun hnil => hoperand (lowerBetween_eq_nil.mp hnil)
  cases operator with
  | equals =>
    obtain ⟨rfl, rfl⟩ := h
    exact ⟨rfl, rfl⟩
  | hasWord =>
    obtain ⟨hoperand, hfree, hbefore, hafter⟩ := h
    have hlast : Bounded before.reverse := by
      apply bounded_of_isAsciiBlank
      rwa [List.head?_reverse]
    refine ⟨hne hoperand, fun c hc => ?_, ?_, ?_⟩
    · rw [Bool.eq_false_iff]
      intro hblank
      have hboundary : isBoundary c = true := by rw [isBoundary, hblank, Bool.true_or]
      cases (hfree c (mem_of_mem_lowerBetween hc hboundary)).symm.trans hblank
    · rwa [getLast?_lowerBetween hlast]
    · rwa [head?_lowerBetween (bounded_of_isAsciiBlank hafter)]
  | hasStem =>
    obtain ⟨rfl, hafter⟩ := h
    refine ⟨rfl, ?_⟩
    rwa [head?_lowerBetween (bounded_of_hyphen hafter)]
  | startsWith =>
    obtain ⟨hoperand, rfl⟩ := h
    exact ⟨hne hoperand, rfl⟩
  | endsWith =>
    obtain ⟨hoperand, rfl⟩ := h
    exact ⟨hne hoperand, rfl⟩
  | contains => exact hne h

/-- Values, words and stems stand between boundaries. -/
theorem Operator.Allows.finalSigmas_eq (h : operator.Allows operand before after)
    (hoperator : operator = .equals ∨ operator = .hasWord ∨ operator = .hasStem) :
    finalSigmas before.reverse operand after = finalSigmas [] operand [] := by
  have hends : Bounded before.reverse ∧ Bounded after := by
    obtain rfl | rfl | rfl := hoperator
    · obtain ⟨rfl, rfl⟩ := h
      exact ⟨nofun, nofun⟩
    · obtain ⟨-, -, hbefore, hafter⟩ := h
      refine ⟨bounded_of_isAsciiBlank ?_, bounded_of_isAsciiBlank hafter⟩
      rwa [List.head?_reverse]
    · obtain ⟨rfl, hafter⟩ := h
      exact ⟨nofun, bounded_of_hyphen hafter⟩
  exact finalSigmas_bounded hends.1 hends.2 [] operand

end Lower

/-- The operator finds the operand at a place of the value where the same sigmas of it end
    words as in the operand alone. -/
def Operator.KeepsSigmas (operator : Operator) (operand value : String) : Prop :=
  ∃ before after, value.toList = before ++ operand.toList ++ after ∧
    operator.Allows operand.toList before after ∧
      finalSigmas before.reverse operand.toList after = finalSigmas [] operand.toList []

section Values

variable {operator : Operator} {operand value : String}

theorem Operator.KeepsSigmas.test_fullLower (h : operator.KeepsSigmas operand value) :
    operator.test (fullLower operand) (fullLower value) = true := by
  obtain ⟨before, after, hvalue, hallows, hsigmas⟩ := h
  have hlower := toList_fullLower hvalue
  rw [lowerBetween_eq_iff.mpr hsigmas] at hlower
  apply Operator.test_iff.mpr
  rw [toList_fullLower_self operand]
  exact ⟨_, _, hlower, hallows.lower⟩

/-- A start, or an end, is compared character by character, so that its sigmas must be the
    same in lower case. -/
theorem Operator.keepsSigmas_of_test (hoperator : operator ≠ .contains)
    (h : operator.test operand value = true)
    (hlower : operator.test (fullLower operand) (fullLower value) = true) :
    operator.KeepsSigmas operand value := by
  obtain ⟨before, after, hvalue, hallows⟩ := Operator.test_iff.mp h
  refine ⟨before, after, hvalue, hallows, ?_⟩
  obtain ⟨before', after', heq, hallows'⟩ := Operator.test_iff.mp hlower
  rw [toList_fullLower hvalue, toList_fullLower_self] at heq
  cases operator with
  | equals => exact hallows.finalSigmas_eq (.inl rfl)
  | hasWord => exact hallows.finalSigmas_eq (.inr (.inl rfl))
  | hasStem => exact hallows.finalSigmas_eq (.inr (.inr rfl))
  | startsWith =>
    obtain ⟨-, rfl⟩ := hallows
    obtain ⟨-, rfl⟩ := hallows'
    exact lowerBetween_eq_iff.mp (List.append_inj heq length_lowerBetween).1
  | endsWith =>
    obtain ⟨-, rfl⟩ := hallows
    obtain ⟨-, rfl⟩ := hallows'
    rw [lowerBetween, List.append_nil, List.append_nil, List.append_nil] at heq
    exact lowerBetween_eq_iff.mp (List.append_inj' heq length_lowerBetween).2
  | contains => exact absurd rfl hoperator

end Values

/-- The flag widens the comparison with a value, a word or a stem, and with any operand
    without sigmas. Otherwise it does so where the operand is found with the same sigmas at
    the ends of words; for a start and for an end, nowhere else. -/
theorem matches_ignoring_case {name : String} {operator : Operator} {operand value : String}
    (h : AttributeTest.matches ⟨name, some (operator, operand), false⟩ (some value) = true) :
    let ignoring := AttributeTest.matches ⟨name, some (operator, operand), true⟩ (some value)
    (operator = .equals ∨ operator = .hasWord ∨ operator = .hasStem ∨ 'Σ' ∉ operand.toList →
        ignoring = true) ∧
      (operator.KeepsSigmas operand value → ignoring = true) ∧
      (operator ≠ .contains → ignoring = true → operator.KeepsSigmas operand value) := by
  intro ignoring
  have htest : operator.test operand value = true := h
  refine ⟨fun hbounded => ?_, Operator.KeepsSigmas.test_fullLower, fun hoperator hignoring => ?_⟩
  · obtain ⟨before, after, hvalue, hallows⟩ := Operator.test_iff.mp htest
    apply Operator.KeepsSigmas.test_fullLower
    refine ⟨before, after, hvalue, hallows, ?_⟩
    obtain hequals | hword | hstem | hfree := hbounded
    · exact hallows.finalSigmas_eq (.inl hequals)
    · exact hallows.finalSigmas_eq (.inr (.inl hword))
    · exact hallows.finalSigmas_eq (.inr (.inr hstem))
    · rw [finalSigmas_of_not_mem hfree, finalSigmas_of_not_mem hfree]
  · exact Operator.keepsSigmas_of_test hoperator htest hignoring

/-- The sigma that the operand starts with ends no word, neither alone nor in the value. -/
theorem matches_ignoring_case_stem :
    AttributeTest.matches ⟨"title", some (.startsWith, "ΣΟΦ"), true⟩ (some "ΣΟΦΟΣ") = true := by
  have h : AttributeTest.matches ⟨"title", some (.startsWith, "ΣΟΦ"), false⟩ (some "ΣΟΦΟΣ") =
      true := by
    decide
  apply (matches_ignoring_case h).2.1
  exact ⟨[], ['Ο', 'Σ'], by decide, ⟨by decide, rfl⟩, by decide +kernel⟩

/-- The sigma that ends the operand becomes another letter than the one in the value. -/
theorem matches_final_sigma :
    AttributeTest.matches ⟨"title", some (.startsWith, "ΑΣ"), false⟩ (some "ΑΣΑ") = true ∧
      AttributeTest.matches ⟨"title", some (.startsWith, "ΑΣ"), true⟩ (some "ΑΣΑ") = false := by
  decide +kernel

end HtmlTemplate.Selector
