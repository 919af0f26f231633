-- SUMMARY: The grammar of positional formulas, and what the reader accepts beside it.
import Mathlib.Data.List.Basic
import HtmlTemplate.Proofs.Selecting.Formulas

/-!
# The grammar of formulas

`Formula` says which texts are formulas, once their blanks are taken out and they are in
lower case, and which coefficients they have. Each rule of the grammar is an inductive
relation between a text and a number, and each reader finds the number of its rule if this
fits into a coefficient.

One text more is read than the grammar has: behind the `n` and a plus the reader takes a
number that comes with a sign of its own. `Doubled` says so.
-/

namespace HtmlTemplate.Selector.Nth

/-! ## Numbers -/

/-- At least one decimal digit, and the value of all of them. -/
inductive Digits : List Char → Nat → Prop where
  | digits {text : List Char} (hne : text ≠ []) (hdigits : ∀ c ∈ text, c.isDigit = true) :
      Digits text (Nat.ofDigitChars 10 text 0)

/-- Digits behind one sign. -/
inductive Signed : List Char → Int → Prop where
  | plus {text : List Char} {n : Nat} (h : Digits text n) : Signed ('+' :: text) n
  | minus {text : List Char} {n : Nat} (h : Digits text n) : Signed ('-' :: text) (-n)

/-- Digits behind one sign or none. -/
inductive Number : List Char → Int → Prop where
  | plain {text : List Char} {n : Nat} (h : Digits text n) : Number text n
  | signed {text : List Char} {n : Int} (h : Signed text n) : Number text n

/-! ## Formulas -/

/-- What stands in front of the `n`; a sign alone, or nothing, is a one. -/
inductive Step : List Char → Int → Prop where
  | one : Step [] 1
  | plus : Step ['+'] 1
  | minus : Step ['-'] (-1)
  | number {text : List Char} {n : Int} (h : Number text n) : Step text n

/-- What stands behind the `n`. -/
inductive Offset : List Char → Int → Prop where
  | zero : Offset [] 0
  | signed {text : List Char} {n : Int} (h : Signed text n) : Offset text n

/-- A formula with its step and its offset. -/
inductive Formula : List Char → Int → Int → Prop where
  | odd : Formula ['o', 'd', 'd'] 2 1
  | even : Formula ['e', 'v', 'e', 'n'] 2 0
  | number {text : List Char} {n : Int} (h : Number text n) : Formula text 0 n
  | linear {before after : List Char} {step offset : Int} (hstep : Step before step)
      (hoffset : Offset after offset) : Formula (before ++ 'n' :: after) step offset

/-- A formula whose offset has a plus and then a sign of its own. -/
inductive Doubled : List Char → Int → Int → Prop where
  | linear {before after : List Char} {step offset : Int} (hstep : Step before step)
      (hoffset : Signed after offset) : Doubled (before ++ 'n' :: '+' :: after) step offset

/-- The text without blanks and in lower case. -/
def compact (argument : String) : List Char :=
  (argument.toList.filter (!isBlank ·)).map Char.toLower

/-! ## Reading numbers -/

section Numbers

variable {text : List Char} {value : Nat} {n : Int32}

theorem Digits.isDigit (h : Digits text value) : ∀ c ∈ text, c.isDigit = true := by
  cases h with
  | digits _ hdigits => exact hdigits

theorem digits_singleton {c : Char} (hc : c.isDigit = true) :
    Digits [c] (Nat.ofDigitChars 10 [c] 0) :=
  .digits (List.cons_ne_nil c []) (List.forall_mem_singleton.mpr hc)

theorem not_digits_cons {c : Char} (hc : c.isDigit = false) : ¬ Digits (c :: text) value := by
  intro h
  cases hc.symm.trans (h.isDigit c List.mem_cons_self)

theorem digitsValue?_eq_some : digitsValue? text = some value ↔ Digits text value := by
  have hvalue : text.foldl (fun n c => n * 10 + (c.toNat - '0'.toNat)) 0 =
      Nat.ofDigitChars 10 text 0 := by
    simp only [Nat.ofDigitChars_eq_foldl, Nat.mul_comm 10]
  rw [digitsValue?, hvalue]
  constructor
  · intro h
    split at h
    · cases h
    next hdigits =>
      cases h
      simp only [Bool.or_eq_true, not_or, List.isEmpty_iff, Bool.not_eq_true',
        Bool.not_eq_false, List.all_eq_true] at hdigits
      exact .digits hdigits.1 hdigits.2
  · intro h
    cases h with
    | digits hne hdigits =>
      apply if_neg
      simpa [hne] using hdigits

theorem coefficient?_eq_some {i : Int} : coefficient? i = some n ↔ i = n.toInt := by
  constructor
  · intro h
    unfold coefficient? at h
    split at h
    next hfits =>
      cases h
      exact (Int32.toInt_ofInt_of_le hfits.1 (by omega)).symm
    · cases h
  · rintro rfl
    exact coefficient?_toInt n

/-- The value of digits is a coefficient with the sign that is given to it, if it fits. -/
theorem bind_coefficient?_eq_some {sign : Nat → Int} :
    ((digitsValue? text).bind fun value => coefficient? (sign value)) = some n ↔
      ∃ value, Digits text value ∧ sign value = n.toInt := by
  simp only [Option.bind_eq_some_iff, digitsValue?_eq_some, coefficient?_eq_some]

theorem number_minus {i : Int} :
    Number ('-' :: text) i ↔ ∃ value : Nat, Digits text value ∧ -value = i := by
  constructor
  · intro h
    cases h with
    | plain h => cases not_digits_cons rfl h
    | signed h => cases h with | minus h => exact ⟨_, h, rfl⟩
  · rintro ⟨value, hdigits, rfl⟩
    exact .signed (.minus hdigits)

theorem number_plus {i : Int} :
    Number ('+' :: text) i ↔ ∃ value : Nat, Digits text value ∧ value = i := by
  constructor
  · intro h
    cases h with
    | plain h => cases not_digits_cons rfl h
    | signed h => cases h with | plus h => exact ⟨_, h, rfl⟩
  · rintro ⟨value, hdigits, rfl⟩
    exact .signed (.plus hdigits)

theorem number_plain {i : Int} (hminus : ∀ rest, text = '-' :: rest → False)
    (hplus : ∀ rest, text = '+' :: rest → False) :
    Number text i ↔ ∃ value : Nat, Digits text value ∧ value = i := by
  constructor
  · intro h
    cases h with
    | plain h => exact ⟨_, h, rfl⟩
    | signed h =>
      cases h with
      | plus => exact (hplus _ rfl).elim
      | minus => exact (hminus _ rfl).elim
  · rintro ⟨value, hdigits, rfl⟩
    exact .plain hdigits

theorem readCoefficient_eq_some : readCoefficient text = some n ↔ Number text n.toInt := by
  unfold readCoefficient
  split
  next => rw [bind_coefficient?_eq_some, number_minus]
  next => rw [bind_coefficient?_eq_some, number_plus]
  next hminus hplus => rw [bind_coefficient?_eq_some, number_plain hminus hplus]

theorem Number.ne_sign {i : Int} (h : Number text i) :
    text ≠ [] ∧ text ≠ ['+'] ∧ text ≠ ['-'] := by
  have hnil {value : Nat} : ¬ Digits [] value := by
    rintro ⟨hne, -⟩
    exact hne rfl
  refine ⟨?_, ?_, ?_⟩
  · rintro rfl
    cases h with
    | plain h => exact hnil h
    | signed h => cases h
  · rintro rfl
    obtain ⟨value, h, -⟩ := number_plus.mp h
    exact hnil h
  · rintro rfl
    obtain ⟨value, h, -⟩ := number_minus.mp h
    exact hnil h

end Numbers

/-! ## Reading formulas -/

section Formulas

variable {text : List Char} {n : Int32} {formula : Nth}

theorem readStep_eq_some : readStep text = some n ↔ Step text n.toInt := by
  constructor
  · intro h
    unfold readStep at h
    split at h
    · cases h
      exact .one
    · cases h
      exact .plus
    · cases h
      exact .minus
    · exact .number (readCoefficient_eq_some.mp h)
  · intro h
    generalize hn : n.toInt = i at h
    cases h with
    | one => exact congrArg some (Int32.toInt_inj.mp hn.symm)
    | plus => exact congrArg some (Int32.toInt_inj.mp hn.symm)
    | minus => exact congrArg some (Int32.toInt_inj.mp hn.symm)
    | number h =>
      obtain ⟨hnil, hplus, hminus⟩ := h.ne_sign
      have hread : readCoefficient text = some n := readCoefficient_eq_some.mpr (hn ▸ h)
      rwa [readStep]
      all_goals assumption

/-- Behind a plus, a number is read with a sign of its own, too. -/
theorem readOffset_eq_some : readOffset text = some n ↔
    Offset text n.toInt ∨ ∃ rest, text = '+' :: rest ∧ Signed rest n.toInt := by
  constructor
  · intro h
    unfold readOffset at h
    split at h
    · cases h
      exact .inl .zero
    next rest =>
      have hnumber : Number rest n.toInt := readCoefficient_eq_some.mp h
      generalize n.toInt = i at hnumber
      cases hnumber with
      | plain h => exact .inl (.signed (.plus h))
      | signed h => exact .inr ⟨rest, rfl, h⟩
    · obtain ⟨value, hdigits, hvalue⟩ := number_minus.mp (readCoefficient_eq_some.mp h)
      exact .inl (hvalue ▸ .signed (.minus hdigits))
    · cases h
  · rintro (h | ⟨rest, rfl, h⟩)
    · generalize hn : n.toInt = i at h
      cases h with
      | zero => exact congrArg some (Int32.toInt_inj.mp hn.symm)
      | signed h =>
        cases h with
        | plus h =>
          have hnumber : Number _ n.toInt := hn ▸ Number.plain h
          exact readCoefficient_eq_some.mpr hnumber
        | minus h =>
          have hnumber : Number _ n.toInt := hn ▸ Number.signed (.minus h)
          exact readCoefficient_eq_some.mpr hnumber
    · exact readCoefficient_eq_some.mpr (.signed h)

/-- A step has digits and signs only, so that it ends at the first `n`. -/
theorem Step.isDigit {i : Int} (h : Step text i) :
    ∀ c ∈ text, c.isDigit = true ∨ c = '+' ∨ c = '-' := by
  have hdigits {digits : List Char} {value : Nat} (h : Digits digits value) :
      ∀ c ∈ digits, c.isDigit = true ∨ c = '+' ∨ c = '-' :=
    fun c hc => .inl (h.isDigit c hc)
  cases h with
  | one => exact nofun
  | plus => exact List.forall_mem_singleton.mpr (.inr (.inl rfl))
  | minus => exact List.forall_mem_singleton.mpr (.inr (.inr rfl))
  | number h =>
    cases h with
    | plain h => exact hdigits h
    | signed h =>
      cases h with
      | plus h => exact List.forall_mem_cons.mpr ⟨.inr (.inl rfl), hdigits h⟩
      | minus h => exact List.forall_mem_cons.mpr ⟨.inr (.inr rfl), hdigits h⟩

theorem Step.notMem {i : Int} {c : Char} (h : Step text i) (hdigit : c.isDigit = false)
    (hplus : c ≠ '+') (hminus : c ≠ '-') : c ∉ text := by
  intro hc
  obtain htrue | heq | heq := h.isDigit c hc
  · cases hdigit.symm.trans htrue
  · exact hplus heq
  · exact hminus heq

theorem ne_n_of_notMem (hplain : 'n' ∉ text) : ∀ c ∈ text, (c != 'n') = true := by
  intro c hc
  rw [bne_iff_ne]
  rintro rfl
  exact hplain hc

/-- A text with an `n` is read as the step in front of the first one and the offset behind
    it. -/
theorem readCompact_append {before after : List Char} (hbefore : 'n' ∉ before)
    (heven : before ++ 'n' :: after ≠ "even".toList) :
    readCompact (before ++ 'n' :: after) = some formula ↔
      readStep before = some formula.step ∧ readOffset after = some formula.offset := by
  have hplain := ne_n_of_notMem hbefore
  have hstops : Stops (· != 'n') ('n' :: after) := stops_cons.mpr rfl
  have hodd : before ++ 'n' :: after ≠ "odd".toList := by
    intro heq
    have hmem : 'n' ∈ "odd".toList := heq ▸ List.mem_append_right _ List.mem_cons_self
    revert hmem
    decide
  rw [readCompact, if_neg hodd, if_neg heven, takeWhile_append hplain hstops,
    dropWhile_append hplain hstops]
  obtain ⟨step, offset⟩ := formula
  simp [Option.bind_eq_some_iff]

theorem readCompact_plain (hodd : text ≠ "odd".toList) (hplain : 'n' ∉ text) :
    readCompact text = (readCoefficient text).map fun offset => ⟨0, offset⟩ := by
  have heven : text ≠ "even".toList := by
    rintro rfl
    revert hplain
    decide
  have htake := takeWhile_append (ne_n_of_notMem hplain) (stops_nil (· != 'n'))
  have hdrop := dropWhile_append (ne_n_of_notMem hplain) (stops_nil (· != 'n'))
  rw [List.append_nil] at htake hdrop
  rw [readCompact, if_neg hodd, if_neg heven, htake, hdrop]

/-- What stands in front of the `n` of `even` is no step, so that no formula with an `n` is
    that word. -/
theorem Step.append_ne_even {before after : List Char} {i : Int} (h : Step before i) :
    before ++ 'n' :: after ≠ "even".toList := by
  intro heq
  have hstops : Stops (· != 'n') ('n' :: after) := stops_cons.mpr rfl
  have hplain := ne_n_of_notMem (h.notMem rfl (by decide) (by decide))
  have hbefore : before = ['e', 'v', 'e'] := by
    rw [← takeWhile_append hplain hstops, heq]
    rfl
  apply h.notMem (c := 'e') rfl (by decide) (by decide)
  rw [hbefore]
  exact List.mem_cons_self

theorem readCompact_sound (h : readCompact text = some formula) :
    Formula text formula.step.toInt formula.offset.toInt ∨
      Doubled text formula.step.toInt formula.offset.toInt := by
  by_cases hn : 'n' ∈ text
  · obtain ⟨before, after, rfl, hbefore⟩ := List.eq_append_cons_of_mem hn
    by_cases heven : before ++ 'n' :: after = "even".toList
    · rw [heven] at h ⊢
      cases h
      exact .inl .even
    · obtain ⟨hstep, hoffset⟩ := (readCompact_append hbefore heven).mp h
      have hstep : Step before formula.step.toInt := readStep_eq_some.mp hstep
      obtain hzero | ⟨rest, rfl, hsigned⟩ := readOffset_eq_some.mp hoffset
      · exact .inl (.linear hstep hzero)
      · exact .inr (.linear hstep hsigned)
  · by_cases hodd : text = "odd".toList
    · rw [hodd] at h ⊢
      cases h
      exact .inl .odd
    · rw [readCompact_plain hodd hn] at h
      obtain ⟨offset, hoffset, rfl⟩ := Option.map_eq_some_iff.mp h
      exact .inl (.number (readCoefficient_eq_some.mp hoffset))

theorem readCompact_linear {before after : List Char} (hstep : Step before formula.step.toInt)
    (hoffset : readOffset after = some formula.offset) :
    readCompact (before ++ 'n' :: after) = some formula := by
  apply (readCompact_append (hstep.notMem rfl (by decide) (by decide)) hstep.append_ne_even).mpr
  exact ⟨readStep_eq_some.mpr hstep, hoffset⟩

theorem readCompact_formula
    (h : Formula text formula.step.toInt formula.offset.toInt) :
    readCompact text = some formula := by
  obtain ⟨step, offset⟩ := formula
  generalize hs : step.toInt = i at h
  generalize ho : offset.toInt = j at h
  cases h with
  | odd =>
    have hstep : step = 2 := Int32.toInt_inj.mp hs
    have hoffset : offset = 1 := Int32.toInt_inj.mp ho
    rw [hstep, hoffset]
    rfl
  | even =>
    have hstep : step = 2 := Int32.toInt_inj.mp hs
    have hoffset : offset = 0 := Int32.toInt_inj.mp ho
    rw [hstep, hoffset]
    rfl
  | number h =>
    have hzero : step = 0 := Int32.toInt_inj.mp hs
    have hstep : Step text j := .number h
    have hodd : text ≠ "odd".toList := by
      rintro rfl
      exact hstep.notMem (c := 'o') rfl (by decide) (by decide) List.mem_cons_self
    subst ho
    rw [readCompact_plain hodd (hstep.notMem rfl (by decide) (by decide)),
      readCoefficient_eq_some.mpr h, hzero]
    rfl
  | linear hstep hoffset =>
    subst hs ho
    exact readCompact_linear hstep (readOffset_eq_some.mpr (.inl hoffset))

theorem readCompact_doubled
    (h : Doubled text formula.step.toInt formula.offset.toInt) :
    readCompact text = some formula := by
  obtain ⟨step, offset⟩ := formula
  generalize hs : step.toInt = i at h
  generalize ho : offset.toInt = j at h
  cases h with
  | linear hstep hoffset =>
    subst hs ho
    exact readCompact_linear hstep (readOffset_eq_some.mpr (.inr ⟨_, rfl, hoffset⟩))

theorem readCompact_eq_some : readCompact text = some formula ↔
    Formula text formula.step.toInt formula.offset.toInt ∨
      Doubled text formula.step.toInt formula.offset.toInt := by
  constructor
  · exact readCompact_sound
  · rintro (h | h)
    · exact readCompact_formula h
    · exact readCompact_doubled h

end Formulas

/-- An argument is read as the formula that it is, and beside the formulas, only those with a
    doubled sign are read: where no second sign stands behind the `n` and a plus, the reader
    accepts the grammar and nothing else. -/
theorem read?_eq_some_iff (argument : String) (formula : Nth) :
    (read? argument = some formula ↔
      Formula (compact argument) formula.step.toInt formula.offset.toInt ∨
        Doubled (compact argument) formula.step.toInt formula.offset.toInt) ∧
    ((∀ before sign after, compact argument = before ++ 'n' :: '+' :: sign :: after →
        sign ≠ '+' ∧ sign ≠ '-') →
      (read? argument = some formula ↔
        Formula (compact argument) formula.step.toInt formula.offset.toInt)) := by
  have hread : read? argument = some formula ↔
      Formula (compact argument) formula.step.toInt formula.offset.toInt ∨
        Doubled (compact argument) formula.step.toInt formula.offset.toInt :=
    readCompact_eq_some
  refine ⟨hread, fun hsingle => ?_⟩
  have hdoubled : ¬ Doubled (compact argument) formula.step.toInt formula.offset.toInt := by
    intro h
    generalize compact argument = text at hsingle h
    cases h with
    | linear hstep hoffset =>
      generalize formula.offset.toInt = j at hoffset
      cases hoffset with
      | plus => exact (hsingle _ _ _ rfl).1 rfl
      | minus => exact (hsingle _ _ _ rfl).2 rfl
  rw [hread, or_iff_left hdoubled]

theorem read?_spaced : read? " -3N + 2" = some ⟨-3, 2⟩ := by
  have hcompact : compact " -3N + 2" = ['-', '3'] ++ 'n' :: ['+', '2'] := by decide
  have hthree : Digits ['3'] 3 := digits_singleton rfl
  have htwo : Digits ['2'] 2 := digits_singleton rfl
  refine ((read?_eq_some_iff " -3N + 2" ⟨-3, 2⟩).2 ?_).mpr ?_
  · intro before sign after heq
    rw [hcompact] at heq
    obtain ⟨-, -, hafter⟩ := (List.append_cons_inj_of_notMem (by decide) (by decide)).mp heq
    cases hafter
    decide
  · rw [hcompact]
    exact .linear (.number (.signed (.minus hthree))) (.signed (.plus htwo))

/-- The second sign of `n++1` is read as the sign of the number, and the text is no formula. -/
theorem read?_doubled : read? "n++1" = some ⟨1, 1⟩ ∧ ¬ Formula (compact "n++1") 1 1 := by
  have hcompact : compact "n++1" = [] ++ 'n' :: '+' :: ['+', '1'] := by decide
  have hone : Digits ['1'] 1 := digits_singleton rfl
  constructor
  · have hdoubled : Doubled (compact "n++1") 1 1 := hcompact ▸ .linear .one (.plus hone)
    exact readCompact_doubled hdoubled
  · rw [hcompact]
    generalize htext : [] ++ 'n' :: '+' :: ['+', '1'] = text
    intro h
    cases h with
    | linear hstep hoffset =>
      obtain ⟨-, -, rfl⟩ := (List.append_cons_inj_of_notMem (by decide) (by decide)).mp htext
      cases hoffset with
      | signed h => cases h with | plus h => exact not_digits_cons rfl h

end HtmlTemplate.Selector.Nth
