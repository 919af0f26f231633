-- SUMMARY: Positional formulas are written with both signs, and read again wherever blanks stand in them.
import HtmlTemplate.Proofs.Selecting.Reading

/-!
# Written formulas

A formula `An+B` is written with a sign in front of both coefficients. Reading takes the
blanks out first, so that they may stand anywhere.
-/

namespace HtmlTemplate.Selector.Nth

/-- A coefficient with its sign. -/
def signed (n : Int32) : List Char :=
  (if n.toInt < 0 then '-' else '+') :: Nat.toDigits 10 n.toInt.natAbs

/-- The formula as it is written. -/
def text (formula : Nth) : List Char := signed formula.step ++ 'n' :: signed formula.offset

/-! ## Coefficients -/

theorem isDigit_of_mem_toDigits {n : Nat} {c : Char} (h : c ∈ Nat.toDigits 10 n) :
    c.isDigit = true :=
  Nat.isDigit_of_mem_toDigits (by decide) (by decide) h

theorem digitsValue?_toDigits (n : Nat) : digitsValue? (Nat.toDigits 10 n) = some n := by
  have hempty : (Nat.toDigits 10 n).isEmpty = false :=
    List.isEmpty_eq_false_iff.mpr Nat.toDigits_ne_nil
  have hdigits : (Nat.toDigits 10 n).all Char.isDigit = true :=
    List.all_eq_true.mpr fun _ => isDigit_of_mem_toDigits
  have hvalue : Nat.ofDigitChars 10 (Nat.toDigits 10 n) 0 = n := Nat.ofDigitChars_ten_toDigits
  simp only [Nat.ofDigitChars_eq_foldl, Nat.mul_comm 10] at hvalue
  simp only [digitsValue?, hempty, hdigits, Bool.not_true, Bool.or_false, Bool.false_eq_true,
    if_false, hvalue]

theorem coefficient?_toInt (n : Int32) : coefficient? n.toInt = some n := by
  have hfits : -2147483648 ≤ n.toInt ∧ n.toInt ≤ 2147483647 := by
    have hlt := n.toInt_lt
    have hle := n.le_toInt
    omega
  rw [coefficient?, if_pos hfits, Int32.ofInt_toInt]

theorem readCoefficient_toDigits (n : Nat) :
    readCoefficient (Nat.toDigits 10 n) = coefficient? n := by
  have hdigit {c : Char} (hc : c ∈ Nat.toDigits 10 n) : c.isDigit = true :=
    isDigit_of_mem_toDigits hc
  unfold readCoefficient
  split
  next htext => rw [htext] at hdigit; cases hdigit List.mem_cons_self
  next htext => rw [htext] at hdigit; cases hdigit List.mem_cons_self
  next => rw [digitsValue?_toDigits]; rfl

theorem readCoefficient_signed (n : Int32) : readCoefficient (signed n) = some n := by
  unfold signed
  split
  next hneg =>
    have hvalue : -(n.toInt.natAbs : Int) = n.toInt := by omega
    simp only [readCoefficient, digitsValue?_toDigits, Option.bind_some, hvalue]
    exact coefficient?_toInt n
  next hpos =>
    have hvalue : (n.toInt.natAbs : Int) = n.toInt := by omega
    simp only [readCoefficient, digitsValue?_toDigits, Option.bind_some, hvalue]
    exact coefficient?_toInt n

theorem readStep_signed (n : Int32) : readStep (signed n) = some n := by
  have hread := readCoefficient_signed n
  unfold signed at hread ⊢
  cases hdigits : Nat.toDigits 10 n.toInt.natAbs with
  | nil => exact absurd hdigits Nat.toDigits_ne_nil
  | cons c rest =>
    rw [hdigits] at hread
    rwa [readStep] <;> simp

theorem readOffset_signed (n : Int32) : readOffset (signed n) = some n := by
  have hread := readCoefficient_signed n
  unfold signed at hread ⊢
  split
  next hneg =>
    rw [if_pos hneg] at hread
    exact hread
  next hpos =>
    have hvalue : (n.toInt.natAbs : Int) = n.toInt := by omega
    rw [readOffset, readCoefficient_toDigits, hvalue]
    exact coefficient?_toInt n

/-! ## Formulas -/

theorem mem_signed {n : Int32} {c : Char} (h : c ∈ signed n) :
    c.isDigit = true ∨ c = '+' ∨ c = '-' := by
  obtain rfl | h := List.mem_cons.mp h
  · split <;> simp
  · exact .inl (isDigit_of_mem_toDigits h)

theorem mem_text {formula : Nth} {c : Char} (h : c ∈ formula.text) :
    c.isDigit = true ∨ c = '+' ∨ c = '-' ∨ c = 'n' := by
  obtain h | h := List.mem_append.mp h
  · exact (mem_signed h).imp_right (·.imp_right .inl)
  · obtain rfl | h := List.mem_cons.mp h
    · exact .inr (.inr (.inr rfl))
    · exact (mem_signed h).imp_right (·.imp_right .inl)

theorem isPlain_of_mem_text {formula : Nth} {c : Char} (h : c ∈ formula.text) :
    isPlain c = true := by
  obtain h | rfl | rfl | rfl := mem_text h
  · exact isPlain_of_isNameChar (by simp [isNameChar, Char.isAlphanum, h])
  all_goals rfl

/-- The formula is written without blanks. -/
theorem filter_text (formula : Nth) : formula.text.filter (!isBlank ·) = formula.text := by
  refine List.filter_eq_self.mpr fun c hc => ?_
  obtain h | rfl | rfl | rfl := mem_text hc
  · simp [isBlank_of_isDigit h]
  all_goals rfl

theorem toLower_of_mem_text {formula : Nth} {c : Char} (h : c ∈ formula.text) : c.toLower = c := by
  obtain h | rfl | rfl | rfl := mem_text h
  · refine (toLower_eq_or_isAlpha c).resolve_right fun ⟨halpha, _⟩ => ?_
    have hdigit : 48 ≤ c.toNat ∧ c.toNat ≤ 57 := Char.isDigit_iff_toNat.mp h
    have hletter := isAlpha_iff_toNat.mp halpha
    omega
  all_goals rfl

theorem signed_stops {n : Int32} : ∀ c ∈ signed n, (c != 'n') = true := by
  intro c hc
  obtain h | rfl | rfl := mem_signed hc
  · rw [bne_iff_ne]
    rintro rfl
    cases h
  all_goals rfl

theorem readCompact_text (formula : Nth) : readCompact formula.text = some formula := by
  have hstops : Stops (· != 'n') ('n' :: signed formula.offset) := stops_cons.mpr rfl
  have hodd : formula.text ≠ "odd".toList := by
    unfold text signed
    split <;> simp
  have heven : formula.text ≠ "even".toList := by
    unfold text signed
    split <;> simp
  rw [readCompact, if_neg hodd, if_neg heven, text, takeWhile_append signed_stops hstops,
    dropWhile_append signed_stops hstops]
  simp [readStep_signed, readOffset_signed]

/-- Blanks in a formula do not count. -/
theorem read?_of_filter {formula : Nth} {argument : List Char}
    (h : argument.filter (!isBlank ·) = formula.text) :
    read? (String.ofList argument) = some formula := by
  have hlower : formula.text.map Char.toLower = formula.text := by
    rw [List.map_congr_left fun _ => toLower_of_mem_text]
    exact List.map_id _
  rw [read?, String.toList_ofList, h, hlower]
  exact readCompact_text formula

theorem balanced_of_filter {formula : Nth} {argument : List Char}
    (h : argument.filter (!isBlank ·) = formula.text) : Balanced argument := by
  refine balanced_of_plain fun c hc => ?_
  by_cases hblank : isBlank c = true
  · exact isPlain_of_isBlank hblank
  · have hmem : c ∈ formula.text := h ▸ List.mem_filter.mpr ⟨hc, by simpa using hblank⟩
    exact isPlain_of_mem_text hmem

end HtmlTemplate.Selector.Nth
