-- SUMMARY: A formula holds of the numbers that it gives: nothing in its test overflows.
import HtmlTemplate.Selector.Nth
import Mathlib.Data.Int.Lemmas

/-!
# Values of formulas

The test of a formula is a remainder and a quotient on 64 bits. Coefficients and positions
are 32 bits wide, so that both are those of the integers, and the test finds exactly the
values that the formula has. The same test with checked arithmetic, which has no answer where
an operation overflows or divides by zero, always has one.
-/

namespace HtmlTemplate.Selector.Nth

/-- Some `n` from 0 on gives the number. -/
def Gives (formula : Nth) (value : Int) : Prop :=
  ∃ n : Nat, formula.step.toInt * n + formula.offset.toInt = value

variable (formula : Nth) (position : Int32)

/-- The distance from the offset, as the test computes it. -/
def distance : Int64 := position.toInt64 - formula.offset.toInt64

theorem toInt_distance :
    (formula.distance position).toInt = position.toInt - formula.offset.toInt := by
  have hposition := position.le_toInt
  have hposition' := position.toInt_lt
  have hoffset := formula.offset.le_toInt
  have hoffset' := formula.offset.toInt_lt
  rw [distance, Int64.toInt_sub, Int32.toInt_toInt64, Int32.toInt_toInt64]
  apply Int.bmod_eq_of_le <;> omega

theorem distance_ne_minValue : formula.distance position ≠ Int64.minValue := by
  intro hmin
  have hdistance := formula.toInt_distance position
  have hposition := position.le_toInt
  have hoffset := formula.offset.toInt_lt
  have hvalue : Int64.minValue.toInt = -2 ^ 63 := rfl
  rw [hmin, hvalue] at hdistance
  omega

theorem toInt_quotient : (formula.distance position / formula.step.toInt64).toInt =
    (position.toInt - formula.offset.toInt).tdiv formula.step.toInt := by
  rw [Int64.toInt_div_of_ne_left _ _ (formula.distance_ne_minValue position), toInt_distance,
    Int32.toInt_toInt64]

theorem toInt_remainder : (formula.distance position % formula.step.toInt64).toInt =
    (position.toInt - formula.offset.toInt).tmod formula.step.toInt := by
  rw [Int64.toInt_mod, toInt_distance, Int32.toInt_toInt64]

/-- A formula with a step gives the multiples of it that are on the side where it leads. -/
theorem gives_iff_of_step_ne_zero {value : Int} (hstep : formula.step.toInt ≠ 0) :
    formula.Gives value ↔ (value - formula.offset.toInt).tmod formula.step.toInt = 0 ∧
      0 ≤ (value - formula.offset.toInt).tdiv formula.step.toInt := by
  constructor
  · rintro ⟨n, rfl⟩
    rw [Int.add_sub_cancel, Int.mul_tmod_right, Int.mul_tdiv_cancel_left _ hstep]
    exact ⟨rfl, Int.natCast_nonneg n⟩
  · rintro ⟨hdvd, hnonneg⟩
    obtain ⟨q, hq⟩ := Int.dvd_of_tmod_eq_zero hdvd
    rw [hq, Int.mul_tdiv_cancel_left _ hstep] at hnonneg
    obtain ⟨n, rfl⟩ := Int.eq_ofNat_of_zero_le hnonneg
    exact ⟨n, by rw [← hq, Int.sub_add_cancel]⟩

theorem gives_iff_of_step_eq_zero {value : Int} (hstep : formula.step.toInt = 0) :
    formula.Gives value ↔ value - formula.offset.toInt = 0 := by
  simp only [Gives, hstep, Int.zero_mul, Int.zero_add, exists_const]
  omega

/-- The test says of the integers what it says of 64 bits. -/
theorem holds_eq : formula.holds position =
    if formula.step.toInt = 0 then decide (position.toInt - formula.offset.toInt = 0)
    else decide ((position.toInt - formula.offset.toInt).tmod formula.step.toInt = 0) &&
      decide (0 ≤ (position.toInt - formula.offset.toInt).tdiv formula.step.toInt) := by
  have hunfold : formula.holds position = if formula.step.toInt64 = 0 then
      decide (formula.distance position = 0) else
        decide (formula.distance position % formula.step.toInt64 = 0) &&
          decide (0 ≤ formula.distance position / formula.step.toInt64) := rfl
  rw [hunfold]
  simp only [← Int64.toInt_inj, Int64.le_iff_toInt_le, Int32.toInt_toInt64, Int64.toInt_zero,
    toInt_distance, toInt_remainder, toInt_quotient]

/-- A formula holds of a position if it gives it. -/
theorem holds_iff : formula.holds position = true ↔ formula.Gives position.toInt := by
  rw [holds_eq]
  split
  next hstep => rw [formula.gives_iff_of_step_eq_zero hstep, decide_eq_true_eq]
  next hstep =>
    rw [formula.gives_iff_of_step_ne_zero hstep, Bool.and_eq_true, decide_eq_true_eq,
      decide_eq_true_eq]

/-! ## The test with checked arithmetic -/

/-- The number, if 64 bits hold it. -/
def fit? (value : Int) : Option Int :=
  if Int64.minValue.toInt ≤ value ∧ value ≤ Int64.maxValue.toInt then some value else none

/-- The quotient, rounded towards zero. There is none by zero, nor one that 64 bits do not hold. -/
def quotient? (dividend divisor : Int) : Option Int :=
  if divisor = 0 then none else fit? (dividend.tdiv divisor)

/-- The remainder, which is refused wherever the quotient is. -/
def remainder? (dividend divisor : Int) : Option Int :=
  (quotient? dividend divisor).map fun _ => dividend.tmod divisor

/-- The test over the integers. It has no answer if one of its operations divides by zero or
    gives a number that 64 bits do not hold. -/
def checked? (formula : Nth) (position : Int32) : Option Bool := do
  let distance ← fit? (position.toInt - formula.offset.toInt)
  let step := formula.step.toInt
  if step = 0 then
    return distance = 0
  else
    let remainder ← remainder? distance step
    let quotient ← quotient? distance step
    return remainder = 0 && 0 ≤ quotient

theorem fit?_eq_some {value : Int} (h : value.natAbs < 2 ^ 63) : fit? value = some value := by
  have hmin : Int64.minValue.toInt = -2 ^ 63 := rfl
  have hmax : Int64.maxValue.toInt = 2 ^ 63 - 1 := rfl
  rw [fit?, hmin, hmax, if_pos (by omega)]

theorem natAbs_distance_lt : (position.toInt - formula.offset.toInt).natAbs < 2 ^ 63 := by
  have hposition := position.le_toInt
  have hposition' := position.toInt_lt
  have hoffset := formula.offset.le_toInt
  have hoffset' := formula.offset.toInt_lt
  omega

/-- A quotient is no larger than what is divided. -/
theorem quotient?_eq_some {dividend divisor : Int} (hdivisor : divisor ≠ 0)
    (hdividend : dividend.natAbs < 2 ^ 63) :
    quotient? dividend divisor = some (dividend.tdiv divisor) := by
  rw [quotient?, if_neg hdivisor]
  refine fit?_eq_some (Nat.lt_of_le_of_lt ?_ hdividend)
  rw [Int.natAbs_tdiv]
  exact Nat.div_le_self _ _

theorem remainder?_eq_some {dividend divisor : Int} (hdivisor : divisor ≠ 0)
    (hdividend : dividend.natAbs < 2 ^ 63) :
    remainder? dividend divisor = some (dividend.tmod divisor) := by
  rw [remainder?, quotient?_eq_some hdivisor hdividend, Option.map_some]

/-- For all coefficients and positions: the test holds exactly if some `n` from 0 on gives the
    position, and checked arithmetic over the integers answers what it answers, so that none of
    its operations overflows or divides by zero. -/
theorem holds_exact (step offset position : Int32) :
    (holds ⟨step, offset⟩ position = true ↔
      ∃ n : Nat, step.toInt * n + offset.toInt = position.toInt) ∧
    checked? ⟨step, offset⟩ position = some (holds ⟨step, offset⟩ position) := by
  refine ⟨holds_iff ⟨step, offset⟩ position, ?_⟩
  have hdistance := natAbs_distance_lt ⟨step, offset⟩ position
  simp only [checked?, holds_eq, fit?_eq_some hdistance, Option.bind_some, Option.bind_eq_bind]
  split
  next => rfl
  next hstep =>
    rw [remainder?_eq_some hstep hdistance, quotient?_eq_some hstep hdistance]
    rfl

end HtmlTemplate.Selector.Nth
