-- SUMMARY: The formulas `An+B` of positional selectors: how they are read and which positions they hold of.
import HtmlTemplate.Text.Blank

/-!
# Nth formulas

The argument of `:nth-child()` and its kin is a formula `An+B`. It holds of a
position, counted from 1, when some `n` from 0 on gives `A·n + B`. Coefficients
are 32 bits wide; the test works on 64 bits, so that nothing overflows. The words
`odd` and `even` are formulas, and so is a bare number.
-/

namespace HtmlTemplate.Selector

/-- The formula `step · n + offset`. -/
structure Nth where
  step : Int32
  offset : Int32
deriving DecidableEq

namespace Nth

/-! ## Reading -/

/-- The value of a run of decimal digits; at least one is needed. -/
def digitsValue? (text : List Char) : Option Nat :=
  if text.isEmpty || !text.all Char.isDigit then none
  else some (text.foldl (fun n c => n * 10 + (c.toNat - '0'.toNat)) 0)

/-- A number as a coefficient, if it fits. -/
def coefficient? (n : Int) : Option Int32 :=
  if -2147483648 ≤ n ∧ n ≤ 2147483647 then some (.ofInt n) else none

/-- Read a coefficient: digits, behind a sign or not. -/
def readCoefficient (text : List Char) : Option Int32 :=
  match text with
  | '-' :: digits => (digitsValue? digits).bind fun n => coefficient? (-(n : Int))
  | '+' :: digits => (digitsValue? digits).bind fun n => coefficient? n
  | digits => (digitsValue? digits).bind fun n => coefficient? n

/-- Read what stands in front of the `n`; a sign alone, or nothing, is a one. -/
def readStep (text : List Char) : Option Int32 :=
  match text with
  | [] => some 1
  | ['+'] => some 1
  | ['-'] => some (-1)
  | _ => readCoefficient text

/-- Read what stands behind the `n`. -/
def readOffset (text : List Char) : Option Int32 :=
  match text with
  | [] => some 0
  | '+' :: rest => readCoefficient rest
  | '-' :: _ => readCoefficient text
  | _ => none

/-- Read a formula without blanks, in lower case. -/
def readCompact (text : List Char) : Option Nth :=
  if text = "odd".toList then some ⟨2, 1⟩
  else if text = "even".toList then some ⟨2, 0⟩
  else
    let before := text.takeWhile (· != 'n')
    match text.dropWhile (· != 'n') with
    | [] => (readCoefficient before).map fun offset => ⟨0, offset⟩
    | _ :: after => do
      let step ← readStep before
      let offset ← readOffset after
      return ⟨step, offset⟩

/-- Read a formula. Blanks do not count, wherever they stand. -/
def read? (text : String) : Option Nth :=
  readCompact ((text.toList.filter (!isBlank ·)).map Char.toLower)

/-! ## Testing -/

/-- Whether some `n` from 0 on gives the position. -/
def holds (formula : Nth) (position : Int32) : Bool :=
  let distance := position.toInt64 - formula.offset.toInt64
  let step := formula.step.toInt64
  if step = 0 then distance = 0 else distance % step = 0 && 0 ≤ distance / step

end Nth

end HtmlTemplate.Selector
