-- SUMMARY: Sets of characters given as sorted ranges of code points.

/-!
# Sets of code points

The character properties of the Unicode standard are published as ranges of
code points. A `CodePoints` value is such a list of ranges, both ends included,
and membership is all that is ever asked of it.
-/

namespace HtmlTemplate

/-- Ranges of code points, both ends included. -/
abbrev CodePoints := List (Nat × Nat)

namespace CodePoints

/-- Whether the code point of `c` lies in one of the ranges. -/
def has (ranges : CodePoints) (c : Char) : Bool :=
  ranges.any fun range => range.1 ≤ c.toNat && c.toNat ≤ range.2

theorem has_iff {ranges : CodePoints} {c : Char} :
    ranges.has c = true ↔ ∃ range ∈ ranges, range.1 ≤ c.toNat ∧ c.toNat ≤ range.2 := by
  simp [has]

end CodePoints

end HtmlTemplate
