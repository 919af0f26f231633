-- SUMMARY: Lower-casing of texts: ASCII only, and in full with the final-sigma rule.
import HtmlTemplate.Text.Casing

/-!
# Lower-casing

Names of elements and attributes are compared by ASCII case alone:
`asciiLower`. A case-insensitive attribute selector compares values by full
Unicode lower-casing: `fullLower`. The full mapping is by character, but for
two exceptions. `İ` becomes two characters, and `Σ` becomes `ς` where it ends a
word: after a cased character and before none, case-ignorable characters
between them not counted.
-/

namespace HtmlTemplate

/-! ## ASCII -/

/-- The text with `A` to `Z` in lower case and all else unchanged. -/
def asciiLower (text : String) : String := String.ofList (text.toList.map Char.toLower)

/-- Equality up to ASCII case. -/
def eqIgnoringAsciiCase (s t : String) : Bool := asciiLower s == asciiLower t

theorem toLower_toLower (c : Char) : c.toLower.toLower = c.toLower := by
  unfold Char.toLower
  split
  next h =>
    rw [dif_neg]
    intro h'
    simp only [UInt32.le_iff_toNat_le, ge_iff_le] at h h'
    simp at h h'
    omega
  next => rfl

theorem asciiLower_asciiLower (text : String) : asciiLower (asciiLower text) = asciiLower text := by
  simp only [asciiLower, String.toList_ofList, List.map_map, Function.comp_def, toLower_toLower]

/-! ## Full -/

/-- Whether the run maps the code point `n`. -/
def CaseRun.covers (run : CaseRun) (n : Nat) : Bool :=
  run.first ≤ n && n ≤ run.last && (n - run.first) % run.stride == 0

/-- The simple lower-case mapping of one character. -/
def lowerChar (c : Char) : Char :=
  match lowerCaseRuns.find? (·.covers c.toNat) with
  | some run => Char.ofNat (c.toNat + run.shift).toNat
  | none => c

/-- Whether the first character that is not case-ignorable is cased. -/
def startsCased (text : List Char) : Bool :=
  match text.dropWhile caseIgnorable.has with
  | c :: _ => cased.has c
  | [] => false

/-- Lower-case `text`, where `before` holds the characters in front of it, the
    nearest first. -/
def lowerAfter (before : List Char) : List Char → List Char
  | [] => []
  | c :: rest =>
    let lowered :=
      if c == 'Σ' then
        if startsCased before && !startsCased rest then ['ς'] else ['σ']
      else if c == 'İ' then ['i', '\u0307']
      else [lowerChar c]
    lowered ++ lowerAfter (c :: before) rest

/-- The full lower-case form of a text. -/
def fullLower (text : String) : String := String.ofList (lowerAfter [] text.toList)

end HtmlTemplate
