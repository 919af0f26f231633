-- SUMMARY: Blank characters, the Unicode set and the ASCII set, and the words of a text between them.
import HtmlTemplate.Text.CodePoints

/-!
# Blanks and words

Two sets of blank characters are in use. Markup that is only indentation, the
gaps of a selector and the words of a `class` attribute go by the Unicode
property `White_Space`; the word test of an attribute selector goes by the five
ASCII blanks. `words` splits a text at either set.
-/

namespace HtmlTemplate

/-! ## The two sets -/

/-- The Unicode property `White_Space`. -/
def whiteSpace : CodePoints :=
  [(0x9, 0xD), (0x20, 0x20), (0x85, 0x85), (0xA0, 0xA0), (0x1680, 0x1680), (0x2000, 0x200A),
   (0x2028, 0x2029), (0x202F, 0x202F), (0x205F, 0x205F), (0x3000, 0x3000)]

/-- A character with the property `White_Space`. -/
def isBlank (c : Char) : Bool := whiteSpace.has c

/-- One of the ASCII blanks: tab, line feed, form feed, carriage return and
    space. The vertical tab is not among them. -/
def isAsciiBlank (c : Char) : Bool :=
  c == ' ' || c == '\t' || c == '\n' || c == '\x0c' || c == '\r'

theorem isBlank_of_isAsciiBlank {c : Char} (h : isAsciiBlank c = true) : isBlank c = true := by
  simp only [isAsciiBlank, Bool.or_eq_true, beq_iff_eq] at h
  rcases h with (((rfl | rfl) | rfl) | rfl) | rfl <;> decide

/-- A text without any character that is not blank. -/
def isBlankText (text : String) : Bool := text.toList.all isBlank

/-! ## Words -/

/-- Put a word in front of others, unless it is empty. -/
def consWord (word : List Char) (others : List (List Char)) : List (List Char) :=
  if word.isEmpty then others else word :: others

/-- The word that `text` starts with, empty when a separator comes first, and
    the words after it. -/
def splitWords (sep : Char → Bool) : List Char → List Char × List (List Char)
  | [] => ([], [])
  | c :: rest =>
    let (word, others) := splitWords sep rest
    if sep c then ([], consWord word others) else (c :: word, others)

/-- The longest runs of characters that are no separators. -/
def words (sep : Char → Bool) (text : String) : List String :=
  let (word, others) := splitWords sep text.toList
  (consWord word others).map String.ofList

end HtmlTemplate
