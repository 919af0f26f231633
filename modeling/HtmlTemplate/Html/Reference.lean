-- SUMMARY: Reading character references, `&amp;` and `&#65;`, in texts and in attribute values.
import HtmlTemplate.Text.Blank
import HtmlTemplate.Html.Reference.Names

/-!
# Character references

A reference starts with `&` and stands for one or two characters. It is written
with a number, decimal or hexadecimal, or with a name. A name is read with its
semicolon; the legacy names are read without it too, the longest that fits,
unless an attribute value goes on with `=` or a letter or digit. What fits no
rule is left as it stands.
-/

namespace HtmlTemplate.Html

/-- The character written in place of one that cannot be represented. -/
def replacement : Char := '\uFFFD'

/-! ## Numbers -/

/-- The characters that the numbers `0x80` to `0x9F` stand for: printable characters
    of an old Western character set, where it has one. -/
def c1Characters : List Nat :=
  [0x20AC, 0x81, 0x201A, 0x192, 0x201E, 0x2026, 0x2020, 0x2021,
   0x2C6, 0x2030, 0x160, 0x2039, 0x152, 0x8D, 0x17D, 0x8F,
   0x90, 0x2018, 0x2019, 0x201C, 0x201D, 0x2022, 0x2013, 0x2014,
   0x2DC, 0x2122, 0x161, 0x203A, 0x153, 0x9D, 0x17E, 0x178]

/-- The character that a number stands for. -/
def numberedCharacter (n : Nat) : Char :=
  if n == 0 || n > 0x10FFFF || (0xD800 ≤ n && n ≤ 0xDFFF) then replacement
  else match if 0x80 ≤ n then c1Characters[n - 0x80]? else none with
    | some code => Char.ofNat code
    | none => Char.ofNat n

/-- The value of one digit. -/
def digitValue (c : Char) : Nat :=
  if c.isDigit then c.toNat - '0'.toNat else c.toLower.toNat - 'a'.toNat + 10

/-- The number written by some digits in a base. -/
def numberValue (base : Nat) (digits : List Char) : Nat :=
  digits.foldl (fun n c => n * base + digitValue c) 0

/-- A hexadecimal digit. -/
def isHexDigit (c : Char) : Bool :=
  c.isDigit || ('a' ≤ c && c ≤ 'f') || ('A' ≤ c && c ≤ 'F')

/-- Drop the semicolon that ends a reference. -/
def dropSemicolon : List Char → List Char
  | ';' :: rest => rest
  | rest => rest

/-- Read the digits of a number in a base; at least one is needed. -/
def readNumber (base : Nat) (isBaseDigit : Char → Bool) (text : List Char) :
    Option (List Char × List Char) :=
  match text.takeWhile isBaseDigit with
  | [] => none
  | digits =>
    some ([numberedCharacter (numberValue base digits)],
      dropSemicolon (text.dropWhile isBaseDigit))

/-- Whether a text starts with a numbered reference that lacks its semicolon. -/
def startsUnfinishedNumber (text : List Char) : Bool :=
  let unfinished (isBaseDigit : Char → Bool) (rest : List Char) :=
    rest.head?.any isBaseDigit && (rest.dropWhile isBaseDigit).head? != some ';'
  match text with
  | '&' :: '#' :: 'x' :: rest => unfinished isHexDigit rest
  | '&' :: '#' :: 'X' :: rest => unfinished isHexDigit rest
  | '&' :: '#' :: rest => unfinished Char.isDigit rest
  | _ => false

/-! ## Names -/

/-- The longest legacy name that `run` starts with. -/
def legacyName? (run : List Char) : Option (List Char) :=
  let fitting := (legacyReferences.map String.toList).filter (·.isPrefixOf run)
  fitting.foldl (fun best name =>
    match best with
    | some longest => if longest.length < name.length then some name else best
    | none => some name) none

/-- Read a name. -/
def readName (inAttribute : Bool) (text : List Char) : Option (List Char × List Char) :=
  let run := text.takeWhile Char.isAlphanum
  let whole :=
    match text.dropWhile Char.isAlphanum with
    | ';' :: rest => (namedCharacters? (String.ofList run)).map fun chars => (chars, rest)
    | _ => none
  match whole with
  | some answer => some answer
  | none => do
    let name ← legacyName? run
    let rest := text.drop name.length
    match inAttribute, rest with
    | true, next :: _ => if next == '=' || next.isAlphanum then failure
    | _, _ => pure ()
    let chars ← namedCharacters? (String.ofList name)
    return (chars, rest)

/-! ## Texts -/

/-- Read the reference that goes on with `text` after its `&`: the characters it
    stands for and the rest. -/
def readReference (inAttribute : Bool) : List Char → Option (List Char × List Char)
  | '#' :: 'x' :: rest => readNumber 16 isHexDigit rest
  | '#' :: 'X' :: rest => readNumber 16 isHexDigit rest
  | '#' :: rest => readNumber 10 Char.isDigit rest
  | rest => readName inAttribute rest

/-- Replace the references of a text, in `fuel` steps at most. -/
def decodeWithin (inAttribute : Bool) : Nat → List Char → List Char
  | 0, text => text
  | _ + 1, [] => []
  | fuel + 1, '&' :: rest =>
    match readReference inAttribute rest with
    | some (chars, rest) => chars ++ decodeWithin inAttribute fuel rest
    | none => '&' :: decodeWithin inAttribute fuel rest
  | fuel + 1, c :: rest => c :: decodeWithin inAttribute fuel rest

/-- Replace the references of a text. Every step takes a character, so that as
    many steps as characters are enough. -/
def decode (inAttribute : Bool) (text : List Char) : List Char :=
  decodeWithin inAttribute text.length text

end HtmlTemplate.Html
