-- SUMMARY: Escaping texts and attribute values for markup.

/-!
# Escaping

In a text the characters `&`, `<` and `>` are written as references, in an
attribute value the double quote as well. Each character is written on its own,
so that escaping goes through a text piece by piece.
-/

namespace HtmlTemplate.Markup

/-- A character of a text as markup. -/
def textCharacter (c : Char) : List Char :=
  match c with
  | '&' => "&amp;".toList
  | '<' => "&lt;".toList
  | '>' => "&gt;".toList
  | c => [c]

/-- A character of an attribute value as markup. -/
def valueCharacter (c : Char) : List Char :=
  match c with
  | '"' => "&quot;".toList
  | c => textCharacter c

/-- A text as markup. -/
def escapedText (text : String) : String := String.ofList (text.toList.flatMap textCharacter)

/-- An attribute value as markup, to stand between double quotes. -/
def escapedValue (value : String) : String := String.ofList (value.toList.flatMap valueCharacter)

end HtmlTemplate.Markup
