-- SUMMARY: The quoted form of a text: quotes around it, escapes for what would not show.
import HtmlTemplate.Text.Printable

/-!
# Quoted texts

In dumps and listings a text stands between double quotes. The quote itself,
the backslash and the common controls have short escapes; every other character
that does not show is written as its code point, `\u{…}` in lower-case
hexadecimal. The single quote needs no escape.
-/

namespace HtmlTemplate

/-- The hexadecimal digits of a number, in lower case, without leading zeros. -/
def hexDigits (n : Nat) : List Char := Nat.toDigits 16 n

/-- One character as it is written between the quotes. -/
def quotedChar (c : Char) : List Char :=
  if c == '\x00' then ['\\', '0']
  else if c == '\t' then ['\\', 't']
  else if c == '\r' then ['\\', 'r']
  else if c == '\n' then ['\\', 'n']
  else if c == '"' then ['\\', '"']
  else if c == '\\' then ['\\', '\\']
  else if isPrintable c then [c]
  else ['\\', 'u', '\x7b'] ++ hexDigits c.toNat ++ ['\x7d']

/-- The text in double quotes. -/
def quoted (text : String) : String :=
  String.ofList (['"'] ++ text.toList.flatMap quotedChar ++ ['"'])

end HtmlTemplate
