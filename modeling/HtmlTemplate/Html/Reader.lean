-- SUMMARY: Reading HTML source text as the forest of a document.
import HtmlTemplate.Html.Lexer
import HtmlTemplate.Html.Builder.Rules
import HtmlTemplate.Text.LineEnds

/-!
# Reading HTML

`Html.document` reads the source text of a whole document: missing parts such as
`html` and `body` are supplied. It is what the program reads with.
-/

namespace HtmlTemplate.Html

/-- Drop the byte order mark that a text starts with. -/
def dropMark : List Char → List Char
  | '\uFEFF' :: rest => rest
  | text => text

/-- Read the rest of a text, `fuel` pieces at most. -/
def readWithin : Nat → Builder → List Char → Builder
  | 0, b, _ => b
  | fuel + 1, b, text =>
    match if b.skipMark then dropMark text else text with
    | [] => b.process (.token .endOfInput)
    | text =>
      let foreign := b.stack.head?.any (·.ns != .html)
      let (lexemes, textMode, rest) := Lexer.step foreign b.textMode text
      readWithin fuel (lexemes.foldl (·.process ·) { b with textMode, skipMark := false }) rest

/-- Read a text. Each piece takes a character, and the end is one more piece. -/
def readCharacters (text : List Char) : Forest :=
  let text := normalizeLineEnds text
  (readWithin (text.length + 1) {} text).draft.forest

/-- Read a whole document. A byte order mark in front of it does not count, nor one
    behind the end of a script, where reading stops and starts again. -/
def document (source : String) : Forest := readCharacters source.toList

end HtmlTemplate.Html
