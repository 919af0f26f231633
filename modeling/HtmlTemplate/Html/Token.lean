-- SUMMARY: The tokens of HTML source text, and what else is found between them.
import HtmlTemplate.Text.Blank

/-!
# Tokens

What the source text of a document is cut into: tags, single characters and
comments are tokens, which the construction rules deal with; declarations of the
document type and faults are lexemes beside them. Names of tags and attributes are
in lower case already, and references are replaced.
-/

namespace HtmlTemplate.Html

/-- Characters that end the name of a tag. -/
def endsTagName (c : Char) : Bool := isAsciiBlank c || c == '/' || c == '>'

/-- Characters that end the name of an attribute. -/
def endsAttributeName (c : Char) : Bool := endsTagName c || c == '='

/-- A start tag or an end tag. Of attributes with one name only the first is
    kept. -/
structure Tag where
  name : String
  attributes : List (String × String)
  selfClosing : Bool

/-- The value of an attribute of the tag. -/
def Tag.value? (tag : Tag) (name : String) : Option String := tag.attributes.lookup name

/-- A tag without attributes. -/
def Tag.plain (name : String) : Tag := ⟨name, [], false⟩

/-- A document type declaration. `broken` says that it was not finished as it
    should be. -/
structure Declaration where
  name : Option String
  publicId : Option String
  systemId : Option String
  broken : Bool

/-- What the construction rules deal with. -/
inductive Token where
  | startTag (tag : Tag)
  | endTag (tag : Tag)
  | character (c : Char)
  | comment (text : String)
  | endOfInput

/-- What the lexer finds: a token, a document type declaration, or a mistake that
    stands for nothing, such as `</>` or the missing semicolon of a reference. -/
inductive Lexeme where
  | token (token : Token)
  | declaration (doctype : Declaration)
  | fault

/-- How the text that comes next is cut: as markup, as the content of an element
    whose name ends it, as a script, or as text to the end. -/
inductive TextMode where
  /-- Tags, comments and references. -/
  | markup
  /-- Text with references, up to the end tag of the name. -/
  | escapable (name : String)
  /-- Text without references, up to the end tag of the name. -/
  | raw (name : String)
  /-- A script. -/
  | script
  /-- A script, inside a comment of its own. -/
  | scriptComment
  /-- A script inside a script comment. -/
  | scriptNested
  /-- Text up to the end of the input. -/
  | plain

end HtmlTemplate.Html
