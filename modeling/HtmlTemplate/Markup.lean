-- SUMMARY: The pieces of markup: tags, attributes, declarations, and the elements that are written in a way of their own.
import HtmlTemplate.Markup.Escape

/-!
# Markup

Markup is written in one canonical form: no indentation, attributes in their
order, values in double quotes, void elements without end tag. Trees and
compiled templates write the same form, from the pieces of this module.
-/

namespace HtmlTemplate.Markup

/-- Elements that hold nothing and have no end tag. -/
def voidNames : List String :=
  ["area", "base", "br", "col", "embed", "hr", "img", "input",
   "link", "meta", "param", "source", "track", "wbr"]

/-- Elements whose text is written as it is, because it is read as it is. -/
def rawTextNames : List String :=
  ["iframe", "noembed", "noframes", "noscript", "plaintext", "script", "style", "xmp"]

def isVoid (tag : String) : Bool := voidNames.contains tag

def isRawText (tag : String) : Bool := rawTextNames.contains tag

/-- A text as it is written inside an element, raw or escaped. -/
def text (raw : Bool) (content : String) : String :=
  if raw then content else escapedText content

/-- The markup of an attribute whose value is markup already. -/
def attr (name value : String) : String := " " ++ name ++ "=\"" ++ value ++ "\""

/-- The markup of an element whose attributes and content are markup already. -/
def element (tag attributes content : String) : String :=
  "<" ++ tag ++ attributes ++ ">" ++ (if isVoid tag then "" else content ++ "</" ++ tag ++ ">")

def comment (content : String) : String := "<!--" ++ content ++ "-->"

def instruction (target content : String) : String :=
  "<?" ++ target ++ (if content.isEmpty then "" else " " ++ content) ++ ">"

/-- A document type declaration. -/
def doctype (name publicId systemId : String) : String :=
  let quotedId (id : String) := " \"" ++ id ++ "\""
  "<!DOCTYPE " ++ name ++
    (match publicId.isEmpty, systemId.isEmpty with
    | true, true => ""
    | true, false => " SYSTEM" ++ quotedId systemId
    | false, true => " PUBLIC" ++ quotedId publicId
    | false, false => " PUBLIC" ++ quotedId publicId ++ quotedId systemId) ++ ">"

end HtmlTemplate.Markup
