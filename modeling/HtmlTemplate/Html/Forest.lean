-- SUMMARY: What HTML source text denotes: a list of nested nodes with names, attributes and namespaces.

/-!
# Forests

The nodes that a source text denotes, before any of them is stored in a tree. An
element has a namespace; so has an attribute, which may be written with a prefix
in front of its name.
-/

namespace HtmlTemplate.Html

/-- The vocabularies that elements come from. -/
inductive Namespace where
  | html
  | svg
  | mathml
deriving DecidableEq

/-- The authority under which vocabularies are named. -/
def vocabularyAuthority : String := "//www.w3.org/"

/-- The name of a vocabulary by its path. -/
def vocabularyUri (path : String) : String := "http:" ++ vocabularyAuthority ++ path

/-- The name of the vocabulary. -/
def Namespace.uri : Namespace → String
  | .html => vocabularyUri "1999/xhtml"
  | .svg => vocabularyUri "2000/svg"
  | .mathml => vocabularyUri "1998/Math/MathML"

/-- An attribute. The empty namespace is that of plain attributes. -/
structure Attribute where
  ns : String
  namePrefix : Option String
  name : String
  value : String
deriving DecidableEq

/-- An attribute without prefix and namespace. -/
def Attribute.plain (name value : String) : Attribute := ⟨"", none, name, value⟩

/-- The name as it is written in markup. -/
def Attribute.writtenName (attr : Attribute) : String :=
  match attr.namePrefix with
  | some namePrefix => namePrefix ++ ":" ++ attr.name
  | none => attr.name

inductive Node where
  | doctype (name publicId systemId : String)
  | element (ns name : String) (attributes : List Attribute) (children : List Node)
  | text (content : String)
  | comment (content : String)
  | instruction (target content : String)

/-- Nodes side by side. -/
abbrev Forest := List Node

/-- The nodes inside an element; none in any other node. -/
def Node.children : Node → Forest
  | .element _ _ _ children => children
  | _ => []

/-- Whether the node is an element of that name, in any namespace. -/
def Node.isElementNamed (name : String) : Node → Bool
  | .element _ other _ _ => other == name
  | _ => false

/-! ## Fragments -/

/-- What the body of a document holds. -/
def bodyContent (document : Forest) : Forest :=
  match document.find? (·.isElementNamed "html") with
  | some html =>
    match html.children.find? (·.isElementNamed "body") with
    | some body => body.children
    | none => []
  | none => []

/-- Read a fragment with what reads documents: the text is put behind a body tag, and
    what the body holds in the end is kept. -/
def fragmentOf (read : String → Forest) (source : String) : Forest :=
  bodyContent (read ("<body>" ++ source))

end HtmlTemplate.Html
