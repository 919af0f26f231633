-- SUMMARY: Rewriting a template into its normal form: flat sequences of joined markup, choices and repetitions.
import HtmlTemplate.Markup
import HtmlTemplate.Template

/-!
# Normal forms

`Template.optimize` prepares a template for rendering in three passes. `lower`
writes elements and attributes out as markup; `flatten` takes sequences inside
sequences apart; `merge` joins markup that stands side by side. None of them
changes what is rendered.
-/

namespace HtmlTemplate.Template

/-! ## Writing elements out -/

mutual

/-- Replace elements and attributes by the markup around what they hold. -/
def lower : Template → Template
  | .static markup => .static markup
  | .dynamic var => .dynamic var
  | .sequence items => .sequence (lowerAll items)
  | .choice condition yes no => .choice condition (lower yes) (lowerOption no)
  | .block repetition body => .block repetition (lower body)
  | .element name attributes content =>
    .sequence ([.static ("<" ++ name), lower attributes, .static ">"] ++
      if Markup.isVoid name then [] else [lower content, .static ("</" ++ name ++ ">")])
  | .attr name value => .sequence [.static (" " ++ name ++ "=\""), lower value, .static "\""]

def lowerAll : List Template → List Template
  | [] => []
  | item :: rest => lower item :: lowerAll rest

def lowerOption : Option Template → Option Template
  | some item => some (lower item)
  | none => none

end

/-! ## Taking sequences apart -/

/-- A sequence of one item is that item. -/
def ofItems : List Template → Template
  | [item] => item
  | items => .sequence items

/-- The items of a sequence; any other template is one item. -/
def items : Template → List Template
  | .sequence items => items
  | item => [item]

mutual

/-- Put the items of inner sequences into the outer ones. -/
def flatten : Template → Template
  | .static markup => .static markup
  | .dynamic var => .dynamic var
  | .sequence parts => ofItems (flattenAll parts)
  | .choice condition yes no => .choice condition (flatten yes) (flattenOption no)
  | .block repetition body => .block repetition (flatten body)
  | .element name attributes content => .element name (flatten attributes) (flatten content)
  | .attr name value => .attr name (flatten value)

/-- The items of several templates, one after the other. -/
def flattenAll : List Template → List Template
  | [] => []
  | part :: rest => (flatten part).items ++ flattenAll rest

def flattenOption : Option Template → Option Template
  | some item => some (flatten item)
  | none => none

end

/-! ## Joining markup -/

/-- Put an item in front of others. Empty markup is dropped, and markup in front
    of markup is joined with it. -/
def consMerged (item : Template) (rest : List Template) : List Template :=
  match item with
  | .static markup =>
    if markup.isEmpty then rest
    else match rest with
      | .static next :: rest => .static (markup ++ next) :: rest
      | rest => .static markup :: rest
  | item => item :: rest

mutual

/-- Join the markup that stands side by side in sequences. -/
def merge : Template → Template
  | .static markup => .static markup
  | .dynamic var => .dynamic var
  | .sequence parts => ofItems (mergeAll parts)
  | .choice condition yes no => .choice condition (merge yes) (mergeOption no)
  | .block repetition body => .block repetition (merge body)
  | .element name attributes content => .element name (merge attributes) (merge content)
  | .attr name value => .attr name (merge value)

def mergeAll : List Template → List Template
  | [] => []
  | part :: rest => consMerged (merge part) (mergeAll rest)

def mergeOption : Option Template → Option Template
  | some item => some (merge item)
  | none => none

end

/-- All three passes. -/
def optimize (template : Template) : Template := template.lower.flatten.merge

end HtmlTemplate.Template
