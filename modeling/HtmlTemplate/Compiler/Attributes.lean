-- SUMMARY: Compiling the attributes of elements, with or without overrides.
import HtmlTemplate.Compiler.Plan
import HtmlTemplate.Markup

/-!
# Compiled attributes

The attributes of an element are compiled in their order. An overridden attribute
keeps its value from the source when its variable is not given. Overrides of
attributes that the element lacks come last and write nothing then.
-/

namespace HtmlTemplate

/-- Compiles the attributes of an element with a plan. -/
abbrev AttributePass := Plan → Tree → Template

namespace AttributePass

/-- An attribute with a fixed value. -/
def fixed (name value : String) : Template := .attr name (.static (Markup.escapedValue value))

/-- An attribute that is written with the value of a variable, if it is given. -/
def given (name : String) (var : Var) (otherwise : Option Template) : Template :=
  .choice (.truthy var) (.attr name (.dynamic var)) otherwise

/-- The attributes of an element as the source has them. -/
def sourceAttributes (tree : Tree) (element : Element) : Template :=
  .sequence (element.attributes.map fun attr => fixed (tree.name attr.name.localName) attr.value)

/-- The pass that leaves overrides out. -/
def withoutOverrides (plan : Plan) (tree : Tree) : Template :=
  match tree.element? plan.node with
  | some element => sourceAttributes tree element
  | none => .empty

/-- An attribute of the source with its override, if there is one. -/
def overridden (plan : Plan) (name value : String) : Template :=
  match plan.override? name with
  | some var => given name var (some (fixed name value))
  | none => fixed name value

/-- The overrides of attributes that are not among the names. -/
def added (plan : Plan) (names : List String) : List Template :=
  (plan.overrides.filter fun pair => !names.any (eqIgnoringAsciiCase · pair.1)).map fun pair =>
    given pair.1 pair.2 none

/-- The pass that follows the overrides. -/
def withOverrides (plan : Plan) (tree : Tree) : Template :=
  match tree.element? plan.node with
  | some element =>
    let pairs := element.attributes.map fun attr => (tree.name attr.name.localName, attr.value)
    .sequence (pairs.map (fun pair => overridden plan pair.1 pair.2) ++
      added plan (pairs.map (·.1)))
  | none => .empty

end AttributePass

end HtmlTemplate
