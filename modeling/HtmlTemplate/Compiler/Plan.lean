-- SUMMARY: An element while it is compiled: wrappers around it and its content, and the attributes that are overridden.
import HtmlTemplate.Text.LowerCase
import HtmlTemplate.Tree
import HtmlTemplate.Template

/-!
# Plans

While an element with mutations is compiled, its plan gathers what they ask for:
wrappers around its content, wrappers around the element, a content of its own,
and variables for attributes. Wrappers are applied in the order in which they were
added, each around what the one before it made.
-/

namespace HtmlTemplate

structure Plan where
  node : NodeId
  inner : List (Template → Template) := []
  outer : List (Template → Template) := []
  /-- What the element holds in place of its children. -/
  content : Option Template := none
  /-- Attributes in lower case, the latest at the end. -/
  overrides : List (String × Var) := []

namespace Plan

def wrapInner (plan : Plan) (wrap : Template → Template) : Plan :=
  { plan with inner := plan.inner ++ [wrap] }

def wrapOuter (plan : Plan) (wrap : Template → Template) : Plan :=
  { plan with outer := plan.outer ++ [wrap] }

def setContent (plan : Plan) (content : Template) : Plan := { plan with content := some content }

/-- Override an attribute. The case of its name does not matter, and the latest
    override of a name counts. -/
def override (plan : Plan) (name : String) (var : Var) : Plan :=
  let name := asciiLower name
  { plan with overrides := plan.overrides.filter (·.1 != name) ++ [(name, var)] }

/-- The variable that overrides an attribute. -/
def override? (plan : Plan) (name : String) : Option Var :=
  (plan.overrides.find? fun pair => eqIgnoringAsciiCase pair.1 name).map (·.2)

def applyInner (plan : Plan) (content : Template) : Template :=
  plan.inner.foldl (fun template wrap => wrap template) content

def applyOuter (plan : Plan) (element : Template) : Template :=
  plan.outer.foldl (fun template wrap => wrap template) element

end Plan

end HtmlTemplate
