-- SUMMARY: The dump of a template, to look at what has been compiled.
import HtmlTemplate.Text.Quoted
import HtmlTemplate.Template

/-!
# Dumps

A template is dumped as nested lists in parentheses, each with its kind in front.
Markup is quoted; names are not.
-/

namespace HtmlTemplate

/-- The variables that a repetition goes over and binds. -/
def Repetition.dump (repetition : Repetition) : String :=
  let bound := match repetition.frame with
    | some parameters => " |" ++ " ".intercalate (parameters.vars.map Var.name) ++ "|"
    | none => ""
  s!"(each {repetition.source.name}{bound})"

def Condition.dump : Condition → String
  | .truthy var => var.name
  | .falsy var => s!"(not {var.name})"

namespace Template

mutual

/-- The dump of a template. -/
def dump : Template → String
  | .static markup => "(static " ++ quoted markup ++ ")"
  | .dynamic var => "(dynamic " ++ var.name ++ ")"
  | .sequence items => "(multi" ++ dumpAll items ++ ")"
  | .choice condition yes no =>
    "(if " ++ condition.dump ++ " " ++ dump yes ++ dumpOption no ++ ")"
  | .block repetition body => "(block " ++ repetition.dump ++ " " ++ dump body ++ ")"
  | .element name attributes content =>
    "(element " ++ name ++ " " ++ dump attributes ++ " " ++ dump content ++ ")"
  | .attr name value => "(attr " ++ name ++ " " ++ dump value ++ ")"

/-- The dumps of templates, each behind a space. -/
def dumpAll : List Template → String
  | [] => ""
  | item :: rest => " " ++ dump item ++ dumpAll rest

def dumpOption : Option Template → String
  | some item => " " ++ dump item
  | none => ""

end

end Template

end HtmlTemplate
