-- SUMMARY: Compiled templates: markup with places for values, choices and repetitions.

/-!
# Templates

A document is compiled into a `Template`: the tree of what is written when it is
rendered. Places for values are variables, each a slot of a context. The document
has a context, and so has each repeated element with changes of its own inside.
-/

namespace HtmlTemplate

/-- The number of a context in its document. -/
structure ContextId where
  index : Nat
deriving DecidableEq

/-- A slot of a context. -/
structure Var where
  context : ContextId
  slot : Nat
deriving DecidableEq

/-- The variable as it is written in dumps and messages. -/
def Var.name (var : Var) : String := s!"_c{var.context.index}_{var.slot}"

/-- The slots that are bound together: those of the document, whose values may be
    left out, or those of one repetition. -/
structure Parameters where
  context : ContextId
  arity : Nat
  areOptional : Bool
deriving DecidableEq

namespace Parameters

def vars (parameters : Parameters) : List Var :=
  (List.range parameters.arity).map fun slot => ⟨parameters.context, slot⟩

/-- The parameter list as it is written in messages. -/
def description (parameters : Parameters) : String :=
  let ending := if parameters.areOptional then " = absent" else ""
  ", ".intercalate (parameters.vars.map fun var => var.name ++ ending)

end Parameters

/-- What a choice goes by. -/
inductive Condition where
  | truthy (var : Var)
  | falsy (var : Var)
deriving DecidableEq

def Condition.var : Condition → Var
  | .truthy var => var
  | .falsy var => var

/-- A repetition: once for each frame of the list at `source`. The frame is bound
    to the parameters of a context, if the repeated element has one. -/
structure Repetition where
  source : Var
  frame : Option Parameters
deriving DecidableEq

inductive Template where
  /-- Finished markup. -/
  | static (markup : String)
  /-- The value of a variable. -/
  | dynamic (var : Var)
  | sequence (items : List Template)
  | choice (condition : Condition) (yes : Template) (no : Option Template)
  | block (repetition : Repetition) (body : Template)
  | element (name : String) (attributes content : Template)
  /-- One attribute among those of an element. -/
  | attr (name : String) (value : Template)

namespace Template

/-- The template that writes nothing. -/
def empty : Template := .sequence []

instance : Inhabited Template := ⟨.empty⟩

mutual

/-- Whether it is plain that a template writes nothing. -/
def isEmpty : Template → Bool
  | .static markup => markup.isEmpty
  | .sequence items => areEmpty items
  | _ => false

def areEmpty : List Template → Bool
  | [] => true
  | item :: rest => isEmpty item && areEmpty rest

end

end Template

end HtmlTemplate
