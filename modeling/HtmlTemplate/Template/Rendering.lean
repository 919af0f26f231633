-- SUMMARY: Rendering templates with values.
import HtmlTemplate.Template.Normal
import HtmlTemplate.Value

/-!
# Rendering

A template is rendered under the frames that are bound, the innermost first. A
variable is looked up in the innermost frame of its context; where there is none,
or the frame ends before the slot, its value is absent. Rendering fails on a
value that does not fit its place, and then writes nothing.
-/

namespace HtmlTemplate

/-- Why values cannot be rendered. -/
inductive RenderError where
  | tooManyArguments (expected found : Nat)
  /-- A value that is to be repeated over is no list. -/
  | notIterable (var : Var) (kind : Value.Kind)
  /-- A value that is to be written is a list. -/
  | notRenderable (var : Var) (kind : Value.Kind)
deriving DecidableEq

def RenderError.message : RenderError → String
  | .tooManyArguments expected found =>
    s!"renderer takes at most {expected} argument(s), got {found}"
  | .notIterable var kind => s!"`{var.name}` must be a list to repeat over, got {kind.name}"
  | .notRenderable var kind =>
    s!"`{var.name}` holds a {kind.name}, which cannot be written as markup"

/-- The frames that are bound, the innermost first. -/
abbrev Bindings := List (ContextId × Frame)

namespace Bindings

/-- The innermost frame of a context. -/
def frame? (bindings : Bindings) (context : ContextId) : Option Frame :=
  (bindings.find? (·.1 == context)).map (·.2)

/-- The value of a variable. -/
def value (bindings : Bindings) (var : Var) : Value :=
  match bindings.frame? var.context with
  | some frame => frame.get var.slot
  | none => .absent

/-- Whether a condition holds. -/
def holds (bindings : Bindings) : Condition → Bool
  | .truthy var => (bindings.value var).isTruthy
  | .falsy var => !(bindings.value var).isTruthy

end Bindings

/-- What is rendered: markup, or why there is none. -/
abbrev Rendered := Except RenderError String

namespace Rendered

/-- One after the other; the first failure counts. -/
def append (first second : Rendered) : Rendered :=
  match first with
  | .error e => .error e
  | .ok markup => second.map (markup ++ ·)

def concat : List Rendered → Rendered
  | [] => .ok ""
  | first :: rest => append first (concat rest)

end Rendered

/-- The frames of a repetition. An absent value repeats once, with nothing given. -/
def Repetition.frames (repetition : Repetition) (bindings : Bindings) :
    Except RenderError (List Frame) :=
  match bindings.value repetition.source with
  | .absent => .ok [[]]
  | .list frames => .ok frames
  | value => .error (.notIterable repetition.source value.kind)

/-- Bind a frame for one repetition, if it is to be bound. -/
def Repetition.bind (repetition : Repetition) (bindings : Bindings) (frame : Frame) :
    Except RenderError Bindings :=
  match repetition.frame with
  | none => .ok bindings
  | some parameters =>
    if frame.length > parameters.arity then
      .error (.tooManyArguments parameters.arity frame.length)
    else .ok ((parameters.context, frame) :: bindings)

namespace Template

mutual

/-- Render a template under the bound frames. -/
def render : Template → Bindings → Rendered
  | .static markup, _ => .ok markup
  | .dynamic var, bindings =>
    match (bindings.value var).markup? with
    | some markup => .ok markup
    | none => .error (.notRenderable var (bindings.value var).kind)
  | .sequence items, bindings => renderAll items bindings
  | .choice condition yes no, bindings =>
    if bindings.holds condition then render yes bindings else renderOption no bindings
  | .block repetition body, bindings =>
    match repetition.frames bindings with
    | .error e => .error e
    | .ok frames =>
      Rendered.concat (frames.map fun frame =>
        match repetition.bind bindings frame with
        | .error e => .error e
        | .ok bindings => render body bindings)
  | .element name attributes content, bindings =>
    ((Rendered.append (.ok ("<" ++ name)) (render attributes bindings)).append (.ok ">")).append
      (if Markup.isVoid name then .ok ""
       else Rendered.append (render content bindings) (.ok ("</" ++ name ++ ">")))
  | .attr name value, bindings =>
    (Rendered.append (.ok (" " ++ name ++ "=\"")) (render value bindings)).append (.ok "\"")

def renderAll : List Template → Bindings → Rendered
  | [], _ => .ok ""
  | item :: rest, bindings => (render item bindings).append (renderAll rest bindings)

def renderOption : Option Template → Bindings → Rendered
  | some item, bindings => render item bindings
  | none, _ => .ok ""

end

end Template

/-! ## Programs -/

/-- A template with the parameters that its arguments are bound to. -/
structure Program where
  template : Template
  parameters : Parameters

namespace Program

/-- A program that renders the template as it is, or its normal form. -/
def build (optimizing : Bool) (template : Template) (parameters : Parameters) : Program :=
  ⟨if optimizing then template.optimize else template, parameters⟩

/-- Render a program with arguments; the last ones may be left out. -/
def render (program : Program) (arguments : Frame) : Rendered :=
  if arguments.length > program.parameters.arity then
    .error (.tooManyArguments program.parameters.arity arguments.length)
  else program.template.render [(program.parameters.context, arguments)]

end Program

end HtmlTemplate
