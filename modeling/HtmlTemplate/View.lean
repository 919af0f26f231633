-- SUMMARY: Views: declaring changes and giving their values in one pass.
import HtmlTemplate.Document

/-!
# Views

A view is a document together with the scope that selectors are resolved against
and the values given so far. Each of its operations declares a mutation and puts
the value at its slot, so that no slot is ever named. An operation answers an
error or nothing, together with the view after it.
-/

namespace HtmlTemplate

structure View where
  document : Document
  scope : ScopeId := Declarations.rootScope
  /-- The values of the current frame, by slot. -/
  values : Frame := []

/-- Put a value at a slot; slots in between are absent. -/
def Frame.put (frame : Frame) (slot : Nat) (value : Value) : Frame :=
  (frame ++ List.replicate (slot + 1 - frame.length) Value.absent).set slot value

namespace View

/-- What an operation answers: an error or nothing, and the view after it. -/
abbrev Outcome := Except Error Unit × View

/-! ## Mutations -/

/-- The scope of what a selector selects in the scope of the view. -/
def resolve (view : View) (selector : String) : Except Error ScopeId × View :=
  let (result, document) := view.document.resolve view.scope selector
  (result, { view with document })

/-- Log a mutation on a scope and give it a value. -/
def give (view : View) (scope : ScopeId) (mutation : Mutation) (value : Value) : Outcome :=
  match view.document.log scope mutation with
  | (.error e, document) => (.error e, { view with document })
  | (.ok slot, document) => (.ok (), { view with document, values := view.values.put slot value })

/-- Declare a mutation of what a selector selects and give it a value. -/
def declare (view : View) (selector : String) (mutation : Mutation) (value : Value) : Outcome :=
  match view.resolve selector with
  | (.error e, view) => (.error e, view)
  | (.ok scope, view) => view.give scope mutation value

/-- Replace the content of elements by markup. -/
def html (view : View) (selector : String) (value : Value) : Outcome :=
  view.declare selector { kind := Mutation.replaceInnerHtml } value

/-- Replace the content of elements by text. -/
def text (view : View) (selector text : String) : Outcome :=
  view.html selector (.text (Markup.escapedText text))

/-- Write markup after the content of elements. -/
def append (view : View) (selector : String) (value : Value) : Outcome :=
  view.declare selector { kind := Mutation.append } value

/-- Give elements an attribute. -/
def attr (view : View) (selector name value : String) : Outcome :=
  view.declare selector { kind := Mutation.setAttribute, arguments := [name] }
    (.text (Markup.escapedValue value))

/-- Leave elements out. -/
def remove (view : View) (selector : String) : Outcome :=
  view.declare selector { kind := Mutation.remove } (.bool true)

/-! ## Regions -/

/-- Run `body` with selectors resolved against what a selector selects. -/
def within (view : View) (selector : String) (body : View → Outcome) : Outcome :=
  match view.resolve selector with
  | (.error e, view) => (.error e, view)
  | (.ok scope, inside) =>
    let (result, inside) := body { inside with scope }
    (result, { inside with scope := view.scope })

/-- Enter what a selector selects as a repeated region. The answer is the scope of
    the repeated elements, beside a view inside the region without values. -/
def enterRepeated (view : View) (selector : String) : Except Error ScopeId × View :=
  match view.resolve selector with
  | (.error e, view) => (.error e, view)
  | (.ok scope, view) =>
    match view.document.nest scope with
    | (.error e, document) => (.error e, { view with document })
    | (.ok nested, document) =>
      let inner := ((document.declarations.context? nested).map (·.scope)).getD scope
      (.ok scope, { document, scope := inner, values := [] })

/-- Run one body after another, each with no values given yet, and gather the
    frames. The first error ends it. -/
def gather : List (View → Outcome) → View → Except Error (List Frame) × View
  | [], view => (.ok [], view)
  | body :: rest, view =>
    match body view with
    | (.error e, view) => (.error e, view)
    | (.ok (), view) =>
      match gather rest { view with values := [] } with
      | (.error e, last) => (.error e, last)
      | (.ok frames, last) => (.ok (view.values :: frames), last)

/-- Repeat elements once for each body; a body declares the mutations of one
    repetition, relative to the repeated element. -/
def each (view : View) (selector : String) (bodies : List (View → Outcome)) : Outcome :=
  match view.enterRepeated selector with
  | (.error e, inside) => (.error e, { view with document := inside.document })
  | (.ok scope, inside) =>
    match gather bodies inside with
    | (.error e, inside) => (.error e, { view with document := inside.document })
    | (.ok frames, inside) =>
      { view with document := inside.document }.give scope { kind := Mutation.repeatEach }
        (.list frames)

/-! ## Rendering -/

/-- Render the document with the values given so far. -/
def render (view : View) : Except Error String × View :=
  let (result, document) := view.document.render view.values
  (result, { view with document })

end View

end HtmlTemplate
