-- SUMMARY: View programs: nested calls of view operations, how they are run, and the trace of a run.
import HtmlTemplate.View

/-!
# View programs

A program is a list of calls, where `within` and `each` hold programs of their
own. Running it ends at the first call that fails. The calls at the top can also be
run whether or not they fail. The trace of a run has an entry for each call that has
returned, inner calls before the one that holds them, with the state of the view right
after it.
-/

namespace HtmlTemplate.View

inductive Call where
  | text (selector content : String)
  | html (selector : String) (value : Value)
  | append (selector : String) (value : Value)
  | attr (selector name value : String)
  | remove (selector : String)
  | within (selector : String) (calls : List Call)
  | each (selector : String) (items : List (List Call))
deriving Inhabited

namespace Call

/-! ## Running -/

mutual

/-- Run a call. -/
def run : Call → View → Outcome
  | .text selector content, view => view.text selector content
  | .html selector value, view => view.html selector value
  | .append selector value, view => view.append selector value
  | .attr selector name value, view => view.attr selector name value
  | .remove selector, view => view.remove selector
  | .within selector calls, view => view.within selector (runAll calls)
  | .each selector items, view => view.each selector (bodies items)

/-- Run calls one after the other; the first error ends it. -/
def runAll : List Call → View → Outcome
  | [], view => (.ok (), view)
  | call :: rest, view =>
    match run call view with
    | (.error e, view) => (.error e, view)
    | (.ok (), view) => runAll rest view

/-- What each of several programs does. -/
def bodies : List (List Call) → List (View → Outcome)
  | [] => []
  | calls :: rest => runAll calls :: bodies rest

end

/-- Run calls one after the other, also after calls that fail, and answer what each
    of them answers. -/
def attemptAll : List Call → View → List (Except Error Unit) × View
  | [], view => ([], view)
  | call :: rest, view =>
    let (result, view) := run call view
    let (results, view) := attemptAll rest view
    (result :: results, view)

/-! ## Traces -/

/-- A call that has returned, and its outcome. -/
structure Entry where
  call : Call
  outcome : Outcome

mutual

/-- The trace of a run of a call. -/
def trace (call : Call) (view : View) : List Entry :=
  match call with
  | .within selector calls =>
    let inner := match view.resolve selector with
      | (.error _, _) => []
      | (.ok scope, inside) => traceAll calls { inside with scope }
    inner ++ [⟨call, call.run view⟩]
  | .each selector items =>
    let inner := match view.enterRepeated selector with
      | (.error _, _) => []
      | (.ok _, inside) => traceItems items inside
    inner ++ [⟨call, call.run view⟩]
  | call => [⟨call, call.run view⟩]

/-- The trace of calls that are run one after the other. -/
def traceAll : List Call → View → List Entry
  | [], _ => []
  | call :: rest, view =>
    trace call view ++
      match run call view with
      | (.error _, _) => []
      | (.ok (), view) => traceAll rest view

/-- The trace of the bodies of a repetition. -/
def traceItems : List (List Call) → View → List Entry
  | [], _ => []
  | calls :: rest, view =>
    traceAll calls view ++
      match runAll calls view with
      | (.error _, _) => []
      | (.ok (), view) => traceItems rest { view with values := [] }

end

end Call

end HtmlTemplate.View
