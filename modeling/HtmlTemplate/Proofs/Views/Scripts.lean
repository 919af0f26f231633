-- SUMMARY: Programs that go on as they like after each call to a view, and the values that they give.
import HtmlTemplate.Proofs.Views

/-!
# Scripts

Who calls a view sees what each call answers, may go on after a call that has failed, and
may let all that comes next depend on what came before. A script is a program of this
kind: after each call it goes on by a function of the outcome. Calls that end at the
first error are the scripts that do just this.

A script fills the frame of the view that it is run on. Which values it gives to which
slots is told here by what the document answers to its calls, without a look at frames:
`Script.declared`. The values afterwards are the ones before with those put in.
-/

namespace HtmlTemplate

/-! ## Frames that are filled one after the other -/

/-- Put values at slots, one after the other. -/
def Frame.fill (frame : Frame) (given : List (Nat × Value)) : Frame :=
  given.foldl (fun frame pair => frame.put pair.1 pair.2) frame

/-- The value that a slot is given last. -/
def lastGiven? (given : List (Nat × Value)) (slot : Nat) : Option Value :=
  (given.reverse.find? (·.1 == slot)).map (·.2)

theorem Frame.fill_append (frame : Frame) (first second : List (Nat × Value)) :
    frame.fill (first ++ second) = (frame.fill first).fill second := List.foldl_append

theorem Frame.get_fill (frame : Frame) (given : List (Nat × Value)) (slot : Nat) :
    (frame.fill given).get slot = (lastGiven? given slot).getD (frame.get slot) := by
  induction given using List.reverseRecOn with
  | nil => rfl
  | append_singleton given last ih =>
    have hlast : (frame.fill (given ++ [last])).get slot =
        if slot = last.1 then last.2 else (frame.fill given).get slot := by
      rw [fill_append]
      exact get_put (frame.fill given) last.1 slot last.2
    rw [hlast, lastGiven?, List.reverse_append, List.reverse_singleton, List.singleton_append,
      List.find?_cons]
    by_cases hslot : slot = last.1
    · simp [hslot]
    · have hother : (last.1 == slot) = false := by simpa using Ne.symm hslot
      rw [if_neg hslot, hother, ih]
      rfl

namespace View

/-! ## Scripts -/

/-- A program that goes on after each call by the outcome of the call. It declares mutations
    that are no repetitions, works within what a selector selects, and repeats elements with
    a script for each item. What is done for an item may depend on the items before it: in
    one run these are one list of scripts. -/
inductive Script where
  | answer (result : Except Error Unit)
  | declare (selector : String) (mutation : Mutation) (value : Value)
      (hkind : mutation.kind ≠ Mutation.repeatEach) (next : Outcome → Script)
  | within (selector : String) (body : Script) (next : Outcome → Script)
  | each (selector : String) (items : List Script) (next : Outcome → Script)

namespace Script

mutual

def run : Script → View → Outcome
  | .answer result, view => (result, view)
  | .declare selector mutation value _ next, view =>
    let outcome := view.declare selector mutation value
    run (next outcome) outcome.2
  | .within selector body next, view =>
    let outcome := view.within selector (run body)
    run (next outcome) outcome.2
  | .each selector items next, view =>
    let outcome := view.each selector (bodies items)
    run (next outcome) outcome.2

/-- What each of several scripts does. -/
def bodies : List Script → List (View → Outcome)
  | [] => []
  | item :: rest => run item :: bodies rest

end

/-! ## Calls as scripts -/

mutual

/-- A call, and what comes next. -/
def ofCall : Call → (Outcome → Script) → Script
  | .text selector content, next =>
    .declare selector { kind := Mutation.replaceInnerHtml } (.text (Markup.escapedText content))
      (by decide) next
  | .html selector value, next =>
    .declare selector { kind := Mutation.replaceInnerHtml } value (by decide) next
  | .append selector value, next =>
    .declare selector { kind := Mutation.append } value (by decide) next
  | .attr selector name value, next =>
    have hkind : Mutation.setAttribute ≠ Mutation.repeatEach := by decide
    .declare selector { kind := Mutation.setAttribute, arguments := [name] }
      (.text (Markup.escapedValue value)) hkind next
  | .remove selector, next =>
    .declare selector { kind := Mutation.remove } (.bool true) (by decide) next
  | .within selector calls, next => .within selector (ofCalls calls) next
  | .each selector items, next => .each selector (ofItems items) next

/-- Calls one after the other; the first error ends it. -/
def ofCalls : List Call → Script
  | [] => .answer (.ok ())
  | call :: rest => ofCall call fun outcome =>
    match outcome.1 with
    | .error e => .answer (.error e)
    | .ok () => ofCalls rest

def ofItems : List (List Call) → List Script
  | [] => []
  | calls :: rest => ofCalls calls :: ofItems rest

end

mutual

theorem run_ofCall (call : Call) (next : Outcome → Script) (view : View) :
    (ofCall call next).run view = (next (call.run view)).run (call.run view).2 := by
  cases call with
  | within selector calls => rw [ofCall, run, run_ofCalls, Call.run]
  | each selector items => rw [ofCall, run, bodies_ofItems, Call.run]
  | _ => rw [ofCall, run]; rfl

theorem run_ofCalls (calls : List Call) : (ofCalls calls).run = Call.runAll calls := by
  funext view
  cases calls with
  | nil => rfl
  | cons call rest =>
    rw [ofCalls, run_ofCall, Call.runAll]
    cases hcall : call.run view with
    | mk result last =>
      cases result with
      | error e => rfl
      | ok done => exact congrFun (run_ofCalls rest) last

theorem bodies_ofItems (items : List (List Call)) : bodies (ofItems items) = Call.bodies items := by
  cases items with
  | nil => rfl
  | cons calls rest => rw [ofItems, bodies, Call.bodies, run_ofCalls, bodies_ofItems]

end

end Script

/-! ## What is given -/

/-- The slot that a mutation has on a scope, with the value that it is given. -/
def given (document : Document) (scope : ScopeId) (mutation : Mutation) (value : Value) :
    List (Nat × Value) :=
  match (document.log scope mutation).1 with
  | .ok slot => [(slot, value)]
  | .error _ => []

/-- What a declaration gives, if its selector can be read. -/
def givenByDeclare (view : View) (selector : String) (mutation : Mutation) (value : Value) :
    List (Nat × Value) :=
  match view.resolve selector with
  | (.error _, _) => []
  | (.ok scope, inside) => given inside.document scope mutation value

/-- What is given within what a selector selects, by what the body gives. -/
def givenByWithin (view : View) (selector : String) (given : View → List (Nat × Value)) :
    List (Nat × Value) :=
  match view.resolve selector with
  | (.error _, _) => []
  | (.ok scope, inside) => given { inside with scope }

/-- What a repetition gives, if none of its bodies fails: the list of their frames. -/
def givenByEach (view : View) (selector : String) (bodies : List (View → Outcome)) :
    List (Nat × Value) :=
  match view.enterRepeated selector with
  | (.error _, _) => []
  | (.ok scope, inside) =>
    match gather bodies inside with
    | (.error _, _) => []
    | (.ok frames, last) =>
      given last.document scope { kind := Mutation.repeatEach } (.list frames)

/-- The slots of the current frame that a script gives values, in order. What its calls
    declare within a selector counts, and what the items of a repetition declare does not. -/
def Script.declared : Script → View → List (Nat × Value)
  | .answer _, _ => []
  | .declare selector mutation value _ next, view =>
    let outcome := view.declare selector mutation value
    view.givenByDeclare selector mutation value ++ declared (next outcome) outcome.2
  | .within selector body next, view =>
    let outcome := view.within selector (run body)
    view.givenByWithin selector (declared body) ++ declared (next outcome) outcome.2
  | .each selector items next, view =>
    let outcome := view.each selector (bodies items)
    view.givenByEach selector (bodies items) ++ declared (next outcome) outcome.2

/-! ## What a call does to a frame -/

/-- From one view to the other the scope stays, and what is given is put into the values. -/
structure Fills (given : List (Nat × Value)) (view after : View) : Prop where
  scope : after.scope = view.scope
  values : after.values = view.values.fill given

theorem Fills.refl (view : View) : Fills [] view view := ⟨rfl, rfl⟩

theorem Fills.trans {first second : List (Nat × Value)} {view middle last : View}
    (h : Fills first view middle) (h' : Fills second middle last) :
    Fills (first ++ second) view last :=
  ⟨h'.scope.trans h.scope, by rw [h'.values, h.values, Frame.fill_append]⟩

section Calls

variable (view : View) (selector : String)

theorem fills_give (scope : ScopeId) (mutation : Mutation) (value : Value) :
    Fills (given view.document scope mutation value) view (view.give scope mutation value).2 := by
  unfold give given
  cases view.document.log scope mutation with
  | mk result document => cases result <;> exact ⟨rfl, rfl⟩

theorem fills_declare (mutation : Mutation) (value : Value) :
    Fills (view.givenByDeclare selector mutation value) view
      (view.declare selector mutation value).2 := by
  unfold declare givenByDeclare resolve
  cases view.document.resolve view.scope selector with
  | mk result document =>
    cases result with
    | error e => exact ⟨rfl, rfl⟩
    | ok scope =>
      have hgive := fills_give { view with document } scope mutation value
      exact ⟨hgive.scope, hgive.values⟩

/-- The scope that a body has moved to is left again. -/
theorem fills_within {body : View → Outcome} {given : View → List (Nat × Value)}
    (hbody : ∀ inside, Fills (given inside) inside (body inside).2) :
    Fills (view.givenByWithin selector given) view (view.within selector body).2 := by
  unfold within givenByWithin resolve
  cases view.document.resolve view.scope selector with
  | mk result document =>
    cases result with
    | error e => exact ⟨rfl, rfl⟩
    | ok scope => exact ⟨rfl, (hbody { view with document, scope }).values⟩

/-- The values that bodies give to frames of their own are not seen outside. -/
theorem fills_each (bodies : List (View → Outcome)) :
    Fills (view.givenByEach selector bodies) view (view.each selector bodies).2 := by
  unfold each givenByEach
  cases view.enterRepeated selector with
  | mk result inside =>
    cases result with
    | error e => exact ⟨rfl, rfl⟩
    | ok scope =>
      dsimp only
      cases gather bodies inside with
      | mk result last =>
        cases result with
        | error e => exact ⟨rfl, rfl⟩
        | ok frames =>
          have hgive := fills_give { view with document := last.document } scope
            { kind := Mutation.repeatEach } (.list frames)
          exact ⟨hgive.scope, hgive.values⟩

end Calls

/-! ## Runs -/

namespace Script

/-- A script leaves the scope of the view as it is, and puts what it declares into the
    values. -/
theorem fills_run (script : Script) (view : View) :
    Fills (script.declared view) view (script.run view).2 := by
  cases script with
  | answer result => exact .refl view
  | declare selector mutation value hkind next =>
    exact (view.fills_declare selector mutation value).trans (fills_run (next _) _)
  | within selector body next =>
    exact (view.fills_within selector fun inside => fills_run body inside).trans
      (fills_run (next _) _)
  | each selector items next =>
    exact (view.fills_each selector (bodies items)).trans (fills_run (next _) _)

/-- The items of a repetition, each with the view on which it begins. -/
def begun : List Script → View → List (Script × View)
  | [], _ => []
  | item :: rest, view => (item, view) :: begun rest { (item.run view).2 with values := [] }

theorem map_begun (items : List Script) (view : View) :
    (begun items view).map (·.1) = items := by
  induction items generalizing view with
  | nil => rfl
  | cons item rest ih => rw [begun, List.map_cons, ih]

/-- Each item begins in the same scope and without values. -/
theorem of_mem_begun {items : List Script} {view : View} (hvalues : view.values = [])
    {item : Script × View} (h : item ∈ begun items view) :
    item.2.scope = view.scope ∧ item.2.values = [] := by
  induction items generalizing view with
  | nil => cases h
  | cons first rest ih =>
    rcases List.mem_cons.mp h with rfl | h
    · exact ⟨rfl, hvalues⟩
    · obtain ⟨hscope, hnone⟩ := ih rfl h
      exact ⟨hscope.trans (first.fills_run view).scope, hnone⟩

/-- The frames that are gathered hold what their items have declared. -/
theorem gather_bodies {items : List Script} {view last : View} {frames : List Frame}
    (hvalues : view.values = []) (h : gather (bodies items) view = (.ok frames, last)) :
    List.Forall₂ (fun item (frame : Frame) => ∀ slot, frame.get slot =
        (lastGiven? (item.1.declared item.2) slot).getD .absent)
      (begun items view) frames := by
  induction items generalizing view frames with
  | nil =>
    cases h
    exact .nil
  | cons item rest ih =>
    obtain ⟨inside, more, hitem, hmore, rfl⟩ := gather_cons_eq_ok h
    have hinside : (item.run view).2 = inside := congrArg Prod.snd hitem
    refine .cons (fun slot => ?_) ?_
    · rw [← hinside, (item.fills_run view).values, Frame.get_fill, hvalues]
      rfl
    · rw [hinside]
      exact ih rfl hmore

end Script

end View

end HtmlTemplate
