-- SUMMARY: Running a program again on the document that it left gives the same answers, call by call, and changes nothing.
import HtmlTemplate.Proofs.Views.Repeating

/-!
# Programs that are run again

A program that is run again, on the document that it has left behind, ends as it ended
before, and its trace has the same entries: no call answers anything else. It collects the
same values, and no scope, slot or region is made a second time.
-/

namespace HtmlTemplate

namespace View

variable {α : Type}

/-! ## Traces -/

/-- The view on another document. -/
def on (document : Document) (view : View) : View := { view with document }

/-- The entry with another document. -/
def Call.Entry.on (document : Document) (entry : Entry) : Entry :=
  { entry with outcome := (entry.outcome.1, entry.outcome.2.on document) }

variable {view : View}

/-- What settles, done once more to a later document. -/
theorem again_of_settles {body : View → α × View}
    (h : view.document.Settles (effect body view.scope view.values)) (more : List Operation) :
    body (view.on ((body view).2.document.run more)) =
      ((body view).1, (body view).2.on ((body view).2.document.run more)) := by
  have hagain := h.again more
  have hbody : effect body view.scope view.values ((body view).2.document.run more) =
    (((body (view.on ((body view).2.document.run more))).1,
      (body (view.on ((body view).2.document.run more))).2.scope,
      (body (view.on ((body view).2.document.run more))).2.values),
      (body (view.on ((body view).2.document.run more))).2.document) := rfl
  have hagain := hbody.symm.trans hagain
  generalize body (view.on ((body view).2.document.run more)) = outcome at *
  obtain ⟨answer, document, i, values⟩ := outcome
  simp only [effect, Prod.mk.injEq] at hagain
  obtain ⟨⟨rfl, rfl, rfl⟩, rfl⟩ := hagain
  rfl

namespace Repeats

variable {body : View → α × View}

/-- A body that repeats, run once more on a later document. -/
theorem again (hbody : Repeats body) (h : view.Stands) (more : List Operation) :
    body (view.on ((body view).2.document.run more)) =
      ((body view).1, (body view).2.on ((body view).2.document.run more)) := by
  obtain ⟨scope, hs⟩ := h.exists_scope?
  obtain ⟨-, hsettles⟩ := hbody view.document view.scope scope view.values h.reached hs
  exact again_of_settles hsettles more

theorem exists_run (hbody : Repeats body) (h : view.Stands) :
    ∃ operations, (body view).2.document = view.document.run operations := by
  obtain ⟨scope, hs⟩ := h.exists_scope?
  obtain ⟨-, hsettles⟩ := hbody view.document view.scope scope view.values h.reached hs
  exact hsettles.exists_run

theorem stands (hbody : Repeats body) (h : view.Stands) : (body view).2.Stands := by
  obtain ⟨operations, hrun⟩ := hbody.exists_run h
  obtain ⟨scope, hs⟩ := h.exists_scope?
  obtain ⟨hscope, -⟩ := hbody view.document view.scope scope view.values h.reached hs
  constructor
  case reached =>
    rw [hrun]
    exact h.reached.run operations
  case exists_scope? =>
    have hscope : (body view).2.scope = view.scope := hscope
    rw [hrun, hscope]
    exact h.reached.exists_scope? hs operations

end Repeats

/-- When a body is run once more, its trace has the same entries but for the documents. -/
def TracesAgain (body : View → α × View) (trace : View → List Call.Entry) : Prop :=
  ∀ view, view.Stands → ∀ more later, later = (body view).2.document.run more →
    trace (view.on later) = (trace view).map (Call.Entry.on later)

theorem TracesAgain.append {body : View → α × View} {first second : View → List Call.Entry}
    (hfirst : TracesAgain body first) (hsecond : TracesAgain body second) :
    TracesAgain body fun view => first view ++ second view := by
  intro view h more later hlater
  simp only [List.map_append, hfirst view h more later hlater, hsecond view h more later hlater]

/-- The one entry of a call that holds no others, or the last one of a call that does. -/
theorem tracesAgain_run (call : Call) :
    TracesAgain call.run fun view => [⟨call, call.run view⟩] := by
  intro view h more later hlater
  have hagain := (Call.repeats_run call).again h more
  rw [← hlater] at hagain
  simp only [hagain, List.map_cons, List.map_nil, Call.Entry.on]

theorem tracesAgain_goOn {body : View → Outcome} {next : View → Except Error α × View}
    {trace rest : View → List Call.Entry} (hbody : Repeats body) (hnext : Repeats next)
    (htrace : TracesAgain body trace) (hrest : TracesAgain next rest) :
    TracesAgain (goOn body next) fun view => trace view ++
      match body view with
      | (.error _, _) => []
      | (.ok (), view) => rest view := by
  intro view h more later hlater
  have hstands := hbody.stands h
  have hagain := hbody.again h
  have htrace := htrace view h
  simp only [goOn] at hlater
  beta_reduce
  generalize body view = outcome at *
  obtain ⟨result, inside⟩ := outcome
  cases result with
  | error e =>
    have hbody : body (view.on later) = (.error e, inside.on later) := by
      rw [hlater]
      exact hagain more
    simp only [htrace more later hlater, hbody, List.append_nil]
  | ok done =>
    obtain ⟨operations, hrun⟩ := hnext.exists_run hstands
    have hinside : later = inside.document.run (operations ++ more) := by
      rw [hlater, Document.run_append]
      exact congrArg (·.run more) hrun
    have hbody : body (view.on later) = (.ok done, inside.on later) := by
      rw [hinside]
      exact hagain (operations ++ more)
    have hrest : rest (inside.on later) = (rest inside).map (Call.Entry.on later) :=
      hrest inside hstands more later hlater
    simp only [htrace (operations ++ more) later hinside, hbody, hrest, List.map_append]

/-- The trace of what is run inside, after a search or in a region. -/
def traceInside {β : Type} (enter : View → Except Error β × View) (start : β → View → View)
    (trace : View → List Call.Entry) (view : View) : List Call.Entry :=
  match enter view with
  | (.error _, _) => []
  | (.ok answer, inside) => trace (start answer inside)

theorem tracesAgain_inside {β γ : Type} (enter : View → Except Error β × View)
    (start : β → View → View) (whole : View → γ × View) {body : View → α × View}
    {trace : View → List Call.Entry} (hbody : Repeats body) (htrace : TracesAgain body trace)
    (henter : ∀ view : View, view.Stands →
      view.document.Settles (effect enter view.scope view.values))
    (hstart : ∀ (view : View) answer inside, view.Stands → enter view = (.ok answer, inside) →
      (start answer inside).Stands ∧
        ∀ document, start answer (inside.on document) = (start answer inside).on document)
    (hfailed : ∀ view e inside, enter view = (.error e, inside) →
      (whole view).2.document = inside.document)
    (hwhole : ∀ (view : View) answer inside, view.Stands → enter view = (.ok answer, inside) →
      ∃ operations, (whole view).2.document =
        (body (start answer inside)).2.document.run operations) :
    TracesAgain whole (traceInside enter start trace) := by
  intro view h more later hlater
  have hagain := again_of_settles (henter view h)
  have hfailed := hfailed view
  have hstart := fun answer inside => hstart view answer inside h
  have hwhole := fun answer inside => hwhole view answer inside h
  unfold traceInside
  generalize enter view = entered at *
  obtain ⟨result, inside⟩ := entered
  cases result with
  | error e =>
    have henter : enter (view.on later) = (.error e, inside.on later) := by
      rw [hlater, hfailed e inside rfl]
      exact hagain more
    simp only [henter, List.map_nil]
  | ok answer =>
    obtain ⟨hstands, hwith⟩ := hstart answer inside rfl
    have hdocument : (start answer inside).document = inside.document := by
      have hsame := congrArg View.document (hwith inside.document)
      exact hsame
    obtain ⟨after, hafter⟩ := hwhole answer inside rfl
    obtain ⟨operations, hrun⟩ := hbody.exists_run hstands
    have hinner : later = (body (start answer inside)).2.document.run (after ++ more) := by
      rw [hlater, hafter, Document.run_append]
    have hinside : later = inside.document.run (operations ++ (after ++ more)) := by
      rw [hinner, hrun, hdocument, ← Document.run_append]
    have henter : enter (view.on later) = (.ok answer, inside.on later) := by
      rw [hinside]
      exact hagain (operations ++ (after ++ more))
    simp only [henter, hwith]
    exact htrace (start answer inside) hstands (after ++ more) later hinner

theorem tracesAgain_within (selector : String) {calls : List Call}
    (hcalls : TracesAgain (Call.runAll calls) (Call.traceAll calls)) :
    TracesAgain (Call.within selector calls).run (Call.trace (.within selector calls)) := by
  have htrace : Call.trace (.within selector calls) = fun view =>
      traceInside (fun view => view.resolve selector) (fun scope inside => { inside with scope })
          (Call.traceAll calls) view ++
        [⟨.within selector calls, (Call.within selector calls).run view⟩] := by
    funext view
    rw [Call.trace, traceInside]
    generalize view.resolve selector = resolved
    obtain ⟨result, found⟩ := resolved
    cases result <;> rfl
  have hinner : TracesAgain (Call.within selector calls).run
      (traceInside (fun view => view.resolve selector) (fun scope inside => { inside with scope })
        (Call.traceAll calls)) := by
    apply tracesAgain_inside _ _ _ (Call.repeats_runAll calls) hcalls
    · rintro ⟨document, i, values⟩ ⟨h, scope, hs⟩
      exact (Document.settles_resolve h hs selector).map fun answer => (answer, i, values)
    · intro view target inside h hresolve
      obtain rfl : (view.resolve selector).2 = inside := congrArg Prod.snd hresolve
      refine ⟨⟨h.reached.run [.resolve view.scope selector], ?_⟩, fun _ => rfl⟩
      exact exists_scope_of_resolve h.reached (congrArg Prod.fst hresolve)
    · intro view e inside hresolve
      simp only [Call.run, within, hresolve]
    · intro view target inside _ hresolve
      refine ⟨[], ?_⟩
      simp only [Call.run, within, hresolve]
      rfl
  rw [htrace]
  exact hinner.append (tracesAgain_run (.within selector calls))

theorem tracesAgain_each (selector : String) {items : List (List Call)}
    (hitems : TracesAgain (gather (Call.bodies items)) (Call.traceItems items)) :
    TracesAgain (Call.each selector items).run (Call.trace (.each selector items)) := by
  have hbodies := Call.repeats_bodies items
  have htrace : Call.trace (.each selector items) = fun view =>
      traceInside (fun view => view.enterRepeated selector) (fun _ inside => inside)
          (Call.traceItems items) view ++
        [⟨.each selector items, (Call.each selector items).run view⟩] := by
    funext view
    rw [Call.trace, traceInside]
    generalize view.enterRepeated selector = entered
    obtain ⟨result, inside⟩ := entered
    cases result <;> rfl
  have hinner : TracesAgain (Call.each selector items).run
      (traceInside (fun view => view.enterRepeated selector) (fun _ inside => inside)
        (Call.traceItems items)) := by
    apply tracesAgain_inside _ _ _ (repeats_gather hbodies) hitems
    · rintro ⟨document, i, values⟩ ⟨h, scope, hs⟩
      exact settles_enterRepeated h hs selector values
    · intro view target inside h henter
      exact ⟨(stands_of_enterRepeated h henter).1, fun _ => rfl⟩
    · intro view e inside henter
      simp only [Call.run, each, henter]
    · intro view target inside h henter
      obtain ⟨hstands, t, ht⟩ := stands_of_enterRepeated h henter
      obtain ⟨operations, hrun⟩ := (repeats_gather hbodies).exists_run hstands
      obtain ⟨t', ht'⟩ := hstands.reached.exists_scope? ht operations
      rw [← hrun] at ht'
      simp only [Call.run, each, henter]
      generalize gather (Call.bodies items) inside = gathered at *
      obtain ⟨result, last⟩ := gathered
      cases result with
      | error e => exact ⟨[], rfl⟩
      | ok frames => exact (settles_give ht' _ _ view.scope view.values).exists_run
  rw [htrace]
  exact hinner.append (tracesAgain_run (.each selector items))

namespace Call

mutual

theorem tracesAgain_trace (call : Call) : TracesAgain call.run (trace call) := by
  cases call with
  | within selector calls => exact tracesAgain_within selector (tracesAgain_traceAll calls)
  | each selector items => exact tracesAgain_each selector (tracesAgain_traceItems items)
  | text selector content => exact tracesAgain_run _
  | html selector value => exact tracesAgain_run _
  | append selector value => exact tracesAgain_run _
  | attr selector name value => exact tracesAgain_run _
  | remove selector => exact tracesAgain_run _

theorem tracesAgain_traceAll (calls : List Call) :
    TracesAgain (runAll calls) (traceAll calls) := by
  cases calls with
  | nil => exact fun _ _ _ _ _ => rfl
  | cons call rest =>
    exact tracesAgain_goOn (repeats_run call) (repeats_runAll rest) (tracesAgain_trace call)
      (tracesAgain_traceAll rest)

theorem tracesAgain_traceItems (items : List (List Call)) :
    TracesAgain (gather (bodies items)) (traceItems items) := by
  cases items with
  | nil => exact fun _ _ _ _ _ => rfl
  | cons calls rest =>
    have hnext : TracesAgain (gatherNext (bodies rest)) fun view =>
        traceItems rest { view with values := [] } :=
      fun view h => tracesAgain_traceItems rest { view with values := [] }
        ⟨h.reached, h.exists_scope?⟩
    rw [bodies, gather_cons_eq_goOn]
    exact tracesAgain_goOn (repeats_runAll calls) (repeats_gatherNext (repeats_bodies rest))
      (tracesAgain_traceAll calls) hnext

end

end Call

/-! ## Programs -/

/-- A program that is run a second time, by a view on the document that the first one has
    left: it ends in the same way and with the same values, each of its calls answers what
    it answered, with the same values so far, and the document stays as it is. The same
    holds of calls that are run whether or not they fail. -/
theorem runAll_again (tree : Tree) (compiler : Compiler) (optimizing : Bool)
    (operations : List Operation) (calls : List Call) :
    let view : View := { document := (Document.ofTree tree compiler optimizing).run operations }
    let first := Call.runAll calls view
    let tried := Call.attemptAll calls view
    Call.runAll calls { document := first.2.document } = first ∧
      Call.traceAll calls { document := first.2.document } =
        (Call.traceAll calls view).map (Call.Entry.on first.2.document) ∧
      Call.attemptAll calls { document := tried.2.document } = tried := by
  intro view first tried
  have hreached : view.document.Reached := ⟨tree, compiler, optimizing, operations, rfl⟩
  have hstart : (Document.ofTree tree compiler optimizing).Reached :=
    ⟨tree, compiler, optimizing, [], rfl⟩
  have hstands : view.Stands := by
    have hroot : (Declarations.start tree).scope? Declarations.rootScope = some _ := rfl
    exact ⟨hreached, hstart.exists_scope? hroot operations⟩
  refine ⟨(Call.repeats_runAll calls).again hstands [], ?_,
    (Call.repeats_attemptAll calls).again hstands []⟩
  exact Call.tracesAgain_traceAll calls view hstands [] first.2.document rfl

end View

end HtmlTemplate
