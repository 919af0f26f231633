-- SUMMARY: A program that is run again settles: it answers the same and changes nothing.
import HtmlTemplate.Proofs.Repeating
import HtmlTemplate.Proofs.Views

/-!
# Views that ask again

A view asks its document for scopes, slots and regions, and all of them are remembered. So
what is done to a view is done to its document in a way that settles, whether it fails or
not. Each operation of views is written here as something that is done to the document, and
calls follow by the same steps that they are run by.
-/

namespace HtmlTemplate

namespace View

variable {α β : Type}

/-- The document comes from operations on a tree and has the scope of the view. -/
structure Stands (view : View) : Prop where
  reached : view.document.Reached
  exists_scope? : ∃ scope, view.document.declarations.scope? view.scope = some scope

/-- What is done to a view, as done to its document: the answer, with the scope and the
    values of the view afterwards. -/
def effect (body : View → α × View) (scope : ScopeId) (values : Frame) (document : Document) :
    (α × ScopeId × Frame) × Document :=
  let (answer, last) := body { document, scope, values }
  ((answer, last.scope, last.values), last.document)

/-- Wherever there is a view, the body leaves its scope as it is, and when it is run again
    later on it does the same and changes nothing. -/
def Repeats (body : View → α × View) : Prop :=
  ∀ (document : Document) (i : ScopeId) (scope : Scope) (values : Frame), document.Reached →
    document.declarations.scope? i = some scope →
      (effect body i values document).1.2.1 = i ∧ document.Settles (effect body i values)

/-! ## Operations -/

theorem effect_give (target : ScopeId) (mutation : Mutation) (value : Value) (scope : ScopeId)
    (values : Frame) :
    effect (fun view => view.give target mutation value) scope values =
      Document.andThen (·.log target mutation) (fun e => (.error e, scope, values))
        fun slot document => ((.ok (), scope, values.put slot value), document) := by
  funext document
  simp only [effect, give, Document.andThen]
  generalize document.log target mutation = logged
  obtain ⟨result, last⟩ := logged
  cases result <;> rfl

theorem effect_declare (selector : String) (mutation : Mutation) (value : Value) (scope : ScopeId)
    (values : Frame) :
    effect (fun view => view.declare selector mutation value) scope values =
      Document.andThen (·.resolve scope selector) (fun e => (.error e, scope, values))
        fun target => effect (fun view => view.give target mutation value) scope values := by
  funext document
  simp only [effect, declare, resolve, Document.andThen]
  generalize document.resolve scope selector = resolved
  obtain ⟨result, found⟩ := resolved
  cases result <;> rfl

theorem effect_within (selector : String) (body : View → Outcome) (scope : ScopeId)
    (values : Frame) :
    effect (fun view => view.within selector body) scope values =
      Document.andThen (·.resolve scope selector) (fun e => (.error e, scope, values))
        fun inner document =>
          let ((result, _, last), document) := effect body inner values document
          ((result, scope, last), document) := by
  funext document
  simp only [effect, within, resolve, Document.andThen]
  generalize document.resolve scope selector = resolved
  obtain ⟨result, found⟩ := resolved
  cases result <;> rfl

/-- Go on after a body, unless it has failed. -/
def goOn (body : View → Outcome) (next : View → Except Error α × View) (view : View) :
    Except Error α × View :=
  match body view with
  | (.error e, view) => (.error e, view)
  | (.ok (), view) => next view

/-- Gather the frames of further bodies after the one that a body has left. -/
def gatherNext (rest : List (View → Outcome)) (view : View) : Except Error (List Frame) × View :=
  ((gather rest { view with values := [] }).1.map (view.values :: ·),
    (gather rest { view with values := [] }).2)

theorem gather_cons_eq_goOn (body : View → Outcome) (rest : List (View → Outcome)) :
    gather (body :: rest) = goOn body (gatherNext rest) := by
  funext view
  rw [gather_cons]
  rfl

/-- After the frames are gathered, leave the region and give its scope the repetition. -/
def giveFrames (target scope : ScopeId) (values : Frame) :
    Except Error (List Frame) × ScopeId × Frame → Document →
      (Except Error Unit × ScopeId × Frame) × Document
  | (.error e, _), document => ((.error e, scope, values), document)
  | (.ok frames, _), document =>
    effect (fun view => view.give target { kind := Mutation.repeatEach } (.list frames))
      scope values document

theorem effect_enterRepeated (selector : String) (scope : ScopeId) (values : Frame) :
    effect (fun view => view.enterRepeated selector) scope values =
      Document.andThen (·.resolve scope selector) (fun e => (.error e, scope, values))
        fun target => Document.andThen (·.nest target) (fun e => (.error e, scope, values))
          fun nested document =>
            ((.ok target, ((document.declarations.context? nested).map (·.scope)).getD target, []),
              document) := by
  funext document
  simp only [effect, enterRepeated, resolve, Document.andThen]
  generalize document.resolve scope selector = resolved
  obtain ⟨result, found⟩ := resolved
  cases result with
  | error e => rfl
  | ok target =>
    dsimp only
    generalize found.nest target = entered
    obtain ⟨result, entered⟩ := entered
    cases result <;> rfl

/-- Inside of a region, gather the frames of the bodies and give them to its scope. -/
def repeatBodies (bodies : List (View → Outcome)) (scope : ScopeId) (values : Frame) :
    Except Error ScopeId × ScopeId × Frame → Document →
      (Except Error Unit × ScopeId × Frame) × Document
  | (.error e, _), document => ((.error e, scope, values), document)
  | (.ok target, inner, inside), document =>
    giveFrames target scope values (effect (gather bodies) inner inside document).1
      (effect (gather bodies) inner inside document).2

theorem effect_each (selector : String) (bodies : List (View → Outcome)) (scope : ScopeId)
    (values : Frame) :
    effect (fun view => view.each selector bodies) scope values = fun document =>
      repeatBodies bodies scope values
        (effect (fun view => view.enterRepeated selector) scope values document).1
        (effect (fun view => view.enterRepeated selector) scope values document).2 := by
  funext document
  simp only [effect, each]
  generalize enterRepeated { document, scope, values } selector = entered
  obtain ⟨result, inside⟩ := entered
  cases result with
  | error e => rfl
  | ok target =>
    dsimp only
    generalize hgather : gather bodies inside = gathered
    obtain ⟨result, last⟩ := gathered
    simp only [repeatBodies, effect, hgather]
    cases result <;> rfl

/-! ## Repeating operations -/

variable {document : Document} {i : ScopeId} {scope : Scope}

/-- What a search answers is a scope of the document that it leaves. -/
theorem exists_scope_of_resolve (h : document.Reached) {selector : String} {k : ScopeId}
    (hanswer : (document.resolve i selector).1 = .ok k) :
    ∃ t, (document.resolve i selector).2.declarations.scope? k = some t := by
  have hreached : (document.resolve i selector).2.Reached := h.run [.resolve i selector]
  have hremembers : (document.resolve i selector).2.declarations.Remembers i selector k :=
    Declarations.child?_of_resolve hanswer
  obtain ⟨-, t, -, -, ht, -⟩ := hreached.traced.finds hremembers
  exact ⟨t, ht⟩

theorem settles_give {target : ScopeId} (htarget : document.declarations.scope? target = some scope)
    (mutation : Mutation) (value : Value) (i : ScopeId) (values : Frame) :
    document.Settles (effect (fun view => view.give target mutation value) i values) := by
  rw [effect_give]
  apply (Document.settles_log htarget mutation).andThen
  intro slot _
  exact .pure _ _

theorem scope_andThen {act : Document → Except Error β × Document}
    {next : β → Document → (Except Error α × ScopeId × Frame) × Document} {values : Frame}
    (hnext : ∀ answer document, (next answer document).1.2.1 = i) (document : Document) :
    (Document.andThen act (fun e => (.error e, i, values)) next document).1.2.1 = i := by
  unfold Document.andThen
  split
  next => rfl
  next => exact hnext _ _

theorem scope_give (target : ScopeId) (mutation : Mutation) (value : Value) (i : ScopeId)
    (values : Frame) (document : Document) :
    (effect (fun view => view.give target mutation value) i values document).1.2.1 = i := by
  rw [effect_give]
  apply scope_andThen
  exact fun _ _ => rfl

theorem repeats_declare (selector : String) (mutation : Mutation) (value : Value) :
    Repeats fun view => view.declare selector mutation value := by
  intro document i scope values h hs
  rw [effect_declare]
  refine ⟨?_, ?_⟩
  · exact scope_andThen (fun target => scope_give target mutation value i values) document
  · apply (Document.settles_resolve h hs selector).andThen
    intro target hanswer
    obtain ⟨t, ht⟩ := exists_scope_of_resolve h hanswer
    exact settles_give ht mutation value i values

theorem repeats_within (selector : String) {body : View → Outcome} (hbody : Repeats body) :
    Repeats fun view => view.within selector body := by
  intro document i scope values h hs
  rw [effect_within]
  refine ⟨?_, ?_⟩
  · apply scope_andThen
    exact fun _ _ => rfl
  · apply (Document.settles_resolve h hs selector).andThen
    intro inner hanswer
    obtain ⟨t, ht⟩ := exists_scope_of_resolve h hanswer
    have hreached : (document.resolve i selector).2.Reached := h.run [.resolve i selector]
    obtain ⟨-, hsettles⟩ := hbody _ inner t values hreached ht
    exact hsettles.map fun (result, _, last) => (result, i, last)

theorem repeats_pure (answer : α) : Repeats fun view => (answer, view) := by
  intro document i scope values _ _
  exact ⟨rfl, .pure (answer, i, values) document⟩

/-- A body, and what is done next with its answer. -/
theorem repeats_bind {body : View → α × View} {next : α → View → β × View} (hbody : Repeats body)
    (hnext : ∀ answer, Repeats (next answer)) :
    Repeats fun view => next (body view).1 (body view).2 := by
  intro document i scope values h hs
  obtain ⟨hscope, hsettles⟩ := hbody document i scope values h hs
  obtain ⟨operations, hrun⟩ := hsettles.exists_run
  obtain ⟨t, ht⟩ := h.exists_scope? hs operations
  have hreached := h.run operations
  rw [← hrun] at ht hreached
  let after (answer : α × ScopeId × Frame) : Document → (β × ScopeId × Frame) × Document :=
    effect (next answer.1) answer.2.1 answer.2.2
  have hafter : (after (effect body i values document).1 (effect body i values document).2).1.2.1 =
        i ∧ (effect body i values document).2.Settles (after (effect body i values document).1) := by
    generalize (effect body i values document).1 = answer at hscope
    obtain ⟨answer, inner, last⟩ := answer
    obtain rfl : inner = i := hscope
    exact hnext answer _ inner t last hreached ht
  exact ⟨hafter.1, hsettles.bind after hafter.2⟩

theorem repeats_map {body : View → α × View} (hbody : Repeats body) (change : α → β) :
    Repeats fun view => (change (body view).1, (body view).2) :=
  repeats_bind hbody fun answer => repeats_pure (change answer)

theorem repeats_goOn {body : View → Outcome} {next : View → Except Error α × View}
    (hbody : Repeats body) (hnext : Repeats next) : Repeats (goOn body next) := by
  let proceed (result : Except Error Unit) (view : View) : Except Error α × View :=
    match result with
    | .error e => (.error e, view)
    | .ok () => next view
  have hgoOn : goOn body next = fun view => proceed (body view).1 (body view).2 := by
    funext view
    unfold goOn
    generalize body view = outcome
    obtain ⟨result, inside⟩ := outcome
    cases result <;> rfl
  rw [hgoOn]
  apply repeats_bind hbody
  intro result
  cases result with
  | error e => exact repeats_pure (Except.error e)
  | ok done => exact hnext

mutual

theorem repeats_gather {bodies : List (View → Outcome)} (hbodies : ∀ body ∈ bodies, Repeats body) :
    Repeats (gather bodies) := by
  cases bodies with
  | nil => exact repeats_pure (Except.ok [])
  | cons body rest =>
    rw [List.forall_mem_cons] at hbodies
    rw [gather_cons_eq_goOn]
    exact repeats_goOn hbodies.1 (repeats_gatherNext hbodies.2)

theorem repeats_gatherNext {rest : List (View → Outcome)} (hrest : ∀ body ∈ rest, Repeats body) :
    Repeats (gatherNext rest) := by
  intro document i scope values h hs
  obtain ⟨hscope, hsettles⟩ := repeats_gather hrest document i scope [] h hs
  exact ⟨hscope, hsettles.map fun (frames, last) => (frames.map (values :: ·), last)⟩

end

theorem scope_giveFrames (target i : ScopeId) (values : Frame)
    (gathered : Except Error (List Frame) × ScopeId × Frame) (document : Document) :
    (giveFrames target i values gathered document).1.2.1 = i := by
  obtain ⟨result, -⟩ := gathered
  cases result with
  | error e => rfl
  | ok frames => exact scope_give _ _ _ _ _ _

theorem settles_giveFrames {target : ScopeId}
    (htarget : document.declarations.scope? target = some scope) (i : ScopeId) (values : Frame)
    (gathered : Except Error (List Frame) × ScopeId × Frame) :
    document.Settles (giveFrames target i values gathered) := by
  obtain ⟨result, -⟩ := gathered
  cases result with
  | error e => exact .pure _ _
  | ok frames => exact settles_give htarget _ _ i values

/-- The scope inside of a region is that of its context, now and later. -/
theorem exists_scope_of_nest (h : document.Reached) {target : ScopeId}
    (htarget : document.declarations.scope? target = some scope) {nested : ContextId}
    (hanswer : (document.nest target).1 = .ok nested) :
    ∃ t inner region, (document.nest target).2.declarations.scope? target = some t ∧
      (document.nest target).2.declarations.scope? inner = some region ∧
      ∀ more, ((((document.nest target).2.run more).declarations.context? nested).map
        (·.scope)).getD target = inner := by
  have hreached : (document.nest target).2.Reached := h.run [.nest target]
  obtain ⟨c, t, hanswer', ht, hnested⟩ := Declarations.exists_nest htarget
  obtain rfl : c = nested := Except.ok.inj (hanswer'.symm.trans hanswer)
  have ht : (document.nest target).2.declarations.scope? target = some t := ht
  obtain ⟨-, x, hx⟩ := hreached.wellFormed.nested_of ht hnested
  obtain ⟨region, hregion, -⟩ := hreached.traced.madeWith hx
  refine ⟨t, x.scope, region, ht, hregion, fun more => ?_⟩
  obtain ⟨y, hy, hscope⟩ := (Document.extends_run hreached.wellFormed more).context hx
  rw [hy, Option.map_some, Option.getD_some, hscope]

theorem settles_enterRepeated (h : document.Reached)
    (hs : document.declarations.scope? i = some scope) (selector : String) (values : Frame) :
    document.Settles (effect (fun view => view.enterRepeated selector) i values) := by
  rw [effect_enterRepeated]
  apply (Document.settles_resolve h hs selector).andThen
  intro target hanswer
  obtain ⟨t, ht⟩ := exists_scope_of_resolve h hanswer
  have hfound : (document.resolve i selector).2.Reached := h.run [.resolve i selector]
  apply (Document.settles_nest hfound ht).andThen
  intro nested hnested
  obtain ⟨_, _, _, -, -, hlook⟩ := exists_scope_of_nest hfound ht hnested
  exact .read fun more =>
    congrArg (Except.ok target, ·, []) ((hlook more).trans (hlook []).symm)

/-- Inside of a region that was entered there is a scope to search from, beside the scope
    that is repeated. -/
theorem stands_of_enterRepeated {view inside : View} (h : view.Stands) {selector : String}
    {target : ScopeId} (henter : view.enterRepeated selector = (.ok target, inside)) :
    inside.Stands ∧ ∃ t, inside.document.declarations.scope? target = some t := by
  obtain ⟨found, nested, hresolve, hanswer, rfl⟩ := enterRepeated_eq_ok henter
  obtain rfl : { view with document := (view.document.resolve view.scope selector).2 } = found :=
    congrArg Prod.snd hresolve
  have hfound : (view.document.resolve view.scope selector).2.Reached :=
    h.reached.run [.resolve view.scope selector]
  obtain ⟨t, ht⟩ := exists_scope_of_resolve h.reached (congrArg Prod.fst hresolve)
  obtain ⟨t', inner, region, ht', hregion, hlook⟩ := exists_scope_of_nest hfound ht hanswer
  refine ⟨⟨hfound.run [.nest target], region, ?_⟩, t', ht'⟩
  rw [← hlook []] at hregion
  exact hregion

theorem repeats_each (selector : String) {bodies : List (View → Outcome)}
    (hbodies : ∀ body ∈ bodies, Repeats body) :
    Repeats fun view => view.each selector bodies := by
  intro document i scope values h hs
  have hstands : View.Stands ⟨document, i, values⟩ := ⟨h, scope, hs⟩
  have hafter : let entered := effect (fun view => view.enterRepeated selector) i values document
      (repeatBodies bodies i values entered.1 entered.2).1.2.1 = i ∧
        entered.2.Settles (repeatBodies bodies i values entered.1) := by
    cases henter : (View.mk document i values).enterRepeated selector with
    | mk result inside =>
    simp only [effect, henter]
    cases result with
    | error e => exact ⟨rfl, .pure _ _⟩
    | ok target =>
      obtain ⟨⟨hreached, region, hregion⟩, t, ht⟩ := stands_of_enterRepeated hstands henter
      obtain ⟨-, hgather⟩ :=
        repeats_gather hbodies inside.document inside.scope region inside.values hreached hregion
      obtain ⟨operations, hrun⟩ := hgather.exists_run
      obtain ⟨t', ht'⟩ := hreached.exists_scope? ht operations
      rw [← hrun] at ht'
      refine ⟨scope_giveFrames _ _ _ _ _, ?_⟩
      exact hgather.bind (giveFrames target i values) (settles_giveFrames ht' i values _)
  rw [effect_each]
  exact ⟨hafter.1, (settles_enterRepeated h hs selector values).bind
    (repeatBodies bodies i values) hafter.2⟩

/-! ## Repeating calls -/

namespace Call

mutual

theorem repeats_run (call : Call) : Repeats call.run := by
  cases call with
  | text selector content => exact repeats_declare selector _ _
  | html selector value => exact repeats_declare selector _ _
  | append selector value => exact repeats_declare selector _ _
  | attr selector name value => exact repeats_declare selector _ _
  | remove selector => exact repeats_declare selector _ _
  | within selector calls => exact repeats_within selector (repeats_runAll calls)
  | each selector items => exact repeats_each selector (repeats_bodies items)

theorem repeats_runAll (calls : List Call) : Repeats (runAll calls) := by
  cases calls with
  | nil => exact repeats_pure (Except.ok ())
  | cons call rest =>
    have hcons : runAll (call :: rest) = goOn call.run (runAll rest) := by
      funext view
      rw [runAll]
      rfl
    rw [hcons]
    exact repeats_goOn (repeats_run call) (repeats_runAll rest)

theorem repeats_bodies (items : List (List Call)) : ∀ body ∈ bodies items, Repeats body := by
  cases items with
  | nil => nofun
  | cons calls rest => exact List.forall_mem_cons.mpr ⟨repeats_runAll calls, repeats_bodies rest⟩

end

/-- Calls that are run whether or not they fail. -/
theorem repeats_attemptAll (calls : List Call) : Repeats (attemptAll calls) := by
  induction calls with
  | nil => exact repeats_pure []
  | cons call rest ih =>
    exact repeats_bind (repeats_run call) fun result => repeats_map ih (result :: ·)

end Call

end View

end HtmlTemplate
