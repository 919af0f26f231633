-- SUMMARY: Operations that fail leave documents as they were, whatever compiler and backend these have.
import HtmlTemplate.Document.Backed
import HtmlTemplate.Proofs.Operations

/-!
# Failures

An operation that fails leaves the document as it was: no scope is made, nothing is
logged, the last renderer stays. A rendering is two steps, and when the second one
fails the first one, a compilation, stands. The document becomes clean in one way alone,
when a renderer of the current declarations is put in.

All this is shown for documents with any backend, of which those with the standard
backend are one kind.
-/

namespace HtmlTemplate

/-- The error that is answered, if one is. -/
def Error.of? {α : Type} : Except Error α → Option Error
  | .ok _ => none
  | .error e => some e

/-! ## Failed declarations -/

namespace Declarations

variable {d : Declarations} {id : ScopeId}

/-- A search that fails does so before anything is found, and not for a value. -/
theorem resolve_cases (d : Declarations) (id : ScopeId) (selector : String) :
    (∃ e, d.resolve id selector = (.error e, d) ∧ ∀ cause, e ≠ .render cause) ∨
      ∃ child, (d.resolve id selector).1 = .ok child := by
  unfold resolve
  split
  · exact .inl ⟨_, rfl, nofun⟩
  next scope _ =>
    split
    · exact .inr ⟨_, rfl⟩
    next =>
      split
      · exact .inl ⟨_, rfl, nofun⟩
      · exact .inr ⟨_, rfl⟩

theorem log_cases (d : Declarations) (id : ScopeId) (mutation : Mutation) :
    (∃ e, d.log id mutation = (.error e, d) ∧ ∀ cause, e ≠ .render cause) ∨
      ∃ slot, (d.log id mutation).1 = .ok slot := by
  unfold log
  split
  · exact .inl ⟨_, rfl, nofun⟩
  next scope _ => split <;> exact .inr ⟨_, rfl⟩

theorem nest_cases (d : Declarations) (id : ScopeId) :
    (∃ e, d.nest id = (.error e, d) ∧ ∀ cause, e ≠ .render cause) ∨
      ∃ context, (d.nest id).1 = .ok context := by
  unfold nest
  split
  · exact .inl ⟨_, rfl, nofun⟩
  next scope _ => split <;> exact .inr ⟨_, rfl⟩

/-- Declarations never make a document clean. -/
theorem Step.isDirty {d' : Declarations} (h : d.Step d') (hdirty : d.isDirty = true) :
    d'.isDirty = true := by
  cases h with
  | logged => rfl
  | _ => exact hdirty

end Declarations

/-! ## Operations -/

namespace BackedDocument

/-- Perform an operation: the error that it answers, if it fails, and the document after it. -/
def attempt (doc : BackedDocument) (operation : Operation) : Option Error × BackedDocument :=
  match operation with
  | .find selector => (doc.find selector).map Error.of? id
  | .resolve scope selector => (doc.resolve scope selector).map Error.of? id
  | .log scope mutation => (doc.log scope mutation).map Error.of? id
  | .nest scope => (doc.nest scope).map Error.of? id
  | .compile => doc.compile.map Error.of? id
  | .render arguments => (doc.render arguments).map Error.of? id

/-- The document after operations one after the other, whether they succeed or not. -/
def run (doc : BackedDocument) (operations : List Operation) : BackedDocument :=
  operations.foldl (fun doc operation => (doc.attempt operation).2) doc

/-- What a compilation answers and leaves behind. -/
inductive Compiled (doc : BackedDocument) :
    Except Error BackedRenderer × BackedDocument → Prop where
  | refused {e : CompileError} (h : doc.build = .error e) : Compiled doc (.error (.compile e), doc)
  | kept {renderer : BackedRenderer} (hclean : doc.isDirty = false)
      (h : doc.compiled = some renderer) : Compiled doc (.ok renderer, doc)
  | installed {renderer : BackedRenderer} (h : doc.build = .ok renderer) :
      Compiled doc (.ok renderer, doc.install renderer)

theorem compile_cases (doc : BackedDocument) : doc.Compiled doc.compile := by
  have hrecompile : doc.Compiled doc.recompile := by
    unfold recompile
    split
    next h => exact .refused h
    next h => exact .installed h
  unfold compile
  split
  next hclean hcompiled => exact .kept hclean hcompiled
  next => exact hrecompile

/-- An operation fails and changes nothing, or it declares something, or it goes by a renderer
    and may then fail for its arguments. -/
inductive Attempted (doc : BackedDocument) : Option Error × BackedDocument → Prop where
  | refused {e : Error} (h : ∀ cause, e ≠ .render cause) : Attempted doc (some e, doc)
  | declared {d : Declarations} (h : doc.declarations.Step d) :
      Attempted doc (none, { doc with declarations := d })
  | compiled {renderer : BackedRenderer} {after : BackedDocument}
      (h : doc.compile = (.ok renderer, after)) : Attempted doc (none, after)
  | failed {renderer : BackedRenderer} {after : BackedDocument} {cause : RenderError}
      (h : doc.compile = (.ok renderer, after)) : Attempted doc (some (.render cause), after)

/-- What declares something fails without a change, or succeeds. -/
theorem attempted_of_cases {α : Type} (doc : BackedDocument) {result : Except Error α × Declarations}
    (hcases : (∃ e, result = (.error e, doc.declarations) ∧ ∀ cause, e ≠ .render cause) ∨
      ∃ value, result.1 = .ok value)
    (hstep : doc.declarations.Step result.2) :
    doc.Attempted ((doc.withDeclarations result).map Error.of? id) := by
  rcases hcases with ⟨e, rfl, he⟩ | ⟨value, hvalue⟩
  · exact .refused he
  · have hanswer : (doc.withDeclarations result).map Error.of? id =
        (none, { doc with declarations := result.2 }) := by
      rw [Prod.map, withDeclarations, hvalue]
      rfl
    rw [hanswer]
    exact .declared hstep

theorem attempt_cases (doc : BackedDocument) (operation : Operation) :
    doc.Attempted (doc.attempt operation) := by
  cases operation with
  | find selector =>
    exact attempted_of_cases doc (Declarations.resolve_cases _ _ _) (Declarations.step_resolve _ _ _)
  | resolve scope selector =>
    exact attempted_of_cases doc (Declarations.resolve_cases _ _ _) (Declarations.step_resolve _ _ _)
  | log scope mutation =>
    exact attempted_of_cases doc (Declarations.log_cases _ _ _) (Declarations.step_log _ _ _)
  | nest scope =>
    exact attempted_of_cases doc (Declarations.nest_cases _ _) (Declarations.step_nest _ _)
  | compile =>
    have hcases := doc.compile_cases
    unfold attempt
    generalize hcompile : doc.compile = result at hcases ⊢
    cases hcases with
    | refused => exact .refused nofun
    | kept => exact .compiled hcompile
    | installed => exact .compiled hcompile
  | render arguments =>
    have hcases := doc.compile_cases
    unfold attempt render
    generalize hcompile : doc.compile = result at hcases ⊢
    have hrendered (renderer : BackedRenderer) (after : BackedDocument)
        (hresult : result = (.ok renderer, after)) : doc.Attempted
          (Error.of? ((renderer.render arguments).mapError Error.render), after) := by
      rw [hresult] at hcompile
      cases renderer.render arguments with
      | error cause => exact .failed hcompile
      | ok markup => exact .compiled hcompile
    cases hcases with
    | refused => exact .refused nofun
    | kept => exact hrendered _ _ rfl
    | installed => exact hrendered _ _ rfl

/-! ## Runs -/

/-- What no operation breaks holds after every run. -/
theorem run_induction {P : BackedDocument → Prop}
    (hattempt : ∀ {doc result}, P doc → doc.Attempted result → P result.2)
    {doc : BackedDocument} (h : P doc) (operations : List Operation) : P (doc.run operations) := by
  induction operations generalizing doc with
  | nil => exact h
  | cons operation rest ih => exact ih (hattempt h (doc.attempt_cases operation))

/-- The renderer that is kept comes from one of the compilations so far. -/
def Numbered (doc : BackedDocument) : Prop :=
  ∀ renderer, doc.compiled = some renderer → renderer.build < doc.builds

theorem build_eq_ok {doc : BackedDocument} {renderer : BackedRenderer}
    (h : doc.build = .ok renderer) : renderer.build = doc.builds := by
  unfold build at h
  split at h
  · cases h
  next template _ =>
    cases hrender : doc.backend template doc.parameters with
    | error e => rw [hrender] at h; cases h
    | ok render => rw [hrender] at h; cases h; rfl

theorem Numbered.compile {doc after : BackedDocument} (h : doc.Numbered) {renderer : BackedRenderer}
    (hcompile : doc.compile = (.ok renderer, after)) : after.Numbered := by
  have hcases := doc.compile_cases
  rw [hcompile] at hcases
  cases hcases with
  | kept => exact h
  | installed hbuild =>
    rintro _ ⟨⟩
    rw [build_eq_ok hbuild]
    exact Nat.lt_succ_self doc.builds

theorem numbered_run (tree : Tree) (compiler : Compiler) (backend : Backend)
    (operations : List Operation) : ((ofTree tree compiler backend).run operations).Numbered := by
  refine run_induction (P := Numbered) ?_ (fun _ h => by cases h) operations
  intro doc result h hattempted
  cases hattempted with
  | refused => exact h
  | declared => exact h
  | compiled hcompile => exact h.compile hcompile
  | failed hcompile => exact h.compile hcompile

/-- A document that a compilation makes clean has a renderer that was made just then. -/
theorem Numbered.installed {doc after : BackedDocument} (h : doc.Numbered)
    (hdirty : doc.isDirty = true) {renderer : BackedRenderer}
    (hcompile : doc.compile = (.ok renderer, after)) :
    doc.build = .ok renderer ∧ after.compiled = some renderer ∧
      ∀ old, doc.compiled = some old → old.build < renderer.build := by
  have hcases := doc.compile_cases
  rw [hcompile] at hcases
  cases hcases with
  | kept hclean => cases hdirty.symm.trans hclean
  | installed hbuild =>
    refine ⟨hbuild, rfl, fun old hold => ?_⟩
    rw [build_eq_ok hbuild]
    exact h old hold

end BackedDocument

/-! ## The standard backend -/

namespace Document

theorem backed_recompile (doc : Document) :
    doc.backed.recompile = (doc.recompile.1.map Renderer.backed, doc.recompile.2.backed) := by
  unfold recompile BackedDocument.recompile BackedDocument.build
  have htemplate : doc.backed.compiler.compile doc.backed.declarations = doc.template := rfl
  rw [htemplate]
  cases doc.template <;> rfl

theorem backed_compile (doc : Document) :
    doc.backed.compile = (doc.compile.1.map Renderer.backed, doc.compile.2.backed) := by
  unfold compile BackedDocument.compile
  have hdirty : doc.backed.isDirty = doc.isDirty := rfl
  have hcompiled : doc.backed.compiled = doc.compiled.map Renderer.backed := rfl
  rw [hdirty, hcompiled]
  cases doc.isDirty with
  | true => exact doc.backed_recompile
  | false =>
    cases doc.compiled with
    | none => exact doc.backed_recompile
    | some renderer => rfl

theorem backed_render (doc : Document) (arguments : Frame) :
    doc.backed.render arguments = ((doc.render arguments).1, (doc.render arguments).2.backed) := by
  unfold render BackedDocument.render
  rw [backed_compile]
  obtain ⟨result, after⟩ := doc.compile
  cases result <;> rfl

theorem backed_perform (doc : Document) (operation : Operation) :
    (doc.backed.attempt operation).2 = (doc.perform operation).backed := by
  cases operation with
  | find | resolve | log | nest => rfl
  | compile =>
    change doc.backed.compile.2 = _
    rw [backed_compile]
    rfl
  | render arguments =>
    change (doc.backed.render arguments).2 = _
    rw [backed_render]
    rfl

theorem backed_run (doc : Document) (operations : List Operation) :
    doc.backed.run operations = (doc.run operations).backed := by
  induction operations generalizing doc with
  | nil => rfl
  | cons operation rest ih =>
    rw [run, List.foldl_cons, BackedDocument.run, List.foldl_cons, backed_perform]
    exact ih (doc.perform operation)

end Document

namespace BackedDocument

/-- An operation that fails leaves the document as it was, but for a rendering that fails for
    its arguments: this one leaves the document that a compilation leaves, which succeeds.
    The document becomes clean only when a renderer of the current declarations is put in.
    With the standard backend it is a `Document`. -/
theorem attempt_run (tree : Tree) (compiler : Compiler) (backend : Backend)
    (operations : List Operation) :
    let doc := (ofTree tree compiler backend).run operations
    (∀ optimizing, backend = .interpreter optimizing →
      doc = ((Document.ofTree tree compiler optimizing).run operations).backed) ∧
    ∀ operation answer after, doc.attempt operation = (answer, after) →
      (∀ e, answer = some e → (∀ cause, e ≠ .render cause) → after = doc) ∧
      (∀ cause, answer = some (.render cause) →
        ∃ renderer, doc.compile = (.ok renderer, after)) ∧
      (doc.isDirty = true → after.isDirty = false →
        ∃ renderer, doc.compile = (.ok renderer, after) ∧ doc.build = .ok renderer ∧
          after.compiled = some renderer ∧
          ∀ old, doc.compiled = some old → old.build < renderer.build) := by
  intro doc
  have hnumbered : doc.Numbered := numbered_run tree compiler backend operations
  constructor
  · rintro optimizing rfl
    exact ((Document.ofTree tree compiler optimizing).backed_run operations)
  · intro operation answer after hattempt
    have hattempted := doc.attempt_cases operation
    rw [hattempt] at hattempted
    cases hattempted with
    | refused h =>
      refine ⟨fun _ _ _ => rfl, fun cause hcause => ?_, fun hdirty hclean => ?_⟩
      · exact absurd (Option.some.inj hcause) (h cause)
      · cases hdirty.symm.trans hclean
    | declared hstep =>
      refine ⟨nofun, nofun, fun hdirty hclean => ?_⟩
      cases (hstep.isDirty hdirty).symm.trans hclean
    | compiled hcompile =>
      exact ⟨nofun, nofun, fun hdirty _ => ⟨_, hcompile, hnumbered.installed hdirty hcompile⟩⟩
    | @failed renderer _ cause hcompile =>
      refine ⟨fun e he hother => ?_, fun _ _ => ⟨renderer, hcompile⟩,
        fun hdirty _ => ⟨_, hcompile, hnumbered.installed hdirty hcompile⟩⟩
      exact absurd (Option.some.inj he).symm (hother cause)

/-- The standard backend for templates with a number of slots at most. -/
def upTo (count : Nat) : Backend := fun template parameters =>
  if parameters.arity ≤ count then Backend.interpreter true template parameters
  else .error (.rejected "too many slots")

/-- A rendering fails for a list that is no text, and the document is compiled then. When a
    second slot is refused, the renderer for the first one stays. -/
theorem attempt_run_section :
    let doc := (ofTree Document.sectionTree {} (upTo 1)).run
      [.find "p", .log ⟨1⟩ { kind := Mutation.append }]
    let later := (ofTree Document.sectionTree {} (upTo 1)).run
      [.find "p", .log ⟨1⟩ { kind := Mutation.append }, .compile,
        .log ⟨1⟩ { kind := Mutation.remove }]
    (doc.isDirty = true ∧
      ∃ renderer after, doc.attempt (.render [.list []]) =
          (some (.render (.notRenderable ⟨⟨0⟩, 0⟩ .list)), after) ∧
        doc.compile = (.ok renderer, after) ∧ after.isDirty = false ∧
        after.compiled = some renderer) ∧
    later.attempt .compile = (some (.compile (.rejected "too many slots")), later) ∧
      later.compiled.isSome = true := by
  obtain ⟨-, hattempt⟩ := attempt_run Document.sectionTree {} (upTo 1)
    [.find "p", .log ⟨1⟩ { kind := Mutation.append }]
  obtain ⟨-, hlater⟩ := attempt_run Document.sectionTree {} (upTo 1)
    [.find "p", .log ⟨1⟩ { kind := Mutation.append }, .compile,
      .log ⟨1⟩ { kind := Mutation.remove }]
  obtain ⟨-, -, hclean⟩ := hattempt (.render [.list []]) _ _ rfl
  obtain ⟨hsame, -, -⟩ := hlater .compile _ _ rfl
  obtain ⟨renderer, hcompile, -, hkept, -⟩ := hclean rfl rfl
  exact ⟨⟨rfl, renderer, _, Prod.ext rfl rfl, hcompile, rfl, hkept⟩,
    Prod.ext rfl (hsame _ rfl nofun), rfl⟩

end BackedDocument

end HtmlTemplate
