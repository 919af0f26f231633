-- SUMMARY: Runs of document operations, what one operation does, and what every run keeps.
import HtmlTemplate.Document
import HtmlTemplate.Proofs.Declarations.WellFormed

/-!
# Runs of a document

A document is only ever changed by its operations: searching, logging, entering
repeated regions, compiling and rendering. A run is any list of them, each of which
may also fail. `Document.Step` says once what one operation does to a document, so
that what holds along every run is shown for three cases.
-/

namespace HtmlTemplate

/-- An operation on a document, with its arguments. -/
inductive Operation where
  | find (selector : String)
  | resolve (scope : ScopeId) (selector : String)
  | log (scope : ScopeId) (mutation : Mutation)
  | nest (scope : ScopeId)
  | compile
  | render (arguments : Frame)

namespace Document

/-- The document after an operation, whether it succeeds or not. -/
def perform (doc : Document) : Operation → Document
  | .find selector => (doc.find selector).2
  | .resolve scope selector => (doc.resolve scope selector).2
  | .log scope mutation => (doc.log scope mutation).2
  | .nest scope => (doc.nest scope).2
  | .compile => doc.compile.2
  | .render arguments => (doc.render arguments).2

/-- The document after operations one after the other. -/
def run (doc : Document) (operations : List Operation) : Document := operations.foldl perform doc

/-! ## One operation -/

/-- The document after a compilation that succeeded. -/
def rebuilt (doc : Document) (template : Template) : Document :=
  { doc with
    declarations := { doc.declarations with isDirty := false }
    compiled := some ⟨doc.builds, .build doc.optimizing template doc.parameters⟩
    builds := doc.builds + 1 }

/-- What one operation does to a document. -/
inductive Step (doc : Document) : Document → Prop where
  | same : Step doc doc
  | declared {d : Declarations} (h : doc.declarations.Step d) :
      Step doc { doc with declarations := d }
  /-- Documents are compiled only when something is logged or nothing was compiled. -/
  | rebuilt {template : Template} (hneed : doc.isDirty = true ∨ doc.compiled = none)
      (h : doc.template = .ok template) : Step doc (doc.rebuilt template)

theorem step_compile (doc : Document) : doc.Step doc.compile.2 := by
  have hrecompile : (doc.isDirty = true ∨ doc.compiled = none) → doc.Step doc.recompile.2 := by
    intro hneed
    unfold recompile
    split
    · exact .same
    next template h => exact .rebuilt hneed h
  unfold compile
  split
  · exact .same
  next hother =>
    apply hrecompile
    cases hdirty : doc.isDirty with
    | true => exact .inl rfl
    | false =>
      cases hcompiled : doc.compiled with
      | none => exact .inr rfl
      | some renderer => exact absurd hcompiled (hother renderer hdirty)

theorem render_snd (doc : Document) (arguments : Frame) :
    (doc.render arguments).2 = doc.compile.2 := by
  unfold render
  split <;> simp [*]

theorem step_perform (doc : Document) (operation : Operation) :
    doc.Step (doc.perform operation) := by
  cases operation with
  | find selector => exact .declared (Declarations.step_resolve _ _ _)
  | resolve scope selector => exact .declared (Declarations.step_resolve _ _ _)
  | log scope mutation => exact .declared (Declarations.step_log _ _ _)
  | nest scope => exact .declared (Declarations.step_nest _ _)
  | compile => exact doc.step_compile
  | render arguments =>
    rw [perform, render_snd]
    exact doc.step_compile

/-! ## Runs -/

theorem run_append (doc : Document) (done rest : List Operation) :
    doc.run (done ++ rest) = (doc.run done).run rest := List.foldl_append

theorem run_concat (doc : Document) (operations : List Operation) (operation : Operation) :
    doc.run (operations ++ [operation]) = (doc.run operations).perform operation := by
  simp [run]

/-- What no operation breaks holds after every run. -/
theorem run_induction {P : Document → Prop} (hstep : ∀ {doc doc'}, P doc → doc.Step doc' → P doc')
    {doc : Document} (h : P doc) (operations : List Operation) : P (doc.run operations) := by
  induction operations generalizing doc with
  | nil => exact h
  | cons operation rest ih => exact ih (hstep h (doc.step_perform operation))

section Runs

variable (doc : Document) (operations : List Operation)

theorem compiler_run : (doc.run operations).compiler = doc.compiler := by
  refine run_induction (P := fun d => d.compiler = doc.compiler) ?_ rfl operations
  intro d d' h hstep
  cases hstep <;> exact h

theorem optimizing_run : (doc.run operations).optimizing = doc.optimizing := by
  refine run_induction (P := fun d => d.optimizing = doc.optimizing) ?_ rfl operations
  intro d d' h hstep
  cases hstep <;> exact h

theorem tree_run : (doc.run operations).tree = doc.tree := by
  refine run_induction (P := fun d => d.tree = doc.tree) ?_ rfl operations
  intro d d' h hstep
  cases hstep with
  | same => exact h
  | declared hd => cases hd <;> exact h
  | rebuilt => exact h

end Runs

theorem wellFormed_run (tree : Tree) (compiler : Compiler) (optimizing : Bool)
    (operations : List Operation) :
    ((ofTree tree compiler optimizing).run operations).declarations.WellFormed := by
  refine run_induction (P := fun doc => doc.declarations.WellFormed) ?_ (.start tree) operations
  intro doc doc' h hstep
  cases hstep with
  | same => exact h
  | declared hd => exact h.step hd
  | rebuilt => exact h.clean

/-! ## A small tree -/

/-- A tree with a paragraph in a section, for documents that are run as examples. -/
def sectionTree : Tree :=
  let (tree, outer) := Tree.empty.createElement "section"
  let (tree, inner) := tree.createElement "p"
  let (tree, text) := tree.create (.text "a < b")
  ((tree.append Tree.root (some outer)).append outer (some inner)).append inner (some text)

end Document

end HtmlTemplate
