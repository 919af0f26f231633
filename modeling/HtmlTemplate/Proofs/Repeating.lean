-- SUMMARY: Asking again: what was asked of a document is answered in the same way later on, and changes nothing.
import HtmlTemplate.Proofs.Declarations.Origins
import HtmlTemplate.Proofs.Slots

/-!
# Asking again

Searches, slots and regions are remembered by the document that they were first asked of.
What is asked again gets the same answer and leaves the document as it is, whatever else
was done to it in between. `Document.Settles` says this of anything that is done to a
document, and is kept by doing one thing after another.
-/

namespace HtmlTemplate

namespace Declarations

variable {d : Declarations} {i : ScopeId} {scope : Scope} {selector : String}

/-! ## Answers -/

theorem exists_resolve (hs : d.scope? i = some scope) {parsed : Selector}
    (hparse : Selector.parse selector = .ok parsed) : ∃ k, (d.resolve i selector).1 = .ok k := by
  unfold resolve
  simp only [hs, hparse]
  split <;> exact ⟨_, rfl⟩

/-- What cannot be read is not remembered, and its search fails. -/
theorem Traced.resolve_eq_error (h : d.Traced) (hs : d.scope? i = some scope) {e : Selector.Error}
    (hparse : Selector.parse selector = .error e) :
    d.resolve i selector = (.error (.selector e), d) := by
  unfold Declarations.resolve
  simp only [hs, hparse]
  split
  next k hchild =>
    obtain ⟨-, -, parsed, -, -, hparse', -⟩ := h.finds ⟨scope, hs, hchild⟩
    cases hparse.symm.trans hparse'
  next => rfl

theorem exists_log (hs : d.scope? i = some scope) (mutation : Mutation) :
    ∃ slot, (d.log i mutation).1 = .ok slot := by
  unfold log
  simp only [hs]
  split <;> exact ⟨_, rfl⟩

/-- Entering a region answers the context that is nested in the scope from then on. -/
theorem exists_nest (hs : d.scope? i = some scope) :
    ∃ c t, (d.nest i).1 = .ok c ∧ (d.nest i).2.scope? i = some t ∧ t.nested = some c := by
  unfold nest
  simp only [hs]
  split
  next c hnested => exact ⟨c, scope, rfl, hs, hnested⟩
  next => exact ⟨_, _, rfl, scope?_withRegion i scope hs, if_pos rfl⟩

theorem nest_of_nested {c : ContextId} (hs : d.scope? i = some scope)
    (hnested : scope.nested = some c) : d.nest i = (.ok c, d) := by
  simp only [nest, hs, hnested]

end Declarations

namespace Document

variable {α β : Type} {doc : Document} {i : ScopeId} {scope : Scope}

/-- The document comes from operations on a tree. -/
def Reached (doc : Document) : Prop :=
  ∃ tree compiler optimizing operations, doc = (ofTree tree compiler optimizing).run operations

namespace Reached

theorem run (h : doc.Reached) (operations : List Operation) : (doc.run operations).Reached := by
  obtain ⟨tree, compiler, optimizing, done, rfl⟩ := h
  exact ⟨tree, compiler, optimizing, done ++ operations, (run_append _ _ _).symm⟩

theorem wellFormed (h : doc.Reached) : doc.declarations.WellFormed := by
  obtain ⟨tree, compiler, optimizing, operations, rfl⟩ := h
  exact wellFormed_run tree compiler optimizing operations

theorem traced (h : doc.Reached) : doc.declarations.Traced := by
  obtain ⟨tree, compiler, optimizing, operations, rfl⟩ := h
  exact traced_run tree compiler optimizing operations

/-- Scopes stay. -/
theorem exists_scope? (h : doc.Reached) (hs : doc.declarations.scope? i = some scope)
    (operations : List Operation) :
    ∃ t, (doc.run operations).declarations.scope? i = some t := by
  obtain ⟨t, -, ht, -⟩ := (extends_run h.wellFormed operations).scope hs
  exact ⟨t, ht⟩

end Reached

/-- What is done to a document comes down to operations, and when it is done once more, to
    the document that any further operations have led to, then it answers the same and
    changes nothing. -/
structure Settles (act : Document → α × Document) (doc : Document) : Prop where
  exists_run : ∃ operations, (act doc).2 = doc.run operations
  again : ∀ more, act ((act doc).2.run more) = ((act doc).1, (act doc).2.run more)

/-- Pass an error on, or go on with what is answered. -/
def andThen (act : Document → Except Error α × Document) (failed : Error → β)
    (next : α → Document → β × Document) (doc : Document) : β × Document :=
  match act doc with
  | (.error e, doc) => (failed e, doc)
  | (.ok answer, doc) => next answer doc

namespace Settles

variable {act : Document → α × Document}

theorem pure (answer : α) (doc : Document) : doc.Settles fun doc => (answer, doc) :=
  ⟨⟨[], rfl⟩, fun _ => rfl⟩

/-- Looking at what operations leave as it is. -/
theorem read {look : Document → α} (h : ∀ more, look (doc.run more) = look doc) :
    doc.Settles fun doc => (look doc, doc) :=
  ⟨⟨[], rfl⟩, fun more => congrArg (·, doc.run more) (h more)⟩

theorem bind (h : doc.Settles act) (next : α → Document → β × Document)
    (hnext : (act doc).2.Settles (next (act doc).1)) :
    doc.Settles fun doc => next (act doc).1 (act doc).2 := by
  obtain ⟨first, hfirst⟩ := h.exists_run
  obtain ⟨second, hsecond⟩ := hnext.exists_run
  constructor
  case exists_run =>
    refine ⟨first ++ second, ?_⟩
    rw [hsecond, hfirst, run_append]
  case again =>
    intro more
    have hact : act ((next (act doc).1 (act doc).2).2.run more) =
        ((act doc).1, (next (act doc).1 (act doc).2).2.run more) := by
      rw [hsecond, ← run_append]
      exact h.again (second ++ more)
    simp only [hact]
    exact hnext.again more

theorem map (h : doc.Settles act) (change : α → β) :
    doc.Settles fun doc => (change (act doc).1, (act doc).2) :=
  h.bind (fun answer doc => (change answer, doc)) (.pure _ _)

theorem andThen {act : Document → Except Error α × Document} {failed : Error → β}
    {next : α → Document → β × Document} (h : doc.Settles act)
    (hnext : ∀ answer, (act doc).1 = .ok answer → (act doc).2.Settles (next answer)) :
    doc.Settles (Document.andThen act failed next) := by
  let proceed (result : Except Error α) (doc : Document) : β × Document :=
    match result with
    | .error e => (failed e, doc)
    | .ok answer => next answer doc
  have hproceed : Document.andThen act failed next =
      fun doc => proceed (act doc).1 (act doc).2 := by
    funext doc
    unfold Document.andThen
    generalize act doc = outcome
    obtain ⟨result, last⟩ := outcome
    cases result <;> rfl
  rw [hproceed]
  apply h.bind proceed
  cases hresult : (act doc).1 with
  | error e => exact .pure _ _
  | ok answer => exact hnext answer hresult

end Settles

/-! ## Operations -/

theorem settles_resolve (h : doc.Reached) (hs : doc.declarations.scope? i = some scope)
    (selector : String) : doc.Settles (·.resolve i selector) := by
  refine ⟨⟨[.resolve i selector], rfl⟩, fun more => ?_⟩
  cases hparse : Selector.parse selector with
  | ok parsed =>
    obtain ⟨k, hanswer⟩ := Declarations.exists_resolve hs hparse
    have hremembers : (doc.resolve i selector).2.declarations.Remembers i selector k :=
      Declarations.child?_of_resolve hanswer
    have hresult : (doc.resolve i selector).1 = .ok k := hanswer
    rw [hresult]
    exact resolve_of_remembers (remembers_run hremembers more)
  | error e =>
    have hfails : ∀ {doc : Document} {scope}, doc.Reached →
        doc.declarations.scope? i = some scope →
        doc.resolve i selector = (.error (.selector e), doc) := by
      intro doc scope h hs
      simp only [resolve, h.traced.resolve_eq_error hs hparse, withDeclarations]
    rw [hfails h hs]
    obtain ⟨t, ht⟩ := h.exists_scope? hs more
    exact hfails (h.run more) ht

theorem settles_log (hs : doc.declarations.scope? i = some scope) (mutation : Mutation) :
    doc.Settles (·.log i mutation) := by
  refine ⟨⟨[.log i mutation], rfl⟩, fun more => ?_⟩
  obtain ⟨slot, hanswer⟩ := Declarations.exists_log hs mutation
  have hresult : (doc.log i mutation).1 = .ok slot := hanswer
  rw [hresult]
  exact log_of_hasSlot (hasSlot_run (Declarations.hasSlot_log hanswer) more)

theorem nest_of_nested {c : ContextId} (hs : doc.declarations.scope? i = some scope)
    (hnested : scope.nested = some c) : doc.nest i = (.ok c, doc) := by
  simp only [nest, Declarations.nest_of_nested hs hnested, withDeclarations]

theorem settles_nest (h : doc.Reached) (hs : doc.declarations.scope? i = some scope) :
    doc.Settles (·.nest i) := by
  refine ⟨⟨[.nest i], rfl⟩, fun more => ?_⟩
  obtain ⟨c, t, hanswer, ht, hnested⟩ := Declarations.exists_nest hs
  have hresult : (doc.nest i).1 = .ok c := hanswer
  have hreached : (doc.nest i).2.Reached := h.run [.nest i]
  obtain ⟨t', -, ht', -, -, hnested', -⟩ := (extends_run hreached.wellFormed more).scope ht
  rw [hresult]
  exact nest_of_nested ht' (hnested' c hnested)

end Document

end HtmlTemplate
