-- SUMMARY: Runs of a document that remember what was declared at the last compilation.
import HtmlTemplate.Proofs.Operations
import HtmlTemplate.Proofs.Weaving

/-!
# Sessions

A document keeps the program of its last compilation, but not the declarations that
were compiled. A session is a document with these declarations beside it. While
nothing new is logged, the declarations of the document can only have grown by
scopes without mutations and by repeated regions: `Declarations.LogsKept`.
-/

namespace HtmlTemplate

namespace Declarations

/-- The parameters of a rendering. -/
def parameters (d : Declarations) : Parameters := ⟨rootContext, d.nextSlot rootContext, true⟩

/-! ## Declarations without new mutations -/

/-- `d` comes from `d₀` without a mutation logged. Regions may have been entered since:
    their contexts are numbered from the contexts of `d₀` on. -/
structure LogsKept (d₀ d : Declarations) : Prop where
  tree : d.tree = d₀.tree
  index : d.index = d₀.index
  size : d₀.contexts.size ≤ d.contexts.size
  scope : ∀ {i s}, d₀.scope? i = some s → ∃ t, d.scope? i = some t ∧
    t.nodes = s.nodes ∧ t.context = s.context ∧ t.log = s.log ∧
    (t.nested = s.nested ∨
      s.nested = none ∧ ∃ c, t.nested = some c ∧ d₀.contexts.size ≤ c.index)
  context : ∀ {c x}, d₀.context? c = some x → d.context? c = some x
  slots : ∀ c, d.nextSlot c = d₀.nextSlot c

namespace LogsKept

variable {d₀ d d' : Declarations} {id : ScopeId} {scope : Scope}

theorem refl (d : Declarations) : d.LogsKept d :=
  ⟨rfl, rfl, Nat.le_refl _, fun hs => ⟨_, hs, rfl, rfl, rfl, .inl rfl⟩, fun hx => hx, fun _ => rfl⟩

/-- Whether something was logged does not count. -/
theorem of_fields (h : d₀.LogsKept d) (dirty : Bool) :
    d₀.LogsKept { d with isDirty := dirty } :=
  ⟨h.tree, h.index, h.size, h.scope, h.context, h.slots⟩

theorem withFound (h : d₀.LogsKept d) (selector : String) (nodes : List NodeId) :
    d₀.LogsKept (d.withFound id scope selector nodes) := by
  refine ⟨h.tree, h.index, h.size, ?_, h.context, h.slots⟩
  intro i s hs
  obtain ⟨t, ht, hnodes, hcontext, hlog, hnested⟩ := h.scope hs
  obtain ⟨children, ht'⟩ := scope?_withFound id scope selector nodes ht
  exact ⟨_, ht', hnodes, hcontext, hlog, hnested⟩

theorem withRegion (h : d₀.LogsKept d) (hid : d.scope? id = some scope)
    (hnew : scope.nested = none) : d₀.LogsKept (d.withRegion id scope) := by
  constructor
  case tree => exact h.tree
  case index => exact h.index
  case size =>
    have hsize : (d.withRegion id scope).contexts.size = d.contexts.size + 1 := Array.size_push _
    rw [hsize]
    exact Nat.le_succ_of_le h.size
  case scope =>
    intro i s hs
    obtain ⟨t, ht, hnodes, hcontext, hlog, hnested⟩ := h.scope hs
    refine ⟨_, scope?_withRegion id scope ht, hnodes, hcontext, hlog, ?_⟩
    by_cases hi : i = id
    · subst hi
      obtain rfl := Option.some.inj (ht.symm.trans hid)
      refine .inr ⟨?_, ⟨d.contexts.size⟩, by simp, h.size⟩
      rcases hnested with hnested | ⟨hnone, -⟩
      · exact hnested.symm.trans hnew
      · exact hnone
    · simpa [hi] using hnested
  case context =>
    intro c x hx
    exact context?_withRegion_of_some id scope (h.context hx)
  case slots =>
    intro c
    rw [nextSlot_withRegion, h.slots]

/-- An operation after which nothing counts as logged has logged nothing. -/
theorem step (h : d.isDirty = false → d₀.LogsKept d) (hstep : d.Step d')
    (hclean : d'.isDirty = false) : d₀.LogsKept d' := by
  cases hstep with
  | same => exact h hclean
  | found selector nodes hid => exact (h hclean).withFound selector nodes
  | logged mutation hid => cases hclean
  | entered hid hnew => exact (h hclean).withRegion hid hnew

end LogsKept

end Declarations

/-! ## Sessions -/

/-- A document with the declarations that its program was compiled from. -/
structure Session where
  document : Document
  built : Option Declarations := none

namespace Session

/-- Perform an operation, and note the declarations when it compiles them. -/
def perform (session : Session) (operation : Operation) : Session :=
  let next := session.document.perform operation
  ⟨next, if next.builds = session.document.builds then session.built
    else some session.document.declarations⟩

def run (session : Session) (operations : List Operation) : Session :=
  operations.foldl perform session

theorem document_run (session : Session) (operations : List Operation) :
    (session.run operations).document = session.document.run operations := by
  induction operations generalizing session with
  | nil => rfl
  | cons operation rest ih => exact ih (session.perform operation)

/-- What every session keeps: the program is that of the declarations noted, and
    these have only changed if something was logged. -/
structure Coherent (session : Session) : Prop where
  wellFormed : session.document.declarations.WellFormed
  compiled : ∀ {renderer}, session.document.compiled = some renderer →
    ∃ d₀ template, session.built = some d₀ ∧ d₀.WellFormed ∧
      session.document.compiler.compile d₀ = .ok template ∧
      renderer.program = .build session.document.optimizing template d₀.parameters
  built : ∀ {d₀}, session.built = some d₀ → session.document.isDirty = false →
    d₀.LogsKept session.document.declarations

namespace Coherent

theorem start (tree : Tree) (compiler : Compiler) (optimizing : Bool) :
    (Session.mk (.ofTree tree compiler optimizing) none).Coherent :=
  ⟨.start tree, nofun, nofun⟩

theorem perform {session : Session} (h : session.Coherent) (operation : Operation) :
    (session.perform operation).Coherent := by
  have hstep := session.document.step_perform operation
  unfold Session.perform
  generalize session.document.perform operation = next at hstep
  cases hstep with
  | same => simpa using h
  | declared hd =>
    -- Nothing was compiled, so the declarations noted are those of before.
    simp only [if_true]
    exact ⟨h.wellFormed.step hd, h.compiled, fun hbuilt => .step (h.built hbuilt) hd⟩
  | @rebuilt template hneed htemplate =>
    have hbuilds : (session.document.rebuilt template).builds ≠ session.document.builds :=
      Nat.succ_ne_self _
    simp only [hbuilds, if_false]
    refine ⟨h.wellFormed.clean, ?_, ?_⟩
    · intro renderer hrenderer
      cases hrenderer
      exact ⟨_, _, rfl, h.wellFormed, htemplate, rfl⟩
    · intro d₀ hd₀ hclean
      cases hd₀
      exact (Declarations.LogsKept.refl _).of_fields false

theorem run {session : Session} (h : session.Coherent) (operations : List Operation) :
    (session.run operations).Coherent := by
  induction operations generalizing session with
  | nil => exact h
  | cons operation rest ih => exact ih (h.perform operation)

/-- A renderer that a document answers is made from declarations that have not
    changed since but by scopes without mutations and by regions. -/
theorem of_compile_eq_ok {session : Session} (h : session.Coherent) {renderer : Renderer}
    (hrenderer : session.document.compile.1 = .ok renderer) :
    ∃ d₀ template, d₀.LogsKept session.document.declarations ∧
      session.document.compiler.compile d₀ = .ok template ∧
      renderer.program = .build session.document.optimizing template d₀.parameters := by
  unfold Document.compile at hrenderer
  split at hrenderer
  next cached hclean hcached =>
    cases hrenderer
    obtain ⟨d₀, template, hbuilt, -, htemplate, hprogram⟩ := h.compiled hcached
    exact ⟨d₀, template, h.built hbuilt hclean, htemplate, hprogram⟩
  next =>
    unfold Document.recompile at hrenderer
    split at hrenderer
    · cases hrenderer
    next template htemplate =>
      cases hrenderer
      exact ⟨_, template, .refl _, htemplate, rfl⟩

end Coherent

end Session

/-- A renderer that a document answers after a run, made from well-formed declarations of
    which only regions and scopes without mutations may have been added since. -/
theorem Document.of_compile_run {tree : Tree} {compiler : Compiler} {optimizing : Bool}
    {operations : List Operation} {renderer : Renderer}
    (hrenderer : ((ofTree tree compiler optimizing).run operations).compile.1 = .ok renderer) :
    ∃ d₀ template, d₀.WellFormed ∧
      d₀.LogsKept ((ofTree tree compiler optimizing).run operations).declarations ∧
      compiler.compile d₀ = .ok template ∧
      renderer.program = .build optimizing template d₀.parameters := by
  have hcoherent := (Session.Coherent.start tree compiler optimizing).run operations
  have hdocument : (Session.run ⟨ofTree tree compiler optimizing, none⟩ operations).document =
      (ofTree tree compiler optimizing).run operations := Session.document_run _ operations
  have hcompiler : ((ofTree tree compiler optimizing).run operations).compiler = compiler :=
    compiler_run _ operations
  have hoptimizing : ((ofTree tree compiler optimizing).run operations).optimizing = optimizing :=
    optimizing_run _ operations
  generalize (ofTree tree compiler optimizing).run operations = doc at *
  unfold compile at hrenderer
  split at hrenderer
  next cached hclean hcached =>
    cases hrenderer
    obtain ⟨d₀, template, hbuilt, hd₀, htemplate, hprogram⟩ :=
      hcoherent.compiled (hdocument.symm ▸ hcached)
    have hkept := hcoherent.built hbuilt (hdocument.symm ▸ hclean)
    rw [hdocument] at hkept htemplate hprogram
    exact ⟨d₀, template, hd₀, hkept, hcompiler ▸ htemplate, hoptimizing ▸ hprogram⟩
  next =>
    unfold recompile at hrenderer
    split at hrenderer
    · cases hrenderer
    next template htemplate =>
      cases hrenderer
      exact ⟨_, template, hdocument ▸ hcoherent.wellFormed, .refl _, hcompiler ▸ htemplate,
        hoptimizing ▸ rfl⟩

end HtmlTemplate
