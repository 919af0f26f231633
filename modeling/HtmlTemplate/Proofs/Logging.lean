-- SUMMARY: A mutation that is given no value changes nothing that was rendered before.
import HtmlTemplate.Proofs.AbsentValues
import HtmlTemplate.Proofs.Logging.Woven

/-!
# Logging a mutation

When a standard mutation is logged and given no value, a document renders as
before whatever it could render. There is one exception, which comes with the
latest override of an attribute being the one that counts: where the mutation takes
the place of an earlier override, the value of that one is lost.
-/

namespace HtmlTemplate

namespace Declarations.WellFormed

variable {d : Declarations} {id : ScopeId} {scope : Scope} {mutation : Mutation} {change : Change}

/-- Logging a mutation gives no scope a region. -/
theorem bindsNoValue (d : Declarations) (id : ScopeId) (scope : Scope) (mutation : Mutation)
    (arguments : Frame) : d.BindsNoValue (d.withLogged id scope mutation) arguments := by
  intro i s t logged c hs ht hnone hnested
  obtain ⟨old, hold, rfl⟩ := of_scope?_withLogged ht
  obtain rfl := Option.some.inj (hold.symm.trans hs)
  cases hnone.symm.trans hnested

/-- A mutation that is no override takes the place of none. -/
theorem losesNoValue (hd : d.WellFormed) (hid : d.scope? id = some scope)
    (hslot : scope.slot? mutation = none)
    (hchange : mutation.change? (scope.nested.map (d.withLogged id scope mutation).loopParameters) =
      some change) (hattribute : ∀ name, change ≠ .attribute name) (arguments : Frame) :
    d.LosesNoValue (d.withLogged id scope mutation) arguments := by
  have hd' := hd.withLogged hid hslot
  refine (Extends.withLogged hd hid mutation).losesNoValue hd hd' ?_ arguments
  intro node edit hedit hnew
  obtain ⟨i, t, logged, ht, -, hlogged, hvar, hchange'⟩ := hd'.mem_edits.mp hedit
  obtain ⟨old, hold, hcontext, hnested, hlogged | ⟨rfl, rfl, rfl⟩⟩ :=
    of_mem_log_withLogged hid ht hlogged
  · rw [hvar, Scope.var, hcontext] at hnew
    exact absurd (hd.slot_lt hold hlogged) (Nat.not_lt.mpr hnew)
  · rw [hnested] at hchange'
    obtain rfl := Option.some.inj (hchange'.symm.trans hchange)
    exact hattribute

end Declarations.WellFormed

namespace Document

theorem compile_of_isDirty {doc : Document} (hdirty : doc.isDirty = true) {template : Template}
    (h : doc.template = .ok template) :
    doc.compile.1 = .ok ⟨doc.builds, .build doc.optimizing template doc.parameters⟩ := by
  simp only [compile, hdirty, recompile, h]

/-- After a standard mutation was logged and given no value, a document renders as a
    renderer of its declarations did before, if every override whose place the
    mutation takes had no value either. -/
theorem render_log (tree : Tree) (pass : AttributePass) (hpass : pass.IsStandard)
    (optimizing : Bool) (operations : List Operation) (id : ScopeId) (mutation : Mutation)
    (arguments : Frame) :
    let doc := (ofTree tree ⟨.standard, pass⟩ optimizing).run operations
    let later := (doc.log id mutation).2
    ∀ scope template template' markup, doc.declarations.scope? id = some scope →
      scope.slot? mutation = none → mutation.IsStandard →
      doc.template = .ok template → later.template = .ok template' →
      doc.declarations.LosesNoValue later.declarations arguments →
      (Program.build optimizing template doc.parameters).render arguments = .ok markup →
      (later.render arguments).1 = .ok markup := by
  intro doc later scope template template' markup hid hslot _ htemplate htemplate' hloses hrender
  have hd : doc.declarations.WellFormed := wellFormed_run tree _ optimizing operations
  have hcompiler : doc.compiler = ⟨.standard, pass⟩ := compiler_run _ operations
  have hcompiler' : later.compiler = ⟨.standard, pass⟩ := hcompiler
  have hlater : later.declarations = doc.declarations.withLogged id scope mutation :=
    Declarations.log_of_slot?_eq_none hid hslot
  have hdirty : later.isDirty = true := congrArg Declarations.isDirty hlater
  have hcompiled := render_of_compile (compile_of_isDirty hdirty htemplate') arguments
  rw [Document.template, hcompiler, Compiler.compile_eq_ok] at htemplate
  rw [Document.template, hcompiler', Compiler.compile_eq_ok] at htemplate'
  obtain ⟨-, hbound, rfl⟩ := htemplate
  obtain ⟨-, -, rfl⟩ := htemplate'
  have hextends : doc.declarations.Extends later.declarations :=
    hlater ▸ Declarations.Extends.withLogged hd hid mutation
  have hd' : later.declarations.WellFormed := hlater ▸ hd.withLogged hid hslot
  have hbinds : doc.declarations.BindsNoValue later.declarations arguments :=
    hlater ▸ Declarations.WellFormed.bindsNoValue _ id scope mutation arguments
  rw [Program.render_build] at hrender
  have hresult := hextends.render_woven hd hd' hpass hloses hbinds hbound hrender
  rw [hcompiled, Program.render_build]
  exact congrArg (Except.mapError Error.render) hresult

/-- A paragraph with a class that is given is repeated too. -/
theorem render_log_section :
    let doc := (ofTree sectionTree).run
      [.find "p", .log ⟨1⟩ { kind := Mutation.setAttribute, arguments := ["class"] }]
    ((doc.log ⟨1⟩ { kind := Mutation.repeatEach }).2.render [.text "x"]).1 =
      .ok "<section><p class=\"x\">a &lt; b</p></section>" := by
  intro doc
  refine render_log sectionTree .withOverrides .withOverrides true
    [.find "p", .log ⟨1⟩ { kind := Mutation.setAttribute, arguments := ["class"] }] ⟨1⟩
    { kind := Mutation.repeatEach } [.text "x"] _ _ _ _ rfl rfl rfl rfl rfl ?_ rfl
  have hrepeat : ∀ name, Change.repetition none ≠ .attribute name := nofun
  exact (wellFormed_run sectionTree {} true _).losesNoValue rfl rfl rfl hrepeat _

/-- A link with a target, for documents with two scopes over one element. -/
def linkTree : Tree :=
  let (tree, link) := Tree.empty.createElement "a"
  let (tree, href) := tree.intern "href"
  (tree.append Tree.root (some link)).setAttribute link ⟨Names.emptyId, href⟩ "/"

/-- A second scope declares the target of the link, and is given none: the target
    that the first one is given is lost. -/
theorem render_log_link :
    let mutation : Mutation := { kind := Mutation.setAttribute, arguments := ["href"] }
    let doc := (ofTree linkTree).run [.find "a", .find "*", .log ⟨1⟩ mutation]
    let later := (doc.log ⟨2⟩ mutation).2
    mutation.IsStandard ∧
      (∃ scope, doc.declarations.scope? ⟨2⟩ = some scope ∧ scope.slot? mutation = none) ∧
      (doc.render [.text "/first"]).1 = .ok "<a href=\"/first\"></a>" ∧
      (later.render [.text "/first"]).1 = .ok "<a href=\"/\"></a>" :=
  ⟨rfl, ⟨_, rfl, rfl⟩, rfl, rfl⟩

end Document

end HtmlTemplate
