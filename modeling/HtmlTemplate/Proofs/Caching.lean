-- SUMMARY: When the program that a document keeps renders as one compiled anew.
import HtmlTemplate.Proofs.Caching.Probe
import HtmlTemplate.Proofs.Passes

/-!
# The program that is kept

A document that is not dirty answers the program of its last compilation. The
program renders as one compiled anew as long as it is not stale; a stale program
writes the whole tree for arguments that one compiled anew refuses.
-/

namespace HtmlTemplate.Session

/-- Along every run, a kept program and one of the current declarations render alike
    if and only if no region was entered since over a scope that repeats a written
    node. -/
theorem render_compiled (tree : Tree) (pass : AttributePass) (hpass : pass.IgnoresWrappers)
    (optimizing : Bool) (operations : List Operation) :
    let session := run ⟨.ofTree tree ⟨.standard, pass⟩ optimizing, none⟩ operations
    let doc := session.document
    ∀ renderer, doc.isDirty = false → doc.compiled = some renderer →
      ∃ d₀ template, session.built = some d₀ ∧ doc.template = .ok template ∧
        (¬ d₀.Stale doc.declarations → ∀ arguments,
          renderer.program.render arguments =
            (Program.build optimizing template doc.parameters).render arguments) ∧
        (pass.IsStandard → d₀.Stale doc.declarations → ∃ arguments,
          renderer.program.render arguments = .ok tree.markup ∧
          ∀ markup, (Program.build optimizing template doc.parameters).render arguments ≠
            .ok markup) := by
  intro session doc renderer hclean hrenderer
  have hcoherent : session.Coherent := (Coherent.start tree _ optimizing).run operations
  have hdocument : doc = (Document.ofTree tree ⟨.standard, pass⟩ optimizing).run operations :=
    document_run _ operations
  have hcompiler : doc.compiler = ⟨.standard, pass⟩ := hdocument ▸ Document.compiler_run _ _
  have hoptimizing : doc.optimizing = optimizing := hdocument ▸ Document.optimizing_run _ _
  have htree : doc.declarations.tree = tree := hdocument ▸ Document.tree_run _ _
  obtain ⟨d₀, template₀, hbuilt, hd₀, htemplate₀, hprogram⟩ := hcoherent.compiled hrenderer
  have hkept : d₀.LogsKept doc.declarations := hcoherent.built hbuilt hclean
  have hd : doc.declarations.WellFormed := hcoherent.wellFormed
  rw [hcompiler] at htemplate₀
  rw [hoptimizing] at hprogram
  have htemplate : doc.template = .ok (doc.declarations.woven pass) := by
    unfold Document.template
    rw [hcompiler]
    exact hkept.compile hd₀ hd hpass htemplate₀
  obtain ⟨hadmits₀, -, rfl⟩ := Compiler.compile_eq_ok.mp htemplate₀
  have hparameters : d₀.parameters = doc.parameters := by
    simp only [Declarations.parameters, Document.parameters, hkept.slots]
  rw [hparameters] at hprogram
  refine ⟨d₀, _, hbuilt, htemplate, fun hstale arguments => ?_, fun hpass hstale => ?_⟩
  · have hrender : (doc.declarations.woven pass).render = (d₀.woven pass).render :=
      hkept.render_woven_of_not_stale hd₀ hd hstale
    rw [hprogram, Program.render_build, Program.render_build]
    exact Program.render_congr (fun bindings => (congrFun hrender bindings).symm) _ _
  · obtain ⟨hadmits, hbound, -⟩ := Compiler.compile_eq_ok.mp
      (hkept.compile hd₀ hd hpass.ignoresWrappers htemplate₀)
    obtain ⟨arguments, hlength, hrendered, hfails⟩ :=
      hstale.exists_arguments hkept hd₀ hd hpass hadmits₀ hadmits hbound
    have hlength : ¬ arguments.length > doc.parameters.arity := Nat.not_lt.mpr hlength
    have htree₀ : d₀.tree = tree := hkept.tree.symm.trans htree
    refine ⟨arguments, ?_, fun markup => ?_⟩
    · rw [hprogram, Program.render_build, Program.render, if_neg hlength, ← htree₀]
      exact hrendered
    · rw [Program.render_build, Program.render, if_neg hlength]
      exact hfails markup

/-- The paragraph is repeated, and its region is entered after the compilation. -/
theorem render_compiled_section :
    let session := run ⟨.ofTree Document.sectionTree, none⟩
      [.find "p", .log ⟨1⟩ { kind := Mutation.repeatEach }, .compile, .nest ⟨1⟩]
    let doc := session.document
    ∃ renderer template arguments, doc.compiled = some renderer ∧ doc.template = .ok template ∧
      renderer.program.render arguments = .ok Document.sectionTree.markup ∧
      ∀ markup, (Program.build true template doc.parameters).render arguments ≠ .ok markup := by
  intro session doc
  obtain ⟨d₀, template, hbuilt, htemplate, -, hstale⟩ := render_compiled Document.sectionTree
    .withOverrides AttributePass.IsStandard.withOverrides.ignoresWrappers true
    [.find "p", .log ⟨1⟩ { kind := Mutation.repeatEach }, .compile, .nest ⟨1⟩] _ rfl rfl
  obtain ⟨arguments, hkept, hanew⟩ := hstale .withOverrides (by
    cases hbuilt
    refine ⟨(⟨2⟩, _), .tail _ (.tail _ (.head _)), _, .head _, ⟨1⟩, rfl, ?_, _, .head _, rfl⟩
    decide)
  exact ⟨_, template, arguments, rfl, htemplate, hkept, hanew⟩

/-- A document answers a program that does not bind the values of the region. -/
theorem stale_program_section :
    let doc := (Document.ofTree Document.sectionTree).run
      [.find "p", .log ⟨1⟩ { kind := Mutation.repeatEach }, .compile, .nest ⟨1⟩]
    ∃ renderer template, doc.isDirty = false ∧ doc.compiled = some renderer ∧
      doc.template = .ok template ∧
      renderer.program.render [.list [[.text "x"]]] =
        .ok "<section><p>a &lt; b</p></section>" ∧
      (Program.build true template doc.parameters).render [.list [[.text "x"]]] =
        .error (.tooManyArguments 0 1) :=
  ⟨_, _, rfl, rfl, rfl, rfl, rfl⟩

end HtmlTemplate.Session
