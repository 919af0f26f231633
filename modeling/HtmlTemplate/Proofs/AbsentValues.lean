-- SUMMARY: Without values a document renders to the markup of its tree.
import HtmlTemplate.Proofs.Bound
import HtmlTemplate.Proofs.Neutral
import HtmlTemplate.Proofs.Passes
import HtmlTemplate.Proofs.Sessions

/-!
# Rendering without values

When no value is given every edit is neutral: nothing is replaced, added or left
out, every attribute keeps its value, and what is to be repeated is written once.
So a document renders to the markup of its tree, whatever is declared about it.
-/

namespace HtmlTemplate

/-! ## Absent values -/

namespace Bindings

/-- No variable has a value. -/
def AllAbsent (bindings : Bindings) : Prop := ∀ var, bindings.value var = .absent

theorem AllAbsent.cons {bindings : Bindings} (h : bindings.AllAbsent) (context : ContextId)
    {frame : Frame} (hframe : ∀ value ∈ frame, value = .absent) :
    AllAbsent ((context, frame) :: bindings) := by
  intro var
  rw [value_cons]
  split
  · unfold Frame.get
    rw [List.getD_eq_getElem?_getD]
    cases hvalue : frame[var.slot]? with
    | none => rfl
    | some value => exact hframe value (List.mem_of_getElem? hvalue)
  · exact h var

end Bindings

theorem Edit.neutral_allAbsent (edit : Edit) : edit.Neutral Bindings.AllAbsent := by
  intro bindings h
  split
  next frame hchange =>
    exact Repetition.once_of_absent (h edit.var) h fun context => h.cons context (by simp)
  next => exact h edit.var

/-! ## Declarations without mutations -/

namespace Declarations

variable {d : Declarations} {pass : AttributePass}

theorem isMutated_of_logs_empty (h : d.WellFormed)
    (hlogs : ∀ i s, d.scope? i = some s → s.log = []) (id : NodeId) : d.isMutated id = false := by
  have hscopes : d.index.scopes id = [] := by
    rw [List.eq_nil_iff_forall_not_mem]
    intro i hi
    obtain ⟨s, hs, hlog, -⟩ := h.mem_index.mp hi
    exact hlog (hlogs i s hs)
  simp [isMutated, hscopes]

mutual

theorem unbound?_weave_of_not_isMutated (h : ∀ id, d.isMutated id = false) (raw : Bool)
    (branch : Branch) (bound : List ContextId) :
    (d.weave pass raw branch).unbound? bound = none := by
  obtain ⟨id, content, children⟩ := branch
  cases content with
  | container =>
    rw [weave, weaveNode, Template.unbound?_sequence_eq_none]
    exact unbound?_weaveAll_of_not_isMutated h false children bound
  | element element =>
    have hinside := unbound?_weaveAll_of_not_isMutated h
      (Markup.isRawText (d.tree.name element.name.localName)) children bound
    simp only [weave, weaveNode, attributes, h id, (Compiler.edits_of_not_isMutated (h id)).2,
      Edit.weave, List.foldl_nil, Template.unbound?_element_eq_none]
    refine ⟨?_, Template.unbound?_sequence_eq_none.mpr hinside⟩
    simp [AttributePass.sourceAttributes, AttributePass.fixed]
  | _ => rfl

theorem unbound?_weaveAll_of_not_isMutated (h : ∀ id, d.isMutated id = false) (raw : Bool)
    (branches : List Branch) (bound : List ContextId) :
    ∀ item ∈ d.weaveAll pass raw branches, item.unbound? bound = none := by
  cases branches with
  | nil => nofun
  | cons branch rest =>
    rw [weaveAll, List.forall_mem_cons]
    constructor
    · exact unbound?_weave_of_not_isMutated h raw branch bound
    · exact unbound?_weaveAll_of_not_isMutated h raw rest bound

end

/-- Without mutations, and without comments and instructions, there is nothing that
    a compilation can fail on. -/
theorem compile_of_logs_empty (h : d.WellFormed)
    (hlogs : ∀ i s, d.scope? i = some s → s.log = [])
    (hnodes : ∀ id node, d.tree.Within Tree.root id → d.tree.get? id = some node →
      node.content.category ≠ .comment ∧ node.content.category ≠ .instruction) :
    (Compiler.mk .standard pass).compile d = .ok (d.woven pass) := by
  have hmutated := isMutated_of_logs_empty h hlogs
  rw [Compiler.compile_eq_ok]
  refine ⟨?_, ?_, rfl⟩
  · rintro ⟨id, content⟩ hnode
    obtain ⟨hwithin, found, hfound, hcontent⟩ := of_mem_visited hnode
    obtain ⟨hcomment, hinstruction⟩ := hnodes id found hwithin hfound
    rw [hcontent] at hcomment hinstruction
    cases content with
    | element element => simp [Admits, (Compiler.edits_of_not_isMutated (hmutated id)).1]
    | comment text => exact hcomment rfl
    | instruction target text => exact hinstruction rfl
    | _ => exact hmutated id
  · unfold woven
    split
    · exact unbound?_weave_of_not_isMutated hmutated false _ _
    · rfl

end Declarations

/-! ## Documents -/

namespace Document

theorem render_of_compile {doc : Document} {renderer : Renderer}
    (h : doc.compile.1 = .ok renderer) (arguments : Frame) :
    (doc.render arguments).1 = (renderer.program.render arguments).mapError .render := by
  unfold render
  split
  next hcompile => simp [hcompile] at h
  next renderer' _ hcompile =>
    obtain rfl : renderer' = renderer := by simpa [hcompile] using h
    rfl

theorem exists_compile_of_template {doc : Document} {template : Template}
    (h : doc.template = .ok template) : ∃ renderer, doc.compile.1 = .ok renderer := by
  unfold compile
  split
  next renderer _ _ => exact ⟨renderer, rfl⟩
  next => exact ⟨⟨doc.builds, .build doc.optimizing template doc.parameters⟩, by
    simp only [recompile, h]⟩

/-- A program of declarations that compile, rendered with absent values. -/
theorem render_build_absent {d : Declarations} {pass : AttributePass} (hpass : pass.IsStandard)
    {template : Template} (h : (Compiler.mk .standard pass).compile d = .ok template)
    (optimizing : Bool) {arguments : Frame} (habsent : ∀ value ∈ arguments, value = .absent)
    (hlength : arguments.length ≤ d.parameters.arity) :
    (Program.build optimizing template d.parameters).render arguments = .ok d.tree.markup := by
  obtain ⟨hadmits, -, rfl⟩ := Compiler.compile_eq_ok.mp h
  have hbindings : Bindings.AllAbsent [(Declarations.rootContext, arguments)] :=
    Bindings.AllAbsent.cons (fun _ => rfl) _ habsent
  rw [Program.render_build, Program.render, if_neg (Nat.not_lt.mpr hlength)]
  refine Declarations.render_woven_of_neutral hpass hadmits ?_ hbindings
  intro node hnode edit hedit
  exact edit.neutral_allAbsent

/-- Rendering with absent values, or with none, reproduces the tree: always when the
    document compiles, and it does when nothing is logged and no node below the
    container is one that templates cannot hold. -/
theorem render_absent (tree : Tree) (optimizing : Bool) (operations : List Operation) :
    let doc := (ofTree tree {} optimizing).run operations
    (∀ renderer arguments, doc.compile.1 = .ok renderer →
      (∀ value ∈ arguments, value = .absent) → arguments.length ≤ doc.parameters.arity →
      (doc.render arguments).1 = .ok tree.markup) ∧
    ((∀ id scope, doc.declarations.scope? id = some scope → scope.log = []) →
      (∀ id node, tree.Within Tree.root id → tree.get? id = some node →
        node.content.category ≠ .comment ∧ node.content.category ≠ .instruction) →
      (doc.render []).1 = .ok tree.markup) := by
  intro doc
  have htree : doc.declarations.tree = tree := tree_run _ operations
  have hcompiler : doc.compiler = {} := compiler_run _ operations
  have hwellFormed : doc.declarations.WellFormed := wellFormed_run tree {} optimizing operations
  have hcompiled : ∀ renderer arguments, doc.compile.1 = .ok renderer →
      (∀ value ∈ arguments, value = .absent) → arguments.length ≤ doc.parameters.arity →
      (doc.render arguments).1 = .ok tree.markup := by
    intro renderer arguments hrenderer habsent hlength
    have hcoherent := (Session.Coherent.start tree {} optimizing).run operations
    have hdocument : (Session.run ⟨ofTree tree {} optimizing, none⟩ operations).document = doc :=
      Session.document_run _ operations
    obtain ⟨d₀, template, hkept, htemplate, hprogram⟩ :=
      hcoherent.of_compile_eq_ok (hdocument ▸ hrenderer)
    rw [hdocument] at hkept htemplate hprogram
    have harity : d₀.parameters.arity = doc.parameters.arity := (hkept.slots _).symm
    rw [hcompiler] at htemplate
    have hmarkup := render_build_absent .withOverrides htemplate doc.optimizing habsent
      (harity ▸ hlength)
    rw [render_of_compile hrenderer, hprogram, hmarkup, ← hkept.tree, htree]
    rfl
  refine ⟨hcompiled, fun hlogs hnodes => ?_⟩
  rw [← htree] at hnodes
  have htemplate : doc.template = .ok (doc.declarations.woven .withOverrides) := by
    unfold template
    rw [hcompiler]
    exact Declarations.compile_of_logs_empty hwellFormed hlogs hnodes
  obtain ⟨renderer, hrenderer⟩ := exists_compile_of_template htemplate
  exact hcompiled renderer [] hrenderer (by simp) (Nat.zero_le _)

/-- A paragraph that is repeated and replaced, and a document without mutations. -/
theorem render_absent_section :
    (((ofTree sectionTree).run [.find "p", .log ⟨1⟩ { kind := Mutation.repeatEach },
      .nest ⟨1⟩, .log ⟨2⟩ { kind := Mutation.replaceInnerHtml }]).render [.absent]).1 =
        .ok sectionTree.markup ∧
      ((ofTree sectionTree).render []).1 = .ok sectionTree.markup := by
  refine ⟨(render_absent sectionTree true _).1 _ [.absent] rfl ?_ ?_,
    (render_absent sectionTree true []).2 ?_ ?_⟩
  · simp
  · decide +kernel
  · intro id scope hscope
    obtain ⟨-, rfl⟩ := Declarations.of_scope?_start hscope
    rfl
  · intro id node _ hnode
    have hnodes : ∀ node ∈ sectionTree.nodes.toList,
        node.content.category ≠ .comment ∧ node.content.category ≠ .instruction := by decide
    exact hnodes node (Array.mem_toList_iff.mpr (Array.mem_of_getElem? hnode))

end Document

end HtmlTemplate
