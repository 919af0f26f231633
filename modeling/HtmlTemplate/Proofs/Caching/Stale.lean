-- SUMMARY: When the template of a document is out of date, and that all else is harmless.
import HtmlTemplate.Proofs.Caching.Later

/-!
# Stale templates

Entering a repeated region counts as no change, although the repetition over its
scope then binds a frame. So a template is out of date when a region was entered
after the compilation over a scope that repeats a node, and the node is written:
what is inside a void element is compiled, but not rendered. In all other cases the
template renders as that of the current declarations.
-/

namespace HtmlTemplate

/-- Whether what is below the node is written. -/
def Content.writesNodes (names : Names) : Content → Bool
  | .container => true
  | .element e => !Markup.isVoid (names.get e.name.localName)
  | _ => false

namespace Declarations

/-- The nodes that are written. -/
def written (d : Declarations) : List (NodeId × Content) :=
  match d.tree.branch? Tree.root with
  | some branch => branch.visit (Content.writesNodes d.tree.names)
  | none => []

/-- A region has been entered since `d₀` over a scope that repeats a node which is
    written. -/
def Stale (d₀ d : Declarations) : Prop :=
  ∃ node ∈ d.written, ∃ scope ∈ d.touching node.1, ∃ context,
    scope.nested = some context ∧ d₀.contexts.size ≤ context.index ∧
      ∃ logged ∈ scope.log, logged.mutation = { kind := Mutation.repeatEach }

end Declarations

/-! ## Templates that render alike -/

namespace Edit

theorem render_wrapContent_congr {first second : Template} (h : first.render = second.render)
    (edit : Edit) : (wrapContent first edit).render = (wrapContent second edit).render := by
  funext bindings
  unfold wrapContent
  split <;> simp only [Template.render, Template.renderAll, Template.renderOption, h]

theorem render_wrapElement_congr {first second : Template} (h : first.render = second.render)
    (edit : Edit) : (wrapElement first edit).render = (wrapElement second edit).render := by
  funext bindings
  unfold wrapElement
  split <;> simp only [Template.render, h]

/-- What is inside an element counts only where it is written. -/
theorem render_weave_congr (edits : List Edit) (tag : String) (attributes : Template)
    {first second : Template} (h : Markup.isVoid tag = false → first.render = second.render) :
    (weave edits tag attributes first).render = (weave edits tag attributes second).render := by
  have hfold {wrap : Template → Edit → Template}
      (hwrap : ∀ {first second : Template}, first.render = second.render → ∀ edit,
        (wrap first edit).render = (wrap second edit).render) {first second : Template}
      (h : first.render = second.render) :
      (edits.foldl wrap first).render = (edits.foldl wrap second).render := by
    induction edits generalizing first second with
    | nil => exact h
    | cons edit rest ih => exact ih (hwrap h edit)
  refine hfold render_wrapElement_congr (funext fun bindings => ?_)
  cases hvoid : Markup.isVoid tag with
  | true => simp [Template.render, hvoid]
  | false => simp only [Template.render, hvoid, hfold render_wrapContent_congr (h hvoid)]

end Edit

namespace Declarations.LogsKept

variable {d₀ d : Declarations} {pass : AttributePass}

mutual

theorem render_weave (h : d₀.LogsKept d) (raw : Bool) (branch : Branch)
    (hedits : ∀ node ∈ branch.visit (Content.writesNodes d.tree.names),
      d.edits node.1 = d₀.edits node.1) :
    (d.weave pass raw branch).render = (d₀.weave pass raw branch).render := by
  obtain ⟨id, content, children⟩ := branch
  rw [Branch.visit, List.forall_mem_cons] at hedits
  obtain ⟨hedits, hchildren⟩ := hedits
  rw [weave, weave, h.tree]
  cases content with
  | container =>
    exact funext (renderAll_weaveAll h _ children hchildren)
  | element element =>
    simp only [weaveNode, Declarations.attributes, h.isMutated, h.tree, hedits]
    -- A void element hides what is inside, so the edits there may differ.
    refine Edit.render_weave_congr _ _ _ fun hvoid => funext fun bindings => ?_
    have hwrites : Content.writesNodes d.tree.names (.element element) = true := by
      rw [h.tree]
      exact congrArg not hvoid
    rw [if_pos hwrites] at hchildren
    exact renderAll_weaveAll h _ children hchildren bindings
  | doctype name publicId systemId => simp only [weaveNode, Tree.name, h.tree]
  | _ => rfl

theorem renderAll_weaveAll (h : d₀.LogsKept d) (raw : Bool) (branches : List Branch)
    (hedits : ∀ node ∈ Branch.visitAll (Content.writesNodes d.tree.names) branches,
      d.edits node.1 = d₀.edits node.1) (bindings : Bindings) :
    Template.renderAll (d.weaveAll pass raw branches) bindings =
      Template.renderAll (d₀.weaveAll pass raw branches) bindings := by
  cases branches with
  | nil => rfl
  | cons branch rest =>
    rw [Branch.visitAll, List.forall_mem_append] at hedits
    simp only [weaveAll, Template.renderAll, render_weave h raw branch hedits.1,
      renderAll_weaveAll h raw rest hedits.2]

end

/-- The edits of a node change only when a region is entered over a scope that
    repeats it. -/
theorem edits_eq (h : d₀.LogsKept d) (hd₀ : d₀.WellFormed) (hd : d.WellFormed) {id : NodeId}
    (hfresh : ∀ scope ∈ d.touching id, ∀ context, scope.nested = some context →
      d₀.contexts.size ≤ context.index → ∀ logged ∈ scope.log,
        logged.mutation ≠ { kind := Mutation.repeatEach }) :
    d.edits id = d₀.edits id := by
  have hlater := h.edits hd₀ hd id
  have hsame : ∀ edit ∈ d.edits id, ∀ edit₀, edit₀.Later d₀.contexts.size edit →
      edit₀ = edit := by
    rintro edit hedit edit₀ (rfl | ⟨-, c, hsize, rfl⟩)
    · rfl
    · obtain ⟨i, scope, logged, -, hscope, hlogged, -, hchange⟩ := hd.mem_edits.mp hedit
      obtain ⟨hrepeat, hframe⟩ := Mutation.change?_eq_repetition.mp hchange
      obtain ⟨context, hnested, hcontext⟩ := Option.map_eq_some_iff.mp hframe.symm
      obtain rfl : context = c := congrArg Parameters.context hcontext
      exact absurd hrepeat (hfresh scope hscope _ hnested hsize logged hlogged)
  have hall : ∀ {edits₀ edits : List Edit},
      List.Forall₂ (Edit.Later d₀.contexts.size) edits₀ edits →
      (∀ edit ∈ edits, ∀ edit₀, edit₀.Later d₀.contexts.size edit → edit₀ = edit) →
      edits = edits₀ := by
    intro edits₀ edits hlater hsame
    induction hlater with
    | nil => rfl
    | cons hedit hrest ih =>
      rw [List.forall_mem_cons] at hsame
      rw [ih hsame.2, hsame.1 _ hedit]
  exact hall hlater hsame

/-- Where the template is not stale it renders as the current one. -/
theorem render_woven_of_not_stale (h : d₀.LogsKept d) (hd₀ : d₀.WellFormed) (hd : d.WellFormed)
    (hstale : ¬ d₀.Stale d) : (d.woven pass).render = (d₀.woven pass).render := by
  have hedits : ∀ node ∈ d.written, d.edits node.1 = d₀.edits node.1 := by
    intro node hnode
    refine h.edits_eq hd₀ hd fun scope hscope context hnested hsize logged hlogged hrepeat => ?_
    exact hstale ⟨node, hnode, scope, hscope, context, hnested, hsize, logged, hlogged, hrepeat⟩
  unfold written at hedits
  unfold woven
  rw [← h.tree]
  cases hbranch : d.tree.branch? Tree.root with
  | none => rfl
  | some branch =>
    rw [hbranch] at hedits
    exact h.render_weave false branch hedits

end Declarations.LogsKept

end HtmlTemplate
