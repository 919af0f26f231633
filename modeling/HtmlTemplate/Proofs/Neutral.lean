-- SUMMARY: Edits that change nothing under some bindings, and trees with such edits alone.
import HtmlTemplate.Proofs.Rendered
import HtmlTemplate.Proofs.Weaving
import HtmlTemplate.Tree.Markup

/-!
# Neutral edits

Under some bindings an edit changes nothing of what is rendered: the value of its
variable is absent, or it repeats once. `Edit.Neutral` says so for all bindings of
a set, which has to be closed under the repetitions that take place. A tree of
which all edits are neutral renders to its own markup.
-/

namespace HtmlTemplate

/-- Under any bindings of the set, the edit leaves an element as it is: its value
    is absent, or the element is repeated once under bindings of the set. -/
def Edit.Neutral (edit : Edit) (P : Bindings → Prop) : Prop :=
  ∀ bindings, P bindings →
    match edit.change with
    | .repetition frame => ∃ values inside,
        (Repetition.mk edit.var frame).frames bindings = .ok [values] ∧
        (Repetition.mk edit.var frame).bind bindings values = .ok inside ∧ P inside
    | _ => bindings.value edit.var = .absent

variable {P : Bindings → Prop} {bindings : Bindings}

/-- An absent value repeats once, with nothing bound. -/
theorem Repetition.once_of_absent {repetition : Repetition}
    (hvalue : bindings.value repetition.source = .absent) (hP : P bindings)
    (hcons : ∀ context, P ((context, []) :: bindings)) :
    ∃ values inside, repetition.frames bindings = .ok [values] ∧
      repetition.bind bindings values = .ok inside ∧ P inside := by
  have hframes : repetition.frames bindings = .ok [[]] := by simp [Repetition.frames, hvalue]
  cases hframe : repetition.frame with
  | none => exact ⟨[], bindings, hframes, by simp [Repetition.bind, hframe], hP⟩
  | some parameters =>
    refine ⟨[], (parameters.context, []) :: bindings, hframes, ?_, hcons _⟩
    simp [Repetition.bind, hframe]

/-! ## Around an element -/

namespace Edit

theorem render_wrapContent_of_neutral {edit : Edit} (h : edit.Neutral P) (hP : P bindings)
    (content : Template) :
    (wrapContent content edit).render bindings = content.render bindings := by
  have hvalue := h bindings hP
  unfold wrapContent
  split
  next hchange =>
    simp only [hchange] at hvalue
    simp [Template.render, Bindings.holds, hvalue, Value.isTruthy,
      Template.renderOption]
  next hchange =>
    simp only [hchange] at hvalue
    simp [Template.render, Template.renderAll, hvalue, Value.markup?]
  next => rfl

theorem render_wrapElement_of_neutral {edit : Edit} (h : edit.Neutral P) {element : Template}
    {markup : String} (helement : ∀ bindings, P bindings → element.render bindings = .ok markup)
    (hP : P bindings) : (wrapElement element edit).render bindings = .ok markup := by
  have hvalue := h bindings hP
  unfold wrapElement
  split
  next hchange =>
    simp only [hchange] at hvalue
    simp [Template.render, Bindings.holds, hvalue, Value.isTruthy, helement _ hP]
  next frame hchange =>
    simp only [hchange] at hvalue
    obtain ⟨values, inside, hframes, hbind, hinside⟩ := hvalue
    simp [Template.render, hframes, hbind, Rendered.concat, helement _ hinside]
  next => exact helement _ hP

theorem render_foldl_wrapContent_of_neutral {edits : List Edit}
    (h : ∀ edit ∈ edits, edit.Neutral P) (hP : P bindings) (content : Template) :
    (edits.foldl wrapContent content).render bindings = content.render bindings := by
  induction edits generalizing content with
  | nil => rfl
  | cons edit rest ih =>
    rw [List.forall_mem_cons] at h
    rw [List.foldl_cons, ih h.2, render_wrapContent_of_neutral h.1 hP]

theorem render_foldl_wrapElement_of_neutral {edits : List Edit}
    (h : ∀ edit ∈ edits, edit.Neutral P) {element : Template} {markup : String}
    (helement : ∀ bindings, P bindings → element.render bindings = .ok markup) :
    ∀ bindings, P bindings → (edits.foldl wrapElement element).render bindings = .ok markup := by
  induction edits generalizing element with
  | nil => exact helement
  | cons edit rest ih =>
    rw [List.forall_mem_cons] at h
    exact ih h.2 fun bindings hP => render_wrapElement_of_neutral h.1 helement hP

end Edit

/-! ## Attributes -/

/-- The overrides of a list of edits come from its attribute edits. -/
theorem Edit.of_mem_overrides {edits : List Edit} {overrides : List (String × Var)}
    {pair : String × Var} (h : pair ∈ edits.foldl Edit.override overrides) :
    pair ∈ overrides ∨ ∃ edit ∈ edits, ∃ name, edit.change = .attribute name ∧
      pair = (asciiLower name, edit.var) := by
  induction edits generalizing overrides with
  | nil => exact .inl h
  | cons edit rest ih =>
    rcases ih h with hmem | ⟨later, hlater, hchange⟩
    · unfold override at hmem
      split at hmem
      next name hchange =>
        rw [List.mem_append, List.mem_singleton] at hmem
        rcases hmem with hmem | rfl
        · exact .inl (List.mem_filter.mp hmem).1
        · exact .inr ⟨edit, List.mem_cons_self, name, hchange, rfl⟩
      next => exact .inl hmem
    · exact .inr ⟨later, List.mem_cons_of_mem _ hlater, hchange⟩

/-- The overrides of a plan for edits come from the attribute edits. -/
theorem Edit.of_mem_overrides_ofEdits {id : NodeId} {edits : List Edit} {pair : String × Var}
    (h : pair ∈ (Plan.ofEdits id edits).overrides) :
    ∃ edit ∈ edits, ∃ name, edit.change = .attribute name ∧
      pair = (asciiLower name, edit.var) := by
  rw [Plan.overrides_ofEdits] at h
  exact (of_mem_overrides h).resolve_left List.not_mem_nil

namespace AttributePass

/-- The two passes that a compiler can be given without writing one. -/
inductive IsStandard : AttributePass → Prop where
  | withOverrides : IsStandard AttributePass.withOverrides
  | withoutOverrides : IsStandard AttributePass.withoutOverrides

/-- What fixed and given attributes have, and sequences of templates that have it, holds of
    what a standard pass makes. -/
theorem IsStandard.induction {pass : AttributePass} (hpass : pass.IsStandard) {plan : Plan}
    {tree : Tree} {P : Template → Prop}
    (hsequence : ∀ items, (∀ item ∈ items, P item) → P (.sequence items))
    (hfixed : ∀ name value, P (fixed name value))
    (hgiven : ∀ pair ∈ plan.overrides, ∀ name otherwise, (∀ item ∈ otherwise, P item) →
      P (given name pair.2 otherwise)) : P (pass plan tree) := by
  cases hpass with
  | withoutOverrides =>
    unfold AttributePass.withoutOverrides
    split
    · refine hsequence _ fun item hitem => ?_
      obtain ⟨attr, -, rfl⟩ := List.mem_map.mp hitem
      exact hfixed _ _
    · exact hsequence [] (List.forall_mem_nil _)
  | withOverrides =>
    unfold AttributePass.withOverrides
    split
    · refine hsequence _ fun item hitem => ?_
      rcases List.mem_append.mp hitem with hitem | hitem
      · obtain ⟨pair, -, rfl⟩ := List.mem_map.mp hitem
        unfold overridden
        split
        next var hvar =>
          obtain ⟨override, hmem, rfl⟩ := Option.map_eq_some_iff.mp hvar
          refine hgiven override (List.mem_of_find?_eq_some hmem) _ _ ?_
          rintro item ⟨⟩
          exact hfixed _ _
        next => exact hfixed _ _
      · obtain ⟨pair, hpair, rfl⟩ := List.mem_map.mp hitem
        exact hgiven pair (List.mem_filter.mp hpair).1 _ none (by simp)
    · exact hsequence [] (List.forall_mem_nil _)

theorem render_fixed (name value : String) (bindings : Bindings) :
    (fixed name value).render bindings = .ok (Markup.attr name (Markup.escapedValue value)) := by
  simp [fixed, Template.render, Markup.attr]

theorem render_sourceAttributes (tree : Tree) (element : Element) (bindings : Bindings) :
    (sourceAttributes tree element).render bindings =
      .ok (element.attributesMarkup tree.names) := by
  unfold sourceAttributes Element.attributesMarkup
  rw [Template.render]
  induction element.attributes with
  | nil => simp [Template.renderAll]
  | cons attr rest ih =>
    rw [List.map_cons, Template.renderAll, render_fixed, ih, List.map_cons, String.join_cons]
    rfl

theorem render_given_of_not_isTruthy {var : Var} (h : (bindings.value var).isTruthy = false)
    (name : String) (otherwise : Option Template) :
    (given name var otherwise).render bindings = Template.renderOption otherwise bindings := by
  simp [given, Template.render, Bindings.holds, h]

/-- Overrides without given values leave the attributes as the source has them. -/
theorem render_of_not_isTruthy {pass : AttributePass} (hpass : pass.IsStandard) {plan : Plan}
    {tree : Tree} {element : Element} (helement : tree.element? plan.node = some element)
    (h : ∀ pair ∈ plan.overrides, (bindings.value pair.2).isTruthy = false) :
    (pass plan tree).render bindings = .ok (element.attributesMarkup tree.names) := by
  rw [← render_sourceAttributes tree element bindings]
  cases hpass with
  | withoutOverrides => simp only [withoutOverrides, helement]
  | withOverrides =>
    have hadded (names : List String) :
        Template.renderAll (added plan names) bindings = .ok "" := by
      refine Template.renderAll_eq_empty fun item hitem => ?_
      obtain ⟨pair, hpair, rfl⟩ := List.mem_map.mp hitem
      rw [render_given_of_not_isTruthy (h pair (List.mem_filter.mp hpair).1)]
      rfl
    have hsource (name value : String) :
        (overridden plan name value).render bindings = (fixed name value).render bindings := by
      unfold overridden
      split
      next var hvar =>
        obtain ⟨pair, hpair, rfl⟩ := Option.map_eq_some_iff.mp hvar
        rw [render_given_of_not_isTruthy (h pair (List.mem_of_find?_eq_some hpair))]
        rfl
      next => rfl
    simp only [withOverrides, helement, sourceAttributes, Template.render,
      Template.renderAll_append, hadded, Rendered.append_empty, List.map_map]
    exact Template.renderAll_map_congr fun attr _ => hsource _ _

end AttributePass

/-! ## The whole tree -/

namespace Declarations

variable {d : Declarations} {pass : AttributePass}

/-- Where nothing overrides an attribute the passes write what the source has, so it
    does not matter that they are not run on elements without mutations. -/
theorem attributes_eq (hpass : pass.IsStandard) {id : NodeId} {element : Element}
    (helement : d.tree.element? id = some element) :
    d.attributes pass id element = pass (.ofEdits id (d.edits id)) d.tree := by
  unfold attributes
  split
  · rfl
  next hmutated =>
    rw [(Compiler.edits_of_not_isMutated (by simpa using hmutated)).2]
    cases hpass with
    | withoutOverrides => simp [AttributePass.withoutOverrides, helement]
    | withOverrides =>
      simp [AttributePass.withOverrides, helement, AttributePass.sourceAttributes,
        AttributePass.overridden, AttributePass.added, Plan.override?]

/-- What fixed attributes and those that attribute edits give have, and sequences of
    templates that have it, holds of the attributes of an element. -/
theorem attributes_induction (hpass : pass.IsStandard) {id : NodeId} {element : Element}
    {P : Template → Prop} (hsequence : ∀ items, (∀ item ∈ items, P item) → P (.sequence items))
    (hfixed : ∀ name value, P (AttributePass.fixed name value))
    (hgiven : ∀ edit ∈ d.edits id, ∀ overridden, edit.change = .attribute overridden →
      ∀ name otherwise, (∀ item ∈ otherwise, P item) →
        P (AttributePass.given name edit.var otherwise)) : P (d.attributes pass id element) := by
  unfold attributes
  split
  · refine hpass.induction hsequence hfixed fun pair hpair name otherwise hotherwise => ?_
    obtain ⟨edit, hedit, overridden, hchange, rfl⟩ := Edit.of_mem_overrides_ofEdits hpair
    exact hgiven edit hedit overridden hchange name otherwise hotherwise
  · refine hsequence _ fun item hitem => ?_
    obtain ⟨attr, -, rfl⟩ := List.mem_map.mp hitem
    exact hfixed _ _

theorem render_attributes_of_neutral (hpass : pass.IsStandard) {id : NodeId} {element : Element}
    (helement : d.tree.element? id = some element)
    (hedits : ∀ edit ∈ d.edits id, edit.Neutral P) (hP : P bindings) :
    (d.attributes pass id element).render bindings =
      .ok (element.attributesMarkup d.tree.names) := by
  rw [attributes_eq hpass helement]
  refine AttributePass.render_of_not_isTruthy hpass (by simpa using helement) ?_
  intro pair hpair
  obtain ⟨edit, hedit, name, hchange, rfl⟩ := Edit.of_mem_overrides_ofEdits hpair
  have hvalue := hedits edit hedit bindings hP
  simp only [hchange] at hvalue
  simp [hvalue, Value.isTruthy]

/-- What is asked of a node for its markup to come out unchanged. -/
def Unchanged (d : Declarations) (P : Bindings → Prop) (node : NodeId × Content) : Prop :=
  d.Admits node.1 node.2 ∧
    (∃ found, d.tree.get? node.1 = some found ∧ found.content = node.2) ∧
    ∀ edit ∈ d.edits node.1, edit.Neutral P

mutual

/-- A branch whose edits are neutral renders to its markup. -/
theorem render_weave_of_neutral (hpass : pass.IsStandard) (raw : Bool) (branch : Branch)
    (h : ∀ node ∈ branch.visit Content.holdsNodes, d.Unchanged P node) :
    ∀ bindings, P bindings →
      (d.weave pass raw branch).render bindings = .ok (branch.markup d.tree.names raw) := by
  obtain ⟨id, content, children⟩ := branch
  rw [Branch.visit, List.forall_mem_cons] at h
  obtain ⟨⟨hadmits, ⟨found, hfound, hcontent⟩, hedits⟩, hchildren⟩ := h
  cases content with
  | container => exact renderAll_weaveAll_of_neutral hpass false children hchildren
  | element element =>
    have helement : d.tree.element? id = some element := by
      simp [Tree.element?, hfound, hcontent, Content.element?]
    refine Edit.render_foldl_wrapElement_of_neutral hedits fun bindings hP => ?_
    have hinside := renderAll_weaveAll_of_neutral hpass
      (Markup.isRawText (d.tree.name element.name.localName)) children hchildren bindings hP
    rw [Template.render, render_attributes_of_neutral hpass helement hedits hP,
      Edit.render_foldl_wrapContent_of_neutral hedits hP, Template.render]
    simp only [Compiler.holdsRawText, Tree.name] at hinside ⊢
    rw [hinside, Branch.markup, Markup.element]
    by_cases hvoid : Markup.isVoid (d.tree.names.get element.name.localName) = true
    · simp [hvoid, String.append_assoc]
    · simp [hvoid, String.append_assoc]
  | text text => exact fun _ _ => rfl
  | doctype name publicId systemId => exact fun _ _ => rfl
  | comment text => cases hadmits
  | instruction target text => cases hadmits

theorem renderAll_weaveAll_of_neutral (hpass : pass.IsStandard) (raw : Bool)
    (branches : List Branch)
    (h : ∀ node ∈ Branch.visitAll Content.holdsNodes branches, d.Unchanged P node) :
    ∀ bindings, P bindings →
      Template.renderAll (d.weaveAll pass raw branches) bindings =
        .ok (Branch.markupAll d.tree.names raw branches) := by
  cases branches with
  | nil => exact fun _ _ => rfl
  | cons branch rest =>
    intro bindings hP
    rw [Branch.visitAll, List.forall_mem_append] at h
    rw [weaveAll, Template.renderAll, Branch.markupAll,
      render_weave_of_neutral hpass raw branch h.1 bindings hP,
      renderAll_weaveAll_of_neutral hpass raw rest h.2 bindings hP, Rendered.append_ok_ok]

end

/-- Declarations that compile, with neutral edits alone, render to the markup of
    the tree. -/
theorem render_woven_of_neutral (hpass : pass.IsStandard)
    (hadmits : ∀ node ∈ d.visited, d.Admits node.1 node.2)
    (hedits : ∀ node ∈ d.visited, ∀ edit ∈ d.edits node.1, edit.Neutral P) (hP : P bindings) :
    (d.woven pass).render bindings = .ok d.tree.markup := by
  have hnodes : ∀ node ∈ d.visited, d.Unchanged P node := fun node hnode =>
    ⟨hadmits node hnode, (of_mem_visited hnode).2, hedits node hnode⟩
  unfold visited at hnodes
  unfold woven Tree.markup Tree.outerMarkup
  cases hbranch : d.tree.branch? Tree.root with
  | none => rfl
  | some branch =>
    rw [hbranch] at hnodes
    exact render_weave_of_neutral hpass false branch hnodes bindings hP

end Declarations

end HtmlTemplate
