-- SUMMARY: Values that fit the mutations they are given to, and that such values are always rendered.
import HtmlTemplate.Proofs.AbsentValues
import HtmlTemplate.Proofs.Declarations.Edits

/-!
# Shapes of values

Each slot belongs to one mutation, and a mutation takes values of some kinds only: a
repetition an absent value or a list, what is written no list. A frame is well-shaped
for a context if all its values are taken, and those inside of lists too. A document
that compiles renders all well-shaped arguments.
-/

namespace HtmlTemplate

namespace Declarations

/-- A frame has no more values than its context has slots, and each value is such as the
    mutation takes that the slot belongs to. -/
inductive WellShaped (d : Declarations) : ContextId → Frame → Prop where
  | intro {c : ContextId} {frame : Frame} (length_le : frame.length ≤ d.nextSlot c)
      (repeated : ∀ i scope logged, d.scope? i = some scope → scope.context = c →
        logged ∈ scope.log → logged.mutation.kind = Mutation.repeatEach →
        frame.get logged.slot = .absent ∨ ∃ frames, frame.get logged.slot = .list frames)
      (nested : ∀ i scope logged frames inner, d.scope? i = some scope → scope.context = c →
        logged ∈ scope.log → logged.mutation.kind = Mutation.repeatEach →
        frame.get logged.slot = .list frames → scope.nested = some inner →
        ∀ values ∈ frames, WellShaped d inner values)
      (written : ∀ i scope logged, d.scope? i = some scope → scope.context = c →
        logged ∈ scope.log → logged.mutation.kind ∈
          [Mutation.replaceInnerHtml, Mutation.append, Mutation.setAttribute] →
        ∀ frames, frame.get logged.slot ≠ .list frames) :
      WellShaped d c frame

namespace WellShaped

variable {d d₀ : Declarations} {c : ContextId} {frame : Frame}

theorem length_le (h : d.WellShaped c frame) : frame.length ≤ d.nextSlot c := by
  cases h with
  | intro hlength => exact hlength

/-- A frame without values is well-shaped. -/
theorem nil (d : Declarations) (c : ContextId) : d.WellShaped c [] := by
  refine .intro (Nat.zero_le _) ?_ ?_ ?_
  · exact fun _ _ _ _ _ _ _ => .inl rfl
  · intro i scope logged frames inner _ _ _ _ hlist
    cases hlist
  · intro i scope logged _ _ _ _ frames hlist
    cases hlist

/-- Regions that were entered later, and scopes without mutations, ask for no less of a
    frame. -/
theorem of_logsKept (h : d.WellShaped c frame) (hkept : d₀.LogsKept d) :
    d₀.WellShaped c frame := by
  induction h with
  | intro hlength hrepeated _ hwritten ih =>
    refine .intro (hkept.slots _ ▸ hlength) ?_ ?_ ?_
    · intro i scope logged hs hcontext hlogged
      obtain ⟨t, ht, -, hcontext', hlog, -⟩ := hkept.scope hs
      exact hrepeated i t logged ht (hcontext'.trans hcontext) (hlog ▸ hlogged)
    · intro i scope logged frames inner hs hcontext hlogged hkind hlist hinner
      obtain ⟨t, ht, -, hcontext', hlog, hnested⟩ := hkept.scope hs
      have hinner' : t.nested = some inner := by
        rcases hnested with hnested | ⟨hnone, -⟩
        · exact hnested.trans hinner
        · cases hnone.symm.trans hinner
      exact ih i t logged frames inner ht (hcontext'.trans hcontext) (hlog ▸ hlogged) hkind hlist
        hinner'
    · intro i scope logged hs hcontext hlogged
      obtain ⟨t, ht, -, hcontext', hlog, -⟩ := hkept.scope hs
      exact hwritten i t logged ht (hcontext'.trans hcontext) (hlog ▸ hlogged)

end WellShaped

end Declarations

/-! ## Templates that render -/

/-- The template is rendered under all bindings of the set. -/
def Template.RendersUnder (P : Bindings → Prop) (template : Template) : Prop :=
  ∀ bindings, P bindings → ∃ markup, template.render bindings = .ok markup

/-- Under any bindings of the set the value is such as the edit takes: what is to be
    repeated over is an absent value or a list, whose frames can be bound, and what is to
    be written is no list. -/
def Edit.Suits (edit : Edit) (P : Bindings → Prop) : Prop :=
  ∀ bindings, P bindings →
    match edit.change with
    | .repetition frame => ∃ frames,
        (Repetition.mk edit.var frame).frames bindings = .ok frames ∧
        ∀ values ∈ frames, ∃ inside,
          (Repetition.mk edit.var frame).bind bindings values = .ok inside ∧ P inside
    | .removal => True
    | _ => ∃ markup, (bindings.value edit.var).markup? = some markup

variable {P : Bindings → Prop}

theorem Rendered.append_ok {first second : Rendered} (hfirst : ∃ markup, first = .ok markup)
    (hsecond : ∃ markup, second = .ok markup) : ∃ markup, first.append second = .ok markup := by
  obtain ⟨a, rfl⟩ := hfirst
  obtain ⟨b, rfl⟩ := hsecond
  exact ⟨a ++ b, rfl⟩

theorem Rendered.concat_ok {pieces : List Rendered} (h : ∀ piece ∈ pieces, ∃ markup,
    piece = .ok markup) : ∃ markup, concat pieces = .ok markup := by
  induction pieces with
  | nil => exact ⟨"", rfl⟩
  | cons piece rest ih =>
    rw [List.forall_mem_cons] at h
    exact append_ok h.1 (ih h.2)

namespace Template

theorem rendersUnder_static (markup : String) : (static markup).RendersUnder P :=
  fun _ _ => ⟨markup, rfl⟩

theorem RendersUnder.sequence {items : List Template} (h : ∀ item ∈ items, item.RendersUnder P) :
    (sequence items).RendersUnder P := by
  intro bindings hP
  rw [render]
  induction items with
  | nil => exact ⟨"", rfl⟩
  | cons item rest ih =>
    rw [List.forall_mem_cons] at h
    exact Rendered.append_ok (h.1 bindings hP) (ih h.2)

theorem RendersUnder.element {tag : String} {attributes content : Template}
    (hattributes : attributes.RendersUnder P) (hcontent : content.RendersUnder P) :
    (element tag attributes content).RendersUnder P := by
  intro bindings hP
  rw [render]
  refine Rendered.append_ok (Rendered.append_ok (Rendered.append_ok ⟨_, rfl⟩
    (hattributes bindings hP)) ⟨_, rfl⟩) ?_
  split
  · exact ⟨"", rfl⟩
  · exact Rendered.append_ok (hcontent bindings hP) ⟨_, rfl⟩

theorem RendersUnder.attr {value : Template} (h : value.RendersUnder P) (name : String) :
    (attr name value).RendersUnder P := by
  intro bindings hP
  rw [render]
  exact Rendered.append_ok (Rendered.append_ok ⟨_, rfl⟩ (h bindings hP)) ⟨_, rfl⟩

theorem rendersUnder_dynamic {var : Var}
    (h : ∀ bindings, P bindings → ∃ markup, (bindings.value var).markup? = some markup) :
    (dynamic var).RendersUnder P := by
  intro bindings hP
  obtain ⟨markup, hmarkup⟩ := h bindings hP
  exact ⟨markup, by simp [render, hmarkup]⟩

theorem RendersUnder.choice {yes : Template} {no : Option Template} (hyes : yes.RendersUnder P)
    (hno : ∀ item ∈ no, item.RendersUnder P) (condition : Condition) :
    (choice condition yes no).RendersUnder P := by
  intro bindings hP
  rw [render]
  split
  · exact hyes bindings hP
  · cases no with
    | none => exact ⟨"", rfl⟩
    | some item => exact hno item rfl bindings hP

end Template

namespace Edit

theorem rendersUnder_wrapContent {edit : Edit} (h : edit.Suits P) {content : Template}
    (hcontent : content.RendersUnder P) : (wrapContent content edit).RendersUnder P := by
  unfold Suits at h
  unfold wrapContent
  split
  next hchange =>
    simp only [hchange] at h
    refine (Template.rendersUnder_dynamic h).choice ?_ _
    rintro item ⟨⟩
    exact hcontent
  next hchange =>
    simp only [hchange] at h
    refine Template.RendersUnder.sequence ?_
    simp [hcontent, Template.rendersUnder_dynamic h]
  next => exact hcontent

theorem rendersUnder_wrapElement {edit : Edit} (h : edit.Suits P) {element : Template}
    (helement : element.RendersUnder P) : (wrapElement element edit).RendersUnder P := by
  unfold Suits at h
  unfold wrapElement
  split
  next => exact helement.choice (by simp) _
  next frame hchange =>
    simp only [hchange] at h
    intro bindings hP
    obtain ⟨frames, hframes, hbind⟩ := h bindings hP
    simp only [Template.render, hframes]
    refine Rendered.concat_ok fun piece hpiece => ?_
    obtain ⟨values, hvalues, rfl⟩ := List.mem_map.mp hpiece
    obtain ⟨inside, hinside, hP⟩ := hbind values hvalues
    simp only [hinside]
    exact helement inside hP
  next => exact helement

/-- An element whose edits suit is rendered. -/
theorem rendersUnder_weave {edits : List Edit} (h : ∀ edit ∈ edits, edit.Suits P) {tag : String}
    {attributes inside : Template} (hattributes : attributes.RendersUnder P)
    (hinside : inside.RendersUnder P) : (weave edits tag attributes inside).RendersUnder P := by
  refine weave_induction hinside ?_ ?_ ?_
  · exact fun edit hedit content => rendersUnder_wrapContent (h edit hedit)
  · exact fun content => hattributes.element
  · exact fun edit hedit element => rendersUnder_wrapElement (h edit hedit)

end Edit

namespace AttributePass

theorem rendersUnder_fixed (name value : String) : (fixed name value).RendersUnder P :=
  (Template.rendersUnder_static _).attr name

theorem rendersUnder_given {var : Var}
    (h : ∀ bindings, P bindings → ∃ markup, (bindings.value var).markup? = some markup)
    {otherwise : Option Template} (hotherwise : ∀ item ∈ otherwise, item.RendersUnder P)
    (name : String) : (given name var otherwise).RendersUnder P :=
  ((Template.rendersUnder_dynamic h).attr name).choice hotherwise _

end AttributePass

/-! ## The whole tree -/

namespace Declarations

variable {d : Declarations} {pass : AttributePass}

theorem rendersUnder_attributes (hpass : pass.IsStandard) {id : NodeId} {element : Element}
    (helement : d.tree.element? id = some element) (hedits : ∀ edit ∈ d.edits id, edit.Suits P) :
    (d.attributes pass id element).RendersUnder P := by
  rw [attributes_eq hpass helement]
  refine hpass.induction (fun _ => .sequence) AttributePass.rendersUnder_fixed
    fun pair hpair name otherwise hotherwise => ?_
  obtain ⟨edit, hedit, overridden, hchange, rfl⟩ := Edit.of_mem_overrides_ofEdits hpair
  refine AttributePass.rendersUnder_given (fun bindings hP => ?_) hotherwise name
  have hsuits := hedits edit hedit bindings hP
  simp only [hchange] at hsuits
  exact hsuits

/-- What is asked of a node for it to be rendered. -/
def Renders (d : Declarations) (P : Bindings → Prop) (node : NodeId × Content) : Prop :=
  (∃ found, d.tree.get? node.1 = some found ∧ found.content = node.2) ∧
    ∀ edit ∈ d.edits node.1, edit.Suits P

mutual

theorem rendersUnder_weave (hpass : pass.IsStandard) (raw : Bool) (branch : Branch)
    (h : ∀ node ∈ branch.visit Content.holdsNodes, d.Renders P node) :
    (d.weave pass raw branch).RendersUnder P := by
  obtain ⟨id, content, children⟩ := branch
  rw [Branch.visit, List.forall_mem_cons] at h
  obtain ⟨⟨⟨found, hfound, hcontent⟩, hedits⟩, hchildren⟩ := h
  cases content with
  | container =>
    exact Template.RendersUnder.sequence (rendersUnder_weaveAll hpass false children hchildren)
  | element element =>
    have helement : d.tree.element? id = some element := by
      simp [Tree.element?, hfound, hcontent, Content.element?]
    refine Edit.rendersUnder_weave hedits (rendersUnder_attributes hpass helement hedits) ?_
    exact Template.RendersUnder.sequence (rendersUnder_weaveAll hpass _ children hchildren)
  | text text => exact Template.rendersUnder_static _
  | doctype name publicId systemId => exact Template.rendersUnder_static _
  | comment text => exact Template.RendersUnder.sequence nofun
  | instruction target text => exact Template.RendersUnder.sequence nofun

theorem rendersUnder_weaveAll (hpass : pass.IsStandard) (raw : Bool) (branches : List Branch)
    (h : ∀ node ∈ Branch.visitAll Content.holdsNodes branches, d.Renders P node) :
    ∀ item ∈ d.weaveAll pass raw branches, item.RendersUnder P := by
  cases branches with
  | nil => nofun
  | cons branch rest =>
    rw [Branch.visitAll, List.forall_mem_append] at h
    rw [weaveAll, List.forall_mem_cons]
    constructor
    · exact rendersUnder_weave hpass raw branch h.1
    · exact rendersUnder_weaveAll hpass raw rest h.2

end

theorem rendersUnder_woven (hpass : pass.IsStandard)
    (hedits : ∀ id, ∀ edit ∈ d.edits id, edit.Suits P) : (d.woven pass).RendersUnder P := by
  have hnodes : ∀ node ∈ d.visited, d.Renders P node := fun node hnode =>
    ⟨(of_mem_visited hnode).2, hedits node.1⟩
  unfold visited at hnodes
  unfold woven
  cases hbranch : d.tree.branch? Tree.root with
  | none => exact Template.RendersUnder.sequence nofun
  | some branch =>
    rw [hbranch] at hnodes
    exact rendersUnder_weave hpass false branch hnodes

/-! ## Well-shaped frames -/

/-- All frames that are bound are well-shaped for their contexts. -/
def Shaped (d : Declarations) (bindings : Bindings) : Prop :=
  ∀ c frame, bindings.frame? c = some frame → d.WellShaped c frame

theorem Shaped.cons {bindings : Bindings} (h : d.Shaped bindings) {c : ContextId} {frame : Frame}
    (hframe : d.WellShaped c frame) : d.Shaped ((c, frame) :: bindings) := by
  intro context values hvalues
  rw [Bindings.frame?_cons] at hvalues
  split at hvalues
  next heq =>
    cases hvalues
    exact heq ▸ hframe
  next => exact h context values hvalues

/-- The value of a mutation is absent or comes from a well-shaped frame. -/
theorem Shaped.value_eq {bindings : Bindings} (h : d.Shaped bindings) (scope : Scope)
    (logged : LoggedMutation) :
    ∃ frame, d.WellShaped scope.context frame ∧
      bindings.value (scope.var logged) = frame.get logged.slot := by
  cases hframe : bindings.frame? scope.context with
  | some frame => exact ⟨frame, h _ _ hframe, Bindings.value_of_frame? hframe⟩
  | none => exact ⟨[], .nil d _, by simp [Bindings.value, Scope.var, hframe, Frame.get]⟩

namespace WellFormed

variable {scope : Scope} {logged : LoggedMutation} {i : ScopeId} {frame : Frame}

/-- What is to be written is no list. -/
theorem markup?_of_wellShaped (hs : d.scope? i = some scope) (hlogged : logged ∈ scope.log)
    (hframe : d.WellShaped scope.context frame)
    (hkind : logged.mutation.kind ∈
      [Mutation.replaceInnerHtml, Mutation.append, Mutation.setAttribute]) :
    ∃ markup, (frame.get logged.slot).markup? = some markup := by
  cases hframe with
  | intro _ _ _ hwritten =>
    have hlist := hwritten i scope logged hs rfl hlogged hkind
    cases hvalue : frame.get logged.slot with
    | list frames => exact absurd hvalue (hlist frames)
    | _ => exact ⟨_, rfl⟩

/-- What is to be repeated over has frames, well-shaped for the region of the scope. -/
theorem frames_of_wellShaped (hs : d.scope? i = some scope) (hlogged : logged ∈ scope.log)
    (hframe : d.WellShaped scope.context frame)
    (hkind : logged.mutation.kind = Mutation.repeatEach) :
    ∃ frames, (frame.get logged.slot = .absent ∧ frames = [[]] ∨
        frame.get logged.slot = .list frames) ∧
      ∀ inner, scope.nested = some inner → ∀ values ∈ frames, d.WellShaped inner values := by
  cases hframe with
  | intro _ hrepeated hnested _ =>
    rcases hrepeated i scope logged hs rfl hlogged hkind with habsent | ⟨frames, hlist⟩
    · refine ⟨[[]], .inl ⟨habsent, rfl⟩, fun inner _ values hvalues => ?_⟩
      obtain rfl := List.mem_singleton.mp hvalues
      exact .nil d inner
    · refine ⟨frames, .inr hlist, fun inner hinner => ?_⟩
      exact hnested i scope logged frames inner hs rfl hlogged hkind hlist hinner

/-- Every edit suits well-shaped frames. -/
theorem suits (hd : d.WellFormed) {id : NodeId} {edit : Edit} (hedit : edit ∈ d.edits id) :
    edit.Suits d.Shaped := by
  obtain ⟨i, scope, logged, hs, -, hlogged, hvar, hchange⟩ := hd.mem_edits.mp hedit
  obtain ⟨hmutation, hregion⟩ := Mutation.change?_eq_some.mp hchange
  have hkind := congrArg Mutation.kind hmutation
  intro bindings hshaped
  obtain ⟨frame, hframe, hvalue⟩ := hshaped.value_eq scope logged
  rw [← hvar] at hvalue
  cases hchange : edit.change with
  | repetition region =>
    obtain rfl := hregion region hchange
    rw [hchange] at hkind
    obtain ⟨frames, hframes, hinner⟩ := frames_of_wellShaped hs hlogged hframe hkind
    refine ⟨frames, ?_, fun values hvalues => ?_⟩
    · rcases hframes with ⟨habsent, rfl⟩ | hlist
      · simp [Repetition.frames, hvalue, habsent]
      · simp [Repetition.frames, hvalue, hlist]
    · cases hnested : scope.nested with
      | none => exact ⟨bindings, rfl, hshaped⟩
      | some inner =>
        have hvalues := hinner inner hnested values hvalues
        refine ⟨(inner, values) :: bindings, ?_, hshaped.cons hvalues⟩
        simp [Repetition.bind, loopParameters, hvalues.length_le]
  | removal => trivial
  | _ =>
    simp only [hvalue]
    refine markup?_of_wellShaped hs hlogged hframe ?_
    rw [hkind, hchange]
    simp [Change.mutation]

end WellFormed

end Declarations

/-! ## Documents -/

namespace Document

/-- A program of well-formed declarations renders well-shaped arguments. -/
theorem render_build_wellShaped {d : Declarations} (hd : d.WellFormed) {pass : AttributePass}
    (hpass : pass.IsStandard) {template : Template}
    (h : (Compiler.mk .standard pass).compile d = .ok template) (optimizing : Bool)
    {arguments : Frame} (harguments : d.WellShaped Declarations.rootContext arguments) :
    ∃ markup, (Program.build optimizing template d.parameters).render arguments = .ok markup := by
  obtain ⟨-, -, rfl⟩ := Compiler.compile_eq_ok.mp h
  have hshaped : d.Shaped [(Declarations.rootContext, arguments)] :=
    Declarations.Shaped.cons (fun _ _ hframe => by cases hframe) harguments
  have hlength : ¬ arguments.length > d.parameters.arity := Nat.not_lt.mpr harguments.length_le
  rw [Program.render_build, Program.render, if_neg hlength]
  exact Declarations.rendersUnder_woven hpass (fun id edit hedit => hd.suits hedit) _ hshaped

theorem exists_markup_of_compile_run {tree : Tree} {optimizing : Bool}
    {operations : List Operation} {renderer : Renderer} {arguments : Frame}
    (hrenderer : ((ofTree tree {} optimizing).run operations).compile.1 = .ok renderer)
    (harguments : ((ofTree tree {} optimizing).run operations).declarations.WellShaped
      Declarations.rootContext arguments) :
    ∃ markup, (((ofTree tree {} optimizing).run operations).render arguments).1 = .ok markup := by
  obtain ⟨d₀, template, hd₀, hkept, htemplate, hprogram⟩ := of_compile_run hrenderer
  obtain ⟨markup, hmarkup⟩ := render_build_wellShaped hd₀ .withOverrides htemplate optimizing
    (harguments.of_logsKept hkept)
  refine ⟨markup, ?_⟩
  rw [render_of_compile hrenderer, hprogram, hmarkup]
  rfl

/-- A document that compiles renders all well-shaped arguments. -/
theorem render_wellShaped (tree : Tree) (optimizing : Bool) (operations : List Operation) :
    let doc := (ofTree tree {} optimizing).run operations
    ∀ renderer arguments, doc.compile.1 = .ok renderer →
      doc.declarations.WellShaped Declarations.rootContext arguments →
      ∃ markup, (doc.render arguments).1 = .ok markup :=
  fun _ _ => exists_markup_of_compile_run

/-- A paragraph is repeated, once with a text and once without values. -/
theorem render_wellShaped_section :
    let doc := (ofTree sectionTree).run [.find "p", .log ⟨1⟩ { kind := Mutation.repeatEach },
      .nest ⟨1⟩, .log ⟨2⟩ { kind := Mutation.replaceInnerHtml }]
    let arguments : Frame := [.list [[.text "x"], []]]
    doc.declarations.WellShaped Declarations.rootContext arguments ∧
      ∃ markup, (doc.render arguments).1 = .ok markup := by
  intro doc arguments
  -- The one mutation of each context has slot 0.
  have hlogged : ∀ i scope, doc.declarations.scope? i = some scope → ∀ logged ∈ scope.log,
      logged.slot = 0 ∧
        (scope.context = ⟨0⟩ ∧ logged.mutation.kind = Mutation.repeatEach ∧
            scope.nested = some ⟨1⟩ ∨
          scope.context = ⟨1⟩ ∧ logged.mutation.kind = Mutation.replaceInnerHtml) := by
    have hscopes : ∀ scope ∈ doc.declarations.scopes.toList, ∀ logged ∈ scope.log,
        logged.slot = 0 ∧
          (scope.context = ⟨0⟩ ∧ logged.mutation.kind = Mutation.repeatEach ∧
              scope.nested = some ⟨1⟩ ∨
            scope.context = ⟨1⟩ ∧ logged.mutation.kind = Mutation.replaceInnerHtml) := by
      decide +kernel
    exact fun i scope hs => hscopes scope (Array.mem_toList_iff.mpr (Array.mem_of_getElem? hs))
  have hinner : doc.declarations.WellShaped ⟨1⟩ [.text "x"] := by
    refine .intro (by decide +kernel) ?_ ?_ ?_
    · intro i scope logged hs hcontext hmem hkind
      rcases (hlogged i scope hs logged hmem).2 with ⟨hroot, -⟩ | ⟨-, hkind'⟩
      · cases hroot.symm.trans hcontext
      · exact absurd (hkind.symm.trans hkind') (by decide)
    · intro i scope logged frames inner hs hcontext hmem hkind
      rcases (hlogged i scope hs logged hmem).2 with ⟨hroot, -⟩ | ⟨-, hkind'⟩
      · cases hroot.symm.trans hcontext
      · exact absurd (hkind.symm.trans hkind') (by decide)
    · intro i scope logged hs _ hmem _ frames
      rw [(hlogged i scope hs logged hmem).1]
      nofun
  have harguments : doc.declarations.WellShaped Declarations.rootContext arguments := by
    refine .intro (by decide +kernel) ?_ ?_ ?_
    · intro i scope logged hs _ hmem _
      rw [(hlogged i scope hs logged hmem).1]
      exact .inr ⟨_, rfl⟩
    · intro i scope logged frames inner hs hcontext hmem _ hlist hnested values hvalues
      obtain ⟨hslot, ⟨-, -, hnested'⟩ | ⟨hregion, -⟩⟩ := hlogged i scope hs logged hmem
      · obtain rfl := Option.some.inj (hnested'.symm.trans hnested)
        rw [hslot] at hlist
        cases hlist
        rcases List.mem_cons.mp hvalues with rfl | hvalues
        · exact hinner
        · obtain rfl := List.mem_singleton.mp hvalues
          exact .nil _ _
      · cases hregion.symm.trans hcontext
    · intro i scope logged hs hcontext hmem hkind
      rcases (hlogged i scope hs logged hmem).2 with ⟨-, hrepeat, -⟩ | ⟨hregion, -⟩
      · rw [hrepeat] at hkind
        exact absurd hkind (by decide)
      · cases hregion.symm.trans hcontext
  exact ⟨harguments, render_wellShaped sectionTree true _ _ arguments rfl harguments⟩

end Document

end HtmlTemplate
