-- SUMMARY: What is left of views that fail: the document can still be compiled, and renders as before.
import HtmlTemplate.Proofs.Compiling
import HtmlTemplate.Proofs.Covering
import HtmlTemplate.Proofs.Logging
import HtmlTemplate.Proofs.Logging.Compiling
import HtmlTemplate.Proofs.Views

/-!
# Views that fail

A view that fails has declared what its calls came to, and none of this is taken back.
But what views declare are standard mutations of what they have searched for. So the
document can still be compiled as long as every region is repeated in which something
was logged, and values that were rendered before are rendered as before.

Three things are not kept. A call that fails inside of a region leaves the region
without its repetition. An override that comes in takes the place of an earlier one,
whose value is lost. And the frames of a repetition that had no region are bound once
the view has entered one. Trees are built throughout: where a node is below two parents,
what is found inside of a region may be outside of it as well.
-/

namespace HtmlTemplate

namespace Declarations

/-- What has been logged since `d` are standard mutations of what was searched for. -/
def SearchesFrom (d d' : Declarations) : Prop :=
  ∀ i scope logged, d'.scope? i = some scope → logged ∈ scope.log →
    d.nextSlot scope.context ≤ logged.slot → logged.mutation.IsStandard ∧ d'.Searched scope

/-- Every region is repeated in which something has been logged since `d` on a node that
    the walk comes upon. -/
def RepeatsRegions (d d' : Declarations) : Prop :=
  ∀ i scope logged, d'.scope? i = some scope → logged ∈ scope.log →
    (∀ old, d.scope? i = some old → logged ∉ old.log) →
    (∃ id ∈ scope.nodes, d'.tree.Holds id) → scope.context ≠ rootContext →
    d'.Repeated scope.context

end Declarations

/-! ## What calls leave behind -/

/-- What calls of views have made of a document, whether they succeeded or not. -/
structure Document.Tried (doc later : Document) : Prop where
  same : later = { doc with declarations := later.declarations }
  wellFormed : later.declarations.WellFormed
  placed : later.declarations.Placed
  built : later.tree.Built
  clean : later.isDirty = false → doc.isDirty = false
  grown : doc.declarations.Extends later.declarations
  searched : doc.declarations.SearchesFrom later.declarations

namespace Document.Tried

variable {doc later : Document}

theorem refl (hd : doc.declarations.WellFormed) (hplaced : doc.declarations.Placed)
    (hbuilt : doc.tree.Built) : doc.Tried doc := by
  refine ⟨rfl, hd, hplaced, hbuilt, id, .refl _, fun i scope logged hs hlogged hslot => ?_⟩
  exact absurd (hd.slot_lt hs hlogged) (Nat.not_lt.mpr hslot)

/-- An operation that logs only standard mutations of what was searched for. -/
theorem step (h : doc.Tried later) {d : Declarations} (hstep : later.declarations.Step d)
    (hplaced : d.Placed)
    (hnew : ∀ i scope logged, d.scope? i = some scope → logged ∈ scope.log →
      later.declarations.nextSlot scope.context ≤ logged.slot →
      logged.mutation.IsStandard ∧ d.Searched scope) :
    doc.Tried { later with declarations := d } := by
  have hextends : later.declarations.Extends d := .of_step h.wellFormed hstep
  constructor
  case same => rw [h.same]
  case wellFormed => exact h.wellFormed.step hstep
  case placed => exact hplaced
  case built =>
    change d.tree.Built
    rw [hextends.tree]
    exact h.built
  case clean =>
    intro hclean
    refine h.clean ?_
    cases hstep with
    | logged => cases hclean
    | _ => exact hclean
  case grown => exact h.grown.trans hextends
  case searched =>
    intro i scope logged hs hlogged hslot
    rcases hextends.of_mem_log hs hlogged with ⟨old, hold, hlogged⟩ | hslot
    · obtain ⟨-, hcontext, -⟩ := hextends.of_scope? hold hs
      obtain ⟨hstandard, hsearched⟩ := h.searched i old logged hold hlogged (hcontext ▸ hslot)
      exact ⟨hstandard, hextends.searched h.wellFormed h.placed hold hs hsearched⟩
    · exact hnew i scope logged hs hlogged hslot

theorem resolve (h : doc.Tried later) (i : ScopeId) (selector : String) :
    doc.Tried (later.resolve i selector).2 := by
  refine h.step (Declarations.step_resolve _ i selector) (h.placed.resolve h.built i selector) ?_
  intro j scope logged hs hlogged hslot
  rcases later.declarations.resolve_snd i selector with heq | ⟨found, parsed, -, -, -, heq⟩
  · rw [heq] at hs
    exact absurd (h.wellFormed.slot_lt hs hlogged) (Nat.not_lt.mpr hslot)
  · rw [heq] at hs
    obtain ⟨old, children, hold | ⟨-, rfl⟩, rfl⟩ := Declarations.of_scope?_withFound hs
    · exact absurd (h.wellFormed.slot_lt hold hlogged) (Nat.not_lt.mpr hslot)
    · cases hlogged

theorem nest (h : doc.Tried later) (i : ScopeId) : doc.Tried (later.nest i).2 := by
  refine h.step (Declarations.step_nest _ i) (h.placed.nest h.wellFormed i) ?_
  intro j scope logged hs hlogged hslot
  rcases later.declarations.nest_snd i with heq | ⟨entered, -, -, heq⟩
  · rw [heq] at hs
    exact absurd (h.wellFormed.slot_lt hs hlogged) (Nat.not_lt.mpr hslot)
  · rw [heq] at hs
    obtain ⟨old, hold | ⟨-, rfl⟩, rfl⟩ := Declarations.of_scope?_withRegion hs
    · exact absurd (h.wellFormed.slot_lt hold hlogged) (Nat.not_lt.mpr hslot)
    · cases hlogged

theorem log (h : doc.Tried later) {i : ScopeId} {t : Scope}
    (ht : later.declarations.scope? i = some t) (hsearched : later.declarations.Searched t)
    {mutation : Mutation} (hstandard : mutation.IsStandard) :
    doc.Tried (later.log i mutation).2 := by
  have hplaced := h.placed.log i mutation
  have hstep := later.declarations.step_log i mutation
  have hextends : later.declarations.Extends _ := .of_step h.wellFormed hstep
  refine h.step hstep hplaced fun j scope logged hs hlogged hslot => ?_
  rcases later.declarations.log_snd i mutation with heq | ⟨t', ht', -, heq⟩
  · rw [heq] at hs
    exact absurd (h.wellFormed.slot_lt hs hlogged) (Nat.not_lt.mpr hslot)
  · obtain rfl := Option.some.inj (ht.symm.trans ht')
    obtain ⟨old, hold, hcontext, -, hlogged | ⟨rfl, rfl, rfl⟩⟩ :=
      Declarations.of_mem_log_withLogged ht (heq ▸ hs) hlogged
    · rw [hcontext] at hslot
      exact absurd (h.wellFormed.slot_lt hold hlogged) (Nat.not_lt.mpr hslot)
    · exact ⟨hstandard, hextends.searched h.wellFormed h.placed hold hs hsearched⟩

end Document.Tried

/-! ## Calls -/

namespace View

variable {doc : Document} {view : View} {selector : String} {mutation : Mutation} {value : Value}

/-- Whatever comes of the body, the document afterwards has only been tried. -/
def Tries (body : View → Outcome) : Prop :=
  ∀ doc view, Document.Tried doc view.document → doc.Tried (body view).2.document

theorem tried_resolve (h : doc.Tried view.document) (selector : String) :
    doc.Tried (view.resolve selector).2.document := h.resolve view.scope selector

/-- What a view has resolved is a scope that was searched for. -/
theorem searched_of_resolve (h : doc.Tried view.document) {i : ScopeId} {inside : View}
    (hresolve : view.resolve selector = (.ok i, inside)) : doc.Tried inside.document ∧
      ∃ t, inside.document.declarations.scope? i = some t ∧
        inside.document.declarations.Searched t := by
  have hanswer : (view.document.declarations.resolve view.scope selector).1 = .ok i :=
    congrArg Prod.fst hresolve
  have htried := tried_resolve h selector
  rw [hresolve] at htried
  obtain rfl : { view with document := (view.document.resolve view.scope selector).2 } = inside :=
    congrArg Prod.snd hresolve
  obtain ⟨s, hs, hchild⟩ := Declarations.child?_of_resolve hanswer
  obtain ⟨t, ht, -, hsearched⟩ :=
    Declarations.exists_searched htried.placed htried.wellFormed hs hchild
  exact ⟨htried, t, ht, hsearched⟩

theorem tried_give (h : doc.Tried view.document) {i : ScopeId} {t : Scope}
    (ht : view.document.declarations.scope? i = some t)
    (hsearched : view.document.declarations.Searched t) (hstandard : mutation.IsStandard) :
    doc.Tried (view.give i mutation value).2.document := by
  have hlog := h.log ht hsearched hstandard
  unfold give
  split
  next hanswer => rwa [hanswer] at hlog
  next hanswer => rwa [hanswer] at hlog

theorem tries_declare (selector : String) (hstandard : mutation.IsStandard) :
    Tries fun view => view.declare selector mutation value := by
  intro doc view h
  have htried := tried_resolve h selector
  change doc.Tried (view.declare selector mutation value).2.document
  unfold declare
  split
  next hresolve => rwa [hresolve] at htried
  next hresolve =>
    obtain ⟨hinside, t, ht, hsearched⟩ := searched_of_resolve h hresolve
    exact tried_give hinside ht hsearched hstandard

theorem tries_within (selector : String) {body : View → Outcome} (hbody : Tries body) :
    Tries fun view => view.within selector body := by
  intro doc view h
  have htried := tried_resolve h selector
  change doc.Tried (view.within selector body).2.document
  unfold within
  split
  next hresolve => rwa [hresolve] at htried
  next i inside hresolve =>
    rw [hresolve] at htried
    exact hbody doc { inside with scope := i } htried

theorem tries_gather {bodies : List (View → Outcome)} (hbodies : ∀ body ∈ bodies, Tries body)
    (h : doc.Tried view.document) : doc.Tried (gather bodies view).2.document := by
  induction bodies generalizing view with
  | nil => exact h
  | cons body rest ih =>
    rw [List.forall_mem_cons] at hbodies
    have hbody := hbodies.1 doc view h
    unfold gather
    split
    next hfails => rwa [hfails] at hbody
    next inside hends =>
      rw [hends] at hbody
      have hnext : doc.Tried ({ inside with values := [] } : View).document := hbody
      have hrest := ih hbodies.2 hnext
      split
      next hgather => rwa [hgather] at hrest
      next hgather => rwa [hgather] at hrest

theorem tried_enterRepeated (h : doc.Tried view.document) (selector : String) :
    doc.Tried (view.enterRepeated selector).2.document := by
  have htried := tried_resolve h selector
  unfold enterRepeated
  split
  next hresolve => rwa [hresolve] at htried
  next i found hresolve =>
    rw [hresolve] at htried
    have hnest := htried.nest i
    split
    next hanswer => rwa [hanswer] at hnest
    next hanswer => rwa [hanswer] at hnest

/-- A scope that is entered as a region was searched for, and still is after the bodies
    have been tried. -/
theorem searched_of_enterRepeated (h : doc.Tried view.document) {i : ScopeId} {inside : View}
    (henter : view.enterRepeated selector = (.ok i, inside)) {last : Document}
    (hlast : inside.document.Tried last) :
    ∃ t, last.declarations.scope? i = some t ∧ last.declarations.Searched t := by
  obtain ⟨found, nested, hresolve, -, rfl⟩ := enterRepeated_eq_ok henter
  obtain ⟨hfound, t, ht, hsearched⟩ := searched_of_resolve h hresolve
  have hnest := (Document.Tried.refl hfound.wellFormed hfound.placed hfound.built).nest i
  have hgrown := hnest.grown.trans hlast.grown
  obtain ⟨t', -, ht', -⟩ := hgrown.scope ht
  exact ⟨t', ht', hgrown.searched hfound.wellFormed hfound.placed ht ht' hsearched⟩

theorem tries_each (selector : String) {bodies : List (View → Outcome)}
    (hbodies : ∀ body ∈ bodies, Tries body) :
    Tries fun view => view.each selector bodies := by
  intro doc view h
  have htried := tried_enterRepeated h selector
  change doc.Tried (view.each selector bodies).2.document
  unfold each
  split
  next henter => rwa [henter] at htried
  next i inside henter =>
    rw [henter] at htried
    have hgather := tries_gather hbodies htried
    split
    next hfails => rwa [hfails] at hgather
    next frames last hends =>
      rw [hends] at hgather
      have hlast := tries_gather hbodies
        (Document.Tried.refl htried.wellFormed htried.placed htried.built)
      rw [hends] at hlast
      obtain ⟨t, ht, hsearched⟩ := searched_of_enterRepeated h henter hlast
      have hleft : doc.Tried ({ view with document := last.document } : View).document := hgather
      have hstandard : Mutation.IsStandard { kind := Mutation.repeatEach } := rfl
      exact tried_give hleft ht hsearched hstandard

namespace Call

mutual

/-- A call, and all the calls that it holds, only try a document. -/
theorem tries_run (call : Call) : Tries call.run := by
  cases call with
  | text selector content => exact tries_declare selector rfl
  | html selector value => exact tries_declare selector rfl
  | append selector value => exact tries_declare selector rfl
  | attr selector name value => exact tries_declare selector rfl
  | remove selector => exact tries_declare selector rfl
  | within selector calls => exact tries_within selector (tries_runAll calls)
  | each selector items => exact tries_each selector (tries_bodies items)

theorem tries_runAll (calls : List Call) : Tries (runAll calls) := by
  intro doc view h
  cases calls with
  | nil => exact h
  | cons call rest =>
    have hcall := tries_run call doc view h
    unfold runAll
    split
    next hfails => rwa [hfails] at hcall
    next inside hends =>
      rw [hends] at hcall
      exact tries_runAll rest doc inside hcall

theorem tries_bodies (items : List (List Call)) : ∀ body ∈ bodies items, Tries body := by
  cases items with
  | nil => nofun
  | cons calls rest => exact List.forall_mem_cons.mpr ⟨tries_runAll calls, tries_bodies rest⟩

end

end Call

end View

/-! ## Documents that were tried -/

namespace Document.Tried

variable {doc later : Document}

/-- What mutates a node was logged before, or it is a standard mutation of what was
    searched for. -/
theorem of_mutates (h : doc.Tried later) {id : NodeId} {mutation : Scope × LoggedMutation}
    (hmutates : later.declarations.Mutates id mutation) :
    (∃ scope, doc.declarations.Mutates id (scope, mutation.2)) ∨
      mutation.2.mutation.IsStandard ∧ later.declarations.Searched mutation.1 := by
  obtain ⟨⟨i, hs⟩, hnode, hlogged⟩ := hmutates
  rcases h.grown.of_mem_log hs hlogged with ⟨old, hold, hlogged⟩ | hslot
  · obtain ⟨hnodes, -⟩ := h.grown.of_scope? hold hs
    exact .inl ⟨old, ⟨i, hold⟩, hnodes ▸ hnode, hlogged⟩
  · exact .inr (h.searched i mutation.1 mutation.2 hs hlogged hslot)

/-- Nodes that were admitted still are. -/
theorem admits (h : doc.Tried later) (hd : doc.declarations.WellFormed)
    (hplaced : doc.declarations.Placed)
    (hadmits : ∀ node ∈ doc.declarations.visited, doc.declarations.Admits node.1 node.2) :
    ∀ node ∈ later.declarations.visited, later.declarations.Admits node.1 node.2 := by
  have htree : later.declarations.tree = doc.declarations.tree := h.grown.tree
  have hbuilt' : later.declarations.tree.Built := h.built
  have hbuilt : doc.declarations.tree.Built := htree ▸ hbuilt'
  obtain ⟨hnodes, hroot, hstandard⟩ := (Declarations.admits_iff hd hplaced hbuilt).mp hadmits
  refine (Declarations.admits_iff h.wellFormed h.placed hbuilt').mpr ⟨htree ▸ hnodes, ?_, ?_⟩
  · intro mutation hmutates
    rcases h.of_mutates hmutates with ⟨scope, hold⟩ | ⟨-, hsearched⟩
    · exact hroot _ hold
    · obtain ⟨⟨i, hs⟩, hnode, -⟩ := hmutates
      exact h.placed.root_not_mem h.wellFormed hbuilt' hs hsearched hnode
  · intro id mutation hholds hmutates
    rcases h.of_mutates hmutates with ⟨scope, hold⟩ | ⟨hmutation, -⟩
    · exact hstandard id (scope, mutation.2) (htree ▸ hholds) hold
    · exact hmutation

/-- New edits read what is bound around their node, when their regions are repeated. -/
theorem bound (h : doc.Tried later) (hd : doc.declarations.WellFormed)
    (hadmits : ∀ node ∈ later.declarations.visited, later.declarations.Admits node.1 node.2)
    (hrepeats : doc.declarations.RepeatsRegions later.declarations) {above : List NodeId}
    {id : NodeId} (htrail : later.declarations.tree.Trail Tree.root above id) {edit : Edit}
    (hedit : edit ∈ later.declarations.edits id)
    (hslot : doc.declarations.nextSlot edit.var.context ≤ edit.var.slot) :
    edit.var.context ∈ later.declarations.boundInside above [Declarations.rootContext] := by
  have hbuilt : later.declarations.tree.Built := h.built
  obtain ⟨i, scope, logged, hs, htouches, hlogged, hvar, -⟩ := h.wellFormed.mem_edits.mp hedit
  obtain ⟨-, -, -, hnode⟩ := h.wellFormed.mem_touching.mp htouches
  obtain ⟨-, -, hstandard⟩ := (Declarations.admits_iff h.wellFormed h.placed hbuilt).mp hadmits
  have hmutations : ∀ mutation ∈ ([] : List (Scope × LoggedMutation)),
      later.declarations.Mutates id mutation := nofun
  refine (Declarations.mem_allInside_iff h.wellFormed h.placed hbuilt hstandard htrail
    hmutations).mpr ?_
  rw [hvar] at hslot ⊢
  refine or_iff_not_imp_left.mpr fun hroot => ?_
  have hnew : ∀ old, doc.declarations.scope? i = some old → logged ∉ old.log := by
    intro old hold hmem
    obtain ⟨-, hcontext, -⟩ := h.grown.of_scope? hold hs
    have hlt := hd.slot_lt hold hmem
    rw [← hcontext] at hlt
    exact absurd hslot (Nat.not_le.mpr hlt)
  obtain ⟨j, region, repetition, hregion, hnested, hrepetition, hkind⟩ :=
    hrepeats i scope logged hs hlogged hnew ⟨id, hnode, above, htrail⟩ hroot
  obtain ⟨-, hsearched⟩ := h.searched i scope logged hs hlogged hslot
  obtain ⟨top, htop, hbelow⟩ := hsearched id hnode
  rw [h.placed.regionNodes_nested hregion hnested] at htop
  exact ⟨region, repetition, ⟨j, hregion⟩, hnested, hrepetition, hkind, .inl ⟨top, htop, hbelow⟩⟩

/-- Where nothing was logged the renderer is that of before, if there is one. -/
theorem compile_eq (h : doc.Tried later) :
    later.compile.1 = doc.compile.1 ∨ later.compile = later.recompile := by
  have hcompiled : later.compiled = doc.compiled := by rw [h.same]
  cases hdirty : later.isDirty with
  | true => exact .inr (by simp only [Document.compile, hdirty])
  | false =>
    have hclean := h.clean hdirty
    cases hdoc : doc.compiled with
    | none => exact .inr (by simp only [Document.compile, hdirty, hcompiled, hdoc])
    | some renderer => exact .inl (by simp only [Document.compile, hdirty, hclean, hcompiled, hdoc])

variable {pass : AttributePass} {template : Template}

/-- What could be compiled still can, if regions are repeated. -/
theorem template_eq_ok (h : doc.Tried later) (hd : doc.declarations.WellFormed)
    (hplaced : doc.declarations.Placed) (hpass : pass.IsStandard)
    (hcompiler : doc.compiler = ⟨.standard, pass⟩)
    (hrepeats : doc.declarations.RepeatsRegions later.declarations)
    (htemplate : doc.template = .ok template) :
    later.template = .ok (later.declarations.woven pass) := by
  have hcompiler' : later.compiler = ⟨.standard, pass⟩ := by rw [h.same, hcompiler]
  have hbuilt : doc.declarations.tree.Built := h.grown.tree ▸ h.built
  rw [Document.template, hcompiler, Compiler.compile_eq_ok] at htemplate
  obtain ⟨hadmits, hbound, -⟩ := htemplate
  have hadmits' := h.admits hd hplaced hadmits
  have hcompile := h.grown.compile hd h.wellFormed hpass hbuilt hadmits'
    (fun _ _ htrail _ hedit hslot => h.bound hd hadmits' hrepeats htrail hedit hslot) hbound
  rw [Document.template, hcompiler', hcompile]

/-- What a document and a fresh renderer have rendered alike is rendered so again. -/
theorem render_eq_ok (h : doc.Tried later) (hd : doc.declarations.WellFormed)
    (hpass : pass.IsStandard) (hcompiler : doc.compiler = ⟨.standard, pass⟩)
    (htemplate : doc.template = .ok template)
    (htemplate' : later.template = .ok (later.declarations.woven pass)) {arguments : Frame}
    {markup : String} (hrender : (doc.render arguments).1 = .ok markup)
    {optimizing : Bool}
    (hfresh : (Program.build optimizing template doc.parameters).render arguments = .ok markup)
    (hloses : doc.declarations.LosesNoValue later.declarations arguments)
    (hbinds : doc.declarations.BindsNoValue later.declarations arguments) :
    (later.render arguments).1 = .ok markup := by
  obtain ⟨renderer, hrenderer⟩ := Document.exists_compile_of_template htemplate'
  rw [Document.render_of_compile hrenderer]
  rcases h.compile_eq with hsame | hrecompile
  · -- The renderer is the one that was kept.
    rw [← hrender, Document.render_of_compile (hsame ▸ hrenderer)]
  · rw [Document.template, hcompiler, Compiler.compile_eq_ok] at htemplate
    obtain ⟨-, hbound, rfl⟩ := htemplate
    rw [hrecompile, Document.recompile, htemplate'] at hrenderer
    obtain rfl := Except.ok.inj hrenderer
    rw [Program.render_build] at hfresh ⊢
    have hresult := h.grown.render_woven hd h.wellFormed hpass hloses hbinds hbound hfresh
    exact congrArg (Except.mapError Error.render) hresult

end Document.Tried

/-! ## Rendering -/

namespace View

/-- After a view that fails the document can still be compiled, and renders as a renderer
    of its declarations did before. Where a region is left without its repetition, an
    override with a value is replaced or a repetition gets a region that its frames would
    fill, nothing is said. -/
theorem render_failed (tree : Tree) (hbuilt : tree.Built) (pass : AttributePass)
    (hpass : pass.IsStandard) (optimizing : Bool) (operations : List Operation)
    (calls : List Call) :
    let doc := (Document.ofTree tree ⟨.standard, pass⟩ optimizing).run operations
    ∀ template e view, doc.template = .ok template →
      Call.runAll calls { document := doc } = (.error e, view) →
      doc.declarations.RepeatsRegions view.document.declarations →
      (∃ template', view.document.template = .ok template') ∧
      (∃ renderer, view.document.compile.1 = .ok renderer) ∧
      ∀ arguments markup, (doc.render arguments).1 = .ok markup →
        (Program.build optimizing template doc.parameters).render arguments = .ok markup →
        doc.declarations.LosesNoValue view.document.declarations arguments →
        doc.declarations.BindsNoValue view.document.declarations arguments →
        (view.document.render arguments).1 = .ok markup := by
  intro doc template e view htemplate hrun hrepeats
  have hd : doc.declarations.WellFormed := Document.wellFormed_run tree _ optimizing operations
  have hplaced : doc.declarations.Placed := Document.placed_run hbuilt _ optimizing operations
  have htree : doc.tree = tree := Document.tree_run _ operations
  have hcompiler : doc.compiler = ⟨.standard, pass⟩ := Document.compiler_run _ operations
  have htried : doc.Tried view.document := by
    have hcalls := Call.tries_runAll calls doc { document := doc }
      (.refl hd hplaced (htree.symm ▸ hbuilt))
    rwa [hrun] at hcalls
  have htemplate' := htried.template_eq_ok hd hplaced hpass hcompiler hrepeats htemplate
  refine ⟨⟨_, htemplate'⟩, Document.exists_compile_of_template htemplate', ?_⟩
  intro arguments markup hrender hfresh hloses hbinds
  exact htried.render_eq_ok hd hpass hcompiler htemplate htemplate' hrender hfresh hloses hbinds

/-- A view writes a number after a paragraph and then fails: the class that the paragraph
    is given is still written. -/
theorem render_failed_section :
    let doc := (Document.ofTree Document.sectionTree).run
      [.find "p", .log ⟨1⟩ { kind := Mutation.setAttribute, arguments := ["class"] }]
    let outcome := Call.runAll [.append "p" (.int 1), .text "p >" "x"] { document := doc }
    (∃ e, outcome.1 = .error e) ∧ (∃ renderer, outcome.2.document.compile.1 = .ok renderer) ∧
      (outcome.2.document.render [.text "y"]).1 =
        .ok "<section><p class=\"y\">a &lt; b</p></section>" := by
  intro doc outcome
  have hscopes : ∀ scope ∈ outcome.2.document.declarations.scopes.toList,
      scope.context = Declarations.rootContext ∧ scope.nested = none ∧
        ∀ logged ∈ scope.log, logged.mutation.kind = Mutation.setAttribute → logged.slot = 0 := by
    decide +kernel
  have hscope {i : ScopeId} {scope : Scope}
      (hs : outcome.2.document.declarations.scope? i = some scope) :=
    hscopes scope (Array.mem_toList_iff.mpr (Array.mem_of_getElem? hs))
  have hd : doc.declarations.WellFormed := Document.wellFormed_run _ _ _ _
  have htried : doc.Tried outcome.2.document :=
    Call.tries_runAll _ doc { document := doc } (.refl hd
      (Document.placed_run Document.built_sectionTree _ _ _) Document.built_sectionTree)
  have hrepeats : doc.declarations.RepeatsRegions outcome.2.document.declarations := by
    intro i scope logged hs _ _ _ hcontext
    exact absurd (hscope hs).1 hcontext
  have hbinds (arguments : Frame) :
      doc.declarations.BindsNoValue outcome.2.document.declarations arguments := by
    intro i scope later logged c _ hlater _ hnested
    cases (hscope hlater).2.1.symm.trans hnested
  have hloses (arguments : Frame) :
      doc.declarations.LosesNoValue outcome.2.document.declarations arguments := by
    refine htried.grown.losesNoValue hd htried.wellFormed ?_ arguments
    -- The only override is the one in the first slot, which is an old one.
    intro node edit hedit hslot name hchange
    obtain ⟨i, scope, logged, hs, -, hlogged, hvar, hchange'⟩ :=
      htried.wellFormed.mem_edits.mp hedit
    rw [hchange] at hchange'
    have hmutation := (Mutation.change?_eq_some.mp hchange').1
    have hzero := (hscope hs).2.2 logged hlogged (congrArg Mutation.kind hmutation)
    rw [hvar, Scope.var, (hscope hs).1, hzero] at hslot
    exact absurd hslot (by decide)
  obtain ⟨-, hcompile, hrender⟩ := render_failed Document.sectionTree Document.built_sectionTree
    .withOverrides .withOverrides true
    [.find "p", .log ⟨1⟩ { kind := Mutation.setAttribute, arguments := ["class"] }]
    [.append "p" (.int 1), .text "p >" "x"] _ _ outcome.2 rfl rfl hrepeats
  exact ⟨⟨_, rfl⟩, hcompile, hrender [.text "y"] _ rfl rfl (hloses _) (hbinds _)⟩

/-- Four ways in which a view that fails changes what is rendered afterwards: it leaves a
    region without its repetition, it takes the place of an override that is given a value,
    it enters a region where a list was repeated over without one, and it repeats a section
    but writes into a paragraph that was appended to another section too. -/
theorem render_failed_spoils :
    (let doc := Document.ofTree Document.sectionTree
      let outcome := Call.runAll [.each "section" [[.text "p" "x", .text "p >" "y"]]]
        { document := doc }
      (∃ e, outcome.1 = .error e) ∧
        (doc.render []).1 = .ok "<section><p>a &lt; b</p></section>" ∧
        ∃ e, (outcome.2.document.render []).1 = .error (.compile e)) ∧
    (let doc := (Document.ofTree Document.linkTree).run
        [.find "a", .log ⟨1⟩ { kind := Mutation.setAttribute, arguments := ["href"] }]
      let outcome := Call.runAll [.attr "*" "href" "x", .text "p >" "y"] { document := doc }
      (∃ e, outcome.1 = .error e) ∧
        (doc.render [.text "/first"]).1 = .ok "<a href=\"/first\"></a>" ∧
        (outcome.2.document.render [.text "/first"]).1 = .ok "<a href=\"/\"></a>") ∧
    (let doc := (Document.ofTree Document.sectionTree).run
        [.find "section", .log ⟨1⟩ { kind := Mutation.repeatEach }]
      let outcome := Call.runAll [.each "section" [[.text "p >" "y"]]] { document := doc }
      (∃ e, outcome.1 = .error e) ∧
        (doc.render [.list [[.text "x"]]]).1 = .ok "<section><p>a &lt; b</p></section>" ∧
        (outcome.2.document.render [.list [[.text "x"]]]).1 =
          .error (.render (.tooManyArguments 0 1))) ∧
    (let doc := Document.ofTree Document.sharedTree
      let outcome := Call.runAll [.each "section" [[.text "p" "x"]], .text "p >" "y"]
        { document := doc }
      (∃ e, outcome.1 = .error e) ∧
        (doc.render []).1 = .ok "<section><p></p></section><section><p></p></section>" ∧
        ∃ e, (outcome.2.document.render []).1 = .error (.compile e)) :=
  ⟨⟨⟨_, rfl⟩, rfl, _, rfl⟩, ⟨⟨_, rfl⟩, rfl, rfl⟩, ⟨⟨_, rfl⟩, rfl, rfl⟩, ⟨_, rfl⟩, rfl, _, rfl⟩

end View

end HtmlTemplate
