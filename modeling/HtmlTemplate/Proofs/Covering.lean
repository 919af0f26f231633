-- SUMMARY: The index lists the scopes that cover a node, and the compiler applies each of their mutations once.
import HtmlTemplate.Proofs.Compiling
import HtmlTemplate.Proofs.Tree.Order

/-!
# Mutations and the elements they cover

The index of a document lists, for each node, the scopes with mutations that have the
node among theirs, in the order in which they first logged something. An element is
compiled by applying the mutations of these scopes one after the other, each of them
once; and over a tree that is built, the walk comes upon each node of the document once.
Whether a mutation has any effect is up to its handler, and nothing here asks which
handlers there are.
-/

namespace HtmlTemplate

/-! ## The scopes of a node -/

namespace Document

section Run

variable (tree : Tree) (compiler : Compiler) (optimizing : Bool) (operations : List Operation)
  (node : NodeId)

/-- The scopes of a node come in the order in which something was first logged on them. -/
theorem pairwise_touching :
    (((ofTree tree compiler optimizing).run operations).declarations.touching node).Pairwise
      fun first second =>
        (ofTree tree compiler optimizing).LogsFirst operations first.id second.id := by
  have hd := wellFormed_run tree compiler optimizing operations
  refine List.pairwise_filterMap.mpr ?_
  refine (pairwise_scopes tree compiler optimizing operations node).imp ?_
  intro i j hlogs first hfirst second hsecond
  rw [hd.scope_id hfirst, hd.scope_id hsecond]
  exact hlogs

/-- No scope is listed twice, however often it has the node. -/
theorem nodup_touching :
    ((((ofTree tree compiler optimizing).run operations).declarations.touching node).map
      (·.id)).Nodup := by
  refine List.pairwise_map.mpr ((pairwise_touching tree compiler optimizing operations node).imp ?_)
  intro first second hlogs heq
  rw [heq] at hlogs
  exact hlogs.asymm hlogs

/-- No mutation is listed twice. -/
theorem nodup_mutationsOf :
    (((ofTree tree compiler optimizing).run operations).declarations.mutationsOf node).Nodup := by
  have hd := wellFormed_run tree compiler optimizing operations
  refine (pairwise_mutationsOf tree compiler optimizing operations node).imp_of_mem ?_
  intro first second hfirst _ happlied heq
  obtain ⟨⟨i, hs⟩, -⟩ := hd.mem_mutationsOf.mp hfirst
  exact happlied.asymm hs (heq ▸ heq ▸ happlied)

end Run

end Document

/-! ## Applying mutations to an element -/

namespace Compiler

variable {compiler : Compiler} {d : Declarations} {tag : String}

/-- Apply one mutation to the plan of an element. -/
def applyMutation (compiler : Compiler) (d : Declarations) (tag : String) (plan : Plan)
    (pair : Scope × LoggedMutation) : Except CompileError Plan :=
  match compiler.handlers.get? pair.2.mutation.kind with
  | none => .error (.unknownMutation pair.2.mutation.kind plan.node tag)
  | some handler =>
    handler plan ⟨d, pair.1⟩ ⟨pair.1.context, pair.2.slot⟩ pair.2.mutation.arguments

/-- Mutations are applied one after the other. -/
theorem applyMutations_eq_foldlM (mutations : List (Scope × LoggedMutation)) (plan : Plan) :
    compiler.applyMutations d tag mutations plan =
      mutations.foldlM (compiler.applyMutation d tag) plan := by
  induction mutations generalizing plan with
  | nil => rfl
  | cons pair rest ih =>
    rw [applyMutations, List.foldlM_cons, applyMutation]
    cases compiler.handlers.get? pair.2.mutation.kind with
    | none => rfl
    | some handler =>
      dsimp only
      cases handler plan ⟨d, pair.1⟩ ⟨pair.1.context, pair.2.slot⟩ pair.2.mutation.arguments with
      | error e => rfl
      | ok plan => exact ih plan

/-- The plan of an element when all its mutations are applied. -/
def plan (compiler : Compiler) (d : Declarations) (id : NodeId) (element : Element) :
    Except CompileError Plan :=
  (d.mutationsOf id).foldlM (compiler.applyMutation d (d.tree.name element.name.localName))
    { node := id }

/-- What the walk makes of an element: it is put together from its plan, or left as it is
    when there are no mutations. -/
def compileElement (compiler : Compiler) (d : Declarations) (raw : Bool) (id : NodeId)
    (element : Element) (inside : Except CompileError (List Template)) :
    Except CompileError Template :=
  if d.mutationsOf id = [] then compileUntouched d id raw (.element element) inside
  else (compiler.plan d id element).bind
    (compiler.assemble d (d.tree.name element.name.localName) inside)

theorem compileMutated_element {id : NodeId} {element : Element}
    {inside : Except CompileError (List Template)} :
    compiler.compileMutated d id (.element element) inside =
      (compiler.plan d id element).bind
        (compiler.assemble d (d.tree.name element.name.localName) inside) := by
  simp only [compileMutated, Content.element?, applyMutations_eq_foldlM, plan]
  cases (d.mutationsOf id).foldlM
    (compiler.applyMutation d (d.tree.name element.name.localName)) { node := id } <;> rfl

/-- The walk comes upon an element. -/
theorem compileBranch_element (hd : d.WellFormed) (raw : Bool) (id : NodeId) (element : Element)
    (children : List Branch) :
    compiler.compileBranch d raw (.node id (.element element) children) =
      compiler.compileElement d raw id element
        (compiler.compileBranches d (holdsRawText d.tree.names (.element element)) children) := by
  rw [compileBranch, compileElement]
  cases hmutated : d.isMutated id with
  | false =>
    rw [if_neg Bool.false_ne_true, if_pos (edits_of_not_isMutated hmutated).1]
  | true =>
    have hne : d.mutationsOf id ≠ [] := by
      intro hnil
      have hnone : ∀ mutation, ¬ d.Mutates id mutation := fun mutation hmutates => by
        have hmem := hd.mem_mutationsOf.mpr hmutates
        rw [hnil] at hmem
        cases hmem
      rw [hd.isMutated_eq_false.mpr hnone] at hmutated
      cases hmutated
    rw [if_pos rfl, if_neg hne, compileMutated_element]

/-! ## Compilations that succeed -/

/-- No handler replaces the content of an element, so that the walk goes on inside. -/
def KeepsContent (compiler : Compiler) : Prop :=
  ∀ {kind handler}, compiler.handlers.get? kind = some handler → ∀ {plan site var arguments plan'},
    handler plan site var arguments = .ok plan' → plan'.content = plan.content

theorem keepsContent_standard (pass : AttributePass) : (Compiler.mk .standard pass).KeepsContent := by
  intro kind handler hget plan site var arguments plan' hrun
  let mutation : Mutation := ⟨kind, arguments⟩
  have hanswer : ∃ handler, Handlers.standard.get? mutation.kind = some handler ∧
      handler plan site var mutation.arguments = .ok plan' := ⟨handler, hget, hrun⟩
  obtain ⟨change, -, rfl⟩ := (Handlers.standard_eq_ok plan site var).mp hanswer
  exact plan.content_edit _

theorem content_of_foldlM (hkeeps : compiler.KeepsContent)
    {mutations : List (Scope × LoggedMutation)} {plan plan' : Plan}
    (h : mutations.foldlM (compiler.applyMutation d tag) plan = .ok plan') :
    plan'.content = plan.content := by
  induction mutations generalizing plan with
  | nil => cases h; rfl
  | cons pair rest ih =>
    rw [List.foldlM_cons] at h
    cases happly : compiler.applyMutation d tag plan pair with
    | error e => rw [happly] at h; cases h
    | ok next =>
      rw [happly] at h
      rw [ih h]
      unfold applyMutation at happly
      split at happly
      · cases happly
      next handler hget => exact hkeeps hget happly

/-- All mutations of the node are applied, if it is an element. -/
def Applied (compiler : Compiler) (d : Declarations) (node : NodeId × Content) : Prop :=
  ∀ element, node.2 = .element element → ∃ plan, compiler.plan d node.1 element = .ok plan

/-- An element that is compiled has all its mutations applied, and is compiled inside. -/
theorem of_compileElement_eq_ok (hkeeps : compiler.KeepsContent) {raw : Bool} {id : NodeId}
    {element : Element} {inside : Except CompileError (List Template)} {template : Template}
    (h : compiler.compileElement d raw id element inside = .ok template) :
    (∃ plan, compiler.plan d id element = .ok plan) ∧ ∃ items, inside = .ok items := by
  unfold compileElement at h
  split at h
  next hnone =>
    refine ⟨⟨_, by rw [plan, hnone]; rfl⟩, ?_⟩
    cases inside with
    | error e => cases h
    | ok items => exact ⟨items, rfl⟩
  next =>
    cases hplan : compiler.plan d id element with
    | error e => rw [hplan] at h; cases h
    | ok plan =>
      rw [hplan] at h
      have hcontent : plan.content = none := content_of_foldlM hkeeps hplan
      refine ⟨⟨plan, rfl⟩, ?_⟩
      cases inside with
      | error e => simp [Except.bind, assemble, hcontent, Except.map] at h
      | ok items => exact ⟨items, rfl⟩

mutual

theorem applied_of_compileBranch (hd : d.WellFormed) (hkeeps : compiler.KeepsContent) (raw : Bool)
    (branch : Branch) (template : Template)
    (h : compiler.compileBranch d raw branch = .ok template) :
    ∀ node ∈ branch.visit Content.holdsNodes, compiler.Applied d node := by
  obtain ⟨id, content, children⟩ := branch
  rw [Branch.visit, List.forall_mem_cons]
  cases content with
  | element element =>
    rw [compileBranch_element hd] at h
    obtain ⟨hplan, items, hitems⟩ := of_compileElement_eq_ok hkeeps h
    refine ⟨?_, ?_⟩
    · intro _ heq
      cases heq
      exact hplan
    · exact applied_of_compileBranches hd hkeeps _ children items hitems
  | container =>
    refine ⟨nofun, ?_⟩
    rw [compileBranch] at h
    split at h
    · simp [compileMutated, Content.element?] at h
    · cases hitems : compiler.compileBranches d
        (holdsRawText d.tree.names .container) children with
      | error e => simp [compileUntouched, hitems, Except.map] at h
      | ok items => exact applied_of_compileBranches hd hkeeps _ children items hitems
  | _ => exact ⟨nofun, by simp [Content.holdsNodes]⟩

theorem applied_of_compileBranches (hd : d.WellFormed) (hkeeps : compiler.KeepsContent) (raw : Bool)
    (branches : List Branch) (templates : List Template)
    (h : compiler.compileBranches d raw branches = .ok templates) :
    ∀ node ∈ Branch.visitAll Content.holdsNodes branches, compiler.Applied d node := by
  cases branches with
  | nil => simp [Branch.visitAll]
  | cons branch rest =>
    rw [Branch.visitAll, List.forall_mem_append]
    rw [compileBranches] at h
    split at h
    · cases h
    next template hbranch =>
    refine ⟨applied_of_compileBranch hd hkeeps raw branch template hbranch, ?_⟩
    cases hrest : compiler.compileBranches d raw rest with
    | error e => rw [hrest] at h; cases h
    | ok items => exact applied_of_compileBranches hd hkeeps raw rest items hrest

end

/-- Where the handlers leave the content of elements alone, a compilation that succeeds
    has applied all mutations of all elements of the document. -/
theorem applied_of_compile (hd : d.WellFormed) (hkeeps : compiler.KeepsContent)
    {template : Template} (h : compiler.compile d = .ok template) :
    ∀ node ∈ d.visited, compiler.Applied d node := by
  unfold compile at h
  unfold Declarations.visited
  cases hbranch : d.tree.branch? Tree.root with
  | none => nofun
  | some branch =>
    simp only [hbranch] at h
    split at h
    · cases h
    next template hcompiled =>
    exact applied_of_compileBranch hd hkeeps false branch template hcompiled

end Compiler

/-- The walk comes upon no node twice. -/
theorem Declarations.nodup_visited {d : Declarations} (h : d.tree.Linked d.tree.children) :
    (d.visited.map (·.1)).Nodup := by
  unfold visited
  split
  next branch hbranch => exact h.nodup_visit hbranch
  next => exact .nil

/-! ## Documents -/

namespace Document

/-- After every run: the scopes of a node are those with mutations that have it among
    their nodes, each once and in the order in which they first logged something; an
    element is compiled by applying all their mutations, each once and in this order; and
    over a tree that is built the walk comes upon the nodes of the document once, so that
    it has applied all mutations of all elements when it succeeds. -/
theorem touching_run (tree : Tree) (compiler : Compiler) (optimizing : Bool)
    (operations : List Operation) :
    let initial := ofTree tree compiler optimizing
    let d := (initial.run operations).declarations
    (∀ node,
      (∀ scope, scope ∈ d.touching node ↔
        ∃ i, d.scope? i = some scope ∧ scope.log ≠ [] ∧ node ∈ scope.nodes) ∧
      ((d.touching node).map (·.id)).Nodup ∧
      (d.touching node).Pairwise fun first second =>
        initial.LogsFirst operations first.id second.id) ∧
    (∀ node,
      (∀ mutation, mutation ∈ d.mutationsOf node ↔ d.Mutates node mutation) ∧
      (d.mutationsOf node).Nodup ∧
      (d.mutationsOf node).Pairwise (initial.AppliedBefore operations)) ∧
    (∀ raw node element children,
      compiler.compileBranch d raw (.node node (.element element) children) =
        compiler.compileElement d raw node element (compiler.compileBranches d
          (Compiler.holdsRawText d.tree.names (.element element)) children)) ∧
    (tree.Built →
      (d.visited.map (·.1)).Nodup ∧
      (∀ node content, (node, content) ∈ d.visited ↔
        tree.Holds node ∧ ∃ found, tree.get? node = some found ∧ found.content = content) ∧
      (compiler.KeepsContent → ∀ template, compiler.compile d = .ok template →
        ∀ node ∈ d.visited, compiler.Applied d node)) := by
  intro initial d
  have hd : d.WellFormed := wellFormed_run tree compiler optimizing operations
  have htree : d.tree = tree := tree_run initial operations
  refine ⟨fun node => ⟨fun _ => hd.mem_touching, ?_, ?_⟩,
    fun node => ⟨fun _ => hd.mem_mutationsOf, ?_, ?_⟩, ?_, fun hbuilt => ⟨?_, ?_, ?_⟩⟩
  · exact nodup_touching tree compiler optimizing operations node
  · exact pairwise_touching tree compiler optimizing operations node
  · exact nodup_mutationsOf tree compiler optimizing operations node
  · exact pairwise_mutationsOf tree compiler optimizing operations node
  · exact fun raw node element children =>
      Compiler.compileBranch_element hd raw node element children
  · exact Declarations.nodup_visited (htree ▸ hbuilt.linked)
  · intro node content
    rw [Declarations.mem_visited (htree ▸ hbuilt), htree]
  · exact fun hkeeps template h => Compiler.applied_of_compile hd hkeeps h

/-- A paragraph that something is added to is compiled with the addition. -/
theorem touching_run_section :
    let doc := (ofTree sectionTree).run [.find "p", .log ⟨1⟩ { kind := Mutation.append }]
    (doc.declarations.mutationsOf ⟨2⟩).map (·.2) = [⟨{ kind := Mutation.append }, 0⟩] ∧
      ∀ node ∈ doc.declarations.visited, Compiler.Applied {} doc.declarations node := by
  intro doc
  obtain ⟨-, -, -, hwalk⟩ := touching_run sectionTree {} true
    [.find "p", .log ⟨1⟩ { kind := Mutation.append }]
  obtain ⟨-, -, happlied⟩ := hwalk built_sectionTree
  exact ⟨rfl, happlied (Compiler.keepsContent_standard .withOverrides) _ rfl⟩

/-- A tree with a paragraph inside a text. -/
def textTree : Tree :=
  let (tree, text) := Tree.empty.create (.text "a")
  let (tree, inner) := tree.createElement "p"
  (tree.append Tree.root (some text)).append text (some inner)

/-- A tree with one paragraph in two sections. -/
def sharedTree : Tree :=
  let (tree, first) := Tree.empty.createElement "section"
  let (tree, second) := tree.createElement "section"
  let (tree, inner) := tree.createElement "p"
  (((tree.append Tree.root (some first)).append Tree.root (some second)).append first
    (some inner)).append second (some inner)

/-- Not every element with mutations is compiled, nor each of them once: a mutation that
    has no handler goes unnoticed inside a text, and inside an element whose content a
    handler has replaced; and a paragraph that was appended twice is compiled twice. -/
theorem compile_elements_not_once :
    let hide : Handler := fun plan _ _ _ => .ok (plan.setContent .empty)
    let unknown : Mutation := { kind := "unknown" }
    let inText := (ofTree textTree).run [.find "p", .log ⟨1⟩ unknown]
    let hidden := (ofTree sectionTree ⟨Handlers.standard.insert "hide" hide, .withOverrides⟩).run
      [.find "section", .find "p", .log ⟨1⟩ { kind := "hide" }, .log ⟨2⟩ unknown]
    let shared := (ofTree sharedTree).run [.find "p", .log ⟨1⟩ { kind := Mutation.append }]
    (inText.tree.isElement ⟨2⟩ = true ∧
      (∃ scope, inText.declarations.scope? ⟨1⟩ = some scope ∧ scope.nodes = [⟨2⟩] ∧
        scope.log = [⟨unknown, 0⟩]) ∧
      (inText.render []).1 = .ok "a") ∧
    (hidden.tree.isElement ⟨2⟩ = true ∧
      (∃ scope, hidden.declarations.scope? ⟨2⟩ = some scope ∧ scope.nodes = [⟨2⟩] ∧
        scope.log = [⟨unknown, 1⟩]) ∧
      (hidden.render []).1 = .ok "<section></section>") ∧
    (∃ scope, shared.declarations.scope? ⟨1⟩ = some scope ∧ scope.nodes = [⟨3⟩] ∧
      scope.log = [⟨{ kind := Mutation.append }, 0⟩]) ∧
    (shared.render [.text "x"]).1 =
      .ok "<section><p>x</p></section><section><p>x</p></section>" :=
  ⟨⟨rfl, ⟨_, rfl, rfl, rfl⟩, rfl⟩, ⟨rfl, ⟨_, rfl, rfl, rfl⟩, rfl⟩, ⟨_, rfl, rfl, rfl⟩, rfl⟩

end Document

end HtmlTemplate
