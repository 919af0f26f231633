-- SUMMARY: The template of a tree with standard mutations, without the errors of its compilation.
import HtmlTemplate.Proofs.Edits

/-!
# Weaving

A compilation with the standard handlers does two things at once: it looks for
nodes that templates cannot hold, and it puts the template together. Here the two
are taken apart. `Declarations.Admits` says what is asked of each node that the
compiler comes upon, and `Declarations.weave` is the template, a total function
with one case for each kind of node. `compile_eq_ok` puts them together again.
-/

namespace HtmlTemplate

/-! ## The nodes of a branch -/

/-- Whether what is below the node belongs to the document: a text has no children
    that count. -/
def Content.holdsNodes : Content → Bool
  | .container | .element _ => true
  | _ => false

namespace Branch

mutual

/-- The nodes of a branch in document order, where the children of a node count
    if its content `enters` them. -/
def visit (enters : Content → Bool) : Branch → List (NodeId × Content)
  | .node id content children =>
    (id, content) :: if enters content then visitAll enters children else []

def visitAll (enters : Content → Bool) : List Branch → List (NodeId × Content)
  | [] => []
  | branch :: rest => visit enters branch ++ visitAll enters rest

end

theorem mem_visitAll {enters : Content → Bool} {branches : List Branch} {node : NodeId × Content} :
    node ∈ visitAll enters branches ↔ ∃ branch ∈ branches, node ∈ branch.visit enters := by
  induction branches with
  | nil => simp [visitAll]
  | cons branch rest ih => simp [visitAll, ih]

end Branch

/-- A node is `top` or below it. -/
inductive Tree.Within (tree : Tree) (top : NodeId) : NodeId → Prop where
  | top : Within tree top top
  | child {parent id : NodeId} (h : Within tree top parent) (hchild : id ∈ tree.children parent) :
      Within tree top id

/-- The nodes of a branch are nodes of the tree, with their contents. -/
theorem Branch.of_mem_visit {tree : Tree} {top : NodeId} {enters : Content → Bool} {depth : Nat}
    {id : NodeId} {branch : Branch} (hbranch : tree.branchWithin depth id = some branch)
    (hid : tree.Within top id) {node : NodeId × Content} (hnode : node ∈ branch.visit enters) :
    tree.Within top node.1 ∧ ∃ found, tree.get? node.1 = some found ∧ found.content = node.2 := by
  induction depth generalizing id branch with
  | zero => cases hbranch
  | succ depth ih =>
    obtain ⟨found, hfound, rfl⟩ := Option.map_eq_some_iff.mp hbranch
    rw [visit, List.mem_cons] at hnode
    rcases hnode with rfl | hnode
    · exact ⟨hid, found, hfound, rfl⟩
    · split at hnode
      · obtain ⟨child, hchild, hnode⟩ := mem_visitAll.mp hnode
        obtain ⟨childId, hmem, hchild⟩ := List.mem_filterMap.mp hchild
        exact ih hchild (.child hid hmem) hnode
      · cases hnode

/-! ## The template of a branch -/

/-- An element with edits, from its attributes and what is inside it. -/
def Edit.weave (edits : List Edit) (tag : String) (attributes inside : Template) : Template :=
  edits.foldl wrapElement (.element tag attributes (edits.foldl wrapContent inside))

/-- What no edit and no element breaks holds of an element with edits. -/
theorem Edit.weave_induction {P : Template → Prop} {edits : List Edit} {tag : String}
    {attributes inside : Template} (hinside : P inside)
    (hcontent : ∀ edit ∈ edits, ∀ content, P content → P (wrapContent content edit))
    (helement : ∀ content, P content → P (.element tag attributes content))
    (houtside : ∀ edit ∈ edits, ∀ element, P element → P (wrapElement element edit)) :
    P (weave edits tag attributes inside) := by
  unfold weave
  apply List.foldlRecOn
  · apply helement
    apply List.foldlRecOn
    · exact hinside
    · exact fun content hP edit hedit => hcontent edit hedit content hP
  · exact fun element hP edit hedit => houtside edit hedit element hP

namespace Declarations

/-- What a node has to be like for a template to hold it: elements alone are
    mutated, by standard mutations, and there are no comments or instructions. -/
def Admits (d : Declarations) (id : NodeId) : Content → Prop
  | .element _ => ∀ pair ∈ d.mutationsOf id, pair.2.mutation.IsStandard
  | .container | .text _ | .doctype _ _ _ => d.isMutated id = false
  | .comment _ | .instruction _ _ => False

/-- The attributes of an element; the pass is run on mutated elements alone. -/
def attributes (d : Declarations) (pass : AttributePass) (id : NodeId) (element : Element) :
    Template :=
  if d.isMutated id then pass (.ofEdits id (d.edits id)) d.tree
  else AttributePass.sourceAttributes d.tree element

/-- The template of a node, given those of its children. -/
def weaveNode (d : Declarations) (pass : AttributePass) (id : NodeId) (raw : Bool)
    (content : Content) (items : List Template) : Template :=
  match content with
  | .container => .sequence items
  | .element element =>
    Edit.weave (d.edits id) (d.tree.name element.name.localName) (d.attributes pass id element)
      (.sequence items)
  | .text text => .static (Markup.text raw text)
  | .doctype name publicId systemId =>
    .static (Markup.doctype (d.tree.name name) publicId systemId)
  | .comment _ | .instruction _ _ => .empty

mutual

/-- The template of a branch, also where it cannot be compiled. -/
def weave (d : Declarations) (pass : AttributePass) (raw : Bool) : Branch → Template
  | .node id content children =>
    d.weaveNode pass id raw content
      (weaveAll d pass (Compiler.holdsRawText d.tree.names content) children)

def weaveAll (d : Declarations) (pass : AttributePass) (raw : Bool) : List Branch → List Template
  | [] => []
  | branch :: rest => weave d pass raw branch :: weaveAll d pass raw rest

end

/-- The template of the whole tree. -/
def woven (d : Declarations) (pass : AttributePass) : Template :=
  match d.tree.branch? Tree.root with
  | some branch => d.weave pass false branch
  | none => .empty

/-- The nodes that the compiler comes upon. -/
def visited (d : Declarations) : List (NodeId × Content) :=
  match d.tree.branch? Tree.root with
  | some branch => branch.visit Content.holdsNodes
  | none => []

theorem of_mem_visited {d : Declarations} {node : NodeId × Content} (h : node ∈ d.visited) :
    d.tree.Within Tree.root node.1 ∧
      ∃ found, d.tree.get? node.1 = some found ∧ found.content = node.2 := by
  unfold visited at h
  split at h
  next branch hbranch => exact Branch.of_mem_visit hbranch .top h
  · cases h

end Declarations

/-! ## Compiling is weaving -/

namespace Compiler

variable {pass : AttributePass} {d : Declarations}

/-- A step that answers one value under a condition answers it, or it fails. -/
theorem eq_ok_or_eq_error {α : Type} {x : Except CompileError α} {P : Prop} {value : α}
    (h : ∀ a, x = .ok a ↔ P ∧ value = a) : P ∧ x = .ok value ∨ ¬ P ∧ ∃ e, x = .error e := by
  cases x with
  | error e =>
    refine .inr ⟨fun hP => ?_, e, rfl⟩
    cases (h value).mpr ⟨hP, rfl⟩
  | ok a =>
    obtain ⟨hP, rfl⟩ := (h a).mp rfl
    exact .inl ⟨hP, rfl⟩

theorem edits_of_not_isMutated {id : NodeId} (h : d.isMutated id = false) :
    d.mutationsOf id = [] ∧ d.edits id = [] := by
  have hscopes : d.index.scopes id = [] := by simpa [Declarations.isMutated] using h
  simp [Declarations.edits, Declarations.mutationsOf, Declarations.touching, hscopes]

/-- Elements alone have edits. -/
theorem edits_of_admits {id : NodeId} {content : Content} (h : d.Admits id content)
    (hcontent : ∀ element, content ≠ .element element) : d.edits id = [] := by
  cases content with
  | element element => exact absurd rfl (hcontent element)
  | comment text => cases h
  | instruction target text => cases h
  | _ => exact (edits_of_not_isMutated h).2

section Node

variable {id : NodeId} {content : Content} {children : Except CompileError (List Template)}
  {template : Template}

theorem compileMutated_eq_ok :
    (Compiler.mk .standard pass).compileMutated d id content children = .ok template ↔
      ∃ element, content = .element element ∧
        (∀ pair ∈ d.mutationsOf id, pair.2.mutation.IsStandard) ∧
        ∃ items, children = .ok items ∧
          Edit.weave (d.edits id) (d.tree.name element.name.localName)
            (pass (.ofEdits id (d.edits id)) d.tree) (.sequence items) = template := by
  cases content with
  | element element =>
    have hplan (plan : Plan) : (Compiler.mk .standard pass).applyMutations d
        (d.tree.name element.name.localName) (d.mutationsOf id) { node := id } = .ok plan ↔
          (∀ pair ∈ d.mutationsOf id, pair.2.mutation.IsStandard) ∧
            Plan.ofEdits id (d.edits id) = plan := applyMutations_eq_ok
    simp only [compileMutated, Content.element?, Content.element.injEq, exists_eq_left']
    rcases eq_ok_or_eq_error hplan with ⟨hall, hok⟩ | ⟨hall, e, herror⟩
    · rw [and_iff_right hall]
      simp only [hok, assemble, Plan.content_ofEdits, Plan.applyOuter_ofEdits,
        Plan.applyInner_ofEdits]
      cases children with
      | error e => simp [Except.map]
      | ok items => simp [Except.map, Edit.weave]
    · simp only [herror, hall, false_and, reduceCtorEq]
  | _ => simp [compileMutated, Content.element?]

/-- A node is compiled when it is such as a template can hold, and its children are
    compiled if it holds any. -/
theorem node_eq_ok {raw : Bool} :
    (if d.isMutated id then (Compiler.mk .standard pass).compileMutated d id content children
      else compileUntouched d id raw content children) = .ok template ↔
      d.Admits id content ∧
        ∃ items, (content.holdsNodes → children = .ok items) ∧
          d.weaveNode pass id raw content items = template := by
  cases hmutated : d.isMutated id with
  | true =>
    rw [if_pos rfl, compileMutated_eq_ok]
    cases content <;>
      simp [Declarations.Admits, Content.holdsNodes, Declarations.weaveNode,
        Declarations.attributes, hmutated]
  | false =>
    rw [if_neg Bool.false_ne_true]
    have hedits := edits_of_not_isMutated hmutated
    cases content <;> cases children <;>
      simp [compileUntouched, Except.map, Declarations.Admits, Content.holdsNodes,
        Declarations.weaveNode, Declarations.attributes, hmutated, hedits, Edit.weave]

end Node

theorem weaveNode_of_not_holdsNodes {id : NodeId} {raw : Bool} {content : Content}
    (h : content.holdsNodes = false) (items items' : List Template) :
    d.weaveNode pass id raw content items = d.weaveNode pass id raw content items' := by
  cases content with
  | container => cases h
  | element element => cases h
  | _ => rfl

mutual

/-- A branch is compiled when all its nodes are such as templates can hold. -/
theorem compileBranch_eq_ok (raw : Bool) (branch : Branch) (template : Template) :
    (Compiler.mk .standard pass).compileBranch d raw branch = .ok template ↔
      (∀ node ∈ branch.visit Content.holdsNodes, d.Admits node.1 node.2) ∧
        d.weave pass raw branch = template := by
  obtain ⟨id, content, children⟩ := branch
  rw [compileBranch, node_eq_ok, Branch.visit, Declarations.weave, List.forall_mem_cons, and_assoc]
  refine and_congr_right fun _ => ?_
  cases hholds : content.holdsNodes with
  | true =>
    simp only [true_implies, if_true, compileBranches_eq_ok, and_assoc, exists_and_left,
      exists_eq_left']
  | false =>
    simp only [Bool.false_eq_true, false_implies, true_and, if_false, List.not_mem_nil,
      implies_true]
    constructor
    · rintro ⟨items, h⟩
      exact (weaveNode_of_not_holdsNodes hholds _ items).trans h
    · intro h
      exact ⟨_, h⟩

theorem compileBranches_eq_ok (raw : Bool) (branches : List Branch) (templates : List Template) :
    (Compiler.mk .standard pass).compileBranches d raw branches = .ok templates ↔
      (∀ node ∈ Branch.visitAll Content.holdsNodes branches, d.Admits node.1 node.2) ∧
        d.weaveAll pass raw branches = templates := by
  cases branches with
  | nil => simp [compileBranches, Branch.visitAll, Declarations.weaveAll]
  | cons branch rest =>
    rw [compileBranches, Branch.visitAll, Declarations.weaveAll, List.forall_mem_append, and_assoc]
    rcases eq_ok_or_eq_error (compileBranch_eq_ok raw branch) with
      ⟨hbranch, hok⟩ | ⟨hbranch, e, herror⟩
    · rw [hok, and_iff_right hbranch]
      rcases eq_ok_or_eq_error (compileBranches_eq_ok raw rest) with
        ⟨hrest, hok⟩ | ⟨hrest, e, herror⟩
      · rw [and_iff_right hrest]
        simp only [hok, Except.map, Except.ok.injEq]
      · simp only [herror, hrest, Except.map, false_and, reduceCtorEq]
    · simp only [herror, hbranch, false_and, reduceCtorEq]

end

/-- A document is compiled when all its nodes are such as templates can hold and
    every variable is read where its context is bound. -/
theorem compile_eq_ok {template : Template} :
    (Compiler.mk .standard pass).compile d = .ok template ↔
      (∀ node ∈ d.visited, d.Admits node.1 node.2) ∧
        (d.woven pass).unbound? [Declarations.rootContext] = none ∧ d.woven pass = template := by
  unfold compile Declarations.visited Declarations.woven
  cases d.tree.branch? Tree.root with
  | none =>
    have hempty : Template.empty.unbound? [Declarations.rootContext] = none := rfl
    simp [hempty]
  | some branch =>
    dsimp only
    rcases eq_ok_or_eq_error (compileBranch_eq_ok false branch) with
      ⟨hall, hok⟩ | ⟨hall, e, herror⟩
    · rw [hok, and_iff_right hall]
      dsimp only
      cases (d.weave pass false branch).unbound? [Declarations.rootContext] <;> simp
    · simp only [herror, hall, false_and, reduceCtorEq]

end Compiler

end HtmlTemplate
