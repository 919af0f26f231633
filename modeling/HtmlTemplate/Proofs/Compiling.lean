-- SUMMARY: Exactly which documents can be compiled, in terms of the tree and what is logged.
import HtmlTemplate.Proofs.AbsentValues
import HtmlTemplate.Proofs.Binding
import HtmlTemplate.Proofs.Caching.Later
import HtmlTemplate.Proofs.Declarations.Order
import HtmlTemplate.Proofs.Declarations.Placed

/-!
# Documents that can be compiled

Whether a document can be compiled is decided by the compiler on the finished
template. `Document.Compilable` says it without the template: by the nodes that
belong to the document, the mutations that are logged on scopes with them, and the
order in which these were logged.
-/

namespace HtmlTemplate

namespace Declarations

variable {d : Declarations}

/-- The mutation is logged on a scope with the node. -/
def Mutates (d : Declarations) (id : NodeId) (mutation : Scope × LoggedMutation) : Prop :=
  (∃ i, d.scope? i = some mutation.1) ∧ id ∈ mutation.1.nodes ∧ mutation.2 ∈ mutation.1.log

/-- A repetition over the region of the context is logged on a scope with a node that is
    strictly above, or on one with the node itself if the repetition is as `P` asks. -/
def RepeatsAround (d : Declarations) (c : ContextId) (id : NodeId)
    (P : Scope × LoggedMutation → Prop) : Prop :=
  ∃ scope logged, (∃ i, d.scope? i = some scope) ∧ scope.nested = some c ∧ logged ∈ scope.log ∧
    logged.mutation.kind = Mutation.repeatEach ∧
    ((∃ above ∈ scope.nodes, d.tree.Below above id) ∨ id ∈ scope.nodes ∧ P (scope, logged))

end Declarations

namespace Document

/-- A later mutation sets the attribute that the mutation sets. -/
def IsSuperseded (doc : Document) (operations : List Operation) (id : NodeId)
    (mutation : Scope × LoggedMutation) : Prop :=
  ∃ later name name', (doc.run operations).declarations.Mutates id later ∧
    mutation.2.mutation = { kind := Mutation.setAttribute, arguments := [name] } ∧
    later.2.mutation = { kind := Mutation.setAttribute, arguments := [name'] } ∧
    asciiLower name = asciiLower name' ∧ doc.AppliedBefore operations mutation later

/-- What is asked of a document after some operations for it to be compiled. Nodes count
    if they belong to the document. -/
structure Compilable (doc : Document) (operations : List Operation) : Prop where
  /-- There are no comments and no instructions. -/
  nodes : ∀ {id node}, doc.tree.Holds id → doc.tree.get? id = some node →
    node.content.category ≠ .comment ∧ node.content.category ≠ .instruction
  /-- The container is not mutated. -/
  container : ∀ mutation, ¬ (doc.run operations).declarations.Mutates Tree.root mutation
  /-- Mutations have standard kinds and as many arguments as their handlers take. -/
  standard : ∀ {id mutation}, doc.tree.Holds id →
    (doc.run operations).declarations.Mutates id mutation →
    mutation.2.mutation.kind ∈ [Mutation.replaceInnerHtml, Mutation.append, Mutation.setAttribute,
      Mutation.remove, Mutation.repeatEach] ∧
    mutation.2.mutation.arguments.length =
      if mutation.2.mutation.kind = Mutation.setAttribute then 1 else 0
  /-- The value of a mutation is given by a repetition around the node, or by one of the
      node itself; a mutation around the node has to come before the latter. -/
  bound : ∀ {id mutation}, doc.tree.Holds id →
    (doc.run operations).declarations.Mutates id mutation →
    mutation.1.context ≠ Declarations.rootContext → ¬ doc.IsSuperseded operations id mutation →
    (doc.run operations).declarations.RepeatsAround mutation.1.context id fun repetition =>
      mutation.2.mutation.kind = Mutation.remove ∨
        mutation.2.mutation.kind = Mutation.repeatEach →
      doc.AppliedBefore operations mutation repetition

end Document

/-! ## Nodes that are admitted -/

namespace Declarations

variable {d : Declarations}

theorem WellFormed.isMutated_eq_false (h : d.WellFormed) {id : NodeId} :
    d.isMutated id = false ↔ ∀ mutation, ¬ d.Mutates id mutation := by
  have hscopes : d.isMutated id = false ↔ d.index.scopes id = [] := by simp [isMutated]
  rw [hscopes, List.eq_nil_iff_forall_not_mem]
  constructor
  · rintro hnone ⟨scope, logged⟩ ⟨⟨i, hs⟩, hnode, hlogged⟩
    exact hnone i (h.mem_index.mpr ⟨scope, hs, List.ne_nil_of_mem hlogged, hnode⟩)
  · intro hnone i hi
    obtain ⟨scope, hs, hlog, hnode⟩ := h.mem_index.mp hi
    obtain ⟨logged, hlogged⟩ := List.exists_mem_of_ne_nil _ hlog
    exact hnone (scope, logged) ⟨⟨i, hs⟩, hnode, hlogged⟩

/-- The nodes of scopes are elements and the container. -/
theorem Placed.element_of_mutates (h : d.Placed) {id : NodeId} {node : Node}
    {mutation : Scope × LoggedMutation} (hmutates : d.Mutates id mutation)
    (hnode : d.tree.get? id = some node) :
    id = Tree.root ∨ ∃ element, node.content = .element element := by
  obtain ⟨⟨i, hs⟩, hid, -⟩ := hmutates
  rcases h.inside hs id hid with hroot | ⟨-, helement⟩
  · exact .inl hroot
  · right
    cases hcontent : node.content <;>
      simp_all [Tree.isElement, Tree.element?, Content.element?]

/-- The nodes that the walk comes upon are admitted when there is none of a kind that a
    template cannot hold, and all mutations of the others are standard. -/
theorem admits_iff (hd : d.WellFormed) (hplaced : d.Placed) (hbuilt : d.tree.Built) :
    (∀ node ∈ d.visited, d.Admits node.1 node.2) ↔
      (∀ id node, d.tree.Holds id → d.tree.get? id = some node →
        node.content.category ≠ .comment ∧ node.content.category ≠ .instruction) ∧
      (∀ mutation, ¬ d.Mutates Tree.root mutation) ∧
      ∀ id mutation, d.tree.Holds id → d.Mutates id mutation →
        mutation.2.mutation.IsStandard := by
  have hmutations {id : NodeId} {mutation : Scope × LoggedMutation} :
      mutation ∈ d.mutationsOf id ↔ d.Mutates id mutation := hd.mem_mutationsOf
  constructor
  · intro hall
    have hadmits {id node} (hholds : d.tree.Holds id) (hnode : d.tree.get? id = some node) :
        d.Admits id node.content :=
      hall _ ((mem_visited hbuilt).mpr ⟨hholds, node, hnode, rfl⟩)
    obtain ⟨⟨first, hfirst⟩, hcontainer⟩ := hbuilt.container
    have hroot : ∀ mutation, ¬ d.Mutates Tree.root mutation := by
      have hroot := hadmits ⟨[], .top⟩ hfirst
      rw [(hcontainer hfirst).mpr rfl] at hroot
      exact hd.isMutated_eq_false.mp hroot
    refine ⟨fun id node hholds hnode => ?_, hroot, fun id mutation hholds hmutates => ?_⟩
    · have hadmits := hadmits hholds hnode
      constructor <;> intro hcategory <;> cases hcontent : node.content <;>
        simp_all [Content.category, Admits]
    · obtain ⟨above, htrail⟩ := hholds
      obtain ⟨node, hnode⟩ := (hbuilt.linked.nodup_path ⟨first, hfirst⟩ htrail.path).2 id
        List.mem_cons_self
      have hadmits := hadmits ⟨above, htrail⟩ hnode
      rcases hplaced.element_of_mutates hmutates hnode with rfl | ⟨element, helement⟩
      · exact absurd hmutates (hroot mutation)
      · rw [helement] at hadmits
        exact hadmits mutation (hmutations.mpr hmutates)
  · rintro ⟨hnodes, hroot, hstandard⟩ ⟨id, content⟩ hvisited
    obtain ⟨hholds, node, hnode, rfl⟩ := (mem_visited hbuilt).mp hvisited
    have hnone (hother : ∀ element, node.content ≠ .element element) : d.isMutated id = false := by
      refine hd.isMutated_eq_false.mpr fun mutation hmutates => ?_
      rcases hplaced.element_of_mutates hmutates hnode with rfl | ⟨element, helement⟩
      · exact hroot mutation hmutates
      · exact hother element helement
    have hcategory := hnodes id node hholds hnode
    cases hcontent : node.content with
    | element element =>
      exact fun mutation hmutation => hstandard id mutation hholds (hmutations.mp hmutation)
    | comment text => simp [hcontent, Content.category] at hcategory
    | instruction target text => simp [hcontent, Content.category] at hcategory
    | container => exact hnone (by simp [hcontent])
    | doctype name publicId systemId => exact hnone (by simp [hcontent])
    | text text => exact hnone (by simp [hcontent])

/-! ## Variables that are bound -/

variable {id : NodeId} {c : ContextId}

/-- The edits of a node that bind a context are its repetitions over the region. -/
theorem binds_edit?_iff (hd : d.WellFormed) {mutation : Scope × LoggedMutation} {i : ScopeId}
    (hs : d.scope? i = some mutation.1) :
    (∃ edit, d.edit? mutation.1 mutation.2 = some edit ∧ edit.Binds c) ↔
      mutation.1.nested = some c ∧ mutation.2.mutation = { kind := Mutation.repeatEach } := by
  rw [hd.edit?_eq hs]
  simp only [Option.map_eq_some_iff, Mutation.change?_eq_some]
  constructor
  · rintro ⟨edit, ⟨change, ⟨hmutation, hframe⟩, rfl⟩, parameters, rfl, rfl⟩
    obtain ⟨c', hnested, rfl⟩ := Option.map_eq_some_iff.mp (hframe _ rfl).symm
    exact ⟨hnested, hmutation⟩
  · rintro ⟨hnested, hmutation⟩
    refine ⟨_, ⟨.repetition (some (d.loopParameters c)), ⟨hmutation, ?_⟩, rfl⟩, _, rfl, rfl⟩
    intro frame hframe
    cases hframe
    rw [hnested, Option.map_some]

theorem exists_binds_iff (hd : d.WellFormed) {mutations : List (Scope × LoggedMutation)}
    (hmutations : ∀ mutation ∈ mutations, d.Mutates id mutation) :
    (∃ edit ∈ mutations.filterMap fun pair => d.edit? pair.1 pair.2, edit.Binds c) ↔
      ∃ mutation ∈ mutations, mutation.1.nested = some c ∧
        mutation.2.mutation = { kind := Mutation.repeatEach } := by
  simp only [List.mem_filterMap]
  constructor
  · rintro ⟨edit, ⟨mutation, hmem, hedit⟩, hbinds⟩
    obtain ⟨⟨i, hs⟩, -⟩ := hmutations mutation hmem
    exact ⟨mutation, hmem, (binds_edit?_iff hd hs).mp ⟨edit, hedit, hbinds⟩⟩
  · rintro ⟨mutation, hmem, hrepeats⟩
    obtain ⟨⟨i, hs⟩, -⟩ := hmutations mutation hmem
    obtain ⟨edit, hedit, hbinds⟩ := (binds_edit?_iff hd hs).mpr hrepeats
    exact ⟨edit, ⟨mutation, hmem, hedit⟩, hbinds⟩

/-- What is bound inside some of the mutations of a node. -/
theorem mem_allInside_iff (hd : d.WellFormed) (hplaced : d.Placed) (hbuilt : d.tree.Built)
    (hstandard : ∀ id mutation, d.tree.Holds id → d.Mutates id mutation →
      mutation.2.mutation.IsStandard)
    {above : List NodeId} (htrail : d.tree.Trail Tree.root above id)
    {mutations : List (Scope × LoggedMutation)}
    (hmutations : ∀ mutation ∈ mutations, d.Mutates id mutation) :
    c ∈ Edit.allInside (mutations.filterMap fun pair => d.edit? pair.1 pair.2)
        (d.boundInside above [rootContext]) ↔
      c = rootContext ∨ d.RepeatsAround c id (· ∈ mutations) := by
  have habove (a : NodeId) : (∃ edit ∈ d.edits a, edit.Binds c) ↔
      ∃ mutation, d.Mutates a mutation ∧ mutation.1.nested = some c ∧
        mutation.2.mutation = { kind := Mutation.repeatEach } := by
    have hedits := exists_binds_iff (c := c) hd
      fun mutation (hmem : mutation ∈ d.mutationsOf a) => hd.mem_mutationsOf.mp hmem
    simp only [hd.mem_mutationsOf] at hedits
    exact hedits
  rw [Edit.mem_allInside, exists_binds_iff hd hmutations, mem_boundInside]
  simp only [habove, List.mem_singleton]
  constructor
  · rintro (⟨⟨scope, logged⟩, hmem, hnested, hrepeat⟩ |
      ⟨a, ha, ⟨scope, logged⟩, ⟨hs, hnode, hlogged⟩, hnested, hrepeat⟩ | hroot)
    · obtain ⟨hs, hnode, hlogged⟩ := hmutations _ hmem
      exact .inr ⟨scope, logged, hs, hnested, hlogged, congrArg Mutation.kind hrepeat,
        .inr ⟨hnode, hmem⟩⟩
    · exact .inr ⟨scope, logged, hs, hnested, hlogged, congrArg Mutation.kind hrepeat,
        .inl ⟨a, hnode, htrail.path.below_of_mem ha⟩⟩
    · exact .inl hroot
  · rintro (hroot | ⟨scope, logged, ⟨i, hs⟩, hnested, hlogged, hkind, ⟨a, ha, hbelow⟩ | ⟨-, hmem⟩⟩)
    · exact .inr (.inr hroot)
    · have hwithin : d.tree.Within Tree.root a := by
        rcases hplaced.inside hs a ha with rfl | ⟨hbelow, -⟩
        · exact .top
        · exact hbelow.within
      have hmem : a ∈ above := (hbuilt.linked.mem_path htrail.path).mpr ⟨hwithin, hbelow⟩
      have hmutates : d.Mutates a (scope, logged) := ⟨⟨i, hs⟩, ha, hlogged⟩
      have hrepeat := Mutation.IsStandard.eq_of_kind
        (hstandard a _ (htrail.exists_of_mem hmem) hmutates) hkind
      exact .inr (.inl ⟨a, hmem, _, hmutates, hnested, hrepeat⟩)
    · have hrepeat := Mutation.IsStandard.eq_of_kind
        (hstandard id _ ⟨above, htrail⟩ (hmutations _ hmem)) hkind
      exact .inl ⟨_, hmem, hnested, hrepeat⟩

theorem RepeatsAround.imp {P Q : Scope × LoggedMutation → Prop} (h : d.RepeatsAround c id P)
    (hPQ : ∀ mutation, d.Mutates id mutation → P mutation → Q mutation) :
    d.RepeatsAround c id Q := by
  obtain ⟨scope, logged, hs, hnested, hlogged, hkind, habove | ⟨hnode, hP⟩⟩ := h
  · exact ⟨scope, logged, hs, hnested, hlogged, hkind, .inl habove⟩
  · exact ⟨scope, logged, hs, hnested, hlogged, hkind,
      .inr ⟨hnode, hPQ _ ⟨hs, hnode, hlogged⟩ hP⟩⟩

theorem wrapsElement_iff (edit : Edit) : edit.WrapsElement ↔
    edit.change.mutation.kind = Mutation.remove ∨
      edit.change.mutation.kind = Mutation.repeatEach := by
  obtain ⟨change, var⟩ := edit
  cases change <;>
    simp [Edit.WrapsElement, Change.mutation, Mutation.remove, Mutation.repeatEach,
      Mutation.replaceInnerHtml, Mutation.append, Mutation.setAttribute]

/-- One of the later mutations sets the attribute that the mutation sets. -/
def SupersededAmong (mutation : Scope × LoggedMutation) (later : List (Scope × LoggedMutation)) :
    Prop :=
  ∃ other ∈ later, ∃ name name',
    mutation.2.mutation = { kind := Mutation.setAttribute, arguments := [name] } ∧
    other.2.mutation = { kind := Mutation.setAttribute, arguments := [name'] } ∧
    asciiLower name = asciiLower name'

theorem of_edit? {scope : Scope} {logged : LoggedMutation} {edit : Edit}
    (h : d.edit? scope logged = some edit) :
    logged.mutation = edit.change.mutation ∧ edit.var = scope.var logged := by
  obtain ⟨change, hchange, rfl⟩ := Option.map_eq_some_iff.mp h
  exact ⟨(Mutation.change?_eq_some.mp hchange).1, rfl⟩

/-- The edits and the mutations of a node are in the same order. -/
theorem suffix_edits_iff {edit : Edit} {laterEdits : List Edit} :
    edit :: laterEdits <:+ d.edits id ↔
      ∃ mutation later, mutation :: later <:+ d.mutationsOf id ∧
        d.edit? mutation.1 mutation.2 = some edit ∧
        (later.filterMap fun pair => d.edit? pair.1 pair.2) = laterEdits := by
  constructor
  · rintro ⟨before, heq⟩
    obtain ⟨first, rest, hmutations, -, hrest⟩ := List.filterMap_eq_append_iff.mp heq.symm
    obtain ⟨skipped, mutation, later, rfl, -, hedit, hlater⟩ := List.filterMap_eq_cons_iff.mp hrest
    refine ⟨mutation, later, ⟨first ++ skipped, ?_⟩, hedit, hlater⟩
    rw [hmutations, List.append_assoc]
  · rintro ⟨mutation, later, hsuffix, hedit, rfl⟩
    have hfilter := hsuffix.filterMap fun pair => d.edit? pair.1 pair.2
    simp only [List.filterMap_cons, hedit] at hfilter
    exact hfilter

theorem not_wrapsElement_iff {edit : Edit} : ¬ edit.WrapsElement ↔
    edit.WrapsContent ∨ ∃ name, edit.change = .attribute name := by
  obtain ⟨change, var⟩ := edit
  cases change <;> simp [Edit.WrapsElement, Edit.WrapsContent]

theorem mutation_eq_setAttribute {change : Change} {name : String} :
    change.mutation = { kind := Mutation.setAttribute, arguments := [name] } ↔
      change = .attribute name := by
  cases change <;>
    simp [Change.mutation, Mutation.remove, Mutation.repeatEach, Mutation.replaceInnerHtml,
      Mutation.append, Mutation.setAttribute]

theorem not_supersededAmong {mutation : Scope × LoggedMutation}
    {later : List (Scope × LoggedMutation)} {edit : Edit}
    (hedit : d.edit? mutation.1 mutation.2 = some edit)
    (hchange : ∀ name, edit.change ≠ .attribute name) : ¬ SupersededAmong mutation later := by
  rintro ⟨-, -, name, -, hname, -⟩
  rw [(of_edit? hedit).1, mutation_eq_setAttribute] at hname
  exact hchange name hname

/-- An edit overrides an attribute for good when its mutation is not superseded. -/
theorem overridesBefore_iff {mutation : Scope × LoggedMutation}
    {later : List (Scope × LoggedMutation)} {edit : Edit} {name : String}
    (hedit : d.edit? mutation.1 mutation.2 = some edit) (hchange : edit.change = .attribute name)
    (hstandard : ∀ other ∈ later, other.2.mutation.IsStandard) :
    edit.OverridesBefore (later.filterMap fun pair => d.edit? pair.1 pair.2) ↔
      ¬ SupersededAmong mutation later := by
  have hmutation := (of_edit? hedit).1
  constructor
  · rintro ⟨name, hname, hlast⟩ ⟨other, hmem, first, second, hfirst, hsecond, heq⟩
    rw [hmutation, mutation_eq_setAttribute, hname] at hfirst
    cases hfirst
    obtain ⟨change, hsome⟩ := Option.isSome_iff_exists.mp
      ((other.2.mutation.isSome_change? _).mpr (hstandard other hmem))
    have hother : d.edit? other.1 other.2 = some _ := Option.map_eq_some_iff.mpr ⟨_, hsome, rfl⟩
    have hchange := (of_edit? hother).1.symm.trans hsecond
    exact hlast _ (List.mem_filterMap.mpr ⟨other, hmem, hother⟩) second
      (mutation_eq_setAttribute.mp hchange) heq.symm
  · intro hlast
    refine ⟨name, hchange, fun later hlater name' hname' heq => hlast ?_⟩
    obtain ⟨other, hmem, hother⟩ := List.mem_filterMap.mp hlater
    refine ⟨other, hmem, name, name', ?_, ?_, heq.symm⟩
    · rw [hmutation, hchange, Change.mutation]
    · rw [(of_edit? hother).1, hname', Change.mutation]

/-- What a mutation of a node asks for, where some of the mutations come `later`. -/
def BoundAround (d : Declarations) (id : NodeId) (mutation : Scope × LoggedMutation)
    (later : List (Scope × LoggedMutation)) : Prop :=
  mutation.1.context ≠ rootContext → ¬ SupersededAmong mutation later →
    d.RepeatsAround mutation.1.context id fun repetition =>
      mutation.2.mutation.kind = Mutation.remove ∨
        mutation.2.mutation.kind = Mutation.repeatEach → repetition ∈ later

section Node

variable (hd : d.WellFormed) (hplaced : d.Placed) (hbuilt : d.tree.Built)
  (hstandard : ∀ id mutation, d.tree.Holds id → d.Mutates id mutation →
    mutation.2.mutation.IsStandard)
  {above : List NodeId} (htrail : d.tree.Trail Tree.root above id)

include hd hplaced hbuilt hstandard htrail

/-- What is bound inside the last mutations of a node. -/
theorem mem_allInside_suffix_iff {last : List (Scope × LoggedMutation)}
    (hsuffix : last <:+ d.mutationsOf id) :
    c ∈ Edit.allInside (last.filterMap fun pair => d.edit? pair.1 pair.2)
        (d.boundInside above [rootContext]) ↔
      c = rootContext ∨ d.RepeatsAround c id (· ∈ last) :=
  mem_allInside_iff hd hplaced hbuilt hstandard htrail fun _ hmem =>
    hd.mem_mutationsOf.mp (hsuffix.subset hmem)

theorem boundAround_of_allBound
    (h : Edit.AllBound (d.edits id) (d.boundInside above [rootContext]))
    {mutation : Scope × LoggedMutation} {later : List (Scope × LoggedMutation)}
    (hsuffix : mutation :: later <:+ d.mutationsOf id) : d.BoundAround id mutation later := by
  intro hcontext hlast
  have hmutates {other} (hmem : other ∈ mutation :: later) : d.Mutates id other :=
    hd.mem_mutationsOf.mp (hsuffix.subset hmem)
  have hkinds (other) (hmem : other ∈ mutation :: later) : other.2.mutation.IsStandard :=
    hstandard id other ⟨above, htrail⟩ (hmutates hmem)
  obtain ⟨change, hchange⟩ := Option.isSome_iff_exists.mp
    ((mutation.2.mutation.isSome_change? _).mpr (hkinds _ List.mem_cons_self))
  have hedit : d.edit? mutation.1 mutation.2 = some _ :=
    Option.map_eq_some_iff.mpr ⟨change, hchange, rfl⟩
  have hedits := suffix_edits_iff.mpr ⟨mutation, later, hsuffix, hedit, rfl⟩
  by_cases hwraps : Edit.WrapsElement ⟨change, ⟨mutation.1.context, mutation.2.slot⟩⟩
  · have hbound := (mem_allInside_suffix_iff hd hplaced hbuilt hstandard htrail
      ((List.suffix_cons _ _).trans hsuffix)).mp (h.around _ _ hedits hwraps)
    exact (hbound.resolve_left hcontext).imp fun _ _ hmem _ => hmem
  · -- The edit is inside all others, so that their order does not matter.
    have hkind : ¬ (mutation.2.mutation.kind = Mutation.remove ∨
        mutation.2.mutation.kind = Mutation.repeatEach) := by
      rwa [(of_edit? hedit).1, ← wrapsElement_iff]
    have hbound : mutation.1.context ∈
        Edit.allInside (d.edits id) (d.boundInside above [rootContext]) := by
      rcases not_wrapsElement_iff.mp hwraps with hwraps | ⟨name, hname⟩
      · exact h.inside _ (hedits.subset List.mem_cons_self) hwraps
      · exact h.override _ _ hedits ((overridesBefore_iff hedit hname
          fun other hmem => hkinds other (List.mem_cons_of_mem _ hmem)).mpr hlast)
    have hbound := (mem_allInside_suffix_iff hd hplaced hbuilt hstandard htrail
      (List.suffix_refl _)).mp hbound
    exact (hbound.resolve_left hcontext).imp fun _ _ _ hkind' => absurd hkind' hkind

theorem allBound_of_boundAround
    (h : ∀ mutation later, mutation :: later <:+ d.mutationsOf id →
      d.BoundAround id mutation later) :
    Edit.AllBound (d.edits id) (d.boundInside above [rootContext]) := by
  have hcontext {mutation : Scope × LoggedMutation} {edit : Edit}
      (hedit : d.edit? mutation.1 mutation.2 = some edit) :
      edit.var.context = mutation.1.context := congrArg Var.context (of_edit? hedit).2
  have hinside (c : ContextId) :
      c ∈ Edit.allInside (d.edits id) (d.boundInside above [rootContext]) ↔
        c = rootContext ∨ d.RepeatsAround c id (· ∈ d.mutationsOf id) :=
    mem_allInside_suffix_iff hd hplaced hbuilt hstandard htrail (List.suffix_refl _)
  constructor
  case around =>
    intro edit laterEdits hedits hwraps
    obtain ⟨mutation, later, hsuffix, hedit, rfl⟩ := suffix_edits_iff.mp hedits
    rw [mem_allInside_suffix_iff hd hplaced hbuilt hstandard htrail
      ((List.suffix_cons _ _).trans hsuffix), or_iff_not_imp_left, hcontext hedit]
    intro hroot
    have hattribute : ∀ name, edit.change ≠ .attribute name := fun name hname =>
      not_wrapsElement_iff.mpr (.inr ⟨name, hname⟩) hwraps
    refine (h mutation later hsuffix hroot (not_supersededAmong hedit hattribute)).imp
      fun _ _ hlater => hlater ?_
    rwa [(of_edit? hedit).1, ← wrapsElement_iff]
  case inside =>
    intro edit hedit hwraps
    obtain ⟨before, laterEdits, heq⟩ := List.append_of_mem hedit
    obtain ⟨mutation, later, hsuffix, hedit, rfl⟩ := suffix_edits_iff.mp ⟨before, heq.symm⟩
    rw [hinside, or_iff_not_imp_left, hcontext hedit]
    intro hroot
    have hattribute : ∀ name, edit.change ≠ .attribute name := by
      rintro name hname
      rcases hwraps with hwraps | hwraps <;> cases hname.symm.trans hwraps
    exact (h mutation later hsuffix hroot (not_supersededAmong hedit hattribute)).imp
      fun _ hmutates _ => hd.mem_mutationsOf.mpr hmutates
  case override =>
    intro edit laterEdits hedits hlast
    obtain ⟨mutation, later, hsuffix, hedit, rfl⟩ := suffix_edits_iff.mp hedits
    obtain ⟨name, hname, hafter⟩ := hlast
    rw [hinside, or_iff_not_imp_left, hcontext hedit]
    intro hroot
    have hkinds (other) (hmem : other ∈ later) : other.2.mutation.IsStandard :=
      hstandard id other ⟨above, htrail⟩
        (hd.mem_mutationsOf.mp (hsuffix.subset (List.mem_cons_of_mem _ hmem)))
    have hlast := (overridesBefore_iff hedit hname hkinds).mp ⟨name, hname, hafter⟩
    exact (h mutation later hsuffix hroot hlast).imp
      fun _ hmutates _ => hd.mem_mutationsOf.mpr hmutates

/-- The variables of a node are bound, told from its mutations. -/
theorem allBound_iff :
    Edit.AllBound (d.edits id) (d.boundInside above [rootContext]) ↔
      ∀ mutation later, mutation :: later <:+ d.mutationsOf id →
        d.BoundAround id mutation later :=
  ⟨fun h _ _ => boundAround_of_allBound hd hplaced hbuilt hstandard htrail h,
    allBound_of_boundAround hd hplaced hbuilt hstandard htrail⟩

end Node

end Declarations

/-! ## Documents -/

namespace Document

section Run

variable {tree : Tree} {optimizing : Bool} {operations : List Operation}

/-- The later mutations of a node supersede one when some mutation of the node does. -/
theorem supersededAmong_iff {id : NodeId} {mutation : Scope × LoggedMutation}
    {later : List (Scope × LoggedMutation)}
    (hlater : mutation :: later <:+
      ((ofTree tree {} optimizing).run operations).declarations.mutationsOf id) :
    Declarations.SupersededAmong mutation later ↔
      (ofTree tree {} optimizing).IsSuperseded operations id mutation := by
  have hd := wellFormed_run tree {} optimizing operations
  simp only [Declarations.SupersededAmong, IsSuperseded, mem_later_iff hlater, hd.mem_mutationsOf]
  constructor
  · rintro ⟨other, ⟨hmutates, happlied⟩, name, name', hname, hname', heq⟩
    exact ⟨other, name, name', hmutates, hname, hname', heq, happlied⟩
  · rintro ⟨other, name, name', hmutates, hname, hname', heq, happlied⟩
    exact ⟨other, ⟨hmutates, happlied⟩, name, name', hname, hname', heq⟩

/-- The template of a document can be made when the document is such as `Compilable`
    says. -/
theorem exists_template_iff (hbuilt : tree.Built) :
    (∃ template, ((ofTree tree {} optimizing).run operations).template = .ok template) ↔
      (ofTree tree {} optimizing).Compilable operations := by
  let doc := (ofTree tree {} optimizing).run operations
  have hd : doc.declarations.WellFormed := wellFormed_run tree {} optimizing operations
  have hplaced : doc.declarations.Placed := placed_run hbuilt {} optimizing operations
  have htree : doc.declarations.tree = tree := tree_run _ operations
  have hcompiler : doc.compiler = {} := compiler_run _ operations
  have hbuilt' : doc.declarations.tree.Built := htree.symm ▸ hbuilt
  have htemplate : (∃ template, doc.template = .ok template) ↔
      (∀ node ∈ doc.declarations.visited, doc.declarations.Admits node.1 node.2) ∧
        (doc.declarations.woven .withOverrides).unbound? [Declarations.rootContext] = none := by
    rw [Document.template, hcompiler]
    simp only [Compiler.compile_eq_ok, exists_and_left, exists_eq', and_true]
  rw [htemplate]
  constructor
  · rintro ⟨hadmits, hbound⟩
    obtain ⟨hnodes, hcontainer, hstandard⟩ :=
      (Declarations.admits_iff hd hplaced hbuilt').mp hadmits
    rw [Declarations.unbound?_woven_eq_none hbuilt' hadmits] at hbound
    rw [htree] at hnodes
    constructor
    case nodes => exact hnodes _ _
    case container => exact hcontainer
    case standard =>
      intro id mutation hholds hmutates
      exact Mutation.isStandard_iff.mp (hstandard id mutation (htree.symm ▸ hholds) hmutates)
    case bound =>
      rintro id mutation ⟨above, htrail⟩ hmutates hcontext hlast
      obtain ⟨before, later, heq⟩ := List.append_of_mem (hd.mem_mutationsOf.mpr hmutates)
      have hsuffix : mutation :: later <:+ doc.declarations.mutationsOf id := ⟨before, heq.symm⟩
      rw [← htree] at htrail
      have hall := (Declarations.allBound_iff hd hplaced hbuilt' hstandard htrail).mp
        (hbound above id htrail)
      refine (hall mutation later hsuffix hcontext ?_).imp fun other _ hlater hkind => ?_
      · rwa [supersededAmong_iff hsuffix]
      · exact ((mem_later_iff hsuffix).mp (hlater hkind)).2
  · intro hcompilable
    have hstandard : ∀ id mutation, doc.declarations.tree.Holds id →
        doc.declarations.Mutates id mutation → mutation.2.mutation.IsStandard := by
      intro id mutation hholds hmutates
      exact Mutation.isStandard_iff.mpr (hcompilable.standard (htree ▸ hholds) hmutates)
    have hadmits : ∀ node ∈ doc.declarations.visited, doc.declarations.Admits node.1 node.2 := by
      refine (Declarations.admits_iff hd hplaced hbuilt').mpr
        ⟨?_, hcompilable.container, hstandard⟩
      rw [htree]
      exact fun id node => hcompilable.nodes
    refine ⟨hadmits, ?_⟩
    rw [Declarations.unbound?_woven_eq_none hbuilt' hadmits]
    intro above id htrail
    refine (Declarations.allBound_iff hd hplaced hbuilt' hstandard htrail).mpr ?_
    intro mutation later hsuffix hcontext hlast
    have hmutates := hd.mem_mutationsOf.mp (hsuffix.subset List.mem_cons_self)
    rw [supersededAmong_iff hsuffix] at hlast
    refine (hcompilable.bound ⟨above, htree ▸ htrail⟩ hmutates hcontext hlast).imp
      fun other hother happlied hkind => ?_
    exact (mem_later_iff hsuffix).mpr ⟨hd.mem_mutationsOf.mpr hother, happlied hkind⟩

/-- A document answers a renderer when its template can be made, also when it has kept
    the renderer from before. -/
theorem exists_renderer_iff :
    (∃ renderer, ((ofTree tree {} optimizing).run operations).compile.1 = .ok renderer) ↔
      ∃ template, ((ofTree tree {} optimizing).run operations).template = .ok template := by
  constructor
  · rintro ⟨renderer, hrenderer⟩
    obtain ⟨d₀, template, hd₀, hkept, htemplate, -⟩ := of_compile_run hrenderer
    have hd := wellFormed_run tree {} optimizing operations
    have hcompile := hkept.compile hd₀ hd
      AttributePass.IsStandard.withOverrides.ignoresWrappers htemplate
    refine ⟨_, Eq.trans ?_ hcompile⟩
    rw [Document.template, compiler_run]
    rfl
  · rintro ⟨template, htemplate⟩
    exact exists_compile_of_template htemplate

/-- What a document renders when it is compiled: the template of the declarations of then,
    which differ from those of now in regions alone. -/
theorem exists_woven_of_compile {pass : AttributePass} (hpass : pass.IsStandard)
    {renderer : Renderer}
    (hrenderer : ((ofTree tree ⟨.standard, pass⟩ optimizing).run operations).compile.1 =
      .ok renderer) :
    let doc := (ofTree tree ⟨.standard, pass⟩ optimizing).run operations
    ∃ d₀ : Declarations, d₀.WellFormed ∧ d₀.LogsKept doc.declarations ∧
      (∀ node ∈ d₀.visited, d₀.Admits node.1 node.2) ∧
      (∀ node ∈ doc.declarations.visited, doc.declarations.Admits node.1 node.2) ∧
      ∀ arguments, (doc.render arguments).1 =
        ((Program.mk (d₀.woven pass) doc.parameters).render arguments).mapError .render := by
  intro doc
  have hd : doc.declarations.WellFormed := wellFormed_run tree _ optimizing operations
  obtain ⟨d₀, template₀, hd₀, hkept, htemplate₀, hprogram⟩ := of_compile_run hrenderer
  obtain ⟨hadmits₀, -, rfl⟩ := Compiler.compile_eq_ok.mp htemplate₀
  obtain ⟨hadmits, -, -⟩ :=
    Compiler.compile_eq_ok.mp (hkept.compile hd₀ hd hpass.ignoresWrappers htemplate₀)
  have hparameters : d₀.parameters = doc.parameters := by
    simp only [Declarations.parameters, Document.parameters]
    rw [← hkept.slots]
  refine ⟨d₀, hd₀, hkept, hadmits₀, hadmits, fun arguments => ?_⟩
  rw [render_of_compile hrenderer, hprogram, Program.render_build, hparameters]

end Run

theorem exists_renderer_of_isOk {doc : Document} (h : doc.compile.1.isOk = true) :
    ∃ renderer, doc.compile.1 = .ok renderer := by
  cases hcompile : doc.compile.1 with
  | ok renderer => exact ⟨renderer, rfl⟩
  | error e =>
    rw [hcompile] at h
    cases h

/-- A document over a tree that is built can be compiled exactly when it is such as
    `Compilable` says: its template can be made, and it answers a renderer. -/
theorem compile_iff (tree : Tree) (hbuilt : tree.Built) (optimizing : Bool)
    (operations : List Operation) :
    let doc := (ofTree tree {} optimizing).run operations
    ((∃ renderer, doc.compile.1 = .ok renderer) ↔
        (ofTree tree {} optimizing).Compilable operations) ∧
      ((∃ template, doc.template = .ok template) ↔
        (ofTree tree {} optimizing).Compilable operations) :=
  ⟨exists_renderer_iff.trans (exists_template_iff hbuilt), exists_template_iff hbuilt⟩

/-- The content of a paragraph is a value of its region: it needs a repetition of the
    section around it, or of the paragraph itself. -/
theorem compile_iff_section :
    let inside : Mutation := { kind := Mutation.replaceInnerHtml }
    (ofTree sectionTree).Compilable
        [.find "p", .log ⟨1⟩ { kind := Mutation.repeatEach }, .nest ⟨1⟩, .log ⟨2⟩ inside] ∧
      ¬ (ofTree sectionTree).Compilable [.find "p", .nest ⟨1⟩, .log ⟨2⟩ inside] := by
  intro inside
  refine ⟨(compile_iff sectionTree built_sectionTree true _).1.mp ⟨_, rfl⟩, ?_⟩
  intro hcompilable
  obtain ⟨renderer, hrenderer⟩ := (compile_iff sectionTree built_sectionTree true _).1.mpr
    hcompilable
  cases hrenderer

/-- A tree with a comment, which is a child of a text. -/
def noteTree : Tree :=
  let (tree, text) := Tree.empty.create (.text "a")
  let (tree, note) := tree.create (.comment "x")
  (tree.append Tree.root (some text)).append text (some note)

/-- A comment inside a text does not belong to the document: it is below the container,
    and there is a renderer. -/
theorem compile_inside_text :
    noteTree.Built ∧
      (∃ id node, noteTree.Below Tree.root id ∧ noteTree.get? id = some node ∧
        node.content.category = .comment) ∧
      ∃ renderer, (ofTree noteTree).compile.1 = .ok renderer := by
  refine ⟨?_, ⟨⟨2⟩, _, ?_, rfl, rfl⟩, _, rfl⟩
  · have htext : Content.text "a" ≠ .container := nofun
    have hnote : Content.comment "x" ≠ .container := nofun
    have hnodes := (Tree.Built.empty.create htext).create hnote
    exact (hnodes.appendLeaf Tree.root ⟨1⟩ rfl rfl rfl (by decide)).appendLeaf ⟨1⟩ ⟨2⟩ rfl rfl rfl
      (by decide)
  · exact .tail (.single (b := ⟨1⟩) (by decide)) (by decide)

end Document

end HtmlTemplate
