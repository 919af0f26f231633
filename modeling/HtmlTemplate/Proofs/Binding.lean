-- SUMMARY: Which contexts are bound at each node of a tree, and when all variables of its template are.
import HtmlTemplate.Proofs.Bound
import HtmlTemplate.Proofs.Logging.Overrides
import HtmlTemplate.Proofs.Tree.Below

/-!
# Binding along the walk

The compiler looks for unbound variables in a finished template. Here the same is
asked of each node that the walk comes upon: which contexts are bound around it, by
the repetitions of the nodes that it is inside of, and which of its edits read a
variable of another context. An edit around an element is inside the later edits of
that element alone; an edit of the content or of an attribute is inside all of them.
-/

namespace HtmlTemplate

/-! ## One edit -/

namespace Edit

variable {bound : List ContextId} {edit : Edit} {edits : List Edit} {c : ContextId}

/-- The edit repeats over a region, and so binds its context. -/
def Binds (edit : Edit) (c : ContextId) : Prop :=
  ∃ parameters, edit.change = .repetition (some parameters) ∧ parameters.context = c

theorem mem_boundInside : c ∈ edit.boundInside bound ↔ edit.Binds c ∨ c ∈ bound := by
  unfold boundInside Binds
  split
  next parameters hchange => simp [hchange, eq_comm]
  next hother =>
    have hnot : ∀ parameters, edit.change ≠ .repetition (some parameters) := hother
    simp [hnot]

/-- The contexts that are bound inside all edits of an element. -/
def allInside (edits : List Edit) (bound : List ContextId) : List ContextId :=
  edits.foldr boundInside bound

theorem mem_allInside : c ∈ allInside edits bound ↔ (∃ edit ∈ edits, edit.Binds c) ∨ c ∈ bound := by
  induction edits with
  | nil => simp [allInside]
  | cons edit rest ih =>
    have hcons : allInside (edit :: rest) bound = edit.boundInside (allInside rest bound) := rfl
    rw [hcons, mem_boundInside, ih]
    simp [or_assoc]

/-! ## The overrides of a list of edits -/

/-- The edit is about an attribute that no later edit is about. -/
def OverridesBefore (edit : Edit) (later : List Edit) : Prop :=
  ∃ name, edit.change = .attribute name ∧
    ∀ other ∈ later, ∀ name', other.change = .attribute name' → asciiLower name' ≠ asciiLower name

theorem mem_override {overrides : List (String × Var)} {pair : String × Var} :
    pair ∈ edit.override overrides ↔
      (pair ∈ overrides ∧ ∀ name, edit.change = .attribute name → asciiLower name ≠ pair.1) ∨
        ∃ name, edit.change = .attribute name ∧ pair = (asciiLower name, edit.var) := by
  unfold override
  split
  next name hchange => simp [hchange, eq_comm (a := asciiLower name)]
  next hother =>
    have hnot : ∀ name, edit.change ≠ .attribute name := hother
    simp [hnot]

/-- The overrides of a list of edits are the last ones of each name. -/
theorem mem_foldl_override {overrides : List (String × Var)} {pair : String × Var} :
    pair ∈ edits.foldl override overrides ↔
      (pair ∈ overrides ∧
        ∀ other ∈ edits, ∀ name, other.change = .attribute name → asciiLower name ≠ pair.1) ∨
      ∃ edit later name, edit :: later <:+ edits ∧ edit.change = .attribute name ∧
        pair = (asciiLower name, edit.var) ∧ edit.OverridesBefore later := by
  induction edits generalizing overrides with
  | nil => simp
  | cons first rest ih =>
    rw [List.foldl_cons, ih, mem_override, List.forall_mem_cons]
    constructor
    · rintro (⟨⟨hmem, hfirst⟩ | ⟨name, hchange, rfl⟩, hrest⟩ |
        ⟨edit, later, name, hsuffix, hchange, rfl, hlast⟩)
      · exact .inl ⟨hmem, hfirst, hrest⟩
      · exact .inr ⟨first, rest, name, List.suffix_refl _, hchange, rfl, name, hchange, hrest⟩
      · exact .inr ⟨edit, later, name, hsuffix.trans (List.suffix_cons _ _), hchange, rfl, hlast⟩
    · rintro (⟨hmem, hfirst, hrest⟩ | ⟨edit, later, name, hsuffix, hchange, rfl, hlast⟩)
      · exact .inl ⟨.inl ⟨hmem, hfirst⟩, hrest⟩
      · rcases List.suffix_cons_iff.mp hsuffix with heq | hsuffix
        · obtain ⟨rfl, rfl⟩ := List.cons.inj heq
          obtain ⟨name', hchange', hlast⟩ := hlast
          cases hchange.symm.trans hchange'
          exact .inl ⟨.inr ⟨name, hchange, rfl⟩, hlast⟩
        · exact .inr ⟨edit, later, name, hsuffix, hchange, rfl, hlast⟩

end Edit

/-! ## Attributes -/

namespace AttributePass

variable {bound : List ContextId}

theorem unbound?_fixed (name value : String) : (fixed name value).unbound? bound = none := rfl

theorem unbound?_given_eq_none {name : String} {var : Var} {otherwise : Option Template} :
    (given name var otherwise).unbound? bound = none ↔
      var.context ∈ bound ∧ ∀ item ∈ otherwise, item.unbound? bound = none := by
  simp [given, Condition.var]

/-- Every override is read, either where the source has the attribute or after it. -/
theorem unbound?_withOverrides_eq_none {plan : Plan} {tree : Tree} {element : Element}
    (helement : tree.element? plan.node = some element) (hdistinct : Edit.Distinct plan.overrides) :
    (withOverrides plan tree).unbound? bound = none ↔
      ∀ pair ∈ plan.overrides, pair.2.context ∈ bound := by
  simp only [withOverrides, helement, Template.unbound?_sequence_eq_none, List.mem_append, or_imp,
    forall_and, List.forall_mem_map]
  constructor
  · rintro ⟨hsource, hadded⟩ pair hpair
    cases hnamed : (element.attributes.map fun attr => tree.name attr.name.localName).any
        (eqIgnoringAsciiCase · pair.1) with
    | true =>
      obtain ⟨name, hname, heq⟩ := List.any_eq_true.mp hnamed
      obtain ⟨attr, hattr, rfl⟩ := List.mem_map.mp hname
      have hlower : asciiLower (tree.name attr.name.localName) = pair.1 := by
        have heq : asciiLower (tree.name attr.name.localName) = asciiLower pair.1 := by
          simpa [eqIgnoringAsciiCase] using heq
        rw [heq, hdistinct.lower hpair]
      have hoverride : plan.override? (tree.name attr.name.localName) = some pair.2 := by
        rw [hdistinct.override?_eq_some, hlower]
        exact hpair
      have hitem := hsource attr hattr
      simp only [overridden, hoverride, unbound?_given_eq_none] at hitem
      exact hitem.1
    | false =>
      have hitem := hadded (given pair.1 pair.2 none) (List.mem_map.mpr
        ⟨pair, List.mem_filter.mpr ⟨hpair, by simpa using hnamed⟩, rfl⟩)
      exact (unbound?_given_eq_none.mp hitem).1
  · intro hall
    refine ⟨fun attr _ => ?_, fun item hitem => ?_⟩
    · unfold overridden
      split
      next var hvar =>
        rw [hdistinct.override?_eq_some] at hvar
        exact unbound?_given_eq_none.mpr ⟨hall _ hvar, by simp [unbound?_fixed]⟩
      next => exact unbound?_fixed _ _
    · obtain ⟨pair, hpair, rfl⟩ := List.mem_map.mp hitem
      exact unbound?_given_eq_none.mpr ⟨hall _ (List.mem_filter.mp hpair).1, by simp⟩

end AttributePass

/-! ## One element -/

namespace Edit

variable {bound : List ContextId} {edits : List Edit}

theorem unbound?_foldl_wrapContent_eq_none {content : Template} :
    (edits.foldl wrapContent content).unbound? bound = none ↔
      content.unbound? bound = none ∧
        ∀ edit ∈ edits, edit.WrapsContent → edit.var.context ∈ bound := by
  induction edits generalizing content with
  | nil => simp
  | cons edit rest ih =>
    rw [List.foldl_cons, ih, unbound?_wrapContent_eq_none, List.forall_mem_cons, and_assoc]

/-- The element is inside all edits, and each edit is inside those after it. -/
theorem unbound?_foldl_wrapElement_eq_none {element : Template} :
    (edits.foldl wrapElement element).unbound? bound = none ↔
      element.unbound? (allInside edits bound) = none ∧
        ∀ edit later, edit :: later <:+ edits → edit.WrapsElement →
          edit.var.context ∈ allInside later bound := by
  induction edits generalizing element with
  | nil => simp [allInside]
  | cons first rest ih =>
    have hcons : allInside (first :: rest) bound = first.boundInside (allInside rest bound) := rfl
    rw [List.foldl_cons, ih, unbound?_wrapElement_eq_none, hcons, and_assoc]
    refine and_congr_right fun _ => ⟨?_, ?_⟩
    · rintro ⟨hfirst, hrest⟩ edit later hsuffix
      rcases List.suffix_cons_iff.mp hsuffix with heq | hsuffix
      · obtain ⟨rfl, rfl⟩ := List.cons.inj heq
        exact hfirst
      · exact hrest edit later hsuffix
    · intro hall
      exact ⟨hall first rest (List.suffix_refl _),
        fun edit later hsuffix => hall edit later (hsuffix.trans (List.suffix_cons _ _))⟩

/-- Every variable that the edits of an element read is bound, given the contexts that
    are bound around it. -/
structure AllBound (edits : List Edit) (bound : List ContextId) : Prop where
  around : ∀ edit later, edit :: later <:+ edits → edit.WrapsElement →
    edit.var.context ∈ allInside later bound
  inside : ∀ edit ∈ edits, edit.WrapsContent → edit.var.context ∈ allInside edits bound
  override : ∀ edit later, edit :: later <:+ edits → edit.OverridesBefore later →
    edit.var.context ∈ allInside edits bound

theorem unbound?_weave_eq_none {tag : String} {attributes inside : Template} :
    (weave edits tag attributes inside).unbound? bound = none ↔
      inside.unbound? (allInside edits bound) = none ∧
        attributes.unbound? (allInside edits bound) = none ∧
        (∀ edit later, edit :: later <:+ edits → edit.WrapsElement →
          edit.var.context ∈ allInside later bound) ∧
        ∀ edit ∈ edits, edit.WrapsContent → edit.var.context ∈ allInside edits bound := by
  rw [weave, unbound?_foldl_wrapElement_eq_none, Template.unbound?_element_eq_none,
    unbound?_foldl_wrapContent_eq_none]
  tauto

end Edit

namespace Declarations

variable {d : Declarations} {bound : List ContextId}

theorem unbound?_attributes_eq_none {id : NodeId} {element : Element}
    (helement : d.tree.element? id = some element) :
    (d.attributes .withOverrides id element).unbound? bound = none ↔
      ∀ edit later, edit :: later <:+ d.edits id → edit.OverridesBefore later →
        edit.var.context ∈ bound := by
  have hplan : d.tree.element? (Plan.ofEdits id (d.edits id)).node = some element := by
    simpa using helement
  have hdistinct : Edit.Distinct (Plan.ofEdits id (d.edits id)).overrides := by
    rw [Plan.overrides_ofEdits]
    exact Edit.distinct_foldl .nil _
  rw [attributes_eq .withOverrides helement,
    AttributePass.unbound?_withOverrides_eq_none hplan hdistinct, Plan.overrides_ofEdits]
  simp only [Edit.mem_foldl_override, List.not_mem_nil, false_and, false_or]
  constructor
  · rintro hall edit later hsuffix ⟨name, hchange, hlast⟩
    exact hall _ ⟨edit, later, name, hsuffix, hchange, rfl, name, hchange, hlast⟩
  · rintro hall pair ⟨edit, later, name, hsuffix, -, rfl, hlast⟩
    exact hall edit later hsuffix hlast

end Declarations

/-! ## The whole tree -/

/-- A node that the walk comes upon, with the nodes that it is inside of, the nearest
    first. -/
structure Place where
  id : NodeId
  content : Content
  above : List NodeId

namespace Branch

mutual

/-- The places of a branch that is itself inside of some nodes. -/
def places (above : List NodeId) : Branch → List Place
  | .node id content children =>
    ⟨id, content, above⟩ :: if content.holdsNodes then placesAll (id :: above) children else []

def placesAll (above : List NodeId) : List Branch → List Place
  | [] => []
  | branch :: rest => places above branch ++ placesAll above rest

end

theorem mem_placesAll {above : List NodeId} {branches : List Branch} {place : Place} :
    place ∈ placesAll above branches ↔ ∃ branch ∈ branches, place ∈ branch.places above := by
  induction branches with
  | nil => simp [placesAll]
  | cons branch rest ih => simp [placesAll, ih]

mutual

theorem map_places (above : List NodeId) (branch : Branch) :
    (branch.places above).map (fun place => (place.id, place.content)) =
      branch.visit Content.holdsNodes := by
  obtain ⟨id, content, children⟩ := branch
  rw [places, visit, List.map_cons]
  split
  · rw [map_placesAll]
  · rfl

theorem map_placesAll (above : List NodeId) (branches : List Branch) :
    (placesAll above branches).map (fun place => (place.id, place.content)) =
      visitAll Content.holdsNodes branches := by
  cases branches with
  | nil => rfl
  | cons branch rest =>
    rw [placesAll, visitAll, List.map_append, map_places above branch, map_placesAll above rest]

end

/-- The places of a branch are the ends of the trails that start from its node. -/
theorem mem_places {tree : Tree} {depth : Nat} {top : NodeId} {branch : Branch}
    (hbranch : tree.branchWithin depth top = some branch) {outer : List NodeId} {place : Place} :
    place ∈ branch.places outer ↔ ∃ above node, tree.Trail top above place.id ∧
      above.length < depth ∧ tree.get? place.id = some node ∧ place.content = node.content ∧
      place.above = above ++ outer := by
  induction depth generalizing top branch outer with
  | zero => cases hbranch
  | succ depth ih =>
    obtain ⟨found, hfound, rfl⟩ := Option.map_eq_some_iff.mp hbranch
    rw [places, List.mem_cons]
    constructor
    · rintro (rfl | hplace)
      · exact ⟨[], found, .top, Nat.succ_pos _, hfound, rfl, rfl⟩
      · split at hplace
        next hholds =>
          obtain ⟨child, hchild, hplace⟩ := mem_placesAll.mp hplace
          obtain ⟨first, hfirst, hchild⟩ := List.mem_filterMap.mp hchild
          obtain ⟨above, node, htrail, hlength, hnode, hcontent, habove⟩ := (ih hchild).mp hplace
          refine ⟨above ++ [top], node, htrail.extend hfound hholds hfirst, ?_, hnode, hcontent, ?_⟩
          · simpa using hlength
          · simpa using habove
        · cases hplace
    · rintro ⟨above, node, htrail, hlength, hnode, hcontent, habove⟩
      rcases htrail.eq_or_extend with ⟨rfl, htop⟩ |
        ⟨found', first, rest, hfound', hholds, hfirst, rfl, hrest⟩
      · obtain ⟨id, content, above⟩ := place
        obtain rfl := htop
        obtain rfl := Option.some.inj (hfound.symm.trans hnode)
        exact .inl (by simp_all)
      · obtain rfl := Option.some.inj (hfound.symm.trans hfound')
        rw [if_pos hholds, mem_placesAll]
        rw [List.length_append, List.length_singleton] at hlength
        obtain ⟨depth, rfl⟩ := Nat.exists_eq_succ_of_ne_zero (Nat.ne_of_gt (Nat.zero_lt_of_lt
          (Nat.lt_of_succ_lt_succ hlength)))
        obtain ⟨start, hstart⟩ := hrest.exists_top ⟨node, hnode⟩
        have hchild : tree.branchWithin (depth + 1) first = some _ :=
          Option.map_eq_some_iff.mpr ⟨start, hstart, rfl⟩
        refine .inr ⟨_, List.mem_filterMap.mpr ⟨first, hfirst, hchild⟩, (ih hchild).mpr ?_⟩
        exact ⟨rest, node, hrest, Nat.lt_of_succ_lt_succ hlength, hnode, hcontent,
          by simpa using habove⟩

end Branch

namespace Declarations

variable {d : Declarations} {bound : List ContextId} {c : ContextId}

/-- The contexts that are bound inside of some nodes, the nearest first. -/
def boundInside (d : Declarations) (above : List NodeId) (bound : List ContextId) :
    List ContextId :=
  above.foldr (fun id => Edit.allInside (d.edits id)) bound

theorem mem_boundInside {above : List NodeId} : c ∈ d.boundInside above bound ↔
    (∃ id ∈ above, ∃ edit ∈ d.edits id, edit.Binds c) ∨ c ∈ bound := by
  induction above with
  | nil => simp [boundInside]
  | cons id rest ih =>
    have hcons : d.boundInside (id :: rest) bound =
        Edit.allInside (d.edits id) (d.boundInside rest bound) := rfl
    rw [hcons, Edit.mem_allInside, ih]
    simp [or_assoc]

/-- The place is one that a template can hold, and the content is that of the tree. -/
def AdmitsPlace (d : Declarations) (place : Place) : Prop :=
  d.Admits place.id place.content ∧
    ∃ node, d.tree.get? place.id = some node ∧ node.content = place.content

mutual

/-- The variables of a branch are bound when those of each of its places are. -/
theorem unbound?_weave_eq_none (raw : Bool) (above : List NodeId) (branch : Branch)
    (hplaces : ∀ place ∈ branch.places above, d.AdmitsPlace place) :
    (d.weave .withOverrides raw branch).unbound? (d.boundInside above bound) = none ↔
      ∀ place ∈ branch.places above,
        Edit.AllBound (d.edits place.id) (d.boundInside place.above bound) := by
  obtain ⟨id, content, children⟩ := branch
  rw [Branch.places, List.forall_mem_cons] at hplaces ⊢
  obtain ⟨⟨hadmits, node, hnode, hcontent⟩, hchildren⟩ := hplaces
  have hinside : d.boundInside (id :: above) bound =
      Edit.allInside (d.edits id) (d.boundInside above bound) := rfl
  -- An element apart, nodes have no edits: nothing of theirs can be unbound.
  have hnone (hother : ∀ element, content ≠ .element element) : d.edits id = [] :=
    Compiler.edits_of_admits hadmits hother
  have hallBound (hedits : d.edits id = []) (bound : List ContextId) :
      Edit.AllBound (d.edits id) bound := by
    rw [hedits]
    exact ⟨by simp, by simp, by simp⟩
  cases content with
  | container =>
    have hholds : Content.container.holdsNodes = true := rfl
    rw [if_pos hholds, and_iff_right (hallBound (hnone nofun) _),
      ← unbound?_weaveAll_eq_none false _ children hchildren, hinside, hnone nofun]
    exact Template.unbound?_sequence_eq_none.trans Template.unboundAmong?_eq_none.symm
  | element element =>
    have helement : d.tree.element? id = some element := by
      simp [Tree.element?, hnode, hcontent, Content.element?]
    have hholds : (Content.element element).holdsNodes = true := rfl
    rw [if_pos hholds, ← unbound?_weaveAll_eq_none
        (Compiler.holdsRawText d.tree.names (.element element)) _ children hchildren, hinside,
      weave, weaveNode, Edit.unbound?_weave_eq_none, unbound?_attributes_eq_none helement]
    constructor
    · rintro ⟨hitems, hoverride, haround, hinside⟩
      exact ⟨⟨haround, hinside, hoverride⟩, hitems⟩
    · rintro ⟨⟨haround, hinside, hoverride⟩, hitems⟩
      exact ⟨hitems, hoverride, haround, hinside⟩
  | comment text => cases hadmits
  | instruction target text => cases hadmits
  | _ =>
    simp only [hallBound (hnone nofun), true_and]
    exact iff_of_true rfl nofun

theorem unbound?_weaveAll_eq_none (raw : Bool) (above : List NodeId) (branches : List Branch)
    (hplaces : ∀ place ∈ Branch.placesAll above branches, d.AdmitsPlace place) :
    Template.unboundAmong? (d.weaveAll .withOverrides raw branches) (d.boundInside above bound) =
        none ↔
      ∀ place ∈ Branch.placesAll above branches,
        Edit.AllBound (d.edits place.id) (d.boundInside place.above bound) := by
  cases branches with
  | nil => exact iff_of_true rfl nofun
  | cons branch rest =>
    rw [Branch.placesAll, List.forall_mem_append] at hplaces ⊢
    rw [weaveAll, Template.unboundAmong?_eq_none, List.forall_mem_cons,
      ← Template.unboundAmong?_eq_none, unbound?_weave_eq_none raw above branch hplaces.1,
      unbound?_weaveAll_eq_none raw above rest hplaces.2]

end

/-! ## Trees that are built -/

section Built

variable (hbuilt : d.tree.Built)
include hbuilt

/-- The walk comes upon the places at the ends of the trails from the container. -/
theorem exists_branch : ∃ branch, d.tree.branch? Tree.root = some branch ∧
    ∀ place, place ∈ branch.places [] ↔ d.tree.Trail Tree.root place.above place.id ∧
      ∃ node, d.tree.get? place.id = some node ∧ node.content = place.content := by
  obtain ⟨first, hfirst⟩ := hbuilt.container.1
  obtain ⟨size, hsize⟩ := Nat.exists_eq_succ_of_ne_zero
    (Nat.ne_of_gt (Nat.zero_lt_of_lt (Tree.lt_of_get? hfirst)))
  have hbranch : d.tree.branchWithin (size + 1) Tree.root = some _ :=
    Option.map_eq_some_iff.mpr ⟨first, hfirst, rfl⟩
  refine ⟨_, (congrArg (d.tree.branchWithin · Tree.root) hsize).trans hbranch, fun place => ?_⟩
  rw [Branch.mem_places hbranch]
  constructor
  · rintro ⟨above, node, htrail, -, hnode, hcontent, habove⟩
    rw [List.append_nil] at habove
    exact ⟨habove ▸ htrail, node, hnode, hcontent.symm⟩
  · rintro ⟨htrail, node, hnode, hcontent⟩
    have hlength := hbuilt.linked.length_path_lt ⟨first, hfirst⟩ htrail.path
    exact ⟨place.above, node, htrail, Nat.lt_of_lt_of_eq hlength hsize, hnode, hcontent.symm,
      (List.append_nil _).symm⟩

/-- The walk comes upon the nodes that belong to the document. -/
theorem mem_visited {id : NodeId} {content : Content} : (id, content) ∈ d.visited ↔
    d.tree.Holds id ∧ ∃ node, d.tree.get? id = some node ∧ node.content = content := by
  obtain ⟨branch, hbranch, hplaces⟩ := exists_branch hbuilt
  have hvisited : d.visited = branch.visit Content.holdsNodes := by rw [visited, hbranch]
  rw [hvisited, ← branch.map_places [], List.mem_map]
  constructor
  · rintro ⟨place, hplace, heq⟩
    cases heq
    obtain ⟨htrail, hnode⟩ := (hplaces place).mp hplace
    exact ⟨⟨place.above, htrail⟩, hnode⟩
  · rintro ⟨⟨above, htrail⟩, hnode⟩
    exact ⟨⟨id, content, above⟩, (hplaces _).mpr ⟨htrail, hnode⟩, rfl⟩

/-- The variables of the template are bound when those of each node are that belongs to
    the document. -/
theorem unbound?_woven_eq_none (hadmits : ∀ node ∈ d.visited, d.Admits node.1 node.2) :
    (d.woven .withOverrides).unbound? bound = none ↔ ∀ above id, d.tree.Trail Tree.root above id →
      Edit.AllBound (d.edits id) (d.boundInside above bound) := by
  obtain ⟨branch, hbranch, hplaces⟩ := exists_branch hbuilt
  have hall : ∀ place ∈ branch.places [], d.AdmitsPlace place := by
    intro place hplace
    obtain ⟨htrail, hnode⟩ := (hplaces place).mp hplace
    exact ⟨hadmits _ ((mem_visited hbuilt).mpr ⟨⟨place.above, htrail⟩, hnode⟩), hnode⟩
  have hwoven : d.woven .withOverrides = d.weave .withOverrides false branch := by
    rw [woven, hbranch]
  rw [hwoven]
  refine (unbound?_weave_eq_none false [] branch hall).trans ?_
  simp only [hplaces]
  constructor
  · intro hbound above id htrail
    obtain ⟨node, hnode⟩ := (hbuilt.linked.nodup_path hbuilt.container.1 htrail.path).2 id
      List.mem_cons_self
    exact hbound ⟨id, node.content, above⟩ ⟨htrail, node, hnode, rfl⟩
  · rintro hbound place ⟨htrail, -⟩
    exact hbound _ _ htrail

end Built

end Declarations

end HtmlTemplate
