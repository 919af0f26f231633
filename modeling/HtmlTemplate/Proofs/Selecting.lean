-- SUMMARY: Searching for a selector answers the elements that it means, in document order.
import HtmlTemplate.Proofs.Declarations.Placed
import HtmlTemplate.Proofs.Selecting.Meaning
import HtmlTemplate.Proofs.Tree.Order

/-!
# Selecting

A search compares places in the table of names, and goes from the subject of an
alternative to the left, with all elements that a combinator may lead to. What it finds
is what the selector means: the elements at the end of a `Tree.Chain`. The tests of one
element come first, then the elements that a combinator leads to, then alternatives.
-/

namespace HtmlTemplate

open Selector

namespace Tree

variable {tree : Tree} {top id parent : NodeId} {element : Element}

/-! ## Names -/

section Names

variable (hnames : tree.names.entries.Nodup) {name : String} (hname : name ≠ "")
include hnames hname

/-- The place of a class among the names is where its name is. -/
theorem any_hasClass : (tree.names.lookup? name).any element.hasClass = true ↔
    ∃ own ∈ element.classes, tree.name own = name := by
  simp only [Option.any_eq_true, Element.hasClass, List.contains_iff_mem, Tree.name,
    Names.lookup?_eq_some_of_ne hnames hname, and_comm]

theorem attribute?_eq (helement : tree.element? id = some element) :
    tree.attribute? id name = tree.namedValue? element name := by
  have hsame (own : NameId) : (tree.name own == name) = (tree.names.lookup? name == some own) := by
    rw [Bool.eq_iff_iff, beq_iff_eq, beq_iff_eq]
    exact (Names.lookup?_eq_some_of_ne hnames hname).symm
  simp only [attribute?, namedValue?, helement, Option.bind_some, hsame]
  cases tree.names.lookup? name with
  | none =>
    have hnone : element.attributes.find? (fun _ => false) = none :=
      List.find?_eq_none.mpr fun _ _ => Bool.false_ne_true
    simp [hnone]
  | some place => simp only [Option.bind_some, Element.attribute?, Option.some_beq_some, BEq.comm]

end Names

/-! ## One element -/

/-- The position of an element among its peers. -/
theorem place_eq (h : tree.Linked tree.children) {before after : List NodeId} (ofType : Bool)
    (helement : tree.isElement id = true)
    (hchildren : tree.children parent = before ++ id :: after) :
    tree.place ofType id = ((before.filter (tree.isPeer ofType id)).length + 1,
      ((tree.children parent).filter (tree.isPeer ofType id)).length) := by
  have hmem : id ∈ tree.children parent := by simp [hchildren]
  obtain ⟨node, hnode⟩ := h.get?_child hmem
  have hparent : tree.parent? id = some parent := by simp [parent?, hnode, h.parent hnode, hmem]
  have hpeers : ((tree.elementChildren parent).filter fun sibling =>
      !ofType || tree.tag? sibling == tree.tag? id) =
        (tree.children parent).filter (tree.isPeer ofType id) := by
    simp only [elementChildren, List.filter_filter, Bool.and_comm]
    rfl
  have hself : tree.isPeer ofType id id = true := by simp [isPeer, helement]
  have hnot : id ∉ before := by
    have hnodup := h.nodup parent
    rw [hchildren, List.nodup_append] at hnodup
    exact fun hbefore => hnodup.2.2 id hbefore id List.mem_cons_self rfl
  have hindex : ((tree.children parent).filter (tree.isPeer ofType id)).idxOf? id =
      some (before.filter (tree.isPeer ofType id)).length := by
    rw [hchildren, List.filter_append, List.filter_cons_of_pos hself, List.idxOf?_eq_some_iff]
    refine ⟨by simp, by simp, fun j hj => ?_⟩
    rw [List.getElem_append_left hj]
    intro heq
    exact hnot (List.mem_filter.mp (heq ▸ List.getElem_mem hj)).1
  simp only [place, hparent, hpeers, hindex, Option.elim_some]

mutual

/-- A test that is named holds of an element when the element is as the test asks. -/
theorem satisfies_iff (h : tree.Linked tree.children) (hnames : tree.names.entries.Nodup)
    (hparent : id ∈ tree.children parent)
    (helement : tree.element? id = some element) (test : Simple) (hnamed : test.IsNamed) :
    tree.satisfies id element test = true ↔ tree.Meets id element test := by
  cases test with
  | any => simp [satisfies, Meets]
  | tag name => simp [satisfies, Meets, eqIgnoringAsciiCase]
  | id name => simp [satisfies, Meets, Option.any_eq_true]
  | className name => exact any_hasClass hnames hnamed
  | attr test =>
    rw [satisfies, Meets, attribute?_eq hnames hnamed helement]
  | root =>
    obtain ⟨node, hnode⟩ := h.get?_child hparent
    simp [satisfies, Meets, parent?, hnode, h.parent hnode]
  | empty => simp [satisfies, Meets]
  | position ofType position =>
    have hisElement : tree.isElement id = true := by simp [isElement, helement]
    rw [satisfies, Meets]
    constructor
    · intro hholds
      obtain ⟨before, after, hchildren⟩ := List.append_of_mem hparent
      rw [place_eq h ofType hisElement hchildren] at hholds
      exact ⟨parent, before, after, hchildren, hholds⟩
    · rintro ⟨parent, before, after, hchildren, hholds⟩
      rw [place_eq h ofType hisElement hchildren]
      exact hholds
  | not compound =>
    rw [satisfies, Meets, ← satisfiesAll_iff h hnames hparent helement compound hnamed]
    simp

theorem satisfiesAll_iff (h : tree.Linked tree.children) (hnames : tree.names.entries.Nodup)
    (hparent : id ∈ tree.children parent)
    (helement : tree.element? id = some element) (compound : Compound)
    (hnamed : AllNamed compound) :
    tree.satisfiesAll id element compound = true ↔ tree.MeetsAll id element compound := by
  cases compound with
  | nil => simp [satisfiesAll, MeetsAll]
  | cons test rest =>
    rw [satisfiesAll, MeetsAll, Bool.and_eq_true, satisfies_iff h hnames hparent helement test hnamed.1,
      satisfiesAll_iff h hnames hparent helement rest hnamed.2]

end

theorem fits_iff (h : tree.Linked tree.children) (hnames : tree.names.entries.Nodup)
    (hparent : id ∈ tree.children parent) {compound : Compound}
    (hnamed : AllNamed compound) : tree.fits id compound = true ↔ tree.Satisfies id compound := by
  unfold fits Satisfies
  cases helement : tree.element? id with
  | none => simp
  | some element =>
    simp only [Option.some.injEq, exists_eq_left']
    exact satisfiesAll_iff h hnames hparent helement compound hnamed

/-! ## The elements that a combinator leads to -/

namespace Linked

variable (h : tree.Linked tree.children) {first : NodeId}
include h

/-- The parent is gone to if it is an element strictly below the top. -/
theorem parentBelow?_eq_some (hbelow : tree.Below top id) :
    tree.parentBelow? top id = some parent ↔
      id ∈ tree.children parent ∧ tree.isElement parent = true ∧ tree.Below top parent := by
  obtain ⟨parent', hwithin, hchild⟩ := below_iff.mp hbelow
  obtain ⟨node, hnode⟩ := h.get?_child hchild
  have hlink : tree.parent? id = some parent' := by simp [parent?, hnode, h.parent hnode, hchild]
  simp only [parentBelow?, hlink, Option.filter_some, Bool.and_eq_true, decide_eq_true_eq]
  constructor
  · intro heq
    split at heq
    next hkeep =>
      obtain rfl := Option.some.inj heq
      exact ⟨hchild, hkeep.2, hwithin.eq_or_below.resolve_left hkeep.1⟩
    · cases heq
  · rintro ⟨hchild', helement, hbelow'⟩
    obtain rfl := h.parent_unique hchild hchild'
    have hne : parent' ≠ top := by
      rintro rfl
      exact h.not_below_self parent' hbelow'
    rw [if_pos ⟨hne, helement⟩]

/-- The elements around an element are those that it stands inside. -/
theorem mem_ancestorsWithin {above : List NodeId} (hpath : tree.Path top above id)
    (hbelow : tree.Below top id) {steps : Nat} (hsteps : above.length ≤ steps) :
    first ∈ tree.ancestorsWithin top steps id ↔
      tree.Stands .descendant first id ∧ tree.Below top first := by
  induction steps generalizing id above with
  | zero =>
    cases hpath with
    | top => exact absurd hbelow (h.not_below_self _)
    | child => cases hsteps
  | succ steps ih =>
    cases hpath with
    | top => exact absurd hbelow (h.not_below_self _)
    | @child above parent _ hpath hchild =>
      rw [ancestorsWithin]
      cases hparent : tree.parentBelow? top id with
      | none =>
        simp only [List.not_mem_nil, false_iff, not_and]
        intro hstands hfirst
        obtain ⟨parent', hreach, helement, hchild'⟩ := Relation.TransGen.tail'_iff.mp hstands
        have hwithin : tree.Within first parent' :=
          within_iff.mpr (hreach.lift (fun node => node) fun _ _ hstep => hstep.2)
        have hsome := (h.parentBelow?_eq_some hbelow).mpr
          ⟨hchild', helement, Below.trans_within hfirst hwithin⟩
        rw [hparent] at hsome
        cases hsome
      | some parent' =>
        obtain ⟨hchild', helement, hbelow'⟩ := (h.parentBelow?_eq_some hbelow).mp hparent
        obtain rfl := h.parent_unique hchild hchild'
        dsimp only
        rw [List.mem_cons, ih hpath hbelow' (Nat.le_of_succ_le_succ hsteps)]
        constructor
        · rintro (rfl | ⟨hstands, hfirst⟩)
          · exact ⟨.single ⟨helement, hchild⟩, hbelow'⟩
          · exact ⟨.tail hstands ⟨helement, hchild⟩, hfirst⟩
        · rintro ⟨hstands, hfirst⟩
          obtain ⟨parent', hreach, -, hchild'⟩ := Relation.TransGen.tail'_iff.mp hstands
          obtain rfl := h.parent_unique hchild hchild'
          exact (Relation.reflTransGen_iff_eq_or_transGen.mp hreach).imp Eq.symm fun hstands =>
            ⟨hstands, hfirst⟩

/-- Going back from a node passes the siblings in front of it. -/
theorem siblingsBefore_eq {i steps : Nat} (hi : (tree.children parent)[i]? = some id)
    (hsteps : i ≤ steps) :
    tree.siblingsBefore steps id = ((tree.children parent).take i).reverse := by
  induction steps generalizing i id with
  | zero =>
    obtain rfl := Nat.le_zero.mp hsteps
    rfl
  | succ steps ih =>
    obtain ⟨node, hnode⟩ := h.get?_child (List.mem_of_getElem? hi)
    simp only [siblingsBefore, hnode, Option.bind_some, h.prevSibling hnode hi]
    cases i with
    | zero => rfl
    | succ i =>
      have hlt : i < (tree.children parent).length :=
        Nat.lt_of_succ_lt (List.getElem?_eq_some_iff.mp hi).1
      have hprev : (tree.children parent)[i]? = some (tree.children parent)[i] :=
        List.getElem?_eq_getElem hlt
      obtain ⟨prev, hnodePrev⟩ := h.get?_child (List.getElem_mem hlt)
      simp only [Nat.succ_ne_zero, if_false, Nat.add_sub_cancel, hprev, hnodePrev,
        Option.isSome_some, if_true, ih hprev (Nat.le_of_succ_le_succ hsteps),
        List.take_succ_eq_append_getElem hlt, List.reverse_append, List.reverse_singleton,
        List.singleton_append]

/-- The elements in front of a child. -/
theorem elementsBefore_eq {before after : List NodeId}
    (hchildren : tree.children parent = before ++ id :: after) :
    tree.elementsBefore id = before.reverse.filter tree.isElement := by
  have hi : (tree.children parent)[before.length]? = some id := by simp [hchildren]
  have hlength : before.length ≤ tree.size := by
    have hall := length_le_size (h.nodup parent) fun _ hc => h.get?_child hc
    rw [hchildren, List.length_append] at hall
    omega
  have htake : (tree.children parent).take before.length = before := by simp [hchildren]
  rw [elementsBefore, h.siblingsBefore_eq hi hlength, htake]

/-- A node stands at one place among the children of one node. -/
theorem eq_of_children_eq {parent' : NodeId} {before after before' after' : List NodeId}
    (hchildren : tree.children parent = before ++ id :: after)
    (hchildren' : tree.children parent' = before' ++ id :: after') :
    parent = parent' ∧ before = before' := by
  have hmem : id ∈ tree.children parent := by simp [hchildren]
  have hmem' : id ∈ tree.children parent' := by simp [hchildren']
  obtain rfl := h.parent_unique hmem hmem'
  have hnodup := h.nodup parent
  rw [hchildren, List.nodup_append, List.nodup_cons] at hnodup
  have hbefore : id ∉ before := fun hid => hnodup.2.2 id hid id List.mem_cons_self rfl
  exact ⟨rfl, ((List.append_cons_inj_of_notMem hbefore hnodup.2.1.1).mp
    (hchildren.symm.trans hchildren')).1⟩

/-- A combinator leads to the elements below the top that stand as it says. -/
theorem mem_reached (hbelow : tree.Below top id) (combinator : Combinator) :
    first ∈ tree.reached top id combinator ↔
      tree.Stands combinator first id ∧ tree.isElement first = true ∧ tree.Below top first := by
  obtain ⟨parent, hwithin, hchild⟩ := below_iff.mp hbelow
  obtain ⟨before, after, hchildren⟩ := List.append_of_mem hchild
  have hsibling (hfirst : first ∈ before) : tree.Below top first :=
    .child hwithin (by simp [hchildren, hfirst])
  cases combinator with
  | descendant =>
    obtain ⟨above, hpath⟩ := hbelow.within.exists_path
    obtain ⟨child, hchild, -⟩ := Relation.TransGen.head'_iff.mp hbelow
    have hlength := h.length_path_lt (h.get?_parent hchild) hpath
    rw [reached, ancestorsBelow, h.mem_ancestorsWithin hpath hbelow (Nat.le_of_lt hlength)]
    constructor
    · rintro ⟨hstands, hfirst⟩
      obtain ⟨child, hstep, -⟩ := Relation.TransGen.head'_iff.mp hstands
      exact ⟨hstands, hstep.1, hfirst⟩
    · rintro ⟨hstands, -, hfirst⟩
      exact ⟨hstands, hfirst⟩
  | child =>
    rw [reached, Option.mem_toList, h.parentBelow?_eq_some hbelow]
    rfl
  | nextSibling =>
    rw [reached, Option.mem_toList, h.elementsBefore_eq hchildren,
      List.head?_filter, List.find?_eq_some_iff_append]
    constructor
    · rintro ⟨helement, between, rest, hbefore, hbetween⟩
      have hsplit : before = rest.reverse ++ first :: between.reverse := by
        rw [← List.reverse_reverse before, hbefore]
        simp
      refine ⟨⟨parent, rest.reverse, between.reverse, after, ?_, ?_⟩, helement, ?_⟩
      · rw [hchildren, hsplit]
      · simpa using hbetween
      · exact hsibling (by simp [hsplit])
    · rintro ⟨⟨parent', rest, between, after', hchildren', hbetween⟩, helement, -⟩
      obtain ⟨rfl, rfl⟩ := h.eq_of_children_eq hchildren hchildren'
      exact ⟨helement, between.reverse, rest.reverse, by simp, by simpa using hbetween⟩
  | laterSibling =>
    rw [reached, h.elementsBefore_eq hchildren, List.mem_filter, List.mem_reverse]
    constructor
    · rintro ⟨hfirst, helement⟩
      obtain ⟨rest, between, hsplit⟩ := List.append_of_mem hfirst
      exact ⟨⟨parent, rest, between, after, by rw [hchildren, hsplit]⟩, helement, hsibling hfirst⟩
    · rintro ⟨⟨parent', rest, between, after', hchildren'⟩, helement, -⟩
      obtain ⟨rfl, rfl⟩ := h.eq_of_children_eq hchildren hchildren'
      exact ⟨by simp, helement⟩

end Linked

/-! ## Alternatives and selectors -/

/-- The last element of a chain is an element strictly below the top. -/
theorem Chain.last {complex : Selector.Complex} {elements : List NodeId}
    (hchain : tree.Chain top complex elements) (hlast : elements.getLast? = some id) :
    tree.isElement id = true ∧ tree.Below top id := by
  have hisElement {id : NodeId} {subject : Compound} (hsubject : tree.Satisfies id subject) :
      tree.isElement id = true := by
    obtain ⟨element, helement, -⟩ := hsubject
    simp [isElement, helement]
  cases hchain with
  | single hbelow hsubject =>
    obtain rfl : _ = id := by simpa using hlast
    exact ⟨hisElement hsubject, hbelow⟩
  | combined _ _ _ hbelow hsubject =>
    obtain rfl : _ = id := by simpa using hlast
    exact ⟨hisElement hsubject, hbelow⟩

section Selectors

variable (h : tree.Linked tree.children) (hnames : tree.names.entries.Nodup)
include h hnames

/-- Going from the subject to the left, all elements are tried that a chain may have. -/
theorem fitsComplex_iff (hbelow : tree.Below top id) {complex : Selector.Complex}
    (hnamed : complex.IsNamed) :
    tree.fitsComplex top complex id = true ↔
      ∃ elements, tree.Chain top complex elements ∧ elements.getLast? = some id := by
  have hchild {id : NodeId} (hbelow : tree.Below top id) : ∃ parent, id ∈ tree.children parent := by
    obtain ⟨parent, -, hchild⟩ := below_iff.mp hbelow
    exact ⟨parent, hchild⟩
  induction complex generalizing id with
  | single subject =>
    obtain ⟨parent, hparent⟩ := hchild hbelow
    rw [fitsComplex, fits_iff h hnames hparent hnamed]
    constructor
    · exact fun hsubject => ⟨[id], .single hbelow hsubject, rfl⟩
    · rintro ⟨elements, hchain, hlast⟩
      cases hchain with
      | single hbelow hsubject =>
        obtain rfl : _ = id := by simpa using hlast
        exact hsubject
  | combined left combinator subject ih =>
    obtain ⟨parent, hparent⟩ := hchild hbelow
    rw [fitsComplex, Bool.and_eq_true, fits_iff h hnames hparent hnamed.2, List.any_eq_true]
    constructor
    · rintro ⟨hsubject, first, hfirst, hfits⟩
      obtain ⟨hstands, -, hbelow'⟩ := (h.mem_reached hbelow combinator).mp hfirst
      obtain ⟨elements, hchain, hlast⟩ := (ih hbelow' hnamed.1).mp hfits
      exact ⟨elements ++ [id], .combined hchain hlast hstands hbelow hsubject, by simp⟩
    · rintro ⟨elements, hchain, hlast⟩
      cases hchain with
      | combined hchain hlast' hstands _ hsubject =>
        obtain rfl : _ = id := by simpa using hlast
        obtain ⟨helement, hbelow'⟩ := hchain.last hlast'
        exact ⟨hsubject, _, (h.mem_reached hbelow combinator).mpr ⟨hstands, helement, hbelow'⟩,
          (ih hbelow' hnamed.1).mpr ⟨_, hchain, hlast'⟩⟩

theorem mem_select {selector : Selector} (hnamed : ∀ complex ∈ selector, complex.IsNamed) :
    id ∈ tree.select top selector ↔ tree.Means top selector id := by
  simp only [select, List.mem_filter, h.mem_descendants, fitsSelector, Bool.and_eq_true,
    List.any_eq_true]
  constructor
  · rintro ⟨hbelow, -, complex, hcomplex, hfits⟩
    exact ⟨complex, hcomplex, (fitsComplex_iff h hnames hbelow (hnamed complex hcomplex)).mp hfits⟩
  · rintro ⟨complex, hcomplex, elements, hchain, hlast⟩
    obtain ⟨helement, hbelow⟩ := hchain.last hlast
    exact ⟨hbelow, helement, complex, hcomplex,
      (fitsComplex_iff h hnames hbelow (hnamed complex hcomplex)).mpr ⟨elements, hchain, hlast⟩⟩

/-- Searching a tree, whose links are in order, for a selector that was read: the answer
    is the elements that the selector means, in document order and each once, and the
    first of them when only one is asked for. -/
theorem select_parse {text : String} {selector : Selector}
    (hparse : Selector.parse text = .ok selector) (top : NodeId) :
    (∀ id, id ∈ tree.select top selector ↔ tree.Means top selector id) ∧
      (tree.select top selector).Pairwise tree.Precedes ∧
      (tree.select top selector).Nodup ∧
      tree.selectFirst? top selector = (tree.select top selector).head? := by
  have hpairwise : (tree.select top selector).Pairwise tree.Precedes :=
    (h.pairwise_descendants top).filter _
  refine ⟨fun id => mem_select h hnames (isNamed_parse hparse), hpairwise, ?_, ?_⟩
  · refine hpairwise.imp ?_
    rintro first second hprecedes rfl
    exact h.not_precedes_self first hprecedes
  · rw [select, selectFirst?, List.head?_filter]

end Selectors

/-- The paragraph in the section is all that is found. -/
theorem select_parse_section :
    let selector : Selector := [.combined (.single [.tag "section"]) .child [.tag "p"]]
    Document.sectionTree.Means root selector ⟨2⟩ ∧
      Document.sectionTree.selectFirst? root selector = some ⟨2⟩ := by
  intro selector
  have hparse : Selector.parse "section > p" = .ok selector := rfl
  obtain ⟨hmeans, -, -, hfirst⟩ := select_parse Document.built_sectionTree.linked
    Document.built_sectionTree.nodup_names hparse root
  exact ⟨(hmeans ⟨2⟩).mp List.mem_cons_self, hfirst⟩

/-- A tree with a paragraph inside a text. -/
def divTree : Tree :=
  let (tree, outer) := Tree.empty.createElement "div"
  let (tree, text) := tree.create (.text "a")
  let (tree, inner) := tree.createElement "p"
  ((tree.append root (some outer)).append outer (some text)).append text (some inner)

/-- Ancestors are not looked for beyond a text: the paragraph is inside the division, and
    yet it is not found. -/
theorem select_inside_text :
    divTree.Linked divTree.children ∧ divTree.Below root ⟨1⟩ ∧ divTree.Below ⟨1⟩ ⟨3⟩ ∧
      divTree.Satisfies ⟨1⟩ [.tag "div"] ∧ divTree.Satisfies ⟨3⟩ [.tag "p"] ∧
      Selector.parse "div p" = .ok [.combined (.single [.tag "div"]) .descendant [.tag "p"]] ∧
      divTree.select root [.combined (.single [.tag "div"]) .descendant [.tag "p"]] = [] := by
  have htext : Content.text "a" ≠ .container := nofun
  have hnodes := ((Built.empty.createElement "div").create htext).createElement "p"
  have hbuilt : divTree.Built := ((hnodes.appendLeaf root ⟨1⟩ rfl rfl rfl (by decide)).appendLeaf
    ⟨1⟩ ⟨2⟩ rfl rfl rfl (by decide)).appendLeaf ⟨2⟩ ⟨3⟩ rfl rfl rfl (by decide)
  refine ⟨hbuilt.linked, .single ?_, .tail (.single (b := ⟨2⟩) ?_) ?_, ⟨_, rfl, rfl, trivial⟩,
    ⟨_, rfl, rfl, trivial⟩, rfl, rfl⟩
  all_goals decide

end Tree

end HtmlTemplate
