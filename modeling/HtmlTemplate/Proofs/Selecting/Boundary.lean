-- SUMMARY: What an element is tested with is below the node of the search, if the element itself is.
import HtmlTemplate.Proofs.Selecting
import HtmlTemplate.Proofs.Tree.Building

/-!
# The boundary of a search

An element can be tested against a selector from any node. When it lies below that node, so
does every element that a combinator leads to. When it does not, the node bounds nothing:
the way to the ancestors never comes to it, siblings are not compared with it, and the test
is the one that a tree without boundary would give. `Tree.ChainTo` is what such a test finds.
-/

namespace HtmlTemplate

open Selector

namespace Tree

variable {tree : Tree} {top id first parent : NodeId}

/-- Elements in front of a last one, one for each compound of an alternative, each standing
    to the next one as the combinator between their compounds says, wherever they are. -/
inductive ChainTo (tree : Tree) : Selector.Complex → List NodeId → NodeId → Prop where
  | single {subject : Compound} {id : NodeId} (hsubject : tree.fits id subject = true) :
      ChainTo tree (.single subject) [] id
  | combined {left : Selector.Complex} {combinator : Combinator} {subject : Compound}
      {others : List NodeId} {first id : NodeId} (h : ChainTo tree left others first)
      (hstands : tree.Stands combinator first id) (hsubject : tree.fits id subject = true) :
      ChainTo tree (.combined left combinator subject) (others ++ [first]) id

theorem isElement_of_fits {subject : Compound} (hsubject : tree.fits id subject = true) :
    tree.isElement id = true := by
  unfold fits at hsubject
  unfold isElement
  cases helement : tree.element? id with
  | none => simp [helement] at hsubject
  | some element => rfl

theorem ChainTo.isElement {complex : Selector.Complex} {others : List NodeId}
    (h : tree.ChainTo complex others id) : tree.isElement id = true := by
  cases h with
  | single hsubject => exact isElement_of_fits hsubject
  | combined _ _ hsubject => exact isElement_of_fits hsubject

/-- The node ends a chain for one of the alternatives, and all others of the chain are
    strictly below `top`. -/
def Witnessed (tree : Tree) (top : NodeId) (selector : Selector) (id : NodeId) : Prop :=
  ∃ complex ∈ selector, ∃ others, tree.ChainTo complex others id ∧
    ∀ other ∈ others, tree.Below top other

/-! ## The elements that a combinator leads to -/

/-- Siblings are children of one node. -/
theorem Stands.exists_parent {combinator : Combinator} (hstands : tree.Stands combinator first id)
    (hsibling : combinator = .nextSibling ∨ combinator = .laterSibling) :
    ∃ parent, first ∈ tree.children parent ∧ id ∈ tree.children parent := by
  obtain rfl | rfl := hsibling
  · obtain ⟨parent, before, between, after, hchildren, -⟩ := hstands
    exact ⟨parent, by simp [hchildren], by simp [hchildren]⟩
  · obtain ⟨parent, before, between, after, hchildren⟩ := hstands
    exact ⟨parent, by simp [hchildren], by simp [hchildren]⟩

theorem Stands.below (hstands : tree.Stands .descendant first id) : tree.Below first id :=
  hstands.lift (fun node => node) fun _ _ hstep => hstep.2

namespace Linked

variable (h : tree.Linked tree.children)
include h

/-- To the right, what combinators lead to stays below a node. -/
theorem below_of_stands {combinator : Combinator} (hstands : tree.Stands combinator first id)
    (hfirst : tree.Below top first) : tree.Below top id := by
  have hbeside (hsibling : combinator = .nextSibling ∨ combinator = .laterSibling) :
      tree.Below top id := by
    obtain ⟨parent, hchild, hid⟩ := hstands.exists_parent hsibling
    obtain ⟨parent', hwithin, hchild'⟩ := below_iff.mp hfirst
    obtain rfl := h.parent_unique hchild hchild'
    exact .child hwithin hid
  cases combinator with
  | descendant => exact hfirst.trans hstands.below
  | child => exact hfirst.tail hstands
  | nextSibling => exact hbeside (.inl rfl)
  | laterSibling => exact hbeside (.inr rfl)

/-- The walk to the ancestors passes elements alone. -/
theorem stands_of_mem_ancestorsWithin {steps : Nat}
    (hmem : first ∈ tree.ancestorsWithin top steps id) : tree.Stands .descendant first id := by
  induction steps generalizing id with
  | zero => cases hmem
  | succ steps ih =>
    rw [ancestorsWithin] at hmem
    cases hparent : tree.parentBelow? top id with
    | none =>
      rw [hparent] at hmem
      cases hmem
    | some parent =>
      obtain ⟨hlink, hkeep⟩ := Option.filter_eq_some_iff.mp hparent
      have hstep : tree.isElement parent = true ∧ id ∈ tree.children parent :=
        ⟨(Bool.and_eq_true_iff.mp hkeep).2, h.parent?_eq_some.mp hlink⟩
      rw [hparent, List.mem_cons] at hmem
      obtain rfl | hmem := hmem
      · exact .single hstep
      · exact .tail (ih hmem) hstep

section Outside

variable (hnot : ¬ tree.Below top id)
include hnot

/-- From outside, the parent is gone to if it is an element. -/
theorem parentBelow?_outside :
    tree.parentBelow? top id = some parent ↔
      id ∈ tree.children parent ∧ tree.isElement parent = true := by
  rw [parentBelow?, Option.filter_eq_some_iff, h.parent?_eq_some, Bool.and_eq_true,
    decide_eq_true_eq]
  refine and_congr_right fun hchild => and_iff_right ?_
  rintro rfl
  exact hnot (.single hchild)

/-- From outside, the walk to the ancestors passes all that are reached through elements. -/
theorem mem_ancestorsWithin_outside {above : List NodeId} (hpath : tree.Path first above id)
    (hstands : tree.Stands .descendant first id) {steps : Nat} (hsteps : above.length ≤ steps) :
    first ∈ tree.ancestorsWithin top steps id := by
  induction hpath generalizing steps with
  | top => exact absurd hstands.below (h.not_below_self _)
  | @child above parent id hpath hchild ih =>
    obtain ⟨steps, rfl⟩ := Nat.exists_eq_succ_of_ne_zero (Nat.ne_zero_of_lt hsteps)
    obtain ⟨parent', hreach, helement, hchild'⟩ := Relation.TransGen.tail'_iff.mp hstands
    obtain rfl := h.parent_unique hchild hchild'
    rw [ancestorsWithin, (h.parentBelow?_outside hnot).mpr ⟨hchild, helement⟩, List.mem_cons]
    obtain rfl | hstands := Relation.reflTransGen_iff_eq_or_transGen.mp hreach
    · exact .inl rfl
    · have hnot' : ¬ tree.Below top parent := fun hbelow => hnot (hbelow.tail hchild)
      exact .inr (ih hnot' hstands (Nat.le_of_succ_le_succ hsteps))

end Outside

end Linked

namespace Records

variable (h : tree.Records tree.children)
include h

theorem siblingsBefore_eq_nil (hid : ∀ parent, id ∉ tree.children parent) (steps : Nat) :
    tree.siblingsBefore steps id = [] := by
  have hprev : (tree.get? id).bind (·.prevSibling) = none := by
    cases hnode : tree.get? id with
    | none => rfl
    | some node =>
      refine (h.alone hnode (Option.eq_none_iff_forall_ne_some.mpr fun parent hparent => ?_)).1
      exact hid parent ((h.linked.parent hnode).mp hparent)
  cases steps with
  | zero => rfl
  | succ steps => rw [siblingsBefore, hprev]

/-- Among siblings no node is a boundary. -/
theorem mem_reached_sibling {combinator : Combinator}
    (hsibling : combinator = .nextSibling ∨ combinator = .laterSibling) :
    first ∈ tree.reached top id combinator ↔
      tree.Stands combinator first id ∧ tree.isElement first = true := by
  by_cases hparent : ∃ parent, id ∈ tree.children parent
  · obtain ⟨parent, hid⟩ := hparent
    have hsame : tree.reached top id combinator = tree.reached parent id combinator := by
      obtain rfl | rfl := hsibling <;> rfl
    rw [hsame, h.linked.mem_reached (.single hid)]
    refine and_congr_right fun hstands => and_iff_left ?_
    obtain ⟨parent', hfirst, hid'⟩ := hstands.exists_parent hsibling
    exact h.linked.parent_unique hid hid' ▸ .single hfirst
  · have hnone : tree.reached top id combinator = [] := by
      have hbefore := h.siblingsBefore_eq_nil (not_exists.mp hparent) tree.size
      obtain rfl | rfl := hsibling <;> simp only [reached, elementsBefore, hbefore] <;> rfl
    simp only [hnone, List.not_mem_nil, false_iff, not_and]
    intro hstands
    obtain ⟨parent, -, hid⟩ := hstands.exists_parent hsibling
    exact absurd ⟨parent, hid⟩ hparent

/-- A combinator leads to the elements that stand as it says, and from below a node to no
    others than those below it. -/
theorem mem_reached_iff (combinator : Combinator) :
    first ∈ tree.reached top id combinator ↔
      tree.Stands combinator first id ∧ tree.isElement first = true ∧
        (tree.Below top id → tree.Below top first) := by
  by_cases hbelow : tree.Below top id
  · rw [h.linked.mem_reached hbelow]
    simp only [hbelow, true_imp_iff]
  simp only [hbelow, false_imp_iff, and_true]
  cases combinator with
  | descendant =>
    constructor
    · intro hmem
      have hstands := h.linked.stands_of_mem_ancestorsWithin hmem
      obtain ⟨child, hstep, -⟩ := Relation.TransGen.head'_iff.mp hstands
      exact ⟨hstands, hstep.1⟩
    · rintro ⟨hstands, -⟩
      obtain ⟨child, hstep, -⟩ := Relation.TransGen.head'_iff.mp hstands
      obtain ⟨above, hpath⟩ := hstands.below.within.exists_path
      have hlength := h.linked.length_path_lt (h.linked.get?_parent hstep.2) hpath
      exact h.linked.mem_ancestorsWithin_outside hbelow hpath hstands (Nat.le_of_lt hlength)
  | child =>
    rw [reached, Option.mem_toList, h.linked.parentBelow?_outside hbelow]
    rfl
  | nextSibling => exact h.mem_reached_sibling (.inl rfl)
  | laterSibling => exact h.mem_reached_sibling (.inr rfl)

/-! ## Alternatives and selectors -/

/-- Wherever an element is, it fits an alternative if it ends a chain; from below a node, the
    chain is below it as well. -/
theorem fitsComplex_iff_chainTo {complex : Selector.Complex} :
    tree.fitsComplex top complex id = true ↔ ∃ others, tree.ChainTo complex others id ∧
      (tree.Below top id → ∀ other ∈ others, tree.Below top other) := by
  induction complex generalizing id with
  | single subject =>
    rw [fitsComplex]
    constructor
    · exact fun hsubject => ⟨[], .single hsubject, fun _ => List.forall_mem_nil _⟩
    · rintro ⟨others, hchain, -⟩
      cases hchain with
      | single hsubject => exact hsubject
  | combined left combinator subject ih =>
    rw [fitsComplex, Bool.and_eq_true, List.any_eq_true]
    constructor
    · rintro ⟨hsubject, first, hfirst, hfits⟩
      obtain ⟨hstands, -, hbound⟩ := (h.mem_reached_iff combinator).mp hfirst
      obtain ⟨others, hchain, hothers⟩ := ih.mp hfits
      refine ⟨others ++ [first], .combined hchain hstands hsubject, fun hbelow => ?_⟩
      rw [List.forall_mem_append, List.forall_mem_singleton]
      exact ⟨hothers (hbound hbelow), hbound hbelow⟩
    · rintro ⟨others, hchain, hothers⟩
      cases hchain with
      | @combined _ _ _ others first _ hchain hstands hsubject =>
        simp only [List.forall_mem_append, List.forall_mem_singleton] at hothers
        refine ⟨hsubject, first, (h.mem_reached_iff combinator).mpr ?_, ih.mpr ?_⟩
        · exact ⟨hstands, hchain.isElement, fun hbelow => (hothers hbelow).2⟩
        · refine ⟨others, hchain, fun hfirst => ?_⟩
          exact (hothers (h.linked.below_of_stands hstands hfirst)).1

end Records

section Selectors

variable (h : tree.Records tree.children)
include h

theorem fitsSelector_iff_chainTo (top id : NodeId) (selector : Selector) :
    tree.fitsSelector top selector id = true ↔ ∃ complex ∈ selector, ∃ others,
      tree.ChainTo complex others id ∧
        (tree.Below top id → ∀ other ∈ others, tree.Below top other) := by
  rw [fitsSelector, Bool.and_eq_true, List.any_eq_true]
  simp only [h.fitsComplex_iff_chainTo]
  refine and_iff_right_of_imp ?_
  rintro ⟨complex, -, others, hchain, -⟩
  exact hchain.isElement

/-- Testing an element from any node, wherever both are in the tree. The element fits if it
    ends a chain, and from a node that it is below, a chain below that node; so the other
    elements of a chain can be found below the node if the element is there itself, or has
    no need of any. -/
theorem fitsSelector_iff_witnessed (top id : NodeId) (selector : Selector) :
    (tree.fitsSelector top selector id = true ↔ ∃ complex ∈ selector, ∃ others,
      tree.ChainTo complex others id ∧
        (tree.Below top id → ∀ other ∈ others, tree.Below top other)) ∧
    (tree.Witnessed top selector id ↔ tree.fitsSelector top selector id = true ∧
      (tree.Below top id ∨ ∃ subject, .single subject ∈ selector ∧
        tree.fits id subject = true)) := by
  have hfits := fitsSelector_iff_chainTo h top id selector
  refine ⟨hfits, ?_⟩
  rw [hfits]
  constructor
  · rintro ⟨complex, hcomplex, others, hchain, hothers⟩
    refine ⟨⟨complex, hcomplex, others, hchain, fun _ => hothers⟩, ?_⟩
    cases hchain with
    | single hsubject => exact .inr ⟨_, hcomplex, hsubject⟩
    | combined _ hstands _ =>
      exact .inl (h.linked.below_of_stands hstands (hothers _ List.mem_concat_self))
  · rintro ⟨⟨complex, hcomplex, others, hchain, hothers⟩, hbelow | ⟨subject, hsingle, hsubject⟩⟩
    · exact ⟨complex, hcomplex, others, hchain, hothers hbelow⟩
    · exact ⟨_, hsingle, [], .single hsubject, List.forall_mem_nil _⟩

end Selectors

/-- A tree with a paragraph in a division, and a section beside the division. -/
def besideTree : Tree :=
  let (tree, outer) := Tree.empty.createElement "div"
  let (tree, inner) := tree.createElement "p"
  let (tree, beside) := tree.createElement "section"
  ((tree.append root (some outer)).append outer (some inner)).append root (some beside)

theorem built_besideTree : besideTree.Built := by
  have hnodes := ((Built.empty.createElement "div").createElement "p").createElement "section"
  exact ((hnodes.appendLeaf root ⟨1⟩ rfl rfl rfl (by decide)).appendLeaf ⟨1⟩ ⟨2⟩ rfl rfl rfl
    (by decide)).appendLeaf root ⟨3⟩ rfl rfl rfl (by decide)

/-- From the container, the division that the paragraph is in is found below it. -/
theorem fitsSelector_iff_witnessed_root :
    besideTree.Below root ⟨2⟩ ∧
      besideTree.Witnessed root [.combined (.single [.tag "div"]) .descendant [.tag "p"]] ⟨2⟩ := by
  have hbelow : besideTree.Below root ⟨2⟩ := .tail (.single (b := ⟨1⟩) (by decide)) (by decide)
  refine ⟨hbelow, ?_⟩
  exact (fitsSelector_iff_witnessed (.of_built built_besideTree) root ⟨2⟩ _).2.mpr
    ⟨rfl, .inl hbelow⟩

/-- From the section, the paragraph fits by a division that is not below the section. -/
theorem fitsSelector_outside :
    let selector : Selector := [.combined (.single [.tag "div"]) .descendant [.tag "p"]]
    besideTree.Built ∧ Selector.parse "div p" = .ok selector ∧
      besideTree.fitsSelector ⟨3⟩ selector ⟨2⟩ = true ∧
      ¬ besideTree.Witnessed ⟨3⟩ selector ⟨2⟩ := by
  refine ⟨built_besideTree, rfl, rfl, ?_⟩
  rintro ⟨complex, hcomplex, others, hchain, hothers⟩
  obtain rfl := List.mem_singleton.mp hcomplex
  cases hchain with
  | combined _ _ _ =>
    have hfirst := hothers _ List.mem_concat_self
    obtain ⟨child, hchild, -⟩ := Relation.TransGen.head'_iff.mp hfirst
    have hleaf : besideTree.children ⟨3⟩ = [] := rfl
    rw [hleaf] at hchild
    cases hchild

end Tree

end HtmlTemplate
