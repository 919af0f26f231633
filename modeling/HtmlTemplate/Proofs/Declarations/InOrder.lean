-- SUMMARY: The nodes of a scope stand in document order, apart from those that are found again.
import HtmlTemplate.Proofs.Selecting
import HtmlTemplate.Proofs.Tree.Walks
import Mathlib.Data.List.Sort

/-!
# Scopes in document order

A scope is searched from each of its nodes, and what is found is put one behind the other.
Nodes of a scope may be inside each other, and then elements are found more than once. The
search from an inner node finds nothing that the search from an outer one does not find, so
all that is found for the first time is in document order.
-/

namespace HtmlTemplate

/-! ## Lists without their later repetitions -/

section Lists

variable {α : Type} [BEq α] [LawfulBEq α] {R : α → α → Prop}

theorem eraseDups_concat (items : List α) (last : α) :
    (items ++ [last]).eraseDups = if last ∈ items then items.eraseDups
      else items.eraseDups ++ [last] := by
  rw [List.eraseDups_append]
  split
  next hmem => simp [List.removeAll, hmem]
  next hmem => simp [List.removeAll, hmem, List.eraseDups_cons]

theorem eraseDups_sublist (items : List α) : items.eraseDups.Sublist items := by
  induction items using List.reverseRecOn with
  | nil => exact List.Sublist.refl _
  | append_singleton items last ih =>
    rw [eraseDups_concat]
    split
    · exact ih.trans (List.sublist_append_left _ _)
    · exact ih.append_right _

/-- What a list adds to another one comes behind it. -/
theorem pairwise_eraseDups_append {first second : List α} (hfirst : first.eraseDups.Pairwise R)
    (hsecond : second.Pairwise R)
    (hcross : ∀ x ∈ first, ∀ y ∈ second, y ∉ first → R x y) :
    (first ++ second).eraseDups.Pairwise R := by
  have hsublist : (second.removeAll first).eraseDups.Sublist second :=
    (eraseDups_sublist _).trans List.filter_sublist
  rw [List.eraseDups_append, List.pairwise_append]
  refine ⟨hfirst, hsecond.sublist hsublist, fun x hx y hy => ?_⟩
  obtain ⟨hmem, hnot⟩ := List.mem_filter.mp (List.mem_eraseDups.mp hy)
  exact hcross x (List.mem_eraseDups.mp hx) y hmem (by simpa using hnot)

/-- If an item adds only what comes behind all that the items before it have, and no item
    comes twice for the first time, then each first time is in order. -/
theorem pairwise_eraseDups_flatMap {f : α → List α} {items : List α}
    (hitems : items.eraseDups.Pairwise R) (hf : ∀ a ∈ items, (f a).Pairwise R)
    (hcross : ∀ a ∈ items, ∀ b ∈ items, R a b → ∀ x ∈ f a, ∀ y ∈ f b, y ∉ f a → R x y) :
    (items.flatMap f).eraseDups.Pairwise R := by
  induction items using List.reverseRecOn with
  | nil => exact .nil
  | append_singleton items last ih =>
    rw [List.flatMap_append, List.flatMap_singleton]
    simp only [List.forall_mem_append, List.forall_mem_singleton] at hf hcross
    rw [List.eraseDups_append, List.pairwise_append] at hitems
    refine pairwise_eraseDups_append (ih hitems.1 hf.1 fun a ha => (hcross.1 a ha).1) hf.2 ?_
    intro x hx y hy hnew
    obtain ⟨a, ha, hx⟩ := List.mem_flatMap.mp hx
    have hlast : last ∉ items := fun hmem => hnew (List.mem_flatMap.mpr ⟨last, hmem, hy⟩)
    have hbefore : R a last :=
      hitems.2.2 a (List.mem_eraseDups.mpr ha) last (by simp [List.removeAll, hlast])
    exact (hcross.1 a ha).2 hbefore x hx y hy fun hmem =>
      hnew (List.mem_flatMap.mpr ⟨a, ha, hmem⟩)

end Lists

/-! ## Searches from nodes inside each other -/

namespace Tree

namespace Linked

variable {tree : Tree} {outer inner a b x y : NodeId}
variable (h : tree.Linked tree.children)
include h

/-- What fits from an inner node fits from an outer one: the elements that it was tested with
    are below both. -/
theorem fitsComplex_mono (hwithin : tree.Within outer inner) {complex : Selector.Complex}
    (hbelow : tree.Below inner x) (hfits : tree.fitsComplex inner complex x = true) :
    tree.fitsComplex outer complex x = true := by
  induction complex generalizing x with
  | single subject => exact hfits
  | combined left combinator subject ih =>
    rw [fitsComplex, Bool.and_eq_true, List.any_eq_true] at hfits ⊢
    obtain ⟨hsubject, first, hfirst, hfits⟩ := hfits
    obtain ⟨hstands, helement, hfirstBelow⟩ := (h.mem_reached hbelow combinator).mp hfirst
    have hfirst' := (h.mem_reached (hwithin.trans_below hbelow) combinator).mpr
      ⟨hstands, helement, hwithin.trans_below hfirstBelow⟩
    exact ⟨hsubject, first, hfirst', ih hfirstBelow hfits⟩

/-- A search from an inner node finds nothing that a search from an outer one does not find. -/
theorem select_subset (hwithin : tree.Within outer inner) (selector : Selector) :
    tree.select inner selector ⊆ tree.select outer selector := by
  intro x hx
  simp only [select, List.mem_filter, h.mem_descendants, fitsSelector, Bool.and_eq_true,
    List.any_eq_true] at hx ⊢
  obtain ⟨hbelow, helement, complex, hcomplex, hfits⟩ := hx
  exact ⟨hwithin.trans_below hbelow, helement, complex, hcomplex,
    h.fitsComplex_mono hwithin hbelow hfits⟩

/-- What a later node adds to what an earlier one has found comes behind all of it. -/
theorem precedes_of_mem_select {selector : Selector} (hab : tree.Precedes a b)
    (hx : x ∈ tree.select a selector) (hy : y ∈ tree.select b selector)
    (hnew : y ∉ tree.select a selector) : tree.Precedes x y := by
  have hxa : tree.Below a x := (h.of_mem_select hx).1
  have hyb : tree.Below b y := (h.of_mem_select hy).1
  obtain hinside | ⟨parent, first, second, hsiblings, ha, hb⟩ := hab
  · exact absurd (h.select_subset hinside.within selector hy) hnew
  · exact .inr ⟨parent, first, second, hsiblings, ha.trans hxa.within, hb.trans hyb.within⟩

/-- The walk from a node passes the nodes within it, so it has every list of them that is in
    document order. -/
theorem sublist_descendants {top : NodeId} {nodes : List NodeId}
    (hnodes : nodes.Pairwise tree.Precedes) (hwithin : ∀ node ∈ nodes, tree.Within top node) :
    nodes.Sublist (top :: tree.descendants top) := by
  have hantisymm : Std.Antisymm tree.Precedes :=
    ⟨fun _ _ hprecedes hprecedes' => absurd hprecedes' (h.precedes_asymm hprecedes)⟩
  have hnodup : nodes.Nodup := by
    refine hnodes.imp ?_
    rintro first second hprecedes rfl
    exact h.not_precedes_self first hprecedes
  have hsubset : nodes ⊆ top :: tree.descendants top := fun node hnode =>
    h.mem_cons_descendants.mpr (hwithin node hnode)
  exact List.sublist_of_subperm_of_pairwise (List.subperm_of_subset hnodup hsubset) hnodes
    (h.pairwise_cons_descendants top)

end Linked

/-- Apart from those that come again, the nodes are in document order from the container on. -/
structure InOrder (tree : Tree) (nodes : List NodeId) : Prop where
  pairwise : nodes.eraseDups.Pairwise tree.Precedes
  within : ∀ node ∈ nodes, tree.Within root node

/-- Searching from nodes in order finds nodes in order. -/
theorem InOrder.search {tree : Tree} {nodes : List NodeId} (hnodes : tree.InOrder nodes)
    (h : tree.Linked tree.children) (selector : Selector) :
    tree.InOrder (nodes.flatMap fun node => tree.select node selector) := by
  constructor
  · refine pairwise_eraseDups_flatMap hnodes.pairwise ?_ ?_
    · exact fun node _ => (h.pairwise_descendants node).filter _
    · exact fun a _ b _ hab x hx y hy => h.precedes_of_mem_select hab hx hy
  · intro node hnode
    obtain ⟨top, htop, hnode⟩ := List.mem_flatMap.mp hnode
    exact (hnodes.within top htop).trans (h.of_mem_select hnode).1.within

end Tree

/-! ## Scopes -/

namespace Declarations

variable {d : Declarations} {id : ScopeId} {scope : Scope}

/-- The nodes of every scope are in order. -/
def InOrder (d : Declarations) : Prop :=
  ∀ i s, d.scope? i = some s → d.tree.InOrder s.nodes

namespace InOrder

theorem start (tree : Tree) : (Declarations.start tree).InOrder := by
  intro i s hs
  obtain ⟨-, rfl⟩ := of_scope?_start hs
  exact ⟨List.pairwise_singleton _ _, List.forall_mem_singleton.mpr .top⟩

theorem resolve (h : d.InOrder) (hlinked : d.tree.Linked d.tree.children) (id : ScopeId)
    (selector : String) : (d.resolve id selector).2.InOrder := by
  obtain heq | ⟨scope, parsed, hid, -, -, heq⟩ := d.resolve_snd id selector
  · rwa [heq]
  rw [heq]
  intro i s hs
  obtain ⟨old, children, hold | ⟨-, rfl⟩, rfl⟩ := of_scope?_withFound hs
  · exact (h i old hold :)
  · exact (h id scope hid).search hlinked parsed

theorem log (h : d.InOrder) (id : ScopeId) (mutation : Mutation) :
    (d.log id mutation).2.InOrder := by
  obtain heq | ⟨scope, -, -, heq⟩ := d.log_snd id mutation
  · rwa [heq]
  rw [heq]
  intro i s hs
  obtain ⟨old, hold, rfl⟩ := of_scope?_withLogged hs
  exact (h i old hold :)

/-- The scope of a new region has the nodes of the scope that was entered. -/
theorem nest (h : d.InOrder) (id : ScopeId) : (d.nest id).2.InOrder := by
  obtain heq | ⟨scope, hid, -, heq⟩ := d.nest_snd id
  · rwa [heq]
  rw [heq]
  intro i s hs
  obtain ⟨old, hold | ⟨rfl, rfl⟩, rfl⟩ := of_scope?_withRegion hs
  · exact (h i old hold :)
  · exact (h id scope hid :)

end InOrder

end Declarations

namespace Document

theorem inOrder_run {tree : Tree} (h : tree.Linked tree.children) (compiler : Compiler)
    (optimizing : Bool) (operations : List Operation) :
    ((ofTree tree compiler optimizing).run operations).declarations.InOrder := by
  refine declarations_induction (.start tree) ?_ ?_ ?_ ?_ compiler optimizing operations
  · exact fun hd _ htree => hd.resolve (htree ▸ h)
  · exact fun hd _ => hd.log
  · exact fun hd _ => hd.nest
  · exact fun hd => hd

/-- After every run over a tree whose links are in order: without those that come again, the
    nodes of a scope are strictly in document order, as the walk through the tree passes them;
    and what a selector finds below an inner node, it finds below an outer one. -/
theorem nodes_run {tree : Tree} (h : tree.Linked tree.children) (compiler : Compiler)
    (optimizing : Bool) (operations : List Operation) :
    let d := ((ofTree tree compiler optimizing).run operations).declarations
    (∀ i s, d.scope? i = some s → s.nodes.eraseDups.Pairwise tree.Precedes ∧
      s.nodes.eraseDups.Sublist (Tree.root :: tree.descendants Tree.root)) ∧
    ∀ outer inner selector, tree.Below outer inner →
      tree.select inner selector ⊆ tree.select outer selector := by
  intro d
  have htree : d.tree = tree := tree_run _ operations
  refine ⟨fun i s hs => ?_, fun _ _ selector hbelow => h.select_subset hbelow.within selector⟩
  obtain ⟨hpairwise, hwithin⟩ := inOrder_run h compiler optimizing operations i s hs
  rw [htree] at hpairwise hwithin
  refine ⟨hpairwise, h.sublist_descendants hpairwise fun node hnode => ?_⟩
  exact hwithin node (List.mem_eraseDups.mp hnode)

/-- A tree with a division in another one, and a paragraph in each of them. -/
def nestedTree : Tree :=
  let (tree, outer) := Tree.empty.createElement "div"
  let (tree, inner) := tree.createElement "div"
  let (tree, first) := tree.createElement "p"
  let (tree, second) := tree.createElement "p"
  (((tree.append Tree.root (some outer)).append outer (some inner)).append inner
    (some first)).append outer (some second)

theorem built_nestedTree : nestedTree.Built := by
  have hnodes := (((Tree.Built.empty.createElement "div").createElement "div").createElement
    "p").createElement "p"
  exact (((hnodes.appendLeaf Tree.root ⟨1⟩ rfl rfl rfl (by decide)).appendLeaf ⟨1⟩ ⟨2⟩ rfl rfl rfl
    (by decide)).appendLeaf ⟨2⟩ ⟨3⟩ rfl rfl rfl (by decide)).appendLeaf ⟨1⟩ ⟨4⟩ rfl rfl rfl
    (by decide)

/-- The paragraph of the inner division is found twice, and comes first. -/
theorem nodes_run_nested :
    ∃ scope, ((ofTree nestedTree).run [.find "div", .resolve ⟨1⟩ "p"]).declarations.scope? ⟨2⟩ =
        some scope ∧ scope.nodes = [⟨3⟩, ⟨4⟩, ⟨3⟩] ∧ nestedTree.Precedes ⟨3⟩ ⟨4⟩ := by
  obtain ⟨hnodes, -⟩ := nodes_run built_nestedTree.linked {} true [.find "div", .resolve ⟨1⟩ "p"]
  obtain ⟨hpairwise, -⟩ := hnodes ⟨2⟩ _ rfl
  have hordered : ([⟨3⟩, ⟨4⟩] : List NodeId).Pairwise nestedTree.Precedes := hpairwise
  exact ⟨_, rfl, rfl, List.rel_of_pairwise_cons hordered List.mem_cons_self⟩

end Document

end HtmlTemplate
