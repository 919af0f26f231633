-- SUMMARY: Trees that are built from the container by creating and appending nodes, and their links.
import HtmlTemplate.Proofs.Weaving
import Mathlib.Data.List.Nodup
import Mathlib.Data.List.Perm.Subperm
import Mathlib.Logic.Relation

/-!
# Trees that are built

A tree is built by creating nodes and appending nodes that have no parent yet, never
below themselves. Its links then say one thing in several ways: `Tree.Linked` is the
invariant, with the children of each node as a list. It is stated for any function
that gives the children, since an append changes that function at one place; for a
tree that is built, the function turns out to be `Tree.children`.
-/

namespace HtmlTemplate

namespace Tree

variable {tree : Tree}

/-! ## Nodes after a change -/

theorem lt_of_get? {id : NodeId} {node : Node} (h : tree.get? id = some node) :
    id.index < tree.size := by
  obtain ⟨hlt, -⟩ := Array.getElem?_eq_some_iff.mp h
  exact hlt

theorem get?_update (tree : Tree) (id i : NodeId) (change : Node → Node) :
    (tree.update id change).get? i =
      (tree.get? i).map fun node => if i = id then change node else node := by
  have hindex : id.index = i.index ↔ i = id := by
    cases id; cases i; simp [eq_comm]
  simp only [update, get?, Array.getElem?_modify, hindex]
  split <;> simp

theorem get?_create (tree : Tree) (content : Content) (i : NodeId) :
    (tree.create content).1.get? i =
      if i.index = tree.size then some { content } else tree.get? i :=
  Array.getElem?_push

/-- What an append does to the links of each node. -/
theorem get?_append {parent child : NodeId} {top : Node} (hparent : tree.get? parent = some top)
    (i : NodeId) :
    (tree.append parent (some child)).get? i = (tree.get? i).map fun node =>
      { content := node.content
        parent := if i = child then some parent else node.parent
        firstChild := if i = parent then node.firstChild <|> some child else node.firstChild
        lastChild := if i = parent then some child else node.lastChild
        prevSibling := if i = child then top.lastChild else node.prevSibling
        nextSibling := if top.lastChild = some i then some child
          else if i = child then none else node.nextSibling } := by
  simp only [append, hparent]
  cases top.lastChild with
  | none =>
    simp only [get?_update, Option.map_map, Function.comp_def, reduceCtorEq, if_false]
    congr 1
    funext node
    split_ifs <;> rfl
  | some last =>
    simp only [get?_update, Option.map_map, Function.comp_def, Option.some.injEq,
      eq_comm (a := last)]
    congr 1
    funext node
    split_ifs <;> rfl

theorem size_update (tree : Tree) (id : NodeId) (change : Node → Node) :
    (tree.update id change).size = tree.size := Array.size_modify

theorem names_append (tree : Tree) (parent : NodeId) (child : Option NodeId) :
    (tree.append parent child).names = tree.names := by
  unfold append
  cases tree.get? parent with
  | none => rfl
  | some top =>
    obtain ⟨_, _, _, last, _, _⟩ := top
    cases child <;> cases last <;> rfl

theorem size_append (tree : Tree) (parent : NodeId) (child : Option NodeId) :
    (tree.append parent child).size = tree.size := by
  unfold append
  cases tree.get? parent with
  | none => rfl
  | some top =>
    obtain ⟨_, _, _, last, _, _⟩ := top
    cases child <;> cases last <;> simp only [size_update]

/-! ## Links -/

/-- The links of a tree are those of nodes with `kids` as their children. -/
structure Linked (tree : Tree) (kids : NodeId → List NodeId) : Prop where
  get?_parent : ∀ {p c}, c ∈ kids p → ∃ node, tree.get? p = some node
  get?_child : ∀ {p c}, c ∈ kids p → ∃ node, tree.get? c = some node
  nodup : ∀ p, (kids p).Nodup
  parent : ∀ {p c node}, tree.get? c = some node → (node.parent = some p ↔ c ∈ kids p)
  firstChild : ∀ {p node}, tree.get? p = some node → node.firstChild = (kids p)[0]?
  lastChild : ∀ {p node}, tree.get? p = some node → node.lastChild = (kids p).getLast?
  nextSibling : ∀ {p c node i}, tree.get? c = some node → (kids p)[i]? = some c →
    node.nextSibling = (kids p)[i + 1]?
  prevSibling : ∀ {p c node i}, tree.get? c = some node → (kids p)[i]? = some c →
    node.prevSibling = if i = 0 then none else (kids p)[i - 1]?
  /-- No node is below itself. -/
  acyclic : ∀ id, ¬ Relation.TransGen (fun p c => c ∈ kids p) id id

namespace Linked

variable {kids : NodeId → List NodeId}

/-- A node has one parent. -/
theorem parent_unique (h : tree.Linked kids) {p p' c : NodeId} (hp : c ∈ kids p)
    (hp' : c ∈ kids p') : p = p' := by
  obtain ⟨node, hnode⟩ := h.get?_child hp
  exact Option.some.inj (((h.parent hnode).mpr hp).symm.trans ((h.parent hnode).mpr hp'))

theorem kids_eq_nil (h : tree.Linked kids) {p : NodeId} (hp : tree.get? p = none) :
    kids p = [] := by
  refine List.eq_nil_iff_forall_not_mem.mpr fun c hc => ?_
  obtain ⟨node, hnode⟩ := h.get?_parent hc
  cases hp.symm.trans hnode

theorem not_mem_kids (h : tree.Linked kids) {p c : NodeId} (hc : tree.get? c = none) :
    c ∉ kids p := by
  intro hmem
  obtain ⟨node, hnode⟩ := h.get?_child hmem
  cases hc.symm.trans hnode

theorem parent?_eq_some (h : tree.Linked kids) {p c : NodeId} :
    tree.parent? c = some p ↔ c ∈ kids p := by
  unfold parent?
  cases hnode : tree.get? c with
  | none => simpa using h.not_mem_kids hnode
  | some node => exact h.parent hnode

/-- Ids of nodes without repetition are no more than there are nodes. -/
theorem length_le_size {ids : List NodeId} (hnodup : ids.Nodup)
    (hids : ∀ id ∈ ids, ∃ node, tree.get? id = some node) : ids.length ≤ tree.size := by
  have hinjective : Function.Injective NodeId.index := by
    intro a b h
    cases a; cases b; exact congrArg _ h
  have hsub : ids.map NodeId.index ⊆ List.range tree.size := by
    intro index hindex
    obtain ⟨id, hid, rfl⟩ := List.mem_map.mp hindex
    obtain ⟨node, hnode⟩ := hids id hid
    exact List.mem_range.mpr (lt_of_get? hnode)
  simpa using (List.subperm_of_subset (List.Nodup.map hinjective hnodup) hsub).length_le

theorem siblingsFrom_eq_drop (h : tree.Linked kids) (p : NodeId) (limit i : Nat)
    (hlimit : (kids p).length ≤ limit + i) :
    tree.siblingsFrom limit (kids p)[i]? = (kids p).drop i := by
  induction limit generalizing i with
  | zero => rw [siblingsFrom, List.drop_eq_nil_of_le (by omega)]
  | succ limit ih =>
    cases hi : (kids p)[i]? with
    | none => rw [siblingsFrom, List.drop_eq_nil_of_le (List.getElem?_eq_none_iff.mp hi)]
    | some c =>
      obtain ⟨node, hnode⟩ := h.get?_child (List.mem_of_getElem? hi)
      obtain ⟨hlt, rfl⟩ := List.getElem?_eq_some_iff.mp hi
      simp only [siblingsFrom, hnode]
      rw [h.nextSibling hnode hi, ih (i + 1) (by omega), ← List.drop_eq_getElem_cons hlt]

theorem children_eq (h : tree.Linked kids) (p : NodeId) : tree.children p = kids p := by
  have hlength : (kids p).length ≤ tree.size :=
    length_le_size (h.nodup p) fun id hid => h.get?_child hid
  unfold children childrenWithin
  cases hp : tree.get? p with
  | some node =>
    simp only [h.firstChild hp]
    exact h.siblingsFrom_eq_drop p tree.size 0 hlength
  | none => exact (h.kids_eq_nil hp).symm

/-- The links of a new node are none. -/
theorem create (h : tree.Linked kids) (content : Content) :
    (tree.create content).1.Linked kids := by
  have hold : ∀ {i node}, tree.get? i = some node →
      (tree.create content).1.get? i = some node := by
    intro i node hnode
    rw [get?_create, if_neg (Nat.ne_of_lt (lt_of_get? hnode)), hnode]
  have hnew : ∀ {i node}, (tree.create content).1.get? i = some node →
      tree.get? i = some node ∨ tree.get? i = none ∧ node = { content } := by
    intro i node hnode
    rw [get?_create] at hnode
    split at hnode
    next hi =>
      exact .inr ⟨Array.getElem?_eq_none (Nat.le_of_eq hi.symm), (Option.some.inj hnode).symm⟩
    next => exact .inl hnode
  constructor
  case get?_parent => exact fun hc => (h.get?_parent hc).imp fun _ => hold
  case get?_child => exact fun hc => (h.get?_child hc).imp fun _ => hold
  case nodup => exact h.nodup
  case parent =>
    intro p c node hnode
    rcases hnew hnode with hnode | ⟨hnone, rfl⟩
    · exact h.parent hnode
    · simp [h.not_mem_kids hnone]
  case firstChild =>
    intro p node hnode
    rcases hnew hnode with hnode | ⟨hnone, rfl⟩
    · exact h.firstChild hnode
    · simp [h.kids_eq_nil hnone]
  case lastChild =>
    intro p node hnode
    rcases hnew hnode with hnode | ⟨hnone, rfl⟩
    · exact h.lastChild hnode
    · simp [h.kids_eq_nil hnone]
  case nextSibling =>
    intro p c node i hnode hi
    rcases hnew hnode with hnode | ⟨hnone, -⟩
    · exact h.nextSibling hnode hi
    · exact absurd (List.mem_of_getElem? hi) (h.not_mem_kids hnone)
  case prevSibling =>
    intro p c node i hnode hi
    rcases hnew hnode with hnode | ⟨hnone, -⟩
    · exact h.prevSibling hnode hi
    · exact absurd (List.mem_of_getElem? hi) (h.not_mem_kids hnone)
  case acyclic => exact h.acyclic

/-- A new edge closes no circle if its lower end does not reach its upper end. -/
theorem acyclic_insert (h : tree.Linked kids) {parent child : NodeId}
    (hcircle : ¬ Relation.ReflTransGen (fun p c => c ∈ kids p) child parent)
    {kids' : NodeId → List NodeId}
    (hkids : ∀ {p c}, c ∈ kids' p → c ∈ kids p ∨ p = parent ∧ c = child) (id : NodeId) :
    ¬ Relation.TransGen (fun p c => c ∈ kids' p) id id := by
  -- A path that takes the new edge passes its ends.
  have hpath : ∀ {a b}, Relation.TransGen (fun p c => c ∈ kids' p) a b →
      Relation.TransGen (fun p c => c ∈ kids p) a b ∨
        Relation.ReflTransGen (fun p c => c ∈ kids p) a parent ∧
          Relation.ReflTransGen (fun p c => c ∈ kids p) child b := by
    intro a b hab
    induction hab with
    | single hedge =>
      rcases hkids hedge with hedge | ⟨rfl, rfl⟩
      · exact .inl (.single hedge)
      · exact .inr ⟨.refl, .refl⟩
    | tail _ hedge ih =>
      rcases hkids hedge with hedge | ⟨rfl, rfl⟩
      · rcases ih with hpath | ⟨hparent, hchild⟩
        · exact .inl (hpath.tail hedge)
        · exact .inr ⟨hparent, hchild.tail hedge⟩
      · rcases ih with hpath | ⟨hparent, -⟩
        · exact .inr ⟨hpath.to_reflTransGen, .refl⟩
        · exact .inr ⟨hparent, .refl⟩
  intro hid
  rcases hpath hid with hid | ⟨hparent, hchild⟩
  · exact h.acyclic id hid
  · exact hcircle (hchild.trans hparent)

/-- Places of a list with one item more. -/
theorem getElem?_concat {ids : List NodeId} {last id : NodeId} {i : Nat}
    (h : (ids ++ [last])[i]? = some id) : ids[i]? = some id ∨ i = ids.length ∧ id = last := by
  obtain ⟨hlt, rfl⟩ := List.getElem?_eq_some_iff.mp h
  rw [List.length_append, List.length_singleton] at hlt
  rcases Nat.lt_succ_iff_lt_or_eq.mp hlt with hlt | rfl
  · simp [List.getElem_append_left hlt]
  · simp

/-- Without repetition, an id stands last at one place alone. -/
theorem getLast?_eq_some_iff {ids : List NodeId} {id : NodeId} {i : Nat} (hnodup : ids.Nodup)
    (hi : ids[i]? = some id) : ids.getLast? = some id ↔ i + 1 = ids.length := by
  obtain ⟨hlt, -⟩ := List.getElem?_eq_some_iff.mp hi
  rw [List.getLast?_eq_getElem?, ← hi, eq_comm, List.getElem?_inj hlt hnodup]
  omega

/-- The new last child comes after the one that was last before. -/
theorem nextSibling_append (h : tree.Linked kids) {parent child : NodeId} {top : Node}
    (hparent : tree.get? parent = some top) (hnot : ∀ p, child ∉ kids p) {p c : NodeId}
    {later : Node} {i : Nat} (hc : (tree.append parent (some child)).get? c = some later)
    (hi : (if p = parent then kids p ++ [child] else kids p)[i]? = some c) :
    later.nextSibling = (if p = parent then kids p ++ [child] else kids p)[i + 1]? := by
  have hlast : top.lastChild = (kids parent).getLast? := h.lastChild hparent
  rw [get?_append hparent, Option.map_eq_some_iff] at hc
  obtain ⟨n, hn, rfl⟩ := hc
  by_cases hp : p = parent
  · subst hp
    rw [if_pos rfl] at hi ⊢
    rcases getElem?_concat hi with hi | ⟨rfl, rfl⟩
    · have hc : c ≠ child := fun hc => hnot p (hc ▸ List.mem_of_getElem? hi)
      have hend := getLast?_eq_some_iff (h.nodup p) hi
      by_cases hlt : i + 1 = (kids p).length
      · simp [hlast, hend.mpr hlt, hlt]
      · have hlt' : i + 1 < (kids p).length := by
          have hi := (List.getElem?_eq_some_iff.mp hi).1
          omega
        rw [List.getElem?_append_left hlt', ← h.nextSibling hn hi]
        simp [hlast, hend, hlt, hc]
    · have hend : (kids p).getLast? ≠ some c := fun hend => hnot p (List.mem_of_getLast? hend)
      simp [hlast, hend]
  · rw [if_neg hp] at hi ⊢
    have hmem : c ∈ kids p := List.mem_of_getElem? hi
    have hc : c ≠ child := fun hc => hnot p (hc ▸ hmem)
    have hend : (kids parent).getLast? ≠ some c := fun hend =>
      hp (h.parent_unique hmem (List.mem_of_getLast? hend))
    simp [hlast, hend, hc, h.nextSibling hn hi]

theorem prevSibling_append (h : tree.Linked kids) {parent child : NodeId} {top : Node}
    (hparent : tree.get? parent = some top) (hnot : ∀ p, child ∉ kids p) {p c : NodeId}
    {later : Node} {i : Nat} (hc : (tree.append parent (some child)).get? c = some later)
    (hi : (if p = parent then kids p ++ [child] else kids p)[i]? = some c) :
    later.prevSibling =
      if i = 0 then none else (if p = parent then kids p ++ [child] else kids p)[i - 1]? := by
  have hlast : top.lastChild = (kids parent).getLast? := h.lastChild hparent
  rw [get?_append hparent, Option.map_eq_some_iff] at hc
  obtain ⟨n, hn, rfl⟩ := hc
  by_cases hp : p = parent
  · subst hp
    rw [if_pos rfl] at hi ⊢
    rcases getElem?_concat hi with hi | ⟨rfl, rfl⟩
    · have hc : c ≠ child := fun hc => hnot p (hc ▸ List.mem_of_getElem? hi)
      have hlt := (List.getElem?_eq_some_iff.mp hi).1
      rw [List.getElem?_append_left (by omega : i - 1 < (kids p).length)]
      simp [hc, h.prevSibling hn hi]
    · simp only [if_true, hlast, List.getLast?_eq_getElem?]
      split
      next hempty => simp [hempty]
      next hempty => rw [List.getElem?_append_left (by omega)]
  · rw [if_neg hp] at hi ⊢
    have hc : c ≠ child := fun hc => hnot p (hc ▸ List.mem_of_getElem? hi)
    simp [hc, h.prevSibling hn hi]

/-- Appending a node without parent adds it to the children of one node. -/
theorem append (h : tree.Linked kids) {parent child : NodeId} {top node : Node}
    (hparent : tree.get? parent = some top) (hchild : tree.get? child = some node)
    (hdetached : node.parent = none)
    (hcircle : ¬ Relation.ReflTransGen (fun p c => c ∈ kids p) child parent) :
    (tree.append parent (some child)).Linked
      fun p => if p = parent then kids p ++ [child] else kids p := by
  have hnot : ∀ p, child ∉ kids p := fun p hmem => by
    cases ((h.parent hchild).mpr hmem).symm.trans hdetached
  have hmem : ∀ {p c}, c ∈ (if p = parent then kids p ++ [child] else kids p) ↔
      c ∈ kids p ∨ p = parent ∧ c = child := by
    intro p c
    by_cases hp : p = parent <;> simp [hp]
  have hlater : ∀ {i n}, tree.get? i = some n →
      ∃ later, (tree.append parent (some child)).get? i = some later := by
    intro i n hn
    rw [get?_append hparent, hn]
    exact ⟨_, rfl⟩
  constructor
  case get?_parent =>
    intro p c hc
    rcases hmem.mp hc with hc | ⟨rfl, -⟩
    · obtain ⟨n, hn⟩ := h.get?_parent hc
      exact hlater hn
    · exact hlater hparent
  case get?_child =>
    intro p c hc
    rcases hmem.mp hc with hc | ⟨-, rfl⟩
    · obtain ⟨n, hn⟩ := h.get?_child hc
      exact hlater hn
    · exact hlater hchild
  case nodup =>
    intro p
    have hp := h.nodup p
    split
    · refine List.nodup_append.mpr ⟨hp, by simp, ?_⟩
      intro a ha b hb hab
      rw [List.mem_singleton.mp hb] at hab
      exact hnot p (hab ▸ ha)
    · exact hp
  case parent =>
    intro p c later hc
    rw [get?_append hparent, Option.map_eq_some_iff] at hc
    obtain ⟨n, hn, rfl⟩ := hc
    rw [hmem]
    by_cases hc : c = child
    · subst hc
      simp [hnot p, eq_comm]
    · simp [hc, h.parent hn]
  case firstChild =>
    intro p later hp
    rw [get?_append hparent, Option.map_eq_some_iff] at hp
    obtain ⟨n, hn, rfl⟩ := hp
    have hfirst := h.firstChild hn
    by_cases hp : p = parent
    · subst hp
      cases hkids : kids p <;> simp [hfirst, hkids]
    · simp [hp, hfirst]
  case lastChild =>
    intro p later hp
    rw [get?_append hparent, Option.map_eq_some_iff] at hp
    obtain ⟨n, hn, rfl⟩ := hp
    by_cases hp : p = parent
    · simp [hp]
    · simp [hp, h.lastChild hn]
  case nextSibling => exact fun hc hi => h.nextSibling_append hparent hnot hc hi
  case prevSibling => exact fun hc hi => h.prevSibling_append hparent hnot hc hi
  case acyclic => exact h.acyclic_insert hcircle hmem.mp

end Linked

/-! ## Below a node -/

/-- A node is strictly below another one. -/
abbrev Below (tree : Tree) (top id : NodeId) : Prop :=
  Relation.TransGen (fun parent child => child ∈ tree.children parent) top id

theorem within_iff {top id : NodeId} : tree.Within top id ↔
    Relation.ReflTransGen (fun parent child => child ∈ tree.children parent) top id := by
  constructor
  · intro h
    induction h with
    | top => exact .refl
    | child _ hchild ih => exact ih.tail hchild
  · intro h
    induction h with
    | refl => exact .top
    | tail _ hchild ih => exact .child ih hchild

theorem Within.eq_or_below {top id : NodeId} (h : tree.Within top id) :
    id = top ∨ tree.Below top id := by
  rw [within_iff, Relation.reflTransGen_iff_eq_or_transGen] at h
  exact h

theorem Below.within {top id : NodeId} (h : tree.Below top id) : tree.Within top id :=
  within_iff.mpr h.to_reflTransGen

/-- What is strictly below a node is a child of a node that is not strictly above it. -/
theorem below_iff {top id : NodeId} :
    tree.Below top id ↔ ∃ parent, tree.Within top parent ∧ id ∈ tree.children parent := by
  simp only [within_iff, Relation.TransGen.tail'_iff]

/-- Nothing but the node itself is within a node without children. -/
theorem not_within_of_children_eq_nil {top id : NodeId} (h : tree.children top = [])
    (hid : id ≠ top) : ¬ tree.Within top id := by
  intro hwithin
  obtain ⟨child, hchild, -⟩ :=
    Relation.TransGen.head'_iff.mp (hwithin.eq_or_below.resolve_left hid)
  rw [h] at hchild
  cases hchild

/-! ## Trees that are built -/

/-- A tree that is made from the container alone: nodes are created, and nodes without
    parent are appended to nodes that are not below them. -/
inductive Built : Tree → Prop where
  | empty : Built .empty
  | intern {tree : Tree} (h : Built tree) (name : String) : Built (tree.intern name).1
  | create {tree : Tree} (h : Built tree) {content : Content} (hcontent : content ≠ .container) :
      Built (tree.create content).1
  | append {tree : Tree} (h : Built tree) {parent child : NodeId} {top node : Node}
      (hparent : tree.get? parent = some top) (hchild : tree.get? child = some node)
      (hdetached : node.parent = none) (hcircle : ¬ tree.Within child parent) :
      Built (tree.append parent (some child))

namespace Built

/-- The links of a tree that is built are those of its children. -/
theorem linked (h : tree.Built) : tree.Linked tree.children := by
  suffices hkids : ∃ kids, tree.Linked kids by
    obtain ⟨kids, hkids⟩ := hkids
    have heq : tree.children = kids := funext hkids.children_eq
    rwa [heq]
  induction h with
  | empty =>
    have hget {id node} (h : Tree.empty.get? id = some node) :
        node = { content := .container } := by
      obtain ⟨hlt, rfl⟩ := Array.getElem?_eq_some_iff.mp h
      have hindex : id.index = 0 := by simpa [Tree.empty] using hlt
      simp [Tree.empty, hindex]
    refine ⟨fun _ => [], nofun, nofun, by simp, ?_, ?_, ?_, nofun, nofun, ?_⟩
    · intro p c node hnode
      simp [hget hnode]
    · intro p node hnode
      simp [hget hnode]
    · intro p node hnode
      simp [hget hnode]
    · intro id hid
      obtain ⟨parent, -, hchild⟩ := Relation.TransGen.tail'_iff.mp hid
      cases hchild
  | intern h name ih => exact ih.imp fun _ hkids => { hkids with }
  | create h hcontent ih => exact ih.imp fun _ hkids => hkids.create _
  | append h hparent hchild hdetached hcircle ih =>
    obtain ⟨kids, hkids⟩ := ih
    obtain rfl : kids = _ := (funext hkids.children_eq).symm
    exact ⟨_, hkids.append hparent hchild hdetached (within_iff.not.mp hcircle)⟩

/-- The container is the first node, and there is no other one. -/
theorem container (h : tree.Built) : (∃ node, tree.get? root = some node) ∧
    ∀ {id node}, tree.get? id = some node → (node.content = .container ↔ id = root) := by
  induction h with
  | empty =>
    refine ⟨⟨_, rfl⟩, ?_⟩
    intro id node hnode
    obtain ⟨hlt, rfl⟩ := Array.getElem?_eq_some_iff.mp hnode
    obtain ⟨index⟩ := id
    have hindex : index = 0 := by simpa [Tree.empty] using hlt
    simp [Tree.empty, hindex, root]
  | intern h name ih => exact ih
  | create h hcontent ih =>
    obtain ⟨⟨first, hfirst⟩, hall⟩ := ih
    have hsize := lt_of_get? hfirst
    refine ⟨⟨first, by rw [get?_create, if_neg (Nat.ne_of_lt hsize), hfirst]⟩, ?_⟩
    intro id node hnode
    rw [get?_create] at hnode
    split at hnode
    next hid =>
      obtain rfl := Option.some.inj hnode
      have hroot : id ≠ root := fun hroot => Nat.ne_of_lt (hroot ▸ hsize) hid
      simp [hcontent, hroot]
    next => exact hall hnode
  | append h hparent hchild hdetached hcircle ih =>
    obtain ⟨⟨first, hfirst⟩, hall⟩ := ih
    refine ⟨⟨_, by rw [get?_append hparent, hfirst, Option.map_some]⟩, ?_⟩
    intro id node hnode
    rw [get?_append hparent, Option.map_eq_some_iff] at hnode
    obtain ⟨old, hold, rfl⟩ := hnode
    exact (hall hold :)

end Built

/-- A node without children and without parent can be appended to any other node. -/
theorem Built.appendLeaf (h : tree.Built) (parent child : NodeId)
    (hparent : (tree.get? parent).isSome = true)
    (hchild : (tree.get? child).map (·.parent) = some none) (hleaf : tree.children child = [])
    (hne : parent ≠ child) : (tree.append parent (some child)).Built := by
  obtain ⟨top, htop⟩ := Option.isSome_iff_exists.mp hparent
  obtain ⟨node, hnode, hdetached⟩ := Option.map_eq_some_iff.mp hchild
  exact .append h htop hnode hdetached (not_within_of_children_eq_nil hleaf hne)

/-- An element is created under a name that may be new. -/
theorem Built.createElement (h : tree.Built) (tag : String) : (tree.createElement tag).1.Built :=
  .create (.intern h tag) nofun

end Tree

end HtmlTemplate
