-- SUMMARY: The children that a walk finds where unknown nodes were appended as well.
import HtmlTemplate.Proofs.Tree.Strays
import Mathlib.Data.List.TakeWhile

/-!
# What is found behind strays

A node that is appended behind an unknown one is linked to it and not to the nodes in front, so
that the walk along the children ends before it. `Tree.Offers` says of the links of a tree which
nodes, and which unknown ones, were appended to each parent in turn. It is kept by every call
as long as no unknown one becomes a node, and it tells the children: they are the nodes that
were offered before the first unknown one, where no place at all, offered to a parent without
children, does not count.
-/

namespace HtmlTemplate

namespace Tree

variable {tree : Tree} {offers : NodeId → List (Option NodeId)} {actions : List Action}

/-! ## Links -/

/-- The links of a tree are those of parents to which `offers` were appended in turn. A node is
    offered once, to its parent, and goes on to what was offered next; links lead to unknown
    nodes, but none leads on from there. -/
structure Offers (tree : Tree) (offers : NodeId → List (Option NodeId)) : Prop where
  of_unknown : ∀ {p}, tree.get? p = none → offers p = []
  parent : ∀ {p c node}, tree.get? c = some node → (node.parent = some p ↔ some c ∈ offers p)
  firstChild : ∀ {p node}, tree.get? p = some node →
    node.firstChild = (offers p).reduceOption.head?
  lastChild : ∀ {p node}, tree.get? p = some node → node.lastChild = (offers p).getLast?.join
  nextSibling : ∀ {p c node before after}, tree.get? c = some node →
    offers p = before ++ some c :: after → node.nextSibling = after.head?.join
  once : ∀ {p c node before after}, tree.get? c = some node →
    offers p = before ++ some c :: after → some c ∉ after

/-- A walk that ends is the one with any limit that it keeps. -/
theorem Siblings.siblingsFrom_eq {start : Option NodeId} {ids : List NodeId}
    (h : tree.Siblings start ids) {limit : Nat} (hlimit : ids.length ≤ limit) :
    tree.siblingsFrom limit start = ids := by
  induction h generalizing limit with
  | done => cases limit <;> rfl
  | lost hnone =>
    cases limit with
    | zero => rfl
    | succ limit => simp only [siblingsFrom, hnone]
  | next hnode _ ih =>
    cases limit with
    | zero => cases hlimit
    | succ limit => simp only [siblingsFrom, hnode, ih (Nat.le_of_succ_le_succ hlimit)]

namespace Offers

theorem empty : Tree.empty.Offers fun _ => [] := by
  have hlinked := Records.empty.linked
  constructor
  case of_unknown => exact fun _ => rfl
  case parent => exact fun hnode => hlinked.parent hnode |>.trans (by simp)
  case firstChild => exact fun hnode => hlinked.firstChild hnode
  case lastChild => exact fun hnode => hlinked.lastChild hnode
  case nextSibling => exact fun _ hoffers => by simp at hoffers
  case once => exact fun _ hoffers => by simp at hoffers

theorem intern (h : tree.Offers offers) (name : String) : (tree.intern name).1.Offers offers :=
  { h with }

/-- A new node has no links; it must not have been offered before. -/
theorem create (h : tree.Offers offers) (content : Content)
    (hnew : ∀ p, some ⟨tree.size⟩ ∉ offers p) : (tree.create content).1.Offers offers := by
  have hcases : ∀ {i node}, (tree.create content).1.get? i = some node →
      tree.get? i = some node ∨ i = ⟨tree.size⟩ ∧ tree.get? i = none ∧ node = { content } := by
    intro i node hnode
    rw [get?_create] at hnode
    split at hnode
    next hi =>
      refine .inr ⟨congrArg NodeId.mk hi, ?_, (Option.some.inj hnode).symm⟩
      exact Array.getElem?_eq_none (Nat.le_of_eq hi.symm)
    next => exact .inl hnode
  constructor
  case of_unknown =>
    intro p hp
    rw [get?_create] at hp
    split at hp
    · cases hp
    · exact h.of_unknown hp
  case parent =>
    intro p c node hc
    rcases hcases hc with hc | ⟨rfl, -, rfl⟩
    · exact h.parent hc
    · simp [hnew p]
  case firstChild =>
    intro p node hp
    rcases hcases hp with hp | ⟨-, hnone, rfl⟩
    · exact h.firstChild hp
    · simp [h.of_unknown hnone]
  case lastChild =>
    intro p node hp
    rcases hcases hp with hp | ⟨-, hnone, rfl⟩
    · exact h.lastChild hp
    · simp [h.of_unknown hnone]
  case nextSibling =>
    intro p c node before after hc hoffers
    rcases hcases hc with hc | ⟨rfl, -, rfl⟩
    · exact h.nextSibling hc hoffers
    · exact absurd (by simp [hoffers]) (hnew p)
  case once =>
    intro p c node before after hc hoffers
    rcases hcases hc with hc | ⟨rfl, -, rfl⟩
    · exact h.once hc hoffers
    · exact absurd (by simp [hoffers]) (hnew p)

/-- Offers with one more at the end: a place among them is the end, or it was there before. -/
theorem concat_eq {items before after : List (Option NodeId)} {link child : Option NodeId}
    (h : items ++ [child] = before ++ link :: after) :
    (after = [] ∧ link = child) ∨
      ∃ rest, after = rest ++ [child] ∧ items = before ++ link :: rest := by
  rcases List.eq_nil_or_concat' after with rfl | ⟨rest, last, rfl⟩
  · exact .inl ⟨rfl, (List.singleton_inj.mp (List.append_inj_right' h rfl)).symm⟩
  · rw [← List.cons_append, ← List.append_assoc] at h
    obtain ⟨hitems, hlast⟩ := List.append_inj' h rfl
    exact .inr ⟨rest, by rw [List.singleton_inj.mp hlast], hitems⟩

theorem mem_of_getLast?_join {items : List (Option NodeId)} {id : NodeId}
    (h : items.getLast?.join = some id) : some id ∈ items :=
  List.mem_of_getLast? (Option.join_eq_some_iff.mp h)

/-- A node that was offered is a last child if nothing was offered to its parent behind it. -/
theorem lastChild_eq_some_iff (h : tree.Offers offers) {p c parent : NodeId} {node top : Node}
    {before after : List (Option NodeId)} (hnode : tree.get? c = some node)
    (htop : tree.get? parent = some top) (hoffers : offers p = before ++ some c :: after) :
    top.lastChild = some c ↔ p = parent ∧ after = [] := by
  rw [h.lastChild htop]
  constructor
  · intro hlast
    have hmem : some c ∈ offers p := by simp [hoffers]
    have hother := (h.parent hnode).mpr (mem_of_getLast?_join hlast)
    obtain rfl : p = parent := Option.some.inj (((h.parent hnode).mpr hmem).symm.trans hother)
    refine ⟨rfl, ?_⟩
    cases after with
    | nil => rfl
    | cons link rest =>
      rw [hoffers, List.getLast?_append_of_ne_nil _ (List.cons_ne_nil _ _),
        List.getLast?_cons_cons] at hlast
      exact absurd (mem_of_getLast?_join hlast) (h.once hnode hoffers)
  · rintro ⟨rfl, rfl⟩
    simp [hoffers]

/-- What is attached now was not offered before. -/
theorem not_mem_of_detached (h : tree.Offers offers) {child : Option NodeId}
    (hchild : ∀ id node, child = some id → tree.get? id = some node → node.parent = none)
    {c : NodeId} {node : Node} (hnode : tree.get? c = some node) (hself : child = some c)
    (p : NodeId) : some c ∉ offers p := by
  intro hmem
  cases ((h.parent hnode).mpr hmem).symm.trans (hchild c node hself hnode)

theorem nextSibling_append (h : tree.Offers offers) {parent : NodeId} {top : Node}
    {child : Option NodeId} (htop : tree.get? parent = some top)
    (hchild : ∀ id node, child = some id → tree.get? id = some node → node.parent = none)
    {p c : NodeId} {later : Node} {before after : List (Option NodeId)}
    (hc : (tree.append parent child).get? c = some later)
    (hoffers : (if p = parent then offers p ++ [child] else offers p) =
      before ++ some c :: after) :
    later.nextSibling = after.head?.join := by
  have hlast : top.lastChild = (offers parent).getLast?.join := h.lastChild htop
  rw [get?_append_link htop, Option.map_eq_some_iff] at hc
  obtain ⟨node, hnode, rfl⟩ := hc
  have hfresh := h.not_mem_of_detached hchild hnode
  by_cases hp : p = parent
  · subst hp
    rw [if_pos rfl] at hoffers
    rcases concat_eq hoffers with ⟨rfl, hself⟩ | ⟨rest, rfl, hitems⟩
    · have hnot : top.lastChild ≠ some c := fun hlink =>
        hfresh hself.symm p (mem_of_getLast?_join (hlast ▸ hlink))
      simp [hnot, ← hself]
    · have hself : child ≠ some c := fun hself => hfresh hself p (by simp [hitems])
      have hlink := h.lastChild_eq_some_iff hnode htop hitems
      -- The node gets a new next sibling if it is the last one so far.
      cases rest <;> simp [hlink, hself, h.nextSibling hnode hitems]
  · rw [if_neg hp] at hoffers
    have hself : child ≠ some c := fun hself => hfresh hself p (by simp [hoffers])
    have hlink := h.lastChild_eq_some_iff hnode htop hoffers
    simp [hlink, hp, hself, h.nextSibling hnode hoffers]

/-- A node without parent, or an unknown one, is added at the end of what was offered. -/
theorem append (h : tree.Offers offers) {parent : NodeId} {top : Node} {child : Option NodeId}
    (htop : tree.get? parent = some top)
    (hchild : ∀ id node, child = some id → tree.get? id = some node → node.parent = none) :
    (tree.append parent child).Offers
      fun p => if p = parent then offers p ++ [child] else offers p := by
  constructor
  case of_unknown =>
    intro p hp
    rw [get?_append_link htop, Option.map_eq_none_iff] at hp
    have hne : p ≠ parent := by
      rintro rfl
      cases hp.symm.trans htop
    rw [if_neg hne, h.of_unknown hp]
  case parent =>
    intro p c later hc
    rw [get?_append_link htop, Option.map_eq_some_iff] at hc
    obtain ⟨node, hnode, rfl⟩ := hc
    by_cases hself : child = some c
    · have hnot := h.not_mem_of_detached hchild hnode hself p
      by_cases hp : p = parent <;> simp [hself, hnot, hp, eq_comm (a := parent)]
    · rw [if_neg hself, h.parent hnode]
      split
      · simp [Ne.symm hself]
      · rfl
  case firstChild =>
    intro p later hp
    rw [get?_append_link htop, Option.map_eq_some_iff] at hp
    obtain ⟨node, hnode, rfl⟩ := hp
    have hfirst := h.firstChild hnode
    by_cases hp : p = parent
    · cases child <;> simp [hp, hp ▸ hfirst, List.reduceOption_append]
    · simp [hp, hfirst]
  case lastChild =>
    intro p later hp
    rw [get?_append_link htop, Option.map_eq_some_iff] at hp
    obtain ⟨node, hnode, rfl⟩ := hp
    by_cases hp : p = parent
    · simp [hp]
    · simp [hp, h.lastChild hnode]
  case nextSibling => exact fun hc hoffers => h.nextSibling_append htop hchild hc hoffers
  case once =>
    intro p c later before after hc hoffers
    rw [get?_append_link htop, Option.map_eq_some_iff] at hc
    obtain ⟨node, hnode, -⟩ := hc
    by_cases hp : p = parent
    · subst hp
      rw [if_pos rfl] at hoffers
      rcases concat_eq hoffers with ⟨rfl, -⟩ | ⟨rest, rfl, hitems⟩
      · exact List.not_mem_nil
      · have hself : some c ≠ child := fun hself =>
          h.not_mem_of_detached hchild hnode hself.symm p (by simp [hitems])
        simp [h.once hnode hitems, hself]
    · rw [if_neg hp] at hoffers
      exact h.once hnode hoffers

/-! ## Calls -/

/-- A call adds what it offers, unless it creates a node where an unknown one was offered. -/
theorem perform (h : tree.Offers offers) {action : Action}
    (horderly : (Turn.mk tree action).isStray = false → (Turn.mk tree action).IsOrderly)
    (hunknown : ∀ p id, some id ∈ offers p → tree.knows (some id) = false →
      (tree.perform action).knows (some id) = false) :
    (tree.perform action).Offers
      fun p => offers p ++ ((Turn.mk tree action).offered? p).toList := by
  have hnothing {next : Tree} (hnext : next.Offers offers) :
      next.Offers fun p => offers p ++ (none : Option (Option NodeId)).toList := by
    simpa using hnext
  have hnew {content : Content} {start : Tree} (hsize : start.size = tree.size)
      (hperform : tree.perform action = (start.create content).1) (p : NodeId) :
      some ⟨start.size⟩ ∉ offers p := by
    intro hmem
    have hbefore : tree.knows (some ⟨start.size⟩) = false := by
      rw [Bool.eq_false_iff, ne_eq, knows_iff_lt, hsize]
      exact Nat.lt_irrefl _
    have hafter : (start.create content).1.knows (some ⟨start.size⟩) = true := by
      rw [knows_iff_lt, size_create]
      exact Nat.lt_succ_self _
    cases (hperform ▸ hunknown p _ hmem hbefore).symm.trans hafter
  cases action with
  | intern name => exact hnothing (h.intern name)
  | create content => exact hnothing (h.create content (hnew rfl rfl))
  | createElement tag => exact hnothing ((h.intern tag).create _ (hnew rfl rfl))
  | createDoctype name publicId systemId =>
    exact hnothing ((h.intern name).create _ (hnew rfl rfl))
  | createInstruction target text => exact hnothing ((h.intern target).create _ (hnew rfl rfl))
  | append parent child =>
    cases htop : tree.get? parent with
    | none =>
      have hsame : tree.append parent child = tree := by simp only [Tree.append, htop]
      have hoffered : ∀ p, (Turn.mk tree (.append parent child)).offered? p = none := by
        intro p
        refine if_neg ?_
        rintro ⟨rfl, hknown⟩
        rw [knows_eq_false.mpr htop] at hknown
        cases hknown
      simp only [Tree.perform, hsame, hoffered]
      exact hnothing h
    | some top =>
      have hparent : tree.knows (some parent) = true := knows_iff_exists.mpr ⟨top, htop⟩
      have hoffered : (fun p => if p = parent then offers p ++ [child] else offers p) =
          fun p => offers p ++ ((Turn.mk tree (.append parent child)).offered? p).toList := by
        funext p
        by_cases hp : p = parent
        · simp [Turn.offered?, hp, hparent]
        · simp [Turn.offered?, hp, Ne.symm hp]
      refine hoffered ▸ h.append htop fun id node hid hnode => ?_
      have hchild : tree.knows child = true := hid ▸ knows_iff_exists.mpr ⟨node, hnode⟩
      have hturn := horderly (by simp [Turn.isStray, hparent, hchild])
      subst hid
      simpa [parent?, hnode] using hturn.1

/-- Calls add what they offer, unless an unknown one among it is a node in the end. -/
theorem build (h : tree.Offers offers)
    (horderly : ∀ turn ∈ tree.turns actions, turn.isStray = false → turn.IsOrderly)
    (hunknown : ∀ p id, some id ∈ offers p → tree.knows (some id) = false →
      (tree.build actions).knows (some id) = false)
    (hstays : ∀ turn ∈ tree.turns actions, turn.StaysUnknown (tree.build actions)) :
    (tree.build actions).Offers fun p => offers p ++ offeredTo p (tree.turns actions) := by
  induction actions generalizing tree offers with
  | nil => simpa [turns, offeredTo, Tree.build] using h
  | cons action rest ih =>
    simp only [turns, List.forall_mem_cons] at horderly hstays
    obtain ⟨hfirst, hrest⟩ := horderly
    obtain ⟨hfirstStays, hrestStays⟩ := hstays
    have hkept {link : Option NodeId} (hlink : tree.knows link = true) :
        (tree.perform action).knows link = true := knows_build hlink [action]
    have hlast {link : Option NodeId} (hlater : (tree.build (action :: rest)).knows link = false) :
        (tree.perform action).knows link = false := by
      refine Bool.eq_false_iff.mpr fun hknown => ?_
      cases hlater.symm.trans (knows_build hknown rest)
    have hnext := h.perform hfirst fun p id hmem hnone => hlast (hunknown p id hmem hnone)
    have hoffered : (fun p => offers p ++ offeredTo p (tree.turns (action :: rest))) = fun p =>
        offers p ++ ((Turn.mk tree action).offered? p).toList ++
          offeredTo p ((tree.perform action).turns rest) := by
      funext p
      cases happended : (Turn.mk tree action).offered? p <;>
        simp [offeredTo, turns, happended]
    rw [hoffered]
    refine ih hnext hrest (fun p id hmem hnone => ?_) hrestStays
    have hbefore : tree.knows (some id) = false := by
      refine Bool.eq_false_iff.mpr fun hknown => ?_
      cases hnone.symm.trans (hkept hknown)
    rcases List.mem_append.mp hmem with hmem | hmem
    · exact hunknown p id hmem hbefore
    · obtain ⟨rfl, hparent⟩ := Turn.offered?_eq_some.mp (Option.mem_toList.mp hmem)
      exact hfirstStays hparent hbefore

/-! ## Walks -/

/-- Going from one of the offers on passes the nodes in front of the first unknown one and ends
    there. -/
theorem exists_siblings (h : tree.Offers offers) {p : NodeId} {before rest : List (Option NodeId)}
    (hoffers : offers p = before ++ rest) :
    ∃ ids, rest.takeWhile tree.knows = ids.map some ∧ ids.Nodup ∧
      tree.Siblings rest.head?.join ids := by
  induction rest generalizing before with
  | nil => exact ⟨[], rfl, List.nodup_nil, .done⟩
  | cons link rest ih =>
    rw [List.head?_cons, Option.join_some]
    cases hlink : tree.knows link with
    | false =>
      refine ⟨[], List.takeWhile_cons_of_neg (by simp [hlink]), List.nodup_nil, ?_⟩
      cases link with
      | none => exact .done
      | some id => exact .lost (knows_eq_false.mp hlink)
    | true =>
      cases link with
      | none => cases hlink
      | some id =>
        obtain ⟨node, hnode⟩ := knows_iff_exists.mp hlink
        have hsplit : offers p = (before ++ [some id]) ++ rest := by
          rw [hoffers, List.append_assoc, List.singleton_append]
        obtain ⟨ids, htake, hnodup, hwalk⟩ := ih hsplit
        have hnew : id ∉ ids := by
          intro hmem
          have hlater : some id ∈ rest.takeWhile tree.knows := htake ▸ List.mem_map_of_mem hmem
          exact h.once hnode hoffers ((List.takeWhile_sublist _).mem hlater)
        refine ⟨id :: ids, ?_, List.nodup_cons.mpr ⟨hnew, hnodup⟩, .next hnode ?_⟩
        · rw [List.takeWhile_cons_of_pos hlink, htake, List.map_cons]
        · rw [h.nextSibling hnode hoffers]
          exact hwalk

theorem head?_reduceOption (links : List (Option NodeId)) :
    links.reduceOption.head? = (links.dropWhile Option.isNone).head?.join := by
  induction links with
  | nil => rfl
  | cons link rest ih =>
    cases link with
    | none => simpa using ih
    | some id => rfl

/-- The walk along the children ends, after the nodes that were offered in front of the first
    unknown one, where no place at all does not count before any other link. -/
theorem children_eq (h : tree.Offers offers) (p : NodeId) :
    tree.Siblings (tree.firstChild? p) (tree.children p) ∧
      (tree.children p).map some =
        ((offers p).dropWhile Option.isNone).takeWhile tree.knows := by
  unfold firstChild? children childrenWithin
  cases hp : tree.get? p with
  | none => simpa [h.of_unknown hp] using Siblings.done
  | some node =>
    have hsplit := (List.takeWhile_append_dropWhile (p := Option.isNone) (l := offers p)).symm
    obtain ⟨ids, htake, hnodup, hwalk⟩ := h.exists_siblings hsplit
    have hlength : ids.length ≤ tree.size := Linked.length_le_size hnodup fun id hid =>
      knows_iff_exists.mp (List.mem_takeWhile_imp (htake ▸ List.mem_map_of_mem hid))
    rw [← head?_reduceOption, ← h.firstChild hp] at hwalk
    simp only [Option.bind_some, hwalk.siblingsFrom_eq hlength]
    exact ⟨hwalk, htake.symm⟩

end Offers

/-! ## Children that are lost -/

theorem effective_cons (turn : Turn) (rest : List Turn) :
    effective (turn :: rest) =
      if turn.isStray then effective rest else turn.action :: effective rest := by
  cases hstray : turn.isStray <;> simp [effective, hstray]

theorem offeredTo_cons (parent : NodeId) (turn : Turn) (rest : List Turn) :
    offeredTo parent (turn :: rest) =
      (turn.offered? parent).toList ++ offeredTo parent rest := by
  cases hoffered : turn.offered? parent <;> simp [offeredTo, hoffered]

/-- What a call offers is a node later on exactly if the call is no stray. -/
theorem Turn.filter_offered? {turn : Turn} {later : Tree} (parent : NodeId)
    (hlater : ∀ link, turn.before.knows link = true → later.knows link = true)
    (hstays : turn.StaysUnknown later) :
    (turn.offered? parent).toList.filter later.knows =
      if turn.isStray then [] else (turn.action.appended? parent).toList.map some := by
  obtain ⟨tree, action⟩ := turn
  cases action with
  | append other child =>
    by_cases hother : other = parent
    · subst hother
      cases hparent : tree.knows (some other) with
      | false => simp [offered?, isStray, hparent]
      | true =>
        have hoffered : (Turn.mk tree (.append other child)).offered? other = some child :=
          offered?_eq_some.mpr ⟨rfl, hparent⟩
        cases hchild : tree.knows child with
        | false => simp [hoffered, isStray, hparent, hchild, hstays hparent hchild]
        | true =>
          cases child with
          | none => cases hchild
          | some id =>
            simp [hoffered, isStray, hparent, hchild, Action.appended?, hlater _ hchild]
    · simp [offered?, Action.appended?, hother]
  | _ => rfl

/-- What is offered and is a node in the end are the children of the calls that are no strays. -/
theorem filter_offeredTo (parent : NodeId)
    (hstays : ∀ turn ∈ tree.turns actions, turn.StaysUnknown (tree.build actions)) :
    (offeredTo parent (tree.turns actions)).filter (tree.build actions).knows =
      (appendedTo parent (effective (tree.turns actions))).map some := by
  induction actions generalizing tree with
  | nil => rfl
  | cons action rest ih =>
    simp only [turns, List.forall_mem_cons] at hstays ⊢
    obtain ⟨hfirst, hrest⟩ := hstays
    have hhead := Turn.filter_offered? parent (fun _ h => knows_build h (action :: rest)) hfirst
    have htail : (offeredTo parent ((tree.perform action).turns rest)).filter
        (tree.build (action :: rest)).knows = _ := ih hrest
    rw [offeredTo_cons, List.filter_append, hhead, htail, effective_cons]
    split
    next => rfl
    next => rw [appendedTo_cons, List.map_append]

/-- The nodes in front of the first unknown link are all nodes among the links exactly if only
    unknown ones follow. -/
theorem takeWhile_eq_iff {links : List (Option NodeId)} {ids : List NodeId}
    (hids : links.filter tree.knows = ids.map some) :
    (links.dropWhile Option.isNone).takeWhile tree.knows = ids.map some ↔
      ∃ n strays, links = List.replicate n none ++ ids.map some ++ strays ∧
        ∀ stray ∈ strays, tree.knows stray = false := by
  have hknown : ∀ link ∈ ids.map some, tree.knows link = true := by
    intro link hmem
    rw [← hids] at hmem
    exact (List.mem_filter.mp hmem).2
  constructor
  · intro hwalk
    have hnone : links.takeWhile Option.isNone =
        List.replicate (links.takeWhile Option.isNone).length none :=
      List.eq_replicate_iff.mpr ⟨rfl, fun link hlink =>
        Option.isNone_iff_eq_none.mp (List.mem_takeWhile_imp hlink)⟩
    have hlinks : links = links.takeWhile Option.isNone ++ ids.map some ++
        (links.dropWhile Option.isNone).dropWhile tree.knows := by
      rw [← hwalk, List.append_assoc, List.takeWhile_append_dropWhile,
        List.takeWhile_append_dropWhile]
    refine ⟨_, _, hnone ▸ hlinks, ?_⟩
    -- The nodes among the links are used up, so that none is left behind.
    have hleft : ((links.dropWhile Option.isNone).dropWhile tree.knows).filter tree.knows = [] := by
      have hall := hids
      rw [hlinks, List.filter_append, List.filter_append, hnone, List.filter_replicate,
        List.filter_eq_self.mpr hknown] at hall
      simpa [knows_none] using hall
    simpa using hleft
  · rintro ⟨n, strays, rfl, hstrays⟩
    have hnothing {rest : List (Option NodeId)} (hrest : rest ⊆ strays) :
        rest.takeWhile tree.knows = [] := by
      refine List.eq_nil_iff_forall_not_mem.mpr fun link hlink => ?_
      cases (List.mem_takeWhile_imp hlink).symm.trans
        (hstrays link (hrest ((List.takeWhile_sublist _).mem hlink)))
    rw [List.append_assoc,
      List.dropWhile_append_of_pos fun link hlink => by simp [List.eq_of_mem_replicate hlink]]
    cases ids with
    | nil => exact hnothing (List.dropWhile_sublist _).subset
    | cons id ids =>
      rw [List.map_cons, List.cons_append, List.dropWhile_cons_of_neg (by simp), ← List.cons_append,
        ← List.map_cons, List.takeWhile_append_of_pos hknown, hnothing (List.Subset.refl _),
        List.append_nil]

/-- A tree is built by calls of which each one is a stray, naming a parent or a child that there
    is not, or else in order.

    The strays all change nothing exactly if each of them has an unknown parent or offers no
    place to a parent without children; and then the tree is the one that the other calls build,
    and the children of a node are what these append to it.

    If no unknown child is a node in the end, the walk along the children ends, after the nodes
    that were offered in front of the first unknown one, where no place at all does not count
    before any other link. So the children are all that the other calls append exactly if only
    unknown ones come behind these. -/
theorem children_build_strays {actions : List Action}
    (horderly : ∀ turn ∈ Tree.empty.turns actions, turn.isStray = false → turn.IsOrderly) :
    let tree := Tree.empty.build actions
    let calls := Tree.empty.turns actions
    ((∀ turn ∈ calls, turn.isStray = true → turn.after = turn.before) ↔
      ∀ turn ∈ calls, turn.isStray = true → turn.IsIdle) ∧
    ((∀ turn ∈ calls, turn.isStray = true → turn.IsIdle) →
      tree = Tree.empty.build (effective calls) ∧ ∀ parent,
        tree.Siblings (tree.firstChild? parent) (tree.children parent) ∧
        tree.children parent = appendedTo parent (effective calls)) ∧
    ((∀ turn ∈ calls, turn.StaysUnknown tree) → ∀ parent,
      tree.Siblings (tree.firstChild? parent) (tree.children parent) ∧
      (tree.children parent).map some =
        ((offeredTo parent calls).dropWhile Option.isNone).takeWhile tree.knows ∧
      (tree.children parent = appendedTo parent (effective calls) ↔
        ∃ n strays, offeredTo parent calls =
            List.replicate n none ++ (appendedTo parent (effective calls)).map some ++ strays ∧
          ∀ stray ∈ strays, tree.knows stray = false)) := by
  intro tree calls
  refine ⟨strays_change_nothing_iff .empty horderly, fun hidle => ?_, fun hstays parent => ?_⟩
  · obtain ⟨hbuild, hrecords⟩ := records_of_idle .empty horderly hidle
    have hkids := hrecords.linked.children_eq
    have hlinked : tree.Linked tree.children := funext hkids ▸ hrecords.linked
    exact ⟨hbuild, fun parent => ⟨hlinked.siblings_iff.mpr rfl, hkids parent⟩⟩
  · have hoffers := Offers.empty.build horderly
      (fun p id hmem => absurd hmem List.not_mem_nil) hstays
    obtain ⟨hends, hwalk⟩ := hoffers.children_eq parent
    rw [List.nil_append] at hwalk
    refine ⟨hends, hwalk, ?_⟩
    rw [← takeWhile_eq_iff (filter_offeredTo parent hstays), ← hwalk,
      (List.map_injective_iff.mpr fun _ _ => Option.some.inj).eq_iff]

/-- An append to a node without parent closes no circle. -/
theorem Turn.isOrderly_of_top {parent child : NodeId} (hchild : tree.parent? child = none)
    (hparent : tree.parent? parent = none) (hne : parent ≠ child) :
    (Turn.mk tree (.append parent (some child))).IsOrderly := by
  refine ⟨hchild, fun hpath => ?_⟩
  obtain heq | ⟨outer, houter, -⟩ := hpath.cases_head
  · exact hne heq
  · cases hparent.symm.trans houter

/-- A list with two items. A stray with an unknown parent and one that offers no place to the
    list before its items change nothing; one that offers an unknown item behind them does, but
    no child is lost. -/
theorem children_build_strays_list :
    let idle : List Action := [.createElement "ul", .createElement "li", .createElement "li",
      .append ⟨9⟩ (some ⟨1⟩), .append ⟨1⟩ none, .append ⟨1⟩ (some ⟨2⟩), .append ⟨1⟩ (some ⟨3⟩)]
    let actions := idle ++ [.append ⟨1⟩ (some ⟨7⟩)]
    (∀ turn ∈ Tree.empty.turns actions, turn.isStray = false → turn.IsOrderly) ∧
      (∀ turn ∈ Tree.empty.turns idle, turn.isStray = true → turn.IsIdle) ∧
      (∀ turn ∈ Tree.empty.turns actions, turn.StaysUnknown (Tree.empty.build actions)) ∧
      Tree.empty.build idle = Tree.empty.build (effective (Tree.empty.turns idle)) ∧
      (Tree.empty.build actions).children ⟨1⟩ = [⟨2⟩, ⟨3⟩] := by
  intro idle actions
  have horderly : ∀ turn ∈ Tree.empty.turns actions, turn.isStray = false → turn.IsOrderly := by
    simp only [actions, idle, List.cons_append, List.nil_append, turns, List.forall_mem_cons]
    refine ⟨fun _ => trivial, fun _ => trivial, fun _ => trivial,
      fun _ => Turn.isOrderly_of_top rfl rfl ?_, fun _ => trivial,
      fun _ => Turn.isOrderly_of_top rfl rfl ?_, fun _ => Turn.isOrderly_of_top rfl rfl ?_,
      fun _ => Turn.isOrderly_of_top rfl rfl ?_, List.forall_mem_nil _⟩ <;> decide
  have hidle : ∀ turn ∈ Tree.empty.turns idle, turn.isStray = true → turn.IsIdle := by
    simp only [idle, turns, List.forall_mem_cons]
    exact ⟨fun _ => trivial, fun _ => trivial, fun _ => trivial, fun _ => .inl rfl,
      fun _ => .inr ⟨rfl, rfl⟩, by rintro ⟨⟩, by rintro ⟨⟩, List.forall_mem_nil _⟩
  have hstays : ∀ turn ∈ Tree.empty.turns actions,
      turn.StaysUnknown (Tree.empty.build actions) := by
    simp only [actions, idle, List.cons_append, List.nil_append, turns, List.forall_mem_cons]
    exact ⟨trivial, trivial, trivial, by rintro ⟨⟩, fun _ _ => rfl, by rintro - ⟨⟩,
      by rintro - ⟨⟩, fun _ _ => rfl, List.forall_mem_nil _⟩
  have horderlyIdle : ∀ turn ∈ Tree.empty.turns idle, turn.isStray = false → turn.IsOrderly :=
    fun turn hturn => horderly turn (List.mem_append_left _ hturn)
  obtain ⟨-, hbuild, -⟩ := children_build_strays horderlyIdle
  obtain ⟨-, -, hchildren⟩ := children_build_strays horderly
  obtain ⟨-, -, hlost⟩ := hchildren hstays ⟨1⟩
  exact ⟨horderly, hidle, hstays, (hbuild hidle).1, hlost.mpr ⟨1, [some ⟨7⟩], rfl, by decide⟩⟩

/-- A node that is appended behind a place where there is no node, or behind no place at all, is
    not among the children. -/
theorem children_build_lost :
    let actions (stray : Option NodeId) : List Action := [.createElement "a", .createElement "b",
      .append root (some ⟨1⟩), .append root stray, .append root (some ⟨2⟩)]
    let missing := actions (some ⟨9⟩)
    let nowhere := actions none
    (∀ turn ∈ Tree.empty.turns missing, turn.isStray = false → turn.IsOrderly) ∧
      appendedTo root (effective (Tree.empty.turns missing)) = [⟨1⟩, ⟨2⟩] ∧
      (Tree.empty.build missing).children root = [⟨1⟩] ∧
      (∀ turn ∈ Tree.empty.turns nowhere, turn.isStray = false → turn.IsOrderly) ∧
      appendedTo root (effective (Tree.empty.turns nowhere)) = [⟨1⟩, ⟨2⟩] ∧
      (Tree.empty.build nowhere).children root = [⟨1⟩] := by
  intro actions missing nowhere
  refine ⟨?_, rfl, rfl, ?_, rfl, rfl⟩
  all_goals
    simp only [missing, nowhere, actions, turns, List.forall_mem_cons]
    exact ⟨fun _ => trivial, fun _ => trivial, fun _ => Turn.isOrderly_of_top rfl rfl (by decide),
      by rintro ⟨⟩, fun _ => Turn.isOrderly_of_top rfl rfl (by decide), List.forall_mem_nil _⟩

end Tree

end HtmlTemplate
