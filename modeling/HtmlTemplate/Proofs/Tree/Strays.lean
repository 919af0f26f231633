-- SUMMARY: Appends that name a node there is not, and which of them change nothing.
import HtmlTemplate.Proofs.Tree.Building
import Mathlib.Data.List.ReduceOption

/-!
# Stray appends

An append with an unknown parent does nothing. One with an unknown child is not refused: the
parent takes the child for its last one, the last child so far takes it for its next sibling,
and a parent without children takes it for its first one. From then on no walk along the
children passes it, and what is appended later is lost behind it.

Here a tree is built by calls of which some are such strays, and all others attach a node
without parent and close no circle. Each call is looked at in turn, with the tree that it
finds. A stray changes nothing exactly when its parent is unknown, or it gives no place at all
to a parent without children. If all strays are of this kind, the tree is that of the other
calls. For any strays, the children that a walk finds are told by what was offered to the
parent, as long as the nodes that there were not are not created later.
-/

namespace HtmlTemplate

namespace Tree

variable {tree : Tree} {kids : NodeId → List NodeId} {actions : List Action}

/-! ## Known nodes -/

/-- Whether a link leads to a node. -/
def knows (tree : Tree) (link : Option NodeId) : Bool := (link.bind tree.get?).isSome

theorem knows_none : tree.knows none = false := rfl

theorem knows_iff_exists {id : NodeId} :
    tree.knows (some id) = true ↔ ∃ node, tree.get? id = some node := Option.isSome_iff_exists

theorem knows_iff_lt {id : NodeId} : tree.knows (some id) = true ↔ id.index < tree.size := by
  simp [knows, get?, size]

theorem knows_eq_false {id : NodeId} :
    tree.knows (some id) = false ↔ tree.get? id = none := Option.isSome_eq_false_iff.trans
  Option.isNone_iff_eq_none

theorem size_create (tree : Tree) (content : Content) :
    (tree.create content).1.size = tree.size + 1 := Array.size_push _

theorem size_perform_le (tree : Tree) (action : Action) :
    tree.size ≤ (tree.perform action).size := by
  have hcreate (tree : Tree) (content : Content) : tree.size ≤ (tree.create content).1.size :=
    tree.size_create content ▸ Nat.le_succ _
  cases action with
  | intern => exact Nat.le_refl _
  | create content => exact hcreate tree content
  | createElement tag => exact hcreate (tree.intern tag).1 _
  | createDoctype name => exact hcreate (tree.intern name).1 _
  | createInstruction target => exact hcreate (tree.intern target).1 _
  | append parent child => exact Nat.le_of_eq (tree.size_append parent child).symm

theorem size_build_le (tree : Tree) (actions : List Action) :
    tree.size ≤ (tree.build actions).size := by
  induction actions generalizing tree with
  | nil => exact Nat.le_refl _
  | cons action rest ih =>
    exact Nat.le_trans (tree.size_perform_le action) (ih (tree.perform action))

/-- No call takes a node away. -/
theorem knows_build {link : Option NodeId} (h : tree.knows link = true) (actions : List Action) :
    (tree.build actions).knows link = true := by
  cases link with
  | none => cases h
  | some id =>
    rw [knows_iff_lt] at h ⊢
    exact Nat.lt_of_lt_of_le h (tree.size_build_le actions)

/-! ## Calls in turn -/

/-- A call with the tree that it finds. -/
structure Turn where
  before : Tree
  action : Action

/-- The calls with the trees that they find one after the other. -/
def turns (tree : Tree) : List Action → List Turn
  | [] => []
  | action :: rest => ⟨tree, action⟩ :: (tree.perform action).turns rest

namespace Turn

/-- The tree that the call leaves. -/
def after (turn : Turn) : Tree := turn.before.perform turn.action

/-- An append that names a parent or a child which there is not. -/
def isStray (turn : Turn) : Bool :=
  match turn.action with
  | .append parent child => !(turn.before.knows (some parent) && turn.before.knows child)
  | _ => false

/-- What an append attaches has no parent yet, and it is not met on the way from the new parent
    outwards. -/
def IsOrderly (turn : Turn) : Prop :=
  match turn.action with
  | .append parent (some child) => turn.before.parent? child = none ∧
      ¬ Relation.ReflTransGen (fun id outer => turn.before.parent? id = some outer) parent child
  | _ => True

/-- An append to an unknown parent, or of no place to a parent without children. -/
def IsIdle (turn : Turn) : Prop :=
  match turn.action with
  | .append parent child => turn.before.knows (some parent) = false ∨
      child = none ∧ turn.before.children parent = []
  | _ => True

/-- What an append to a known parent names as its child. -/
def offered? (parent : NodeId) (turn : Turn) : Option (Option NodeId) :=
  match turn.action with
  | .append other child =>
    if other = parent ∧ turn.before.knows (some parent) = true then some child else none
  | _ => none

/-- An unknown child of a known parent is no node of a later tree either. -/
def StaysUnknown (later : Tree) (turn : Turn) : Prop :=
  match turn.action with
  | .append parent child => turn.before.knows (some parent) = true →
      turn.before.knows child = false → later.knows child = false
  | _ => True

theorem offered?_eq_some {turn : Turn} {parent : NodeId} {child : Option NodeId} :
    turn.offered? parent = some child ↔
      turn.action = .append parent child ∧ turn.before.knows (some parent) = true := by
  obtain ⟨tree, action⟩ := turn
  cases action with
  | append other link =>
    simp only [offered?, Option.ite_none_right_eq_some, Option.some.injEq, Action.append.injEq]
    constructor
    · rintro ⟨⟨rfl, hknown⟩, rfl⟩
      exact ⟨⟨rfl, rfl⟩, hknown⟩
    · rintro ⟨⟨rfl, rfl⟩, hknown⟩
      exact ⟨⟨rfl, hknown⟩, rfl⟩
  | _ => simp [offered?]

end Turn

/-- The calls that are no strays. -/
def effective (turns : List Turn) : List Action :=
  (turns.filter fun turn => !turn.isStray).map (·.action)

/-- What was named as a child of a known parent, in order. -/
def offeredTo (parent : NodeId) (turns : List Turn) : List (Option NodeId) :=
  turns.filterMap (Turn.offered? parent)

/-! ## Strays that change nothing -/

theorem ext_get? {first second : Tree} (hnames : first.names = second.names)
    (hget : ∀ id, first.get? id = second.get? id) : first = second := by
  obtain ⟨nodes, names⟩ := first
  obtain ⟨nodes', names'⟩ := second
  obtain rfl : nodes = nodes' := Array.ext_getElem? fun index => hget ⟨index⟩
  obtain rfl : names = names' := hnames
  rfl

/-- What an append does to the links of each node, whether there is a child or not. -/
theorem get?_append_link {parent : NodeId} {top : Node} (hparent : tree.get? parent = some top)
    (child : Option NodeId) (i : NodeId) :
    (tree.append parent child).get? i = (tree.get? i).map fun node =>
      { content := node.content
        parent := if child = some i then some parent else node.parent
        firstChild := if i = parent then node.firstChild <|> child else node.firstChild
        lastChild := if i = parent then child else node.lastChild
        prevSibling := if child = some i then top.lastChild else node.prevSibling
        nextSibling := if top.lastChild = some i then child
          else if child = some i then none else node.nextSibling } := by
  cases child with
  | some child => simp only [get?_append hparent, Option.some.injEq, eq_comm (a := child)]
  | none =>
    simp only [append, hparent]
    cases top.lastChild with
    | none =>
      simp only [get?_update, reduceCtorEq, if_false]
      congr 1
      funext node
      split_ifs <;> rfl
    | some last =>
      simp only [get?_update, Option.map_map, Function.comp_def, Option.some.injEq,
        eq_comm (a := last), reduceCtorEq, if_false]
      congr 1
      funext node
      split_ifs <;> rfl

/-- An unknown child becomes the last child, and no link has led to it so far. -/
theorem append_eq_self_iff (h : tree.Records kids) {parent : NodeId} {top : Node}
    {child : Option NodeId} (htop : tree.get? parent = some top)
    (hchild : tree.knows child = false) :
    tree.append parent child = tree ↔ child = none ∧ kids parent = [] := by
  have hlast : top.lastChild = (kids parent).getLast? := h.linked.lastChild htop
  constructor
  · intro hsame
    have hself := get?_append_link htop child parent
    rw [hsame, htop, Option.map_some, Option.some.injEq] at hself
    have hlink : top.lastChild = child := by simpa using congrArg Node.lastChild hself
    rw [hlast] at hlink
    cases child with
    | none => exact ⟨rfl, List.getLast?_eq_none_iff.mp hlink⟩
    | some id =>
      obtain ⟨node, hnode⟩ := h.linked.get?_child (List.mem_of_getLast? hlink)
      cases (knows_eq_false.mp hchild).symm.trans hnode
  · rintro ⟨rfl, hkids⟩
    have hnone : top.lastChild = none := by rw [hlast, hkids, List.getLast?_nil]
    refine ext_get? (names_append ..) fun id => ?_
    rw [get?_append_link htop, hnone]
    by_cases hid : id = parent
    · obtain ⟨_, _, _, last, _, _⟩ := top
      obtain rfl : last = none := hnone
      simp [hid, htop]
    · simp [hid]

namespace Turn

variable {turn : Turn}

/-- A stray changes nothing exactly if it is idle. -/
theorem after_eq_before_iff (h : turn.before.Records kids) (hstray : turn.isStray = true) :
    turn.after = turn.before ↔ turn.IsIdle := by
  obtain ⟨tree, action⟩ := turn
  cases action with
  | append parent child =>
    simp only [after, IsIdle, perform, h.linked.children_eq]
    cases htop : tree.get? parent with
    | none => simp [append, htop, knows]
    | some top =>
      have hparent : tree.knows (some parent) = true := knows_iff_exists.mpr ⟨top, htop⟩
      have hchild : tree.knows child = false := by simpa [isStray, hparent] using hstray
      simp only [hparent, Bool.true_eq_false, false_or]
      exact append_eq_self_iff h htop hchild
  | _ => cases hstray

/-- What is not below a node along the children is not met outwards along the parents. -/
theorem admits (h : turn.before.Records kids) (hstray : turn.isStray = false)
    (horderly : turn.IsOrderly) : turn.before.Admits turn.action := by
  obtain ⟨tree, action⟩ := turn
  cases action with
  | append parent child =>
    have hknown : tree.knows (some parent) = true ∧ tree.knows child = true := by
      simpa [isStray] using hstray
    obtain ⟨hparent, hchild⟩ := hknown
    cases child with
    | none => cases hchild
    | some child =>
      obtain ⟨hdetached, hcircle⟩ := horderly
      obtain ⟨node, hnode⟩ := knows_iff_exists.mp hchild
      simp only [h.linked.parent?_eq_some] at hcircle
      refine ⟨hparent, ?_, fun hwithin => hcircle ?_⟩
      · simpa [parent?, hnode] using hdetached
      · rw [within_iff, funext h.linked.children_eq] at hwithin
        exact hwithin.swap
  | _ => trivial

end Turn

/-- All strays change nothing exactly if each of them is idle. -/
theorem strays_change_nothing_iff (h : tree.Records kids)
    (horderly : ∀ turn ∈ tree.turns actions, turn.isStray = false → turn.IsOrderly) :
    (∀ turn ∈ tree.turns actions, turn.isStray = true → turn.after = turn.before) ↔
      ∀ turn ∈ tree.turns actions, turn.isStray = true → turn.IsIdle := by
  induction actions generalizing tree kids with
  | nil => simp [turns]
  | cons action rest ih =>
    simp only [turns, List.forall_mem_cons] at horderly ⊢
    obtain ⟨hfirst, hrest⟩ := horderly
    cases hstray : (Turn.mk tree action).isStray with
    | false =>
      have hnext := h.perform (Turn.admits h hstray (hfirst hstray))
      simpa using ih hnext hrest
    | true =>
      have hidle := Turn.after_eq_before_iff h hstray
      simp only [true_imp_iff, hidle]
      -- Behind an idle stray the rest begins with the very tree that it would without it.
      refine and_congr_right fun hself => ?_
      have hsame : tree.perform action = tree := hidle.mpr hself
      rw [hsame] at hrest ⊢
      exact ih h hrest

/-- If each stray is idle, the tree is the one that the other calls build. -/
theorem records_of_idle (h : tree.Records kids)
    (horderly : ∀ turn ∈ tree.turns actions, turn.isStray = false → turn.IsOrderly)
    (hidle : ∀ turn ∈ tree.turns actions, turn.isStray = true → turn.IsIdle) :
    tree.build actions = tree.build (effective (tree.turns actions)) ∧
      (tree.build actions).Records
        fun parent => kids parent ++ appendedTo parent (effective (tree.turns actions)) := by
  suffices heffective : tree.build actions = tree.build (effective (tree.turns actions)) ∧
      tree.Orderly (effective (tree.turns actions)) by
    obtain ⟨hbuild, hcalls⟩ := heffective
    exact ⟨hbuild, hbuild ▸ h.build hcalls⟩
  induction actions generalizing tree kids with
  | nil => exact ⟨rfl, trivial⟩
  | cons action rest ih =>
    simp only [turns, List.forall_mem_cons] at horderly hidle ⊢
    obtain ⟨hfirst, hrest⟩ := horderly
    obtain ⟨hfirstIdle, hrestIdle⟩ := hidle
    cases hstray : (Turn.mk tree action).isStray with
    | false =>
      have hadmits := Turn.admits h hstray (hfirst hstray)
      obtain ⟨hbuild, hcalls⟩ := ih (h.perform hadmits) hrest hrestIdle
      simp only [effective, List.filter_cons, hstray, Bool.not_false, if_true, List.map_cons]
      exact ⟨hbuild, hadmits, hcalls⟩
    | true =>
      have hsame : tree.perform action = tree :=
        (Turn.after_eq_before_iff h hstray).mpr (hfirstIdle hstray)
      simp only [effective, List.filter_cons, hstray, Bool.not_true, Bool.false_eq_true, if_false]
      rw [hsame] at hrest hrestIdle ⊢
      have hbuild : tree.build (action :: rest) = tree.build rest := by
        rw [build, List.foldl_cons, hsame, build]
      rw [hbuild]
      exact ih h hrest hrestIdle

end Tree

end HtmlTemplate
