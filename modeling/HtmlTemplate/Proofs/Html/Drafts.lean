-- SUMMARY: Drafts that grow at one node: what is put there, and that nothing else changes.
import HtmlTemplate.Html.Draft
import HtmlTemplate.Proofs.Html.Syntax

/-!
# Drafts that grow

While markup is read that was written from a forest, nothing is moved. Each node comes
behind the children of the innermost open element, and every handle below it is new.
`Draft.Receives` says this of a stretch of the reading, in terms of the node that receives:
nodes are added there, and no other node of before is touched. So what is below the nodes
that are complete stays as it is, which `Draft.Holds` describes from handle to handle.
-/

namespace HtmlTemplate.Html.Draft

/-- The number of nodes. -/
def size (draft : Draft) : Nat := draft.cells.size

variable {draft middle later : Draft}

-- ---------------------------------------------------------------------------
-- Cells after a change
-- ---------------------------------------------------------------------------

theorem lt_of_get? {node : Nat} {cell : Cell} (h : draft.get? node = some cell) :
    node < draft.size := (Array.getElem?_eq_some_iff.mp h).1

theorem get?_update (draft : Draft) (node : Nat) (change : Cell → Cell) (other : Nat) :
    (draft.update node change).get? other =
      if other = node then (draft.get? other).map change else draft.get? other := by
  rw [get?, update, Array.getElem?_modify]
  by_cases h : other = node
  · rw [if_pos h.symm, if_pos h, get?]
  · rw [if_neg (Ne.symm h), if_neg h, get?]

@[simp] theorem size_update (draft : Draft) (node : Nat) (change : Cell → Cell) :
    (draft.update node change).size = draft.size := Array.size_modify

theorem get?_add (draft : Draft) (content : Content) (other : Nat) :
    (draft.add content).1.get? other =
      if other = draft.size then some { content } else draft.get? other := by
  rw [get?, add, Array.getElem?_push]
  rfl

@[simp] theorem size_add (draft : Draft) (content : Content) :
    (draft.add content).1.size = draft.size + 1 := Array.size_push _

theorem ext_get? (hsize : draft.size = later.size)
    (h : ∀ node, draft.get? node = later.get? node) : draft = later := by
  obtain ⟨cells⟩ := draft
  obtain ⟨cells'⟩ := later
  congr 1
  exact Array.ext_getElem? h

/-- A cell with one more child. -/
def Cell.withChild (child : Nat) (cell : Cell) : Cell :=
  { cell with children := cell.children ++ [child] }

/-- A node that has no parent yet comes behind the other children of one. -/
theorem get?_put_lastIn {parent node : Nat} {cell : Cell} (hnode : draft.get? node = some cell)
    (hnew : cell.parent = none) (hne : parent ≠ node) (other : Nat) :
    (draft.put (.lastIn parent) node).get? other =
      if other = node then some { cell with parent := some parent }
      else if other = parent then (draft.get? other).map (Cell.withChild node)
      else draft.get? other := by
  have hdetach : draft.detach node = draft := by
    rw [detach, parent?, hnode, Option.bind_some, hnew]
  rw [put, hdetach, append, get?_update, get?_update]
  by_cases h : other = node
  · subst h
    rw [if_pos rfl, if_pos rfl, if_neg (Ne.symm hne), hnode]
    rfl
  · rw [if_neg h, if_neg h]
    rfl

theorem size_put_lastIn (draft : Draft) (parent node : Nat) :
    (draft.put (.lastIn parent) node).size = draft.size := by
  have hdetach : (draft.detach node).size = draft.size := by
    unfold detach
    split
    · rw [size_update, size_update]
    · rfl
  rw [put, append, size_update, size_update, hdetach]

-- ---------------------------------------------------------------------------
-- Trees below handles
-- ---------------------------------------------------------------------------

/-- The content is that of the node, whose attributes are bare. -/
def Content.Is : Content → Node → Prop
  | .element ns name attributes, .element uri name' attributes' _ =>
    ns.uri = uri ∧ name = name' ∧ attributes.map Attribute.bare = attributes'
  | .text content, .text content' => content = content'
  | _, _ => False

/-- The nodes under the handles, with all that is below them. Handles are not smaller than
    the bound, and those of children are greater than that of their parent. -/
inductive Holds (draft : Draft) : Nat → List Nat → Forest → Prop where
  | nil {bound : Nat} : Holds draft bound [] []
  | cons {bound : Nat} {handle : Nat} {handles : List Nat} {cell : Cell} {node : Node}
      {rest : Forest} (hbound : bound ≤ handle) (hcell : draft.get? handle = some cell)
      (his : cell.content.Is node)
      (hchildren : Holds draft (handle + 1) cell.children node.children)
      (hrest : Holds draft bound handles rest) :
      Holds draft bound (handle :: handles) (node :: rest)

namespace Holds

variable {bound lower : Nat} {handles more : List Nat} {nodes rest : Forest}

theorem append (h : Holds draft bound handles nodes) (hmore : Holds draft bound more rest) :
    Holds draft bound (handles ++ more) (nodes ++ rest) := by
  induction h with
  | nil => exact hmore
  | cons hbound hcell his hchildren _ _ ih => exact .cons hbound hcell his hchildren (ih hmore)

theorem weaken (h : Holds draft bound handles nodes) (hlower : lower ≤ bound) :
    Holds draft lower handles nodes := by
  induction h with
  | nil => exact .nil
  | cons hbound hcell his hchildren _ _ ih =>
    exact .cons (Nat.le_trans hlower hbound) hcell his hchildren (ih hlower)

/-- What is below the handles goes by the cells from the bound on. -/
theorem congr (h : Holds draft bound handles nodes)
    (hsame : ∀ node cell, bound ≤ node → draft.get? node = some cell →
      later.get? node = some cell) :
    Holds later bound handles nodes := by
  induction h with
  | nil => exact .nil
  | cons hbound hcell his _ _ ihchildren ihrest =>
    refine .cons hbound (hsame _ _ hbound hcell) his (ihchildren ?_) (ihrest hsame)
    exact fun node cell hnode => hsame node cell (by omega)

end Holds

/-! ## The outcome -/

/-- The outcome is the forest that the draft holds. No node is deeper than there are nodes
    with greater handles. -/
theorem bareAll_forestWithin {bound : Nat} {handles : List Nat} {nodes : Forest}
    (h : draft.Holds bound handles nodes) {depth : Nat} (hdepth : draft.size ≤ bound + depth) :
    bareAll (draft.forestWithin depth handles) = nodes := by
  induction h generalizing depth with
  | nil => cases depth <;> rfl
  | @cons bound handle handles cell node rest hbound hcell his _ _ ihchildren ihrest =>
    have hlt := lt_of_get? hcell
    obtain ⟨depth, rfl⟩ : ∃ less, depth = less + 1 := ⟨depth - 1, by omega⟩
    have hrest := ihrest hdepth
    rw [forestWithin] at hrest
    cases hcontent : cell.content <;> cases node <;> simp only [hcontent, Content.Is] at his
    case element.element =>
      obtain ⟨rfl, rfl, rfl⟩ := his
      have hbranch := @ihchildren depth (by omega)
      simp [forestWithin, hcell, hcontent, bareAll, Node.bare, hrest, hbranch, Node.children]
    case text.text =>
      subst his
      simp [forestWithin, hcell, hcontent, bareAll, Node.bare, hrest]

-- ---------------------------------------------------------------------------
-- Growing
-- ---------------------------------------------------------------------------

/-- A new node has been put behind the children of a node. -/
structure Adds (draft : Draft) (parent : Nat) (content : Content) (later : Draft) : Prop where
  size : draft.size < later.size
  others : ∀ node < draft.size, node ≠ parent → later.get? node = draft.get? node
  children : later.get? parent = (draft.get? parent).map (Cell.withChild draft.size)
  cell : ∃ cell, later.get? draft.size = some cell ∧ cell.content = content ∧ cell.children = []

/-- A node takes its children itself where it did so before. -/
theorem Adds.contents {parent : Nat} {content : Content} (h : draft.Adds parent content later)
    {node : Nat} {cell : Cell} (hcell : draft.get? node = some cell) :
    ∃ cell', later.get? node = some cell' ∧ cell'.contents = cell.contents := by
  by_cases hne : node = parent
  · subst hne
    exact ⟨cell.withChild draft.size, by rw [h.children, hcell, Option.map_some], rfl⟩
  · exact ⟨cell, by rw [h.others node (lt_of_get? hcell) hne, hcell], rfl⟩

/-- Nodes have been put behind the children of a node, and nothing else has changed. -/
structure Receives (draft : Draft) (parent : Nat) (nodes : Forest) (later : Draft) : Prop where
  size : draft.size ≤ later.size
  others : ∀ node < draft.size, node ≠ parent → later.get? node = draft.get? node
  children : ∃ added, later.get? parent = (draft.get? parent).map (fun cell =>
      { cell with children := cell.children ++ added }) ∧
    later.Holds draft.size added nodes

namespace Receives

variable {parent : Nat} {nodes more : Forest}

theorem nil (draft : Draft) (parent : Nat) : draft.Receives parent [] draft where
  size := Nat.le_refl _
  others _ _ _ := rfl
  children := by
    refine ⟨[], ?_, .nil⟩
    cases draft.get? parent <;> simp

theorem append (hparent : parent < draft.size) (h : draft.Receives parent nodes middle)
    (hmore : middle.Receives parent more later) : draft.Receives parent (nodes ++ more) later where
  size := Nat.le_trans h.size hmore.size
  others node hlt hne :=
    (hmore.others node (Nat.lt_of_lt_of_le hlt h.size) hne).trans (h.others node hlt hne)
  children := by
    obtain ⟨first, hfirst, hholds⟩ := h.children
    obtain ⟨second, hsecond, hholds'⟩ := hmore.children
    refine ⟨first ++ second, ?_, .append (hholds.congr ?_) (hholds'.weaken h.size)⟩
    · rw [hsecond, hfirst, Option.map_map]
      congr 1
      funext cell
      simp
    · intro node cell hbound hcell
      rw [hmore.others node (lt_of_get? hcell) (by omega), hcell]

/-- A node is added, and then receives its own children. -/
theorem node {content : Content} {node : Node} (hparent : parent < draft.size)
    (hadds : draft.Adds parent content middle) (his : content.Is node)
    (h : middle.Receives draft.size node.children later) :
    draft.Receives parent [node] later where
  size := Nat.le_trans (Nat.le_of_lt hadds.size) h.size
  others other hlt hne := by
    rw [h.others other (Nat.lt_trans hlt hadds.size) (Nat.ne_of_lt hlt), hadds.others other hlt hne]
  children := by
    obtain ⟨cell, hcell, rfl, hnone⟩ := hadds.cell
    obtain ⟨added, hadded, hholds⟩ := h.children
    refine ⟨[draft.size], ?_, ?_⟩
    · rw [h.others parent (Nat.lt_trans hparent hadds.size) (Nat.ne_of_lt hparent),
        hadds.children]
      rfl
    · rw [hcell, Option.map_some, hnone, List.nil_append] at hadded
      exact .cons (Nat.le_refl _) hadded his (hholds.weaken hadds.size) .nil

/-- A node without children is added. -/
theorem leaf {content : Content} {node : Node} (hparent : parent < draft.size)
    (hadds : draft.Adds parent content later) (his : content.Is node)
    (hleaf : node.children = []) : draft.Receives parent [node] later := by
  refine .node hparent hadds his ?_
  rw [hleaf]
  exact .nil _ _

end Receives

-- ---------------------------------------------------------------------------
-- What the builder puts into a draft
-- ---------------------------------------------------------------------------

section Put

variable {parent : Nat}

theorem get?_add_put (hparent : parent < draft.size) (content : Content) (other : Nat) :
    ((draft.add content).1.put (.lastIn parent) draft.size).get? other =
      if other = draft.size then some { content, parent := some parent }
      else if other = parent then (draft.get? other).map (Cell.withChild draft.size)
      else draft.get? other := by
  have hnew : (draft.add content).1.get? draft.size = some { content } := by
    rw [get?_add, if_pos rfl]
  rw [get?_put_lastIn hnew rfl (Nat.ne_of_lt hparent), get?_add]
  by_cases h : other = draft.size
  · rw [if_pos h, if_pos h]
  · rw [if_neg h, if_neg h, if_neg h]

theorem adds_add (hparent : parent < draft.size) (content : Content) :
    draft.Adds parent content ((draft.add content).1.put (.lastIn parent) draft.size) where
  size := by
    rw [size_put_lastIn, size_add]
    exact Nat.lt_succ_self _
  others node hlt hne := by
    rw [get?_add_put hparent, if_neg (Nat.ne_of_lt hlt), if_neg hne]
  children := by
    rw [get?_add_put hparent, if_neg (Nat.ne_of_lt hparent), if_pos rfl]
  cell := ⟨_, by rw [get?_add_put hparent, if_pos rfl], rfl, rfl⟩

/-- Put an element behind the children of a node. -/
@[irreducible]
def putElement (draft : Draft) (parent : Nat) (ns : Namespace) (name : String)
    (attributes : List Attribute) : Draft :=
  (draft.addElement ns name attributes).1.put (.lastIn parent) draft.size

theorem addElement_snd (draft : Draft) (ns : Namespace) (name : String)
    (attributes : List Attribute) : (draft.addElement ns name attributes).2 = draft.size := by
  rw [addElement]
  dsimp only
  split <;> rfl

/-- An element is added. Only a template has a node for its contents. -/
theorem adds_putElement (hparent : parent < draft.size) (ns : Namespace) (name : String)
    (attributes : List Attribute) :
    let later := draft.putElement parent ns name attributes
    draft.Adds parent (.element ns name attributes) later ∧
      ((ns == .html && name == "template") = false →
        ∃ cell, later.get? draft.size = some cell ∧ cell.contents = none) := by
  unfold putElement
  cases htemplate : ns == .html && name == "template" with
  | false =>
    rw [addElement]
    simp only [htemplate]
    refine ⟨adds_add hparent _, fun _ => ?_⟩
    exact ⟨_, by rw [if_neg (by decide), get?_add_put hparent, if_pos rfl], rfl⟩
  | true =>
    let content : Content := .element ns name attributes
    let inside := (draft.add content).1.add .document
    let created := inside.1.update draft.size fun cell => { cell with contents := some inside.2 }
    have hadded : draft.addElement ns name attributes = (created, draft.size) := if_pos htemplate
    have hsize : created.size = draft.size + 2 := by
      rw [size_update, size_add, size_add]
    have hold (node : Nat) (hlt : node < draft.size) : created.get? node = draft.get? node := by
      rw [get?_update, if_neg (Nat.ne_of_lt hlt), get?_add, size_add, if_neg (by omega), get?_add,
        if_neg (Nat.ne_of_lt hlt)]
    have hnew : created.get? draft.size = some { content, contents := some inside.2 } := by
      rw [get?_update, if_pos rfl, get?_add, size_add, if_neg (by omega), get?_add, if_pos rfl]
      rfl
    have hget := get?_put_lastIn hnew rfl (Nat.ne_of_lt hparent)
    rw [hadded]
    refine ⟨⟨?_, fun node hlt hne => ?_, ?_, _, by rw [hget, if_pos rfl], rfl, rfl⟩, nofun⟩
    · rw [size_put_lastIn, hsize]
      omega
    · rw [hget, if_neg (Nat.ne_of_lt hlt), if_neg hne, hold node hlt]
    · rw [hget, if_neg (Nat.ne_of_lt hparent), if_pos rfl, hold parent hparent]

/-- The last child of the node is no text, to which a character would be added. -/
def EndsClosed (draft : Draft) (parent : Nat) : Prop :=
  ∀ node cell content, (draft.children parent).getLast? = some node →
    draft.get? node = some cell → cell.content ≠ .text content

theorem children_of_get? {node : Nat} {cell : Cell} (h : draft.get? node = some cell) :
    draft.children node = cell.children := by
  rw [children, h]

/-- A node that has just been added has no children. -/
theorem endsClosed_of_adds {content : Content} (h : draft.Adds parent content later) :
    later.EndsClosed draft.size := by
  obtain ⟨cell, hcell, -, hnone⟩ := h.cell
  intro node _ _ hlast
  rw [children_of_get? hcell, hnone] at hlast
  cases hlast

/-- Behind an element, a text begins anew. -/
theorem endsClosed_of_receives (hparent : parent < draft.size) {ns name : String}
    {attributes : List Attribute} {children : Forest}
    (h : draft.Receives parent [.element ns name attributes children] later) :
    later.EndsClosed parent := by
  obtain ⟨added, hadded, hholds⟩ := h.children
  obtain ⟨top, htop⟩ : ∃ cell, draft.get? parent = some cell :=
    ⟨_, Array.getElem?_eq_getElem hparent⟩
  rw [htop, Option.map_some] at hadded
  cases hholds with
  | @cons _ handle handles cell _ _ _ hcell his _ hrest =>
    cases hrest
    intro node other content hlast hother
    rw [children_of_get? hadded, List.getLast?_concat, Option.some.injEq] at hlast
    subst hlast
    obtain rfl : cell = other := Option.some.inj (hcell.symm.trans hother)
    intro htext
    rw [htext] at his
    exact his

theorem putCharacter_of_endsClosed (h : draft.EndsClosed parent) (c : Char) :
    draft.putCharacter (.lastIn parent) c =
      (draft.add (.text (String.ofList [c]))).1.put (.lastIn parent) draft.size := by
  unfold putCharacter previous?
  dsimp only
  split
  · next node hlast =>
    cases hnode : draft.get? node with
    | none => rfl
    | some cell =>
      cases hcontent : cell.content with
      | text content => exact absurd hcontent (h node cell content hlast hnode)
      | _ => simp [hcontent, add, size]
  · rfl

/-- Further characters make the text longer. -/
theorem putCharacter_add_put (hparent : parent < draft.size) (content : String) (c : Char) :
    ((draft.add (.text content)).1.put (.lastIn parent) draft.size).putCharacter
        (.lastIn parent) c =
      (draft.add (.text (content.push c))).1.put (.lastIn parent) draft.size := by
  have hget := get?_add_put hparent (.text content)
  obtain ⟨top, htop⟩ : ∃ cell, draft.get? parent = some cell :=
    ⟨_, Array.getElem?_eq_getElem hparent⟩
  have hchildren : (((draft.add (.text content)).1.put (.lastIn parent) draft.size).children
      parent).getLast? = some draft.size := by
    have hlater := hget parent
    rw [if_neg (Nat.ne_of_lt hparent), if_pos rfl, htop, Option.map_some] at hlater
    rw [children_of_get? hlater, Cell.withChild, List.getLast?_concat]
  have hlast := hget draft.size
  rw [if_pos rfl] at hlast
  unfold putCharacter previous?
  dsimp only
  rw [hchildren]
  dsimp only
  rw [hlast, Option.map_some]
  refine ext_get? ?_ fun node => ?_
  · rw [size_update, size_put_lastIn, size_put_lastIn, size_add, size_add]
  · rw [get?_update, hget, get?_add_put hparent]
    by_cases h : node = draft.size
    · rw [if_pos h, if_pos h, if_pos h]
      rfl
    · rw [if_neg h, if_neg h, if_neg h]

/-- Put a text behind the children of a node, character by character. -/
def putText (draft : Draft) (parent : Nat) (text : List Char) : Draft :=
  text.foldl (fun draft c => draft.putCharacter (.lastIn parent) c) draft

theorem putText_append (draft : Draft) (parent : Nat) (first second : List Char) :
    draft.putText parent (first ++ second) = (draft.putText parent first).putText parent second :=
  List.foldl_append

theorem putText_cons (hparent : parent < draft.size) (h : draft.EndsClosed parent) (c : Char)
    (text : List Char) :
    draft.putText parent (c :: text) =
      (draft.add (.text (String.ofList (c :: text)))).1.put (.lastIn parent) draft.size := by
  rw [putText, List.foldl_cons, putCharacter_of_endsClosed h]
  suffices hmore : ∀ start : String,
      text.foldl (fun draft c => draft.putCharacter (.lastIn parent) c)
      ((draft.add (.text start)).1.put (.lastIn parent) draft.size) =
        (draft.add (.text (start ++ String.ofList text))).1.put (.lastIn parent) draft.size by
    rw [hmore, ← String.ofList_append, List.singleton_append]
  induction text with
  | nil => simp
  | cons d text ih =>
    intro start
    rw [List.foldl_cons, putCharacter_add_put hparent, ih]
    congr 4
    rw [← String.toList_inj]
    simp

/-- A text is received as one node. -/
theorem receives_putText (hparent : parent < draft.size) (h : draft.EndsClosed parent)
    {text : String} (hne : text ≠ "") :
    draft.Receives parent [.text text] (draft.putText parent text.toList) := by
  cases hchars : text.toList with
  | nil => exact absurd (String.toList_inj.mp hchars) hne
  | cons c more =>
    rw [putText_cons hparent h, ← hchars, String.ofList_toList]
    exact .leaf hparent (adds_add hparent _) rfl rfl

end Put

end HtmlTemplate.Html.Draft
