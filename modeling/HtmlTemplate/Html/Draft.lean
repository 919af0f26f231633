-- SUMMARY: A document while it is being read: nodes that are still moved, extended and taken out.
import HtmlTemplate.Html.Forest

/-!
# Drafts

Reading HTML rearranges what has been read: text in front of a table, formatting
that was closed too late. A draft keeps every node under a handle, with the
handle of its parent and those of its children, so that a node can be moved with
all that is below it. `Draft.forest` is the outcome.
-/

namespace HtmlTemplate.Html

/-- The number of a node in its draft. -/
abbrev Handle := Nat

namespace Draft

inductive Content where
  | document
  | doctype (name publicId systemId : String)
  | element (ns : Namespace) (name : String) (attributes : List Attribute)
  | text (content : String)
  | comment (content : String)

/-- A node of the draft. What is put into a template goes to `contents`, a node of
    its own that has no parent. -/
structure Cell where
  content : Content
  parent : Option Handle := none
  children : List Handle := []
  contents : Option Handle := none

end Draft

structure Draft where
  cells : Array Draft.Cell

namespace Draft

/-- A place where a node or a text can be put. -/
inductive Place where
  | lastIn (parent : Handle)
  | before (sibling : Handle)

/-- The handle of the document node. -/
def root : Handle := 0

/-- A draft of the empty document. -/
def empty : Draft := ⟨#[{ content := .document }]⟩

def get? (draft : Draft) (node : Handle) : Option Cell := draft.cells[node]?

def update (draft : Draft) (node : Handle) (change : Cell → Cell) : Draft :=
  ⟨draft.cells.modify node change⟩

/-- Add a node that is nowhere in the document yet. -/
def add (draft : Draft) (content : Content) : Draft × Handle :=
  (⟨draft.cells.push { content }⟩, draft.cells.size)

/-- Add an element. A template gets a second node for its contents. -/
def addElement (draft : Draft) (ns : Namespace) (name : String) (attributes : List Attribute) :
    Draft × Handle :=
  let (draft, node) := draft.add (.element ns name attributes)
  if ns == .html && name == "template" then
    let (draft, inside) := draft.add .document
    (draft.update node fun cell => { cell with contents := some inside }, node)
  else (draft, node)

def parent? (draft : Draft) (node : Handle) : Option Handle := (draft.get? node).bind (·.parent)

def children (draft : Draft) (node : Handle) : List Handle :=
  match draft.get? node with
  | some cell => cell.children
  | none => []

/-- Where children of the node go: to its contents, if it is a template. -/
def inside (draft : Draft) (node : Handle) : Handle :=
  ((draft.get? node).bind (·.contents)).getD node

/-! ## Moving nodes -/

/-- Take a node away from its parent. -/
def detach (draft : Draft) (node : Handle) : Draft :=
  match draft.parent? node with
  | some parent =>
    (draft.update parent fun cell => { cell with children := cell.children.erase node }).update
      node fun cell => { cell with parent := none }
  | none => draft

/-- Put a node that has no parent after the other children of one. -/
def append (draft : Draft) (parent node : Handle) : Draft :=
  (draft.update parent fun cell => { cell with children := cell.children ++ [node] }).update
    node fun cell => { cell with parent := some parent }

/-- Put `node` in front of `sibling` in a list of nodes. -/
def insertInFront (sibling node : Handle) : List Handle → List Handle
  | [] => [node]
  | other :: rest =>
    if other == sibling then node :: other :: rest else other :: insertInFront sibling node rest

/-- Put a node at a place, away from where it was. -/
def put (draft : Draft) (place : Place) (node : Handle) : Draft :=
  let draft := draft.detach node
  match place with
  | .lastIn parent => draft.append parent node
  | .before sibling =>
    match draft.parent? sibling with
    | some parent =>
      (draft.update parent fun cell =>
        { cell with children := insertInFront sibling node cell.children }).update
          node fun cell => { cell with parent := some parent }
    | none => draft

/-- Move all children of a node to the end of another. -/
def moveChildren (draft : Draft) (source target : Handle) : Draft :=
  (draft.children source).foldl (fun draft child => draft.put (.lastIn target) child) draft

/-! ## Text -/

/-- The node right in front of a place. -/
def previous? (draft : Draft) : Place → Option Handle
  | .lastIn parent => (draft.children parent).getLast?
  | .before sibling =>
    (draft.parent? sibling).bind fun parent =>
      ((draft.children parent).takeWhile (· != sibling)).getLast?

/-- Put a character at a place; a text in front of it is made longer. -/
def putCharacter (draft : Draft) (place : Place) (c : Char) : Draft :=
  let fresh :=
    let (draft, node) := draft.add (.text (String.ofList [c]))
    draft.put place node
  match draft.previous? place with
  | some node =>
    match (draft.get? node).map Cell.content with
    | some (.text content) =>
      draft.update node fun cell => { cell with content := .text (content.push c) }
    | _ => fresh
  | none => fresh

/-! ## Attributes -/

/-- Add the attributes whose names the element lacks. -/
def addMissing (draft : Draft) (node : Handle) (attributes : List Attribute) : Draft :=
  draft.update node fun cell =>
    match cell.content with
    | .element ns name present =>
      let lacking := attributes.filter fun attr => !(present.any (·.name == attr.name))
      { cell with content := .element ns name (present ++ lacking) }
    | _ => cell

/-! ## The outcome -/

/-- The nodes below some nodes, down to a depth. -/
def forestWithin (draft : Draft) : Nat → List Handle → Forest
  | 0, _ => []
  | depth + 1, nodes =>
    nodes.filterMap fun node =>
      (draft.get? node).bind fun cell =>
        match cell.content with
        | .document => none
        | .doctype name publicId systemId => some (.doctype name publicId systemId)
        | .element ns name attributes =>
          some (.element ns.uri name attributes (draft.forestWithin depth cell.children))
        | .text content => some (.text content)
        | .comment content => some (.comment content)

/-- The nodes of the document. No node is deeper than there are nodes. -/
def forest (draft : Draft) : Forest :=
  draft.forestWithin draft.cells.size (draft.children root)

end Draft

end HtmlTemplate.Html
