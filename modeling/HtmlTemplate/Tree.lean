-- SUMMARY: Document trees: nodes in an array, linked to their parents, siblings and children.
import HtmlTemplate.Names

/-!
# Trees

A tree is an array of nodes. Node 0 is the container that holds the top-level
nodes; every other node is created without links and gets them from
`Tree.append`. Links are places in the array. A link may name a place that holds
no node: walking stops there.

Names are kept in the table of the tree. An element keeps its attributes in
source order, and beside them its identifier and its classes, which selectors
ask for.
-/

namespace HtmlTemplate

/-- The place of a node in its tree. -/
structure NodeId where
  index : Nat
deriving DecidableEq

/-- A name in a namespace. -/
structure QualifiedName where
  ns : NameId
  localName : NameId
deriving DecidableEq

structure Attribute where
  name : QualifiedName
  value : String
deriving DecidableEq

structure Element where
  name : QualifiedName
  attributes : List Attribute := []
  id : Option NameId := none
  classes : List NameId := []
deriving DecidableEq

/-- What a node is. Texts and values are kept as they read, not as markup writes
    them. -/
inductive Content where
  | container
  | doctype (name : NameId) (publicId systemId : String)
  | element (element : Element)
  | text (text : String)
  | comment (text : String)
  | instruction (target : NameId) (text : String)
deriving DecidableEq

/-- The kinds of nodes. -/
inductive Category where
  | container
  | element
  | text
  | doctype
  | comment
  | instruction
deriving DecidableEq

/-- The kind as it is named in messages. -/
def Category.name : Category → String
  | .container => "container"
  | .element => "element"
  | .text => "text"
  | .doctype => "doctype"
  | .comment => "comment"
  | .instruction => "processing-instruction"

structure Node where
  content : Content
  parent : Option NodeId := none
  firstChild : Option NodeId := none
  lastChild : Option NodeId := none
  prevSibling : Option NodeId := none
  nextSibling : Option NodeId := none
deriving DecidableEq

structure Tree where
  nodes : Array Node
  names : Names

/-! ## Elements and nodes -/

namespace Element

/-- The value of the first attribute with that local name. -/
def attribute? (element : Element) (localName : NameId) : Option String :=
  (element.attributes.find? (·.name.localName == localName)).map (·.value)

/-- Replace the value of an attribute where it stands, or add the attribute at the
    end of a list. -/
def putAttribute (name : QualifiedName) (value : String) : List Attribute → List Attribute
  | [] => [⟨name, value⟩]
  | attr :: rest =>
    if attr.name = name then ⟨name, value⟩ :: rest else attr :: putAttribute name value rest

/-- Give an attribute a value. -/
def setAttribute (element : Element) (name : QualifiedName) (value : String) : Element :=
  { element with attributes := putAttribute name value element.attributes }

def hasClass (element : Element) (name : NameId) : Bool := element.classes.contains name

end Element

namespace Content

def category : Content → Category
  | .container => .container
  | .doctype _ _ _ => .doctype
  | .element _ => .element
  | .text _ => .text
  | .comment _ => .comment
  | .instruction _ _ => .instruction

def element? : Content → Option Element
  | .element e => some e
  | _ => none

def isElement (content : Content) : Bool := content.element?.isSome

def text? : Content → Option String
  | .text t => some t
  | _ => none

end Content

namespace Tree

/-! ## Creating and linking nodes -/

/-- The container node. -/
def root : NodeId := ⟨0⟩

/-- The tree of the container alone. -/
def empty : Tree := ⟨#[{ content := .container }], .initial⟩

def size (tree : Tree) : Nat := tree.nodes.size

def get? (tree : Tree) (id : NodeId) : Option Node := tree.nodes[id.index]?

/-- Change a node, if there is one at the place. -/
def update (tree : Tree) (id : NodeId) (change : Node → Node) : Tree :=
  { tree with nodes := tree.nodes.modify id.index change }

/-- The place of a name in the table of the tree, which may grow. -/
def intern (tree : Tree) (name : String) : Tree × NameId :=
  let (names, id) := tree.names.intern name
  ({ tree with names }, id)

/-- The places of several names, in order. -/
def internAll (tree : Tree) : List String → Tree × List NameId
  | [] => (tree, [])
  | name :: rest =>
    let (tree, id) := tree.intern name
    let (tree, ids) := tree.internAll rest
    (tree, id :: ids)

/-- Create a node without links. -/
def create (tree : Tree) (content : Content) : Tree × NodeId :=
  ({ tree with nodes := tree.nodes.push { content } }, ⟨tree.nodes.size⟩)

/-- Create an element without attributes, in no namespace. -/
def createElement (tree : Tree) (tag : String) : Tree × NodeId :=
  let (tree, localName) := tree.intern tag
  tree.create (.element { name := ⟨Names.emptyId, localName⟩ })

def createDoctype (tree : Tree) (name publicId systemId : String) : Tree × NodeId :=
  let (tree, name) := tree.intern name
  tree.create (.doctype name publicId systemId)

def createInstruction (tree : Tree) (target text : String) : Tree × NodeId :=
  let (tree, target) := tree.intern target
  tree.create (.instruction target text)

/-- Link `child` as the last child of `parent`. Nothing happens when there is no
    such parent. A child that is no node, or no place at all, is not refused: it
    becomes the last child, and the first of a parent without children. -/
def append (tree : Tree) (parent : NodeId) (child : Option NodeId) : Tree :=
  match tree.get? parent with
  | none => tree
  | some node =>
    let last := node.lastChild
    let tree := match child with
      | some id => tree.update id fun node =>
          { node with parent := some parent, prevSibling := last, nextSibling := none }
      | none => tree
    let tree := match last with
      | some id => tree.update id fun node => { node with nextSibling := child }
      | none => tree
    tree.update parent fun node =>
      { node with firstChild := node.firstChild <|> child, lastChild := child }

/-- Give an attribute of an element a value; no other node is changed. -/
def setAttribute (tree : Tree) (id : NodeId) (name : QualifiedName) (value : String) : Tree :=
  tree.update id fun node =>
    match node.content with
    | .element element => { node with content := .element (element.setAttribute name value) }
    | _ => node

/-! ## Asking for what a node is -/

/-- The text that a place in the table of names stands for. -/
def name (tree : Tree) (id : NameId) : String := tree.names.get id

def element? (tree : Tree) (id : NodeId) : Option Element :=
  (tree.get? id).bind (·.content.element?)

def isElement (tree : Tree) (id : NodeId) : Bool := (tree.element? id).isSome

def parent? (tree : Tree) (id : NodeId) : Option NodeId := (tree.get? id).bind (·.parent)

def tag? (tree : Tree) (id : NodeId) : Option String :=
  (tree.element? id).map fun element => tree.name element.name.localName

/-- The value of an attribute by its local name. -/
def attribute? (tree : Tree) (id : NodeId) (name : String) : Option String :=
  (tree.names.lookup? name).bind fun localName =>
    (tree.element? id).bind (·.attribute? localName)

end Tree

end HtmlTemplate
