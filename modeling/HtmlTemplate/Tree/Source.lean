-- SUMMARY: Trees of HTML source text, with what is left out on the way.
import HtmlTemplate.Text.Blank
import HtmlTemplate.Html.Reader
import HtmlTemplate.Tree

/-!
# Trees of source text

`Tree.ofForest` stores a forest in a tree, in document order. Blank texts and
comments are left out unless they are asked for, and processing instructions
always. The identifier and the classes of an element are noted beside its
attributes.
-/

namespace HtmlTemplate

/-- What is kept beside elements and texts that are not blank. -/
structure SourceOptions where
  keepBlankText : Bool := false
  keepComments : Bool := false
deriving DecidableEq

namespace Tree

/-- Give an element the attribute of a source element. An attribute whose name
    without prefix is `id` or `class` is also noted as identifier or classes. -/
def addSourceAttribute (tree : Tree) (element : Element) (attr : Html.Attribute) :
    Tree × Element :=
  let (tree, localName) := tree.intern attr.writtenName
  let (tree, ns) := tree.intern attr.ns
  let (tree, element) :=
    if attr.name == "id" then
      let (tree, id) := tree.intern attr.value
      (tree, { element with id := some id })
    else if attr.name == "class" then
      let (tree, classes) := tree.internAll (words isBlank attr.value)
      (tree, { element with classes := element.classes ++ classes })
    else (tree, element)
  (tree, element.setAttribute ⟨ns, localName⟩ attr.value)

/-- Give an element all attributes of a source element. -/
def addSourceAttributes (tree : Tree) (element : Element) :
    List Html.Attribute → Tree × Element
  | [] => (tree, element)
  | attr :: rest =>
    let (tree, element) := tree.addSourceAttribute element attr
    tree.addSourceAttributes element rest

/-- Create a node as the last child of another. -/
def createIn (parent : NodeId) (created : Tree × NodeId) : Tree :=
  created.1.append parent (some created.2)

mutual

/-- Store a node and what is below it as the last child of `parent`. -/
def addNode (options : SourceOptions) (tree : Tree) (parent : NodeId) : Html.Node → Tree
  | .doctype name publicId systemId =>
    createIn parent (tree.createDoctype name publicId systemId)
  | .element ns name attributes children =>
    let (tree, ns) := tree.intern ns
    let (tree, localName) := tree.intern name
    let (tree, element) := tree.addSourceAttributes { name := ⟨ns, localName⟩ } attributes
    let (tree, id) := tree.create (.element element)
    addNodes options (tree.append parent (some id)) id children
  | .text content =>
    if options.keepBlankText || !isBlankText content then
      createIn parent (tree.create (.text content))
    else tree
  | .comment content =>
    if options.keepComments then createIn parent (tree.create (.comment content)) else tree
  | .instruction _ _ => tree

/-- Store nodes side by side as the last children of `parent`. -/
def addNodes (options : SourceOptions) (tree : Tree) (parent : NodeId) : List Html.Node → Tree
  | [] => tree
  | node :: rest => addNodes options (addNode options tree parent node) parent rest

end

/-- The tree of a forest. -/
def ofForest (options : SourceOptions) (forest : Html.Forest) : Tree :=
  addNodes options .empty root forest

/-- The tree of a whole document. -/
def ofDocument (options : SourceOptions) (source : String) : Tree :=
  ofForest options (Html.document source)

/-- The tree of a fragment, for what reads documents. -/
def ofFragmentBy (read : String → Html.Forest) (options : SourceOptions) (source : String) :
    Tree :=
  ofForest options (Html.fragmentOf read source)

/-- The tree of a fragment. -/
def ofFragment (options : SourceOptions) (source : String) : Tree :=
  ofFragmentBy Html.document options source

end Tree

end HtmlTemplate
