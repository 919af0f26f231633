-- SUMMARY: Writing trees as markup.
import HtmlTemplate.Markup
import HtmlTemplate.Tree.Walk

/-!
# Trees as markup

`Tree.markup` writes a whole tree, `Tree.outerMarkup` a node with its own tags
and `Tree.innerMarkup` what is inside it. The text of a raw-text element is
written raw only right inside that element.
-/

namespace HtmlTemplate

/-- The attributes of an element as markup. -/
def Element.attributesMarkup (names : Names) (element : Element) : String :=
  String.join (element.attributes.map fun attr =>
    Markup.attr (names.get attr.name.localName) (Markup.escapedValue attr.value))

mutual

/-- The markup of a branch; `raw` says that it is right inside a raw-text element. -/
def Branch.markup (names : Names) (raw : Bool) : Branch → String
  | .node _ content children =>
    match content with
    | .container => Branch.markupAll names false children
    | .doctype name publicId systemId => Markup.doctype (names.get name) publicId systemId
    | .element element =>
      let tag := names.get element.name.localName
      Markup.element tag (element.attributesMarkup names)
        (Branch.markupAll names (Markup.isRawText tag) children)
    | .text text => Markup.text raw text
    | .comment text => Markup.comment text
    | .instruction target text => Markup.instruction (names.get target) text

/-- The markup of branches side by side. -/
def Branch.markupAll (names : Names) (raw : Bool) : List Branch → String
  | [] => ""
  | branch :: rest => branch.markup names raw ++ Branch.markupAll names raw rest

end

namespace Tree

/-- The markup of a node with its own tags. -/
def outerMarkup (tree : Tree) (id : NodeId) : String :=
  match tree.branch? id with
  | some branch => branch.markup tree.names false
  | none => ""

/-- The markup of what is inside a node. -/
def innerMarkup (tree : Tree) (id : NodeId) : String :=
  Branch.markupAll tree.names false (tree.branches id)

/-- The markup of the whole tree. -/
def markup (tree : Tree) : String := tree.outerMarkup root

end Tree

end HtmlTemplate
