-- SUMMARY: Forests as markup, and what is left of a forest in the markup of its tree.
import HtmlTemplate.Proofs.Html.Syntax
import HtmlTemplate.Proofs.Tree.Sources
import HtmlTemplate.Tree.Markup

/-!
# Forests as markup

The markup of a tree is that of the forest one reads in it. So `Html.forestMarkup` writes
forests, and the markup of the tree of a forest is that of what is kept of it.

What the markup shows is less than the kept forest. It does not tell two texts side by side
from one text, nor the namespace of an attribute. `Html.joinedAll` gives the forest that it
shows: texts are joined, and an attribute has its written name and no namespace.
-/

namespace HtmlTemplate.Html

-- ---------------------------------------------------------------------------
-- Writing forests
-- ---------------------------------------------------------------------------

/-- The attributes of an element as markup. -/
def attributesMarkup (attributes : List Attribute) : String :=
  String.join (attributes.map fun attr =>
    Markup.attr attr.writtenName (Markup.escapedValue attr.value))

theorem toList_attributesMarkup_cons (attr : Attribute) (rest : List Attribute) :
    (attributesMarkup (attr :: rest)).toList =
      ' ' :: (attr.writtenName.toList ++ '=' :: '"' ::
        ((Markup.escapedValue attr.value).toList ++ '"' :: (attributesMarkup rest).toList)) := by
  simp [attributesMarkup, Markup.attr]

mutual

/-- The markup of a node; `raw` says that it is right inside a raw-text element. -/
def Node.markup (raw : Bool) : Node → String
  | .doctype name publicId systemId => Markup.doctype name publicId systemId
  | .element _ name attributes children =>
    Markup.element name (attributesMarkup attributes)
      (forestMarkup (Markup.isRawText name) children)
  | .text content => Markup.text raw content
  | .comment content => Markup.comment content
  | .instruction target content => Markup.instruction target content

/-- The markup of nodes side by side. -/
def forestMarkup (raw : Bool) : Forest → String
  | [] => ""
  | node :: rest => node.markup raw ++ forestMarkup raw rest

end

-- ---------------------------------------------------------------------------
-- What markup shows
-- ---------------------------------------------------------------------------

/-- Put a node in front of others; a text is joined with the text that follows it. -/
def consJoined (node : Node) (rest : Forest) : Forest :=
  match node, rest with
  | .text content, .text more :: rest => .text (content ++ more) :: rest
  | node, rest => node :: rest

mutual

/-- The node with texts joined and attributes bare. -/
def Node.joined : Node → Node
  | .element ns name attributes children =>
    .element ns name (attributes.map Attribute.bare) (joinedAll children)
  | node => node

def joinedAll : Forest → Forest
  | [] => []
  | node :: rest => consJoined node.joined (joinedAll rest)

end

theorem text_append (raw : Bool) (first second : String) :
    Markup.text raw (first ++ second) = Markup.text raw first ++ Markup.text raw second := by
  cases raw with
  | true => rfl
  | false =>
    rw [← String.toList_inj]
    simp [Markup.text, Markup.escapedText]

theorem forestMarkup_append (raw : Bool) (first second : Forest) :
    forestMarkup raw (first ++ second) = forestMarkup raw first ++ forestMarkup raw second := by
  induction first with
  | nil => exact String.empty_append.symm
  | cons node rest ih =>
    rw [List.cons_append, forestMarkup, forestMarkup, ih, String.append_assoc]

theorem forestMarkup_consJoined (raw : Bool) (node : Node) (rest : Forest) :
    forestMarkup raw (consJoined node rest) = node.markup raw ++ forestMarkup raw rest := by
  unfold consJoined
  split
  · simp only [forestMarkup, Node.markup, text_append, String.append_assoc]
  · rfl

theorem attributesMarkup_bare (attributes : List Attribute) :
    attributesMarkup (attributes.map Attribute.bare) = attributesMarkup attributes := by
  rw [attributesMarkup, List.map_map]
  rfl

mutual

theorem Node.markup_joined (raw : Bool) (node : Node) :
    node.joined.markup raw = node.markup raw := by
  cases node with
  | element ns name attributes children =>
    rw [Node.joined, Node.markup, Node.markup, attributesMarkup_bare,
      forestMarkup_joinedAll _ children]
  | doctype | text | comment | instruction => rfl

/-- Joining does not change the markup. -/
theorem forestMarkup_joinedAll (raw : Bool) (nodes : Forest) :
    forestMarkup raw (joinedAll nodes) = forestMarkup raw nodes := by
  cases nodes with
  | nil => rfl
  | cons node rest =>
    rw [joinedAll, forestMarkup_consJoined, forestMarkup, node.markup_joined raw,
      forestMarkup_joinedAll raw rest]

end

/-- The forest that the markup of the tree of a forest shows. -/
def shown (forest : Forest) : Forest := joinedAll (keptAll {} forest)

end HtmlTemplate.Html

namespace HtmlTemplate

open Html (keptAll HaveDistinctAttributes countAll places forestMarkup)

-- ---------------------------------------------------------------------------
-- Trees of forests
-- ---------------------------------------------------------------------------

namespace Tree

variable {tree : Tree}

theorem attributesMarkup_of_reads {element : Element} {attributes : List Html.Attribute}
    (h : List.Forall₂ (Attribute.Reads tree.names) element.attributes attributes) :
    element.attributesMarkup tree.names = Html.attributesMarkup attributes := by
  have hpieces : ∀ {attrs sources}, List.Forall₂ (Attribute.Reads tree.names) attrs sources →
      (attrs.map fun attr =>
          Markup.attr (tree.names.get attr.name.localName) (Markup.escapedValue attr.value)) =
        sources.map fun attr => Markup.attr attr.writtenName (Markup.escapedValue attr.value) := by
    intro attrs sources hreads
    induction hreads with
    | nil => rfl
    | @cons attr source _ _ hread _ ih =>
      obtain ⟨ns, namePrefix, name, value⟩ := source
      obtain ⟨-, rfl, hname, rfl⟩ := hread
      rw [List.map_cons, List.map_cons, ih, hname.get_eq]
      rfl
  rw [Element.attributesMarkup, Html.attributesMarkup, hpieces h]

theorem markup_of_reads {id : NodeId} {content : Content} {node : Html.Node}
    {children : List Branch} (h : content.Reads tree.names node) (raw : Bool)
    (hchildren : ∀ raw, Branch.markupAll tree.names raw children = forestMarkup raw node.children) :
    (Branch.node id content children).markup tree.names raw = node.markup raw := by
  cases content <;> cases node <;> simp only [Content.Reads] at h
  case doctype.doctype =>
    obtain ⟨hname, rfl, rfl⟩ := h
    rw [Branch.markup, Html.Node.markup, hname.get_eq]
  case element.element =>
    obtain ⟨-, hname, hattributes⟩ := h
    rw [Branch.markup, Html.Node.markup, hname.get_eq, attributesMarkup_of_reads hattributes,
      hchildren, Html.Node.children]
  case text.text => rw [h, Branch.markup, Html.Node.markup]
  case comment.comment => rw [h, Branch.markup, Html.Node.markup]

/-- What is stored is what is written. -/
theorem Stores.markupAll {start : Nat} {nodes : Html.Forest}
    (h : tree.Stores tree.children start nodes) {depth : Nat} (hdepth : countAll nodes ≤ depth)
    (raw : Bool) :
    Branch.markupAll tree.names raw ((places start nodes).filterMap (tree.branchWithin depth)) =
      forestMarkup raw nodes := by
  induction h generalizing depth raw with
  | nil => rfl
  | @cons start node rest found hfound hreads hkids _ _ ihchildren ihrest =>
    rw [countAll, node.count_eq] at hdepth
    obtain ⟨depth, rfl⟩ : ∃ less, depth = less + 1 := ⟨depth - 1, by omega⟩
    have hbranch : tree.branchWithin (depth + 1) ⟨start⟩ = some (.node ⟨start⟩ found.content
        ((places (start + 1) node.children).filterMap (tree.branchWithin depth))) := by
      rw [branchWithin, hfound, Option.map_some, hkids]
    rw [places, List.filterMap_cons_some hbranch, Branch.markupAll, forestMarkup,
      ihrest (by omega), markup_of_reads hreads raw (ihchildren (by omega))]

/-- The markup of the tree of a forest is that of what is kept of it. -/
theorem markup_ofForest (options : SourceOptions) {forest : Html.Forest}
    (hdistinct : HaveDistinctAttributes forest) :
    (ofForest options forest).markup = forestMarkup false (keptAll options forest) := by
  have hroot : Tree.empty.get? root = some { content := .container } := rfl
  obtain ⟨kids, hreceives⟩ :=
    receives_addNodes options forest hdistinct Records.empty.linked hroot
  obtain rfl : (ofForest options forest).children = kids :=
    funext hreceives.linked.children_eq
  have hsize : (ofForest options forest).size = countAll (keptAll options forest) + 1 :=
    hreceives.size.trans (Nat.add_comm _ _)
  have hchildren : (ofForest options forest).children root =
      places 1 (keptAll options forest) := hreceives.children
  obtain ⟨top, htop, hcontainer⟩ := Option.map_eq_some_iff.mp (hreceives.contents hroot)
  replace htop : (ofForest options forest).get? root = some top := htop
  rw [markup, outerMarkup, branch?, hsize, branchWithin, htop, Option.map_some, hcontainer,
    hchildren]
  exact hreceives.stores.markupAll (Nat.le_refl _) false

/-- The markup of the tree of a forest shows a forest of joined texts. -/
theorem markup_ofForest_shown {forest : Html.Forest} (hdistinct : HaveDistinctAttributes forest) :
    (ofForest {} forest).markup = forestMarkup false (Html.shown forest) := by
  rw [markup_ofForest {} hdistinct, Html.shown, Html.forestMarkup_joinedAll]

end Tree

end HtmlTemplate
