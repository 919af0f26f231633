-- SUMMARY: Trees of source text note the identifier and the classes of each element.
import HtmlTemplate.Proofs.Tree.Sources

/-!
# What is noted of elements

Storing a forest adds one node after the other at the end of the tree, in the order of the
source. So each element of the source has its place, whatever the attributes of the others
are, and what is noted there comes from its own attributes: `Tree.Collects` is the relation
between the nodes that are added and the source nodes they come from.

The tree is made by creating and appending alone, so that it is `Built`.
-/

namespace HtmlTemplate

/-! ## The nodes of a forest in order -/

namespace Html

/-- The values of the attributes with a name, whatever their prefix. -/
def valuesOf (name : String) (attributes : List Attribute) : List String :=
  (attributes.filter (·.name == name)).map (·.value)

theorem valuesOf_concat {name : String} {attr : Attribute} (h : attr.name = name)
    (attributes : List Attribute) :
    valuesOf name (attributes ++ [attr]) = valuesOf name attributes ++ [attr.value] := by
  simp [valuesOf, h]

theorem valuesOf_concat_of_ne {name : String} {attr : Attribute} (h : attr.name ≠ name)
    (attributes : List Attribute) :
    valuesOf name (attributes ++ [attr]) = valuesOf name attributes := by
  simp [valuesOf, h]

mutual

/-- The nodes that are stored for a node, in pre-order, as they are in the source. -/
def Node.stored (options : SourceOptions) : Node → List Node
  | .doctype name publicId systemId => [.doctype name publicId systemId]
  | .element ns name attributes children =>
    .element ns name attributes children :: storedAll options children
  | .text content =>
    if options.keepBlankText || !isBlankText content then [.text content] else []
  | .comment content => if options.keepComments then [.comment content] else []
  | .instruction _ _ => []

def storedAll (options : SourceOptions) : Forest → List Node
  | [] => []
  | node :: rest => node.stored options ++ storedAll options rest

end

end Html

open Html (valuesOf storedAll)

/-! ## Elements with their attributes noted -/

/-- What is noted beside the attributes: the last identifier and the words of all classes. -/
structure Element.Notes (names : Names) (element : Element) (sources : List Html.Attribute) :
    Prop where
  id : Option.Rel names.Holds element.id (valuesOf "id" sources).getLast?
  classes : List.Forall₂ names.Holds element.classes
    ((valuesOf "class" sources).flatMap (words isBlank))

/-- The element has the attributes of the source, unless some of them repeat others, and
    they are noted. -/
structure Element.Takes (names : Names) (element : Element) (sources : List Html.Attribute) :
    Prop extends Element.Notes names element sources where
  attributes : (sources.map fun attr => (attr.ns, attr.writtenName)).Nodup →
    List.Forall₂ (Attribute.Reads names) element.attributes (sources.map Html.Attribute.written)

/-- The content of an element is an element with its attributes. -/
def Content.Takes (names : Names) (content : Content) : Html.Node → Prop
  | .element _ _ attributes _ =>
    ∃ element, content = .element element ∧ element.Takes names attributes
  | _ => True

theorem holds_rel_mono {names later : Names} (hgrown : names.entries <+: later.entries)
    {id : Option NameId} {text : Option String} (h : Option.Rel names.Holds id text) :
    Option.Rel later.Holds id text := by
  cases h with
  | some hholds => exact .some (hholds.mono hgrown)
  | none => exact .none

namespace Element.Notes

variable {names later : Names} {element : Element} {done : List Html.Attribute}
  {source : Html.Attribute} (h : element.Notes names done)
include h

theorem mono (hgrown : names.entries <+: later.entries) : element.Notes later done where
  id := holds_rel_mono hgrown h.id
  classes := h.classes.imp fun _ _ hholds => hholds.mono hgrown

theorem withId {place : NameId} (hname : source.name = "id")
    (hplace : names.Holds place source.value) :
    { element with id := some place }.Notes names (done ++ [source]) where
  id := by
    rw [Html.valuesOf_concat hname, List.getLast?_concat]
    exact .some hplace
  classes := by
    rw [Html.valuesOf_concat_of_ne (by simp [hname])]
    exact h.classes

theorem withClasses {places : List NameId} (hname : source.name = "class")
    (hplaces : List.Forall₂ names.Holds places (words isBlank source.value)) :
    { element with classes := element.classes ++ places }.Notes names (done ++ [source]) where
  id := by
    rw [Html.valuesOf_concat_of_ne (by simp [hname])]
    exact h.id
  classes := by
    rw [Html.valuesOf_concat hname, List.flatMap_append, List.flatMap_singleton]
    exact List.rel_append h.classes hplaces

theorem other (hid : source.name ≠ "id") (hclass : source.name ≠ "class") :
    element.Notes names (done ++ [source]) where
  id := by
    rw [Html.valuesOf_concat_of_ne hid]
    exact h.id
  classes := by
    rw [Html.valuesOf_concat_of_ne hclass]
    exact h.classes

end Element.Notes

theorem Content.Takes.mono {names later : Names} {content : Content} {node : Html.Node}
    (h : content.Takes names node) (hgrown : names.entries <+: later.entries) :
    content.Takes later node := by
  cases node with
  | element ns name attributes children =>
    obtain ⟨element, hcontent, hnotes, hattributes⟩ := h
    refine ⟨element, hcontent, hnotes.mono hgrown, fun hdistinct => ?_⟩
    exact (hattributes hdistinct).imp fun _ _ h => h.mono hgrown
  | doctype | text | comment | instruction => trivial

namespace Tree

variable {tree first later : Tree} {parent : NodeId}

/-! ## Noting attributes -/

theorem holds_internAll (tree : Tree) (texts : List String) :
    List.Forall₂ (tree.internAll texts).1.names.Holds (tree.internAll texts).2 texts := by
  induction texts generalizing tree with
  | nil => exact .nil
  | cons text texts ih =>
    have hholds : (tree.intern text).1.names.Holds (tree.intern text).2 text :=
      Names.holds_intern tree.names text
    exact .cons (hholds.mono (interns_internAll (tree.intern text).1 texts).names) (ih _)

theorem notes_addSourceAttribute {element : Element} {done : List Html.Attribute}
    (h : element.Notes tree.names done) (source : Html.Attribute) :
    let added := tree.addSourceAttribute element source
    added.2.Notes added.1.names (done ++ [source]) := by
  intro added
  let spaced := ((tree.intern source.writtenName).1.intern source.ns).1
  let noted : Tree × Element :=
    if source.name == "id" then
      ((spaced.intern source.value).1, { element with id := some (spaced.intern source.value).2 })
    else if source.name == "class" then
      ((spaced.internAll (words isBlank source.value)).1, { element with
        classes := element.classes ++ (spaced.internAll (words isBlank source.value)).2 })
    else (spaced, element)
  have hspaced : tree.Interns spaced := (interns_intern tree _).trans (interns_intern _ source.ns)
  suffices hnoted : noted.2.Notes noted.1.names (done ++ [source]) from
    ⟨hnoted.id, hnoted.classes⟩
  simp only [noted]
  split
  next hname =>
    have hgrown := hspaced.trans (interns_intern spaced source.value)
    have hplace := Names.holds_intern spaced.names source.value
    exact (h.mono hgrown.names).withId (eq_of_beq hname) hplace
  next hid =>
    split
    next hname =>
      have hgrown := hspaced.trans (interns_internAll spaced (words isBlank source.value))
      have hplaces := holds_internAll spaced (words isBlank source.value)
      exact (h.mono hgrown.names).withClasses (eq_of_beq hname) hplaces
    next hclass =>
      rw [beq_iff_eq] at hid hclass
      exact (h.mono hspaced.names).other hid hclass

theorem interns_addSourceAttributes (tree : Tree) (element : Element)
    (sources : List Html.Attribute) :
    tree.Interns (tree.addSourceAttributes element sources).1 := by
  induction sources generalizing tree element with
  | nil => exact .refl tree
  | cons source sources ih =>
    obtain ⟨_, hinterns, -⟩ := addSourceAttribute_eq tree element source
    exact hinterns.trans (ih _ _)

theorem notes_addSourceAttributes {element : Element} {done : List Html.Attribute}
    (h : element.Notes tree.names done) (sources : List Html.Attribute) :
    let added := tree.addSourceAttributes element sources
    added.2.Notes added.1.names (done ++ sources) := by
  induction sources generalizing tree element done with
  | nil =>
    rw [List.append_nil]
    exact h
  | cons source sources ih =>
    rw [List.append_cons]
    exact ih (notes_addSourceAttribute h source)

/-- An element without attributes takes those of the source. -/
theorem takes_addSourceAttributes (tree : Tree) (name : QualifiedName)
    (sources : List Html.Attribute) :
    let added := tree.addSourceAttributes { name } sources
    added.2.Takes added.1.names sources := by
  intro added
  have hnone : ({ name } : Element).Notes tree.names [] := ⟨.none, .nil⟩
  refine ⟨notes_addSourceAttributes hnone sources, fun hdistinct => ?_⟩
  have hbare : List.Forall₂ (Attribute.Reads tree.names) ({ name } : Element).attributes
      (([] : List Html.Attribute).map Html.Attribute.written) := .nil
  exact (addSourceAttributes_eq hbare hdistinct).2.2

/-! ## Adding nodes at the end -/

/-- What the nodes are, in the order of their places. -/
def contents (tree : Tree) : List Content := tree.nodes.toList.map (·.content)

theorem length_contents (tree : Tree) : tree.contents.length = tree.size := by
  simp [contents, size]

theorem getElem?_contents (tree : Tree) (i : Nat) :
    tree.contents[i]? = (tree.get? ⟨i⟩).map (·.content) := by
  rw [contents, List.getElem?_map, Array.getElem?_toList, get?]

theorem element?_eq (tree : Tree) (id : NodeId) :
    tree.element? id = tree.contents[id.index]?.bind Content.element? := by
  rw [getElem?_contents, Option.bind_map]
  rfl

theorem contents_createIn {top : Node} (hparent : tree.get? parent = some top)
    (content : Content) :
    (createIn parent (tree.create content)).contents = tree.contents ++ [content] := by
  apply List.ext_getElem?
  intro i
  rw [getElem?_contents, content_createIn hparent, List.getElem?_append, length_contents,
    getElem?_contents]
  obtain hlt | rfl | hgt := Nat.lt_trichotomy i tree.size
  · rw [if_neg (Nat.ne_of_lt hlt), if_pos hlt]
  · simp
  · have hnone : tree.get? ⟨i⟩ = none := Array.getElem?_eq_none (Nat.le_of_lt hgt)
    have hend : [content][i - tree.size]? = none :=
      List.getElem?_eq_none (Nat.sub_pos_of_lt hgt)
    rw [if_neg (Nat.ne_of_gt hgt), if_neg (Nat.lt_asymm hgt), hnone, hend, Option.map_none]

theorem contents_interns (h : tree.Interns later) : later.contents = tree.contents := by
  rw [contents, contents, h.nodes]

theorem exists_created {top : Node} (hparent : tree.get? parent = some top) (content : Content) :
    ∃ node, (createIn parent (tree.create content)).get? ⟨tree.size⟩ = some node := by
  have hcreated := content_createIn hparent content ⟨tree.size⟩
  rw [if_pos rfl] at hcreated
  obtain ⟨node, hnode, -⟩ := Option.map_eq_some_iff.mp hcreated
  exact ⟨node, hnode⟩

namespace Built

theorem internAll (h : tree.Built) (texts : List String) : (tree.internAll texts).1.Built := by
  induction texts generalizing tree with
  | nil => exact h
  | cons text texts ih => exact ih (h.intern text)

theorem addSourceAttribute (h : tree.Built) (element : Element) (source : Html.Attribute) :
    (tree.addSourceAttribute element source).1.Built := by
  have hspaced := (h.intern source.writtenName).intern source.ns
  unfold Tree.addSourceAttribute
  dsimp only
  split
  · exact hspaced.intern source.value
  · split
    · exact hspaced.internAll (words isBlank source.value)
    · exact hspaced

theorem addSourceAttributes (h : tree.Built) (element : Element) (sources : List Html.Attribute) :
    (tree.addSourceAttributes element sources).1.Built := by
  induction sources generalizing tree element with
  | nil => exact h
  | cons source sources ih => exact ih (h.addSourceAttribute element source) _

/-- A new node may be appended anywhere. -/
theorem createIn (h : tree.Built) {top : Node} (hparent : tree.get? parent = some top)
    {content : Content} (hcontent : content ≠ .container) :
    (createIn parent (tree.create content)).Built := by
  have hlt : parent.index < tree.size := lt_of_get? hparent
  have hne : parent ≠ ⟨tree.size⟩ := by
    rintro rfl
    exact Nat.lt_irrefl _ hlt
  have hold : ((tree.create content).1.get? parent).isSome = true := by
    rw [get?_create, if_neg (Nat.ne_of_lt hlt), hparent, Option.isSome_some]
  have hnew : ((tree.create content).1.get? ⟨tree.size⟩).map (·.parent) = some none := by
    rw [get?_create, if_pos rfl, Option.map_some]
  have hleaf : (tree.create content).1.children ⟨tree.size⟩ = [] := by
    rw [(h.linked.create content).children_eq]
    exact h.linked.kids_eq_nil (Array.getElem?_eq_none (Nat.le_refl _))
  exact (h.create hcontent).appendLeaf parent ⟨tree.size⟩ hold hnew hleaf hne

end Built

/-- Nodes were created at the end and appended, with the contents that come from the source
    nodes. -/
structure Collects (tree : Tree) (sources : List Html.Node) (later : Tree) : Prop where
  names : tree.names.entries <+: later.names.entries
  contents : ∃ added, later.contents = tree.contents ++ added ∧
    List.Forall₂ (Content.Takes later.names) added sources
  built : tree.Built → later.Built

namespace Collects

variable {sources more : List Html.Node}

theorem nil (h : tree.Interns later) (hbuilt : tree.Built → later.Built) :
    tree.Collects [] later :=
  ⟨h.names, ⟨[], by rw [contents_interns h, List.append_nil], .nil⟩, hbuilt⟩

theorem append (h : tree.Collects sources first) (hmore : first.Collects more later) :
    tree.Collects (sources ++ more) later := by
  obtain ⟨added, hadded, htakes⟩ := h.contents
  obtain ⟨added', hadded', htakes'⟩ := hmore.contents
  refine ⟨h.names.trans hmore.names, ⟨added ++ added', ?_, ?_⟩, fun hbuilt => ?_⟩
  · rw [hadded', hadded, List.append_assoc]
  · exact List.rel_append (htakes.imp fun _ _ h => h.mono hmore.names) htakes'
  · exact hmore.built (h.built hbuilt)

theorem createIn {top : Node} (hparent : tree.get? parent = some top) {content : Content}
    {source : Html.Node} (h : content.Takes tree.names source) (hcontent : content ≠ .container) :
    tree.Collects [source] (createIn parent (tree.create content)) := by
  have hnames : (Tree.createIn parent (tree.create content)).names = tree.names :=
    names_append _ _ _
  refine ⟨hnames ▸ List.prefix_rfl, ⟨[content], contents_createIn hparent content, ?_⟩,
    fun hbuilt => hbuilt.createIn hparent hcontent⟩
  rw [hnames]
  exact .cons h .nil

theorem exists_node (h : tree.Collects sources later) {id : NodeId} {node : Node}
    (hnode : tree.get? id = some node) : ∃ node, later.get? id = some node := by
  obtain ⟨added, hadded, -⟩ := h.contents
  have hlt : id.index < later.size := by
    have hlt := lt_of_get? hnode
    rw [← length_contents] at hlt ⊢
    rw [hadded, List.length_append]
    omega
  exact ⟨_, Array.getElem?_eq_getElem hlt⟩

end Collects

mutual

/-- Storing a node collects what is stored for it. -/
theorem collects_addNode (options : SourceOptions) (node : Html.Node) {tree : Tree}
    {parent : NodeId} {top : Node} (hparent : tree.get? parent = some top) :
    tree.Collects (node.stored options) (addNode options tree parent node) := by
  cases node with
  | doctype name publicId systemId =>
    have hinterns := interns_intern tree name
    rw [← hinterns.get?_eq] at hparent
    exact (Collects.nil hinterns fun h => h.intern name).append
      (.createIn hparent trivial nofun)
  | element ns name attributes children =>
    let named := ((tree.intern ns).1.intern name)
    let qualified : QualifiedName := ⟨(tree.intern ns).2, named.2⟩
    let added := named.1.addSourceAttributes { name := qualified } attributes
    have hinterns : tree.Interns added.1 :=
      ((interns_intern tree ns).trans (interns_intern _ name)).trans
        (interns_addSourceAttributes named.1 _ attributes)
    have hbuilt (h : tree.Built) : added.1.Built :=
      ((h.intern ns).intern name).addSourceAttributes _ attributes
    have htakes : (Content.element added.2).Takes added.1.names
        (.element ns name attributes children) :=
      ⟨_, rfl, takes_addSourceAttributes named.1 qualified attributes⟩
    have helement : Content.element added.2 ≠ .container := nofun
    rw [← hinterns.get?_eq] at hparent
    obtain ⟨_, hcreated⟩ := exists_created hparent (.element added.2)
    have hnode := (Collects.nil hinterns hbuilt).append (.createIn hparent htakes helement)
    exact hnode.append (collects_addNodes options children hcreated)
  | text content =>
    rw [Html.Node.stored, addNode]
    split
    · exact .createIn hparent trivial nofun
    · exact .nil (.refl tree) id
  | comment content =>
    rw [Html.Node.stored, addNode]
    split
    · exact .createIn hparent trivial nofun
    · exact .nil (.refl tree) id
  | instruction target content => exact .nil (.refl tree) id

theorem collects_addNodes (options : SourceOptions) (nodes : Html.Forest) {tree : Tree}
    {parent : NodeId} {top : Node} (hparent : tree.get? parent = some top) :
    tree.Collects (storedAll options nodes) (addNodes options tree parent nodes) := by
  cases nodes with
  | nil => exact .nil (.refl tree) id
  | cons node rest =>
    have hnode := collects_addNode options node hparent
    obtain ⟨_, hlater⟩ := hnode.exists_node hparent
    exact hnode.append (collects_addNodes options rest hlater)

end

/-! ## Trees of forests -/

theorem collects_ofForest (options : SourceOptions) (forest : Html.Forest) :
    Tree.empty.Collects (storedAll options forest) (ofForest options forest) :=
  have hroot : Tree.empty.get? root = some { content := .container } := rfl
  collects_addNodes options forest hroot

theorem built_ofForest (options : SourceOptions) (forest : Html.Forest) :
    (ofForest options forest).Built :=
  (collects_ofForest options forest).built .empty

/-- Each element of the source has its place in the tree, with its attributes as the source
    has them, whatever the other elements are. -/
theorem takes_ofForest {options : SourceOptions} {forest : Html.Forest} {place : Nat}
    {ns name : String} {attributes : List Html.Attribute} {children : Html.Forest}
    (h : (storedAll options forest)[place]? = some (.element ns name attributes children)) :
    ∃ element, (ofForest options forest).element? ⟨place + 1⟩ = some element ∧
      element.Takes (ofForest options forest).names attributes := by
  obtain ⟨added, hadded, htakes⟩ := (collects_ofForest options forest).contents
  obtain ⟨content, hcontent, element, rfl, helement⟩ :
      ∃ content, added[place]? = some content ∧
        content.Takes (ofForest options forest).names (.element ns name attributes children) := by
    obtain ⟨hsource, heq⟩ := List.getElem?_eq_some_iff.mp h
    have hlt : place < added.length := htakes.length_eq ▸ hsource
    have htake := htakes.get hlt hsource
    rw [List.get_eq_getElem, List.get_eq_getElem, heq] at htake
    exact ⟨_, List.getElem?_eq_getElem hlt, htake⟩
  have hat : (ofForest options forest).contents[place + 1]? = some (.element element) := by
    rw [hadded]
    exact hcontent
  exact ⟨element, by rw [element?_eq, hat]; rfl, helement⟩

end Tree

end HtmlTemplate
