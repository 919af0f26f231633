-- SUMMARY: Trees of source text hold, node by node, the forest without what is left out.
import HtmlTemplate.Proofs.Names
import HtmlTemplate.Proofs.Tree.Building
import HtmlTemplate.Tree.Source

/-!
# Trees of source text

Storing a forest loses nothing but what is left out: reading the tree back from child to
child, with all names told, gives the forest again. What is stored comes in the order of
the source, so that the places of the nodes count them in pre-order. `Tree.Stores` says
this of nodes that lie side by side from one place on; `Tree.Receives` is what storing
nodes below a parent does to the rest of the tree, which is nothing.
-/

namespace HtmlTemplate

/-! ## What is kept of a forest -/

namespace Html

/-- The attribute with the name that is written in place of prefix and name. -/
def Attribute.written (attr : Attribute) : Attribute :=
  ⟨attr.ns, none, attr.writtenName, attr.value⟩

mutual

/-- The node without what is left out of it, or nothing if it is left out itself. -/
def Node.kept (options : SourceOptions) : Node → Forest
  | .doctype name publicId systemId => [.doctype name publicId systemId]
  | .element ns name attributes children =>
    [.element ns name (attributes.map Attribute.written) (keptAll options children)]
  | .text content =>
    if options.keepBlankText || !isBlankText content then [.text content] else []
  | .comment content => if options.keepComments then [.comment content] else []
  | .instruction _ _ => []

def keptAll (options : SourceOptions) : Forest → Forest
  | [] => []
  | node :: rest => node.kept options ++ keptAll options rest

end

mutual

/-- On no element, two attributes have the same namespace and the same written name. -/
def Node.HasDistinctAttributes : Node → Prop
  | .element _ _ attributes children =>
    (attributes.map fun attr => (attr.ns, attr.writtenName)).Nodup ∧
      HaveDistinctAttributes children
  | _ => True

def HaveDistinctAttributes : Forest → Prop
  | [] => True
  | node :: rest => node.HasDistinctAttributes ∧ HaveDistinctAttributes rest

end

mutual

/-- How many nodes there are with those below. -/
def Node.count : Node → Nat
  | .element _ _ _ children => countAll children + 1
  | _ => 1

def countAll : Forest → Nat
  | [] => 0
  | node :: rest => node.count + countAll rest

end

theorem Node.count_eq (node : Node) : node.count = countAll node.children + 1 := by
  cases node <;> rfl

theorem countAll_append (first second : Forest) :
    countAll (first ++ second) = countAll first + countAll second := by
  induction first with
  | nil => simp [countAll]
  | cons node rest ih => simp [countAll, ih, Nat.add_assoc]

/-- The places of nodes side by side, when all nodes are counted in pre-order from
    `start` on. -/
def places (start : Nat) : Forest → List NodeId
  | [] => []
  | node :: rest => ⟨start⟩ :: places (start + node.count) rest

theorem places_append (start : Nat) (first second : Forest) :
    places start (first ++ second) =
      places start first ++ places (start + countAll first) second := by
  induction first generalizing start with
  | nil => rfl
  | cons node rest ih => simp [places, countAll, ih, Nat.add_assoc]

end Html

open Html (keptAll HaveDistinctAttributes countAll places)

/-! ## Contents with their names told -/

/-- The attribute is that of the source, its names as the table tells them. -/
structure Attribute.Reads (names : Names) (attr : Attribute) (source : Html.Attribute) : Prop where
  ns : names.Holds attr.name.ns source.ns
  namePrefix : source.namePrefix = none
  name : names.Holds attr.name.localName source.name
  value : attr.value = source.value

/-- The content is that of the source node, its names as the table tells them. -/
def Content.Reads (names : Names) : Content → Html.Node → Prop
  | .doctype name publicId systemId, .doctype name' publicId' systemId' =>
    names.Holds name name' ∧ publicId = publicId' ∧ systemId = systemId'
  | .element e, .element ns name attributes _ =>
    names.Holds e.name.ns ns ∧ names.Holds e.name.localName name ∧
      List.Forall₂ (Attribute.Reads names) e.attributes attributes
  | .text t, .text t' => t = t'
  | .comment t, .comment t' => t = t'
  | _, _ => False

theorem Attribute.Reads.mono {names later : Names} {attr : Attribute} {source : Html.Attribute}
    (h : attr.Reads names source) (hgrown : names.entries <+: later.entries) :
    attr.Reads later source :=
  ⟨h.ns.mono hgrown, h.namePrefix, h.name.mono hgrown, h.value⟩

theorem Content.Reads.mono {names later : Names} {content : Content} {node : Html.Node}
    (h : content.Reads names node) (hgrown : names.entries <+: later.entries) :
    content.Reads later node := by
  cases content <;> cases node <;> simp only [Content.Reads] at h ⊢
  case doctype.doctype => exact ⟨h.1.mono hgrown, h.2⟩
  case element.element =>
    exact ⟨h.1.mono hgrown, h.2.1.mono hgrown, h.2.2.imp fun _ _ h => h.mono hgrown⟩
  case text.text => exact h
  case comment.comment => exact h

namespace Tree

/-! ## Reading a tree -/

def readAttribute (tree : Tree) (attr : Attribute) : Html.Attribute :=
  ⟨tree.name attr.name.ns, none, tree.name attr.name.localName, attr.value⟩

/-- A node with that content and those children. -/
def readContent (tree : Tree) (children : Html.Forest) : Content → Option Html.Node
  | .container => none
  | .doctype name publicId systemId => some (.doctype (tree.name name) publicId systemId)
  | .element element =>
    some (.element (tree.name element.name.ns) (tree.name element.name.localName)
      (element.attributes.map tree.readAttribute) children)
  | .text text => some (.text text)
  | .comment text => some (.comment text)
  | .instruction target text => some (.instruction (tree.name target) text)

/-- A node with what is below it down to a depth, going from child to child. -/
def readWithin (tree : Tree) : Nat → NodeId → Option Html.Node
  | 0, _ => none
  | depth + 1, id =>
    (tree.get? id).bind fun node =>
      tree.readContent ((tree.children id).filterMap (tree.readWithin depth)) node.content

/-- The forest below a node. No node is deeper than there are nodes. -/
def readBelow (tree : Tree) (id : NodeId) : Html.Forest :=
  (tree.children id).filterMap (tree.readWithin tree.size)

variable {tree first later : Tree} {kids kids' kids'' : NodeId → List NodeId} {parent : NodeId}

theorem readContent_of_reads {content : Content} {node : Html.Node}
    (h : content.Reads tree.names node) : tree.readContent node.children content = some node := by
  cases content <;> cases node <;> simp only [Content.Reads] at h
  case doctype.doctype =>
    obtain ⟨hname, rfl, rfl⟩ := h
    rw [readContent, name, hname.get_eq]
  case element.element =>
    obtain ⟨hns, hname, hattributes⟩ := h
    have hread : ∀ {attrs sources}, List.Forall₂ (Attribute.Reads tree.names) attrs sources →
        attrs.map tree.readAttribute = sources := by
      intro attrs sources hreads
      induction hreads with
      | nil => rfl
      | @cons attr source _ _ hread _ ih =>
        obtain ⟨ns, namePrefix, name, value⟩ := source
        obtain ⟨hns, rfl, hname, rfl⟩ := hread
        rw [List.map_cons, ih, readAttribute, Tree.name, Tree.name, hns.get_eq, hname.get_eq]
    rw [readContent, name, name, hns.get_eq, hname.get_eq, hread hattributes, Html.Node.children]
  case text.text => rw [h, readContent]
  case comment.comment => rw [h, readContent]

/-- From `start` on, the tree holds the nodes with all that is below them, counted in
    pre-order. -/
inductive Stores (tree : Tree) (kids : NodeId → List NodeId) : Nat → Html.Forest → Prop where
  | nil {start : Nat} : Stores tree kids start []
  | cons {start : Nat} {node : Html.Node} {rest : Html.Forest} {found : Node}
      (hfound : tree.get? ⟨start⟩ = some found) (hreads : found.content.Reads tree.names node)
      (hkids : kids ⟨start⟩ = places (start + 1) node.children)
      (hchildren : Stores tree kids (start + 1) node.children)
      (hrest : Stores tree kids (start + node.count) rest) : Stores tree kids start (node :: rest)

namespace Stores

variable {start : Nat} {nodes : Html.Forest}

theorem append {more : Html.Forest} (h : tree.Stores kids start nodes)
    (hmore : tree.Stores kids (start + countAll nodes) more) :
    tree.Stores kids start (nodes ++ more) := by
  induction h with
  | nil => simpa [countAll] using hmore
  | cons hfound hreads hkids hchildren _ _ ih =>
    refine .cons hfound hreads hkids hchildren (ih ?_)
    rwa [countAll, ← Nat.add_assoc] at hmore

/-- What is stored is what one reads. -/
theorem filterMap_readWithin (h : tree.Stores tree.children start nodes) {depth : Nat}
    (hdepth : countAll nodes ≤ depth) :
    (places start nodes).filterMap (tree.readWithin depth) = nodes := by
  induction h generalizing depth with
  | nil => rfl
  | @cons start node rest found hfound hreads hkids _ _ ihchildren ihrest =>
    rw [countAll, node.count_eq] at hdepth
    obtain ⟨depth, rfl⟩ : ∃ less, depth = less + 1 := ⟨depth - 1, by omega⟩
    have hnode : tree.readWithin (depth + 1) ⟨start⟩ = some node := by
      rw [readWithin, hfound, Option.bind_some, hkids, ihchildren (by omega),
        readContent_of_reads hreads]
    rw [places, List.filterMap_cons_some hnode, ihrest (by omega)]

/-- Each node comes before what is below it, and this before the next node. -/
theorem flatMap_descendants (hlinked : tree.Linked tree.children)
    (h : tree.Stores tree.children start nodes) :
    ((places start nodes).flatMap fun id => id :: tree.descendants id) =
      (List.range' start (countAll nodes)).map NodeId.mk := by
  induction h with
  | nil => rfl
  | @cons start node rest found _ _ hkids _ _ ihchildren ihrest =>
    have hrange : List.range' start (node.count + countAll rest) =
        start :: List.range' (start + 1) (countAll node.children) ++
          List.range' (start + node.count) (countAll rest) := by
      rw [node.count_eq, ← List.range'_append_1, List.range'_succ]
    rw [places, List.flatMap_cons, hlinked.descendants_eq_flatMap, hkids, ihchildren, ihrest,
      countAll, hrange, List.map_append, List.map_cons]

end Stores

/-! ## Storing nodes -/

/-- The tree differs in its table of names alone, which may have grown. -/
structure Interns (tree later : Tree) : Prop where
  nodes : later.nodes = tree.nodes
  names : tree.names.entries <+: later.names.entries

theorem Interns.refl (tree : Tree) : tree.Interns tree := ⟨rfl, List.prefix_refl _⟩

theorem Interns.trans (h : tree.Interns first) (h' : first.Interns later) : tree.Interns later :=
  ⟨h'.nodes.trans h.nodes, h.names.trans h'.names⟩

theorem interns_intern (tree : Tree) (text : String) : tree.Interns (tree.intern text).1 :=
  ⟨rfl, Names.prefix_intern tree.names text⟩

theorem interns_internAll (tree : Tree) (texts : List String) :
    tree.Interns (tree.internAll texts).1 := by
  induction texts generalizing tree with
  | nil => exact .refl tree
  | cons text texts ih => exact (interns_intern tree text).trans (ih (tree.intern text).1)

/-- An attribute whose names differ from those that are there comes to the end. -/
theorem putAttribute_of_new {names : Names} {attributes : List Attribute} {attr : Attribute}
    {sources : List Html.Attribute} {source : Html.Attribute}
    (h : List.Forall₂ (Attribute.Reads names) attributes sources) (hread : attr.Reads names source)
    (hnew : ∀ other ∈ sources, (other.ns, other.name) ≠ (source.ns, source.name)) :
    Element.putAttribute attr.name attr.value attributes = attributes ++ [attr] := by
  induction h with
  | nil => rfl
  | @cons first other _ _ hfirst _ ih =>
    obtain ⟨hother, hrest⟩ := List.forall_mem_cons.mp hnew
    have hne : first.name ≠ attr.name := by
      intro heq
      refine hother (Prod.ext ?_ ?_)
      · exact hfirst.ns.unique (heq ▸ hread.ns)
      · exact hfirst.name.unique (heq ▸ hread.name)
    rw [Element.putAttribute, if_neg hne, ih hrest, List.cons_append]

/-- The element gets the attribute; what is noted beside the attributes are names only. -/
theorem addSourceAttribute_eq (tree : Tree) (element : Element) (source : Html.Attribute) :
    let added := tree.addSourceAttribute element source
    ∃ attr : Attribute, tree.Interns added.1 ∧ attr.Reads added.1.names source.written ∧
      added.2.name = element.name ∧
      added.2.attributes = Element.putAttribute attr.name attr.value element.attributes := by
  intro added
  let named := tree.intern source.writtenName
  let spaced := named.1.intern source.ns
  let noted : Tree × Element :=
    if source.name == "id" then
      ((spaced.1.intern source.value).1,
        { element with id := some (spaced.1.intern source.value).2 })
    else if source.name == "class" then
      ((spaced.1.internAll (words isBlank source.value)).1, { element with
        classes := element.classes ++ (spaced.1.internAll (words isBlank source.value)).2 })
    else (spaced.1, element)
  have hadded : added = (noted.1, noted.2.setAttribute ⟨spaced.2, named.2⟩ source.value) := rfl
  have hspaced : named.1.Interns spaced.1 := interns_intern named.1 source.ns
  have hnoted : spaced.1.Interns noted.1 ∧ noted.2.name = element.name ∧
      noted.2.attributes = element.attributes := by
    simp only [noted]
    split_ifs
    · exact ⟨interns_intern _ _, rfl, rfl⟩
    · exact ⟨interns_internAll _ _, rfl, rfl⟩
    · exact ⟨.refl _, rfl, rfl⟩
  obtain ⟨hinterns, hname, hattributes⟩ := hnoted
  have hlocal : named.1.names.Holds named.2 source.writtenName := Names.holds_intern _ _
  have hns : spaced.1.names.Holds spaced.2 source.ns := Names.holds_intern _ _
  rw [hadded]
  refine ⟨⟨⟨spaced.2, named.2⟩, source.value⟩,
    ((interns_intern tree _).trans hspaced).trans hinterns, ⟨hns.mono hinterns.names, rfl,
      hlocal.mono (hspaced.trans hinterns).names, rfl⟩, hname, ?_⟩
  rw [Element.setAttribute, hattributes]

/-- All attributes of a source element come to the end in their order. -/
theorem addSourceAttributes_eq {element : Element} {done sources : List Html.Attribute}
    (hdone : List.Forall₂ (Attribute.Reads tree.names) element.attributes
      (done.map Html.Attribute.written))
    (hdistinct : ((done ++ sources).map fun source => (source.ns, source.writtenName)).Nodup) :
    let added := tree.addSourceAttributes element sources
    tree.Interns added.1 ∧ added.2.name = element.name ∧
      List.Forall₂ (Attribute.Reads added.1.names) added.2.attributes
        ((done ++ sources).map Html.Attribute.written) := by
  induction sources generalizing tree element done with
  | nil =>
    rw [List.append_nil]
    exact ⟨.refl tree, rfl, hdone⟩
  | cons source sources ih =>
    obtain ⟨attr, hinterns, hread, hname, hattributes⟩ :=
      addSourceAttribute_eq tree element source
    have hmono := hdone.imp fun _ _ h => h.mono hinterns.names
    have hnew : ∀ other ∈ done.map Html.Attribute.written,
        (other.ns, other.name) ≠ (source.written.ns, source.written.name) := by
      rw [List.map_append, List.nodup_append] at hdistinct
      intro other hother
      obtain ⟨original, horiginal, rfl⟩ := List.mem_map.mp hother
      exact hdistinct.2.2 _ (List.mem_map_of_mem horiginal) _ List.mem_cons_self
    rw [putAttribute_of_new hmono hread hnew] at hattributes
    have hreads : List.Forall₂
        (Attribute.Reads (tree.addSourceAttribute element source).1.names)
        (tree.addSourceAttribute element source).2.attributes
        ((done ++ [source]).map Html.Attribute.written) := by
      rw [hattributes, List.map_append]
      exact List.rel_append hmono (.cons hread .nil)
    rw [List.append_cons] at hdistinct ⊢
    obtain ⟨hrest, hsame, hall⟩ := ih hreads hdistinct
    exact ⟨hinterns.trans hrest, hsame.trans hname, hall⟩

/-- The tree has received nodes as the last children of a node, at the places from its
    end on. -/
structure Receives (tree : Tree) (kids : NodeId → List NodeId) (parent : NodeId)
    (nodes : Html.Forest) (later : Tree) (kids' : NodeId → List NodeId) : Prop where
  linked : later.Linked kids'
  size : later.size = tree.size + countAll nodes
  names : tree.names.entries <+: later.names.entries
  contents : ∀ {id node}, tree.get? id = some node →
    (later.get? id).map (·.content) = some node.content
  others : ∀ {id}, id ≠ parent → id.index < tree.size → kids' id = kids id
  children : kids' parent = kids parent ++ places tree.size nodes
  stores : later.Stores kids' tree.size nodes

/-- The children with one more. -/
def attached (kids : NodeId → List NodeId) (parent child : NodeId) : NodeId → List NodeId :=
  fun id => if id = parent then kids id ++ [child] else kids id

theorem Interns.linked (h : tree.Interns first) (hlinked : tree.Linked kids) :
    first.Linked kids := by
  obtain ⟨nodes, names⟩ := tree
  obtain ⟨nodes', names'⟩ := first
  obtain rfl : nodes' = nodes := h.nodes
  exact { hlinked with }

theorem Interns.get?_eq (h : tree.Interns first) (id : NodeId) : first.get? id = tree.get? id := by
  rw [get?, get?, h.nodes]

theorem Interns.size_eq (h : tree.Interns first) : first.size = tree.size := by
  rw [size, size, h.nodes]

/-- A new node is appended. -/
theorem Linked.createIn (h : tree.Linked kids) {top : Node} (hparent : tree.get? parent = some top)
    (content : Content) :
    (createIn parent (tree.create content)).Linked (attached kids parent ⟨tree.size⟩) := by
  have hlt : parent.index < tree.size := lt_of_get? hparent
  have hold : (tree.create content).1.get? parent = some top := by
    rw [get?_create, if_neg (Nat.ne_of_lt hlt), hparent]
  have hnew : (tree.create content).1.get? ⟨tree.size⟩ = some { content } := by
    rw [get?_create, if_pos rfl]
  have hchildren : kids ⟨tree.size⟩ = [] := h.kids_eq_nil (Array.getElem?_eq_none (Nat.le_refl _))
  refine (h.create content).append hold hnew rfl fun hbelow => ?_
  rcases Relation.ReflTransGen.cases_head hbelow with heq | ⟨child, hchild, -⟩
  · exact Nat.ne_of_lt hlt (congrArg NodeId.index heq.symm)
  · exact List.not_mem_nil (hchildren ▸ hchild)

theorem size_createIn (tree : Tree) (parent : NodeId) (content : Content) :
    (createIn parent (tree.create content)).size = tree.size + 1 := by
  rw [createIn, size_append, create, size, Array.size_push, size]

/-- The nodes that were there keep their contents beside a new one. -/
theorem content_createIn {top : Node} (hparent : tree.get? parent = some top) (content : Content)
    (id : NodeId) : ((createIn parent (tree.create content)).get? id).map (·.content) =
      if id.index = tree.size then some content else (tree.get? id).map (·.content) := by
  have hold : (tree.create content).1.get? parent = some top := by
    rw [get?_create, if_neg (Nat.ne_of_lt (lt_of_get? hparent)), hparent]
  rw [createIn, get?_append hold, Option.map_map, get?_create]
  by_cases hnew : id.index = tree.size
  · rw [if_pos hnew, if_pos hnew]
    rfl
  · rw [if_neg hnew, if_neg hnew]
    rfl

/-- What is stored stays so when a node that comes before it receives more. -/
theorem Stores.receives {start : Nat} {nodes more : Html.Forest}
    (h : first.Stores kids start nodes) (hmore : first.Receives kids parent more later kids')
    (hstart : parent.index < start) : later.Stores kids' start nodes := by
  induction h with
  | nil => exact .nil
  | @cons start node rest found hfound hreads hkids _ _ ihchildren ihrest =>
    have hcontent := hmore.contents hfound
    obtain ⟨later, hlater, hsame⟩ := Option.map_eq_some_iff.mp hcontent
    have hne : (⟨start⟩ : NodeId) ≠ parent := by
      rintro rfl
      exact Nat.lt_irrefl start hstart
    refine .cons hlater ?_ ?_ (ihchildren (Nat.lt_succ_of_lt hstart))
      (ihrest (Nat.lt_of_lt_of_le hstart (Nat.le_add_right _ _)))
    · rw [hsame]
      exact hreads.mono hmore.names
    · rw [hmore.others hne (lt_of_get? hfound), hkids]

namespace Receives

theorem nil (h : tree.Linked kids) : tree.Receives kids parent [] tree kids where
  linked := h
  size := rfl
  names := List.prefix_refl _
  contents hnode := by rw [hnode, Option.map_some]
  others _ _ := rfl
  children := (List.append_nil _).symm
  stores := .nil

theorem interns {nodes : Html.Forest} (hinterns : tree.Interns first)
    (h : first.Receives kids parent nodes later kids') :
    tree.Receives kids parent nodes later kids' where
  linked := h.linked
  size := by rw [h.size, hinterns.size_eq]
  names := hinterns.names.trans h.names
  contents hnode := h.contents (by rw [hinterns.get?_eq, hnode])
  others hne hlt := h.others hne (by rwa [hinterns.size_eq])
  children := by rw [h.children, hinterns.size_eq]
  stores := by simpa only [hinterns.size_eq] using h.stores

theorem append {nodes more : Html.Forest} (hparent : parent.index < tree.size)
    (h : tree.Receives kids parent nodes first kids')
    (hmore : first.Receives kids' parent more later kids'') :
    tree.Receives kids parent (nodes ++ more) later kids'' where
  linked := hmore.linked
  size := by rw [hmore.size, h.size, Html.countAll_append, Nat.add_assoc]
  names := h.names.trans hmore.names
  contents hnode := by
    obtain ⟨middle, hmiddle, hsame⟩ := Option.map_eq_some_iff.mp (h.contents hnode)
    rw [hmore.contents hmiddle, hsame]
  others hne hlt := by
    rw [hmore.others hne (by rw [h.size]; omega), h.others hne hlt]
  children := by
    rw [hmore.children, h.children, h.size, Html.places_append, List.append_assoc]
  stores := by
    refine (h.stores.receives hmore hparent).append ?_
    rw [← h.size]
    exact hmore.stores

/-- A node is received, and then receives its own children. -/
theorem node {top : Node} {content : Content} {node : Html.Node} (hlinked : tree.Linked kids)
    (hparent : tree.get? parent = some top) (hreads : content.Reads tree.names node)
    (h : (createIn parent (tree.create content)).Receives (attached kids parent ⟨tree.size⟩)
      ⟨tree.size⟩ node.children later kids') :
    tree.Receives kids parent [node] later kids' := by
  have hlt : parent.index < tree.size := lt_of_get? hparent
  have hsize := size_createIn tree parent content
  have hnames : (createIn parent (tree.create content)).names = tree.names := names_append _ _ _
  have hne : parent ≠ ⟨tree.size⟩ := by
    rintro rfl
    exact Nat.lt_irrefl _ hlt
  constructor
  case linked => exact h.linked
  case size =>
    rw [h.size, hsize, countAll, countAll, node.count_eq]
    omega
  case names => exact hnames ▸ h.names
  case contents =>
    intro id found hfound
    have hold := content_createIn hparent content id
    rw [if_neg (Nat.ne_of_lt (lt_of_get? hfound)), hfound] at hold
    obtain ⟨middle, hmiddle, hsame⟩ := Option.map_eq_some_iff.mp hold
    rw [h.contents hmiddle, hsame]
  case others =>
    intro id hid hindex
    have hchild : id ≠ ⟨tree.size⟩ := by
      rintro rfl
      exact Nat.lt_irrefl _ hindex
    rw [h.others hchild (by omega), attached, if_neg hid]
  case children =>
    rw [h.others hne (by omega), attached, if_pos rfl]
    rfl
  case stores =>
    have hnew := content_createIn hparent content ⟨tree.size⟩
    rw [if_pos rfl] at hnew
    obtain ⟨middle, hmiddle, rfl⟩ := Option.map_eq_some_iff.mp hnew
    obtain ⟨found, hfound, hsame⟩ := Option.map_eq_some_iff.mp (h.contents hmiddle)
    refine .cons hfound ?_ ?_ ?_ .nil
    · rw [hsame]
      exact hreads.mono (hnames ▸ h.names)
    · have hnone : kids ⟨tree.size⟩ = [] :=
        hlinked.kids_eq_nil (Array.getElem?_eq_none (Nat.le_refl _))
      rw [h.children, attached, if_neg hne.symm, hnone, hsize, List.nil_append]
    · rw [← hsize]
      exact h.stores

/-- A node without children is received. -/
theorem leaf {top : Node} {content : Content} {node : Html.Node} (hlinked : tree.Linked kids)
    (hparent : tree.get? parent = some top) (hreads : content.Reads tree.names node)
    (hleaf : node.children = []) :
    tree.Receives kids parent [node] (createIn parent (tree.create content))
      (attached kids parent ⟨tree.size⟩) := by
  refine Receives.node hlinked hparent hreads ?_
  rw [hleaf]
  exact .nil (hlinked.createIn hparent content)

end Receives

mutual

/-- Storing a node adds what is kept of it. -/
theorem receives_addNode (options : SourceOptions) (node : Html.Node)
    (hdistinct : node.HasDistinctAttributes) {tree : Tree} {kids : NodeId → List NodeId}
    {parent : NodeId} {top : Node} (hlinked : tree.Linked kids)
    (hparent : tree.get? parent = some top) :
    ∃ kids', tree.Receives kids parent (node.kept options) (addNode options tree parent node)
      kids' := by
  cases node with
  | doctype name publicId systemId =>
    have hinterns := interns_intern tree name
    rw [← hinterns.get?_eq] at hparent
    refine ⟨_, .interns hinterns (.leaf (hinterns.linked hlinked) hparent ?_ rfl)⟩
    exact ⟨Names.holds_intern tree.names name, rfl, rfl⟩
  | element ns name attributes children =>
    obtain ⟨hattributes, hchildren⟩ := hdistinct
    -- The tree does nothing but intern until the element with its attributes is complete.
    let spaced := tree.intern ns
    let named := spaced.1.intern name
    let bare : Element := { name := ⟨spaced.2, named.2⟩ }
    let added := named.1.addSourceAttributes bare attributes
    have hnamed : spaced.1.Interns named.1 := interns_intern spaced.1 name
    have hbare : List.Forall₂ (Attribute.Reads named.1.names) bare.attributes
        (([] : List Html.Attribute).map Html.Attribute.written) := .nil
    obtain ⟨hadded, hname, hreads⟩ := addSourceAttributes_eq hbare hattributes
    have hns : spaced.1.names.Holds spaced.2 ns := Names.holds_intern tree.names ns
    have hlocal : named.1.names.Holds named.2 name := Names.holds_intern spaced.1.names name
    have hinterns : tree.Interns added.1 := ((interns_intern tree ns).trans hnamed).trans hadded
    have hcontent : (Content.element added.2).Reads added.1.names
        (.element ns name (attributes.map Html.Attribute.written) (keptAll options children)) := by
      refine ⟨?_, ?_, hreads⟩
      · rw [hname]
        exact hns.mono (hnamed.trans hadded).names
      · rw [hname]
        exact hlocal.mono hadded.names
    rw [← hinterns.get?_eq] at hparent
    have hfirst := hinterns.linked hlinked
    have hnew := content_createIn hparent (.element added.2) ⟨added.1.size⟩
    rw [if_pos rfl] at hnew
    obtain ⟨created, hcreated, -⟩ := Option.map_eq_some_iff.mp hnew
    obtain ⟨kids', hinner⟩ := receives_addNodes options children hchildren
      (hfirst.createIn hparent (.element added.2)) hcreated
    exact ⟨kids', .interns hinterns (.node hfirst hparent hcontent hinner)⟩
  | text content =>
    rw [Html.Node.kept, addNode]
    split
    · exact ⟨_, .leaf hlinked hparent rfl rfl⟩
    · exact ⟨kids, .nil hlinked⟩
  | comment content =>
    rw [Html.Node.kept, addNode]
    split
    · exact ⟨_, .leaf hlinked hparent rfl rfl⟩
    · exact ⟨kids, .nil hlinked⟩
  | instruction target content => exact ⟨kids, .nil hlinked⟩

theorem receives_addNodes (options : SourceOptions) (nodes : Html.Forest)
    (hdistinct : HaveDistinctAttributes nodes) {tree : Tree} {kids : NodeId → List NodeId}
    {parent : NodeId} {top : Node} (hlinked : tree.Linked kids)
    (hparent : tree.get? parent = some top) :
    ∃ kids', tree.Receives kids parent (keptAll options nodes) (addNodes options tree parent nodes)
      kids' := by
  cases nodes with
  | nil => exact ⟨kids, .nil hlinked⟩
  | cons node rest =>
    obtain ⟨hnode, hrest⟩ := hdistinct
    obtain ⟨kids', hreceives⟩ := receives_addNode options node hnode hlinked hparent
    obtain ⟨later, hlater, -⟩ := Option.map_eq_some_iff.mp (hreceives.contents hparent)
    obtain ⟨kids'', hmore⟩ := receives_addNodes options rest hrest hreceives.linked hlater
    exact ⟨kids'', hreceives.append (lt_of_get? hparent) hmore⟩

end

/-! ## Trees of forests -/

/-- The tree of a forest, whose elements have no attribute twice: read back from child to
    child it is the forest without what is left out, and its nodes are counted in
    pre-order. -/
theorem readBelow_ofForest (options : SourceOptions) {forest : Html.Forest}
    (hdistinct : HaveDistinctAttributes forest) :
    let tree := ofForest options forest
    tree.readBelow root = keptAll options forest ∧
      tree.descendants root = (List.range' 1 (tree.size - 1)).map NodeId.mk ∧
      ∀ id, tree.descendants id =
        (tree.children id).flatMap fun child => child :: tree.descendants child := by
  intro tree
  have hroot : Tree.empty.get? root = some { content := .container } := rfl
  obtain ⟨kids, hreceives⟩ :=
    receives_addNodes options forest hdistinct Records.empty.linked hroot
  obtain rfl : tree.children = kids := funext hreceives.linked.children_eq
  have hlinked : tree.Linked tree.children := hreceives.linked
  have hsize : tree.size = 1 + countAll (keptAll options forest) := hreceives.size
  have hstores : tree.Stores tree.children 1 (keptAll options forest) := hreceives.stores
  have hchildren : tree.children root = places 1 (keptAll options forest) := hreceives.children
  refine ⟨?_, ?_, hlinked.descendants_eq_flatMap⟩
  · rw [readBelow, hchildren, hstores.filterMap_readWithin (by omega)]
  · rw [hlinked.descendants_eq_flatMap, hchildren, hstores.flatMap_descendants hlinked, hsize,
      Nat.add_sub_cancel_left]

/-- A source with all that is left out, and with an attribute that has a prefix. -/
def noticeForest : Html.Forest :=
  [.doctype "html" "" "", .comment "draft", .text "\n",
    .element "xhtml" "p" [.plain "class" "note", ⟨"xlink", some "xlink", "href", "#a"⟩]
      [.text " ", .text "a < b", .instruction "php" "echo", .element "svg" "svg" [] []]]

theorem readBelow_ofForest_notice :
    HaveDistinctAttributes noticeForest ∧
      (ofForest {} noticeForest).readBelow root =
        [.doctype "html" "" "",
          .element "xhtml" "p" [.plain "class" "note", ⟨"xlink", none, "xlink:href", "#a"⟩]
            [.text "a < b", .element "svg" "svg" [] []]] ∧
      (ofForest {} noticeForest).descendants root = [⟨1⟩, ⟨2⟩, ⟨3⟩, ⟨4⟩] := by
  have hdistinct : HaveDistinctAttributes noticeForest := by
    simp [noticeForest, HaveDistinctAttributes, Html.Node.HasDistinctAttributes,
      Html.Attribute.writtenName, Html.Attribute.plain]
  have hsize : (ofForest {} noticeForest).size = 5 := by decide +kernel
  obtain ⟨hread, hdescendants, -⟩ := readBelow_ofForest {} hdistinct
  rw [hsize] at hdescendants
  exact ⟨hdistinct, hread, hdescendants⟩

end Tree

end HtmlTemplate
