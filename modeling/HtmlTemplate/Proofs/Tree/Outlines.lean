-- SUMMARY: Markup tells trees apart: the shape of a tree that is legible can be read back from its markup.
import HtmlTemplate.Proofs.Escaping
import HtmlTemplate.Proofs.Operations
import HtmlTemplate.Proofs.Weaving
import HtmlTemplate.Tree.Markup

/-!
# Outlines

The outline of a tree is its shape: the tags, attributes and texts of its nodes, without
places and links. A tree is legible when a reader of its markup can tell where each piece
of it ends: names are words, texts are not empty and stand apart from each other, what has
no end tag holds nothing, and nothing is written raw. Two legible trees with the same
markup have the same outline.

Markup is read piece by piece. A name ends at the first character that is none of a word,
a value at the first quote, a text at the first bracket, since none of these is written
inside of them. What stands behind a list of siblings is the end of the markup or of the
element that holds them.
-/

namespace HtmlTemplate

/-! ## Shapes -/

/-- What a node is, apart from its place and links. -/
inductive Label where
  | container
  | element (tag : String) (attributes : List (String × String))
  | text (text : String)
  /-- What a legible tree does not hold. -/
  | other
deriving DecidableEq

/-- A node with what is below it, by their labels. -/
inductive Outline where
  | node (label : Label) (children : List Outline)

mutual

def Outline.decEq : (first second : Outline) → Decidable (first = second)
  | .node label children, .node label' children' =>
    have := Outline.decEqAll children children'
    decidable_of_iff (label = label' ∧ children = children') (by simp)

def Outline.decEqAll : (first second : List Outline) → Decidable (first = second)
  | [], [] => .isTrue rfl
  | [], _ :: _ => .isFalse nofun
  | _ :: _, [] => .isFalse nofun
  | outline :: rest, outline' :: rest' =>
    have := Outline.decEq outline outline'
    have := Outline.decEqAll rest rest'
    decidable_of_iff (outline = outline' ∧ rest = rest') (by simp)

end

instance : DecidableEq Outline := Outline.decEq

/-- The names and values of the attributes of an element, in order. -/
def Element.labels (names : Names) (element : Element) : List (String × String) :=
  element.attributes.map fun attr => (names.get attr.name.localName, attr.value)

def Content.label (names : Names) : Content → Label
  | .container => .container
  | .element e => .element (names.get e.name.localName) (e.labels names)
  | .text t => .text t
  | _ => .other

namespace Branch

mutual

/-- The outline of a branch. What is below a node is left out unless it is entered. -/
def outline (names : Names) (enters : Content → Bool) : Branch → Outline
  | .node _ content children =>
    .node (content.label names) (if enters content then outlineAll names enters children else [])

def outlineAll (names : Names) (enters : Content → Bool) : List Branch → List Outline
  | [] => []
  | branch :: rest => branch.outline names enters :: outlineAll names enters rest

end

end Branch

/-- The outline of a tree, from its container on. -/
def Tree.outline (tree : Tree) (enters : Content → Bool) : Option Outline :=
  (tree.branch? Tree.root).map (Branch.outline tree.names enters)

/-! ## Legible outlines -/

/-- Letters, digits and hyphens, those of ASCII. -/
def isWordCharacter (c : Char) : Bool := c.isAlphanum || c == '-'

/-- A name that is a word. -/
def IsWord (name : String) : Prop := name ≠ "" ∧ ∀ c ∈ name.toList, isWordCharacter c = true

instance : DecidablePred IsWord := fun name =>
  decidable_of_iff (name ≠ "" ∧ name.toList.all isWordCharacter = true)
    (and_congr_right' List.all_eq_true)

namespace Outline

def isText : Outline → Bool
  | .node (.text _) _ => true
  | _ => false

mutual

/-- An element or a text that can be read back from markup. -/
def Legible : Outline → Prop
  | .node (.element tag attributes) children =>
    IsWord tag ∧ (∀ pair ∈ attributes, IsWord pair.1) ∧
      (Markup.isVoid tag = true → children = []) ∧ Markup.isRawText tag = false ∧
      AllLegible children
  | .node (.text text) children => text ≠ "" ∧ AllLegible children
  | _ => False

/-- Legible outlines side by side, of which no two texts are next to each other. -/
def AllLegible : List Outline → Prop
  | [] => True
  | first :: rest =>
    first.Legible ∧ (first.isText = true → ∀ next ∈ rest.head?, next.isText = false) ∧
      AllLegible rest

end

mutual

def decLegible : (outline : Outline) → Decidable outline.Legible
  | .node (.element _ _) children =>
    have := decAllLegible children
    inferInstanceAs (Decidable (_ ∧ _ ∧ _ ∧ _ ∧ _))
  | .node (.text _) children =>
    have := decAllLegible children
    inferInstanceAs (Decidable (_ ∧ _))
  | .node .container _ | .node .other _ => .isFalse id

def decAllLegible : (outlines : List Outline) → Decidable (AllLegible outlines)
  | [] => .isTrue trivial
  | first :: rest =>
    have := decLegible first
    have := decAllLegible rest
    inferInstanceAs (Decidable (_ ∧ _ ∧ _))

end

instance : DecidablePred AllLegible := decAllLegible

end Outline

/-- The container holds legible elements and texts, as far as nodes are entered. -/
def Tree.IsLegible (tree : Tree) (enters : Content → Bool) : Prop :=
  ∃ children, tree.outline enters = some (.node .container children) ∧
    Outline.AllLegible children

/-! ## Reading pieces of markup -/

/-- A piece ends at the first character that it cannot have. -/
theorem append_inj_of_forall {p : Char → Bool} {first second rest rest' : List Char}
    (hfirst : ∀ c ∈ first, p c = true) (hsecond : ∀ c ∈ second, p c = true)
    (hrest : ∀ c ∈ rest.head?, p c = false) (hrest' : ∀ c ∈ rest'.head?, p c = false)
    (h : first ++ rest = second ++ rest') : first = second ∧ rest = rest' := by
  induction first generalizing second with
  | nil =>
    cases second with
    | nil => exact ⟨rfl, h⟩
    | cons d second =>
      have hd : p d = false := hrest d (by rw [← List.nil_append rest, h]; rfl)
      cases hd.symm.trans (hsecond d List.mem_cons_self)
  | cons c first ih =>
    cases second with
    | nil =>
      have hc : p c = false := hrest' c (by rw [← List.nil_append rest', ← h]; rfl)
      cases hc.symm.trans (hfirst c List.mem_cons_self)
    | cons d second =>
      obtain ⟨rfl, htail⟩ := List.cons.inj h
      obtain ⟨rfl, hrests⟩ := ih (fun c hc => hfirst c (List.mem_cons_of_mem _ hc))
        (fun c hc => hsecond c (List.mem_cons_of_mem _ hc)) htail
      exact ⟨rfl, hrests⟩

namespace Markup

/-- Attributes as markup, character by character. -/
def attributeCharacters (attributes : List (String × String)) : List Char :=
  attributes.flatMap fun pair =>
    ' ' :: (pair.1.toList ++ ('=' :: '"' :: ((escapedValue pair.2).toList ++ ['"'])))

theorem toList_attributesMarkup (names : Names) (element : Element) :
    (element.attributesMarkup names).toList = attributeCharacters (element.labels names) := by
  unfold Element.attributesMarkup Element.labels attributeCharacters
  induction element.attributes with
  | nil => rfl
  | cons attr rest ih =>
    simp only [List.map_cons, List.flatMap_cons, ← ih]
    simp [Markup.attr]

/-- An element as markup, character by character. -/
theorem toList_element (tag attributes content : String) :
    (element tag attributes content).toList =
      '<' :: (tag.toList ++ (attributes.toList ++ ('>' ::
        if isVoid tag then [] else content.toList ++ ('<' :: '/' :: (tag.toList ++ ['>']))))) := by
  unfold element
  split <;> simp

/-- Attributes are read up to the bracket that ends the tag. -/
theorem attributeCharacters_append_inj {first second : List (String × String)}
    {rest rest' : List Char} (hfirst : ∀ pair ∈ first, IsWord pair.1)
    (hsecond : ∀ pair ∈ second, IsWord pair.1)
    (h : attributeCharacters first ++ '>' :: rest = attributeCharacters second ++ '>' :: rest') :
    first = second ∧ rest = rest' := by
  induction first generalizing second with
  | nil =>
    cases second with
    | nil => exact ⟨rfl, (List.cons.inj h).2⟩
    | cons pair second => cases (List.cons.inj h).1
  | cons pair first ih =>
    cases second with
    | nil => cases (List.cons.inj h).1
    | cons pair' second =>
      obtain ⟨name, value⟩ := pair
      obtain ⟨name', value'⟩ := pair'
      rw [List.forall_mem_cons] at hfirst hsecond
      simp only [attributeCharacters, List.flatMap_cons, List.cons_append, List.append_assoc,
        List.cons.injEq, true_and, List.nil_append] at h
      obtain ⟨hname, hvalues⟩ := append_inj_of_forall hfirst.1.2 hsecond.1.2
        (by simp; decide) (by simp; decide) h
      have hquote (value : String) :
          ∀ c ∈ (escapedValue value).toList, (c != '"') = true := by
        intro c hc
        exact bne_iff_ne.mpr (ne_of_mem_escapedValue hc).2.2
      simp only [List.cons.injEq, true_and] at hvalues
      obtain ⟨hvalue, hrest⟩ := append_inj_of_forall (hquote value) (hquote value')
        (by simp) (by simp) hvalues
      simp only [List.cons.injEq, true_and] at hrest
      obtain ⟨rfl, hrests⟩ := ih hfirst.2 hsecond.2 hrest
      obtain rfl : name = name' := String.toList_inj.mp hname
      obtain rfl : value = value' := escapedValue_injective (String.toList_inj.mp hvalue)
      exact ⟨rfl, hrests⟩

end Markup

/-! ## Reading branches -/

namespace Branch

variable {names names' : Names}

/-- What stands behind siblings: the end of the markup, or that of the element around. -/
def Ends (rest : List Char) : Prop := rest = [] ∨ ∃ more, rest = '<' :: '/' :: more

/-- The outline of what belongs to a document. -/
abbrev shape (names : Names) : Branch → Outline := outline names Content.holdsNodes

abbrev shapes (names : Names) : List Branch → List Outline := outlineAll names Content.holdsNodes

theorem content_of_legible {id : NodeId} {content : Content} {children : List Branch}
    (h : ((Branch.node id content children).shape names).Legible) :
    (∃ element, content = .element element) ∨ ∃ text, content = .text text ∧ text ≠ "" := by
  rw [shape, outline] at h
  cases content with
  | element element => exact .inl ⟨element, rfl⟩
  | text text =>
    simp only [Content.label, Outline.Legible] at h
    exact .inr ⟨text, rfl, h.1⟩
  | _ => simp only [Content.label, Outline.Legible] at h

theorem toList_markup_element (id : NodeId) (element : Element) (children : List Branch)
    (raw : Bool) :
    let tag := names.get element.name.localName
    ((Branch.node id (.element element) children).markup names raw).toList =
      '<' :: (tag.toList ++ (Markup.attributeCharacters (element.labels names) ++ ('>' ::
        if Markup.isVoid tag then []
        else (markupAll names (Markup.isRawText tag) children).toList ++
          ('<' :: '/' :: (tag.toList ++ ['>']))))) := by
  rw [markup, Markup.toList_element, Markup.toList_attributesMarkup]

theorem exists_cons_of_isWord {name : String} (h : IsWord name) :
    ∃ c more, name.toList = c :: more ∧ isWordCharacter c = true := by
  cases hname : name.toList with
  | nil => exact absurd (String.toList_eq_nil_iff.mp hname) h.1
  | cons c more => exact ⟨c, more, rfl, h.2 c (hname ▸ List.mem_cons_self)⟩

theorem exists_cons_markup_text (id : NodeId) {text : String} (children : List Branch)
    (h : text ≠ "") :
    ∃ c more, ((Branch.node id (.text text) children).markup names false).toList = c :: more ∧
      c ≠ '<' := by
  change ∃ c more, (Markup.escapedText text).toList = c :: more ∧ c ≠ '<'
  cases htext : (Markup.escapedText text).toList with
  | nil =>
    have hempty : Markup.escapedText text = Markup.escapedText "" :=
      String.toList_eq_nil_iff.mp htext
    exact absurd (Markup.escapedText_injective hempty) h
  | cons c more =>
    exact ⟨c, more, rfl, (Markup.ne_of_mem_escapedText (htext ▸ List.mem_cons_self)).1⟩

/-- No element and no text begins like what stands behind siblings. -/
theorem not_ends_of_legible {branch : Branch} (h : (branch.shape names).Legible)
    (rest : List Char) : ¬ Ends ((branch.markup names false).toList ++ rest) := by
  obtain ⟨id, content, children⟩ := branch
  rcases content_of_legible h with ⟨element, rfl⟩ | ⟨text, rfl, htext⟩
  · obtain ⟨c, more, hname, hc⟩ := exists_cons_of_isWord h.1
    rw [toList_markup_element, hname]
    rintro (hnil | ⟨rest', hends⟩)
    · cases hnil
    · obtain rfl : c = '/' := by simpa using (List.cons.inj (List.cons.inj hends).2).1
      cases hc
  · obtain ⟨c, more, hwritten, hc⟩ := exists_cons_markup_text id children htext
    rw [hwritten]
    rintro (hnil | ⟨rest', hends⟩)
    · cases hnil
    · exact hc (List.cons.inj hends).1

/-- A tag name ends where the attributes begin, or the tag ends. -/
theorem head_attributeCharacters (attributes : List (String × String)) (rest : List Char) :
    ∀ c ∈ (Markup.attributeCharacters attributes ++ '>' :: rest).head?,
      isWordCharacter c = false := by
  intro c hc
  cases attributes with
  | nil =>
    obtain rfl : '>' = c := Option.some.inj hc
    rfl
  | cons pair attributes =>
    obtain rfl : ' ' = c := Option.some.inj hc
    rfl

/-- What is not a text begins with a bracket, and so does what stands behind siblings. -/
theorem head_markupAll {branches : List Branch} (h : Outline.AllLegible (shapes names branches))
    (hnext : ∀ next ∈ (shapes names branches).head?, next.isText = false) {rest : List Char}
    (hrest : Ends rest) :
    ∀ c ∈ ((markupAll names false branches).toList ++ rest).head?, c = '<' := by
  intro c hc
  cases branches with
  | nil =>
    rcases hrest with rfl | ⟨more, rfl⟩
    · cases hc
    · exact (Option.some.inj hc).symm
  | cons branch siblings =>
    obtain ⟨id, content, children⟩ := branch
    rcases content_of_legible h.1 with ⟨element, rfl⟩ | ⟨text, rfl, -⟩
    · rw [markupAll, String.toList_append, toList_markup_element] at hc
      exact (Option.some.inj hc).symm
    · cases hnext _ rfl

mutual

/-- A node is read back from its markup. -/
theorem markup_append_inj (branch branch' : Branch) {rest rest' : List Char}
    (h : (branch.shape names).Legible) (h' : (branch'.shape names').Legible)
    (hrest : (branch.shape names).isText = true → ∀ c ∈ rest.head?, c = '<')
    (hrest' : (branch'.shape names').isText = true → ∀ c ∈ rest'.head?, c = '<')
    (hmarkup : (branch.markup names false).toList ++ rest =
      (branch'.markup names' false).toList ++ rest') :
    branch.shape names = branch'.shape names' ∧ rest = rest' := by
  obtain ⟨id, content, children⟩ := branch
  obtain ⟨id', content', children'⟩ := branch'
  rcases content_of_legible h with ⟨element, rfl⟩ | ⟨text, rfl, htext⟩ <;>
    rcases content_of_legible h' with ⟨element', rfl⟩ | ⟨text', rfl, htext'⟩
  · obtain ⟨hword, hnames, hvoid, hraw, hchildren⟩ := h
    obtain ⟨hword', hnames', hvoid', hraw', hchildren'⟩ := h'
    rw [toList_markup_element, toList_markup_element] at hmarkup
    simp only [hraw, hraw', List.cons_append, List.append_assoc, List.cons.injEq,
      true_and] at hmarkup
    obtain ⟨htag, hmarkup⟩ := append_inj_of_forall hword.2 hword'.2
      (head_attributeCharacters _ _) (head_attributeCharacters _ _) hmarkup
    have htag := String.toList_inj.mp htag
    obtain ⟨hlabels, hmarkup⟩ := Markup.attributeCharacters_append_inj hnames hnames' hmarkup
    have hcontent : shapes names children = shapes names' children' ∧ rest = rest' := by
      rw [htag] at hmarkup hvoid
      split at hmarkup
      next htag_void =>
        have hnone : shapes names children = [] := hvoid htag_void
        have hnone' : shapes names' children' = [] := hvoid' htag_void
        exact ⟨hnone.trans hnone'.symm, hmarkup⟩
      next =>
        simp only [List.append_assoc, List.cons_append] at hmarkup
        obtain ⟨hshapes, hends⟩ := markupAll_append_inj children children' hchildren hchildren'
          (.inr ⟨_, rfl⟩) (.inr ⟨_, rfl⟩) hmarkup
        simpa [hshapes] using hends
    obtain ⟨hshapes, hrests⟩ := hcontent
    refine ⟨?_, hrests⟩
    have hlabel : (Content.element element).label names =
        (Content.element element').label names' := by
      rw [Content.label, Content.label, htag, hlabels]
    change Outline.node _ (shapes names children) = Outline.node _ (shapes names' children')
    rw [hlabel, hshapes]
  · obtain ⟨c, more, hwritten, hc⟩ := exists_cons_markup_text id' children' htext'
    rw [toList_markup_element, hwritten] at hmarkup
    exact absurd (List.cons.inj hmarkup).1.symm hc
  · obtain ⟨c, more, hwritten, hc⟩ := exists_cons_markup_text id children htext
    rw [toList_markup_element, hwritten] at hmarkup
    exact absurd (List.cons.inj hmarkup).1 hc
  · have hbracket (text : String) : ∀ c ∈ (Markup.escapedText text).toList, (c != '<') = true := by
      intro c hc
      exact bne_iff_ne.mpr (Markup.ne_of_mem_escapedText hc).1
    obtain ⟨hwritten, hrests⟩ := append_inj_of_forall (hbracket text) (hbracket text')
      (fun c hc => by simpa using hrest rfl c hc) (fun c hc => by simpa using hrest' rfl c hc)
      hmarkup
    obtain rfl : text = text' := Markup.escapedText_injective (String.toList_inj.mp hwritten)
    exact ⟨rfl, hrests⟩

/-- Siblings are read back from their markup. -/
theorem markupAll_append_inj (branches branches' : List Branch) {rest rest' : List Char}
    (h : Outline.AllLegible (shapes names branches))
    (h' : Outline.AllLegible (shapes names' branches')) (hrest : Ends rest) (hrest' : Ends rest')
    (hmarkup : (markupAll names false branches).toList ++ rest =
      (markupAll names' false branches').toList ++ rest') :
    shapes names branches = shapes names' branches' ∧ rest = rest' := by
  cases branches with
  | nil =>
    cases branches' with
    | nil => exact ⟨rfl, by simpa [markupAll] using hmarkup⟩
    | cons branch' siblings' =>
      simp only [markupAll, String.toList_append, List.append_assoc] at hmarkup
      have hrest : Ends ("".toList ++ rest) := hrest
      rw [hmarkup] at hrest
      exact absurd hrest (not_ends_of_legible h'.1 _)
  | cons branch siblings =>
    cases branches' with
    | nil =>
      simp only [markupAll, String.toList_append, List.append_assoc] at hmarkup
      have hrest' : Ends ("".toList ++ rest') := hrest'
      rw [← hmarkup] at hrest'
      exact absurd hrest' (not_ends_of_legible h.1 _)
    | cons branch' siblings' =>
      simp only [markupAll, String.toList_append, List.append_assoc] at hmarkup
      obtain ⟨hfirst, hapart, hlegible⟩ := h
      obtain ⟨hfirst', hapart', hlegible'⟩ := h'
      obtain ⟨hshape, hmarkup⟩ := markup_append_inj branch branch' hfirst hfirst'
        (fun htext => head_markupAll hlegible (hapart htext) hrest)
        (fun htext => head_markupAll hlegible' (hapart' htext) hrest') hmarkup
      obtain ⟨hshapes, hrests⟩ := markupAll_append_inj siblings siblings' hlegible hlegible'
        hrest hrest' hmarkup
      refine ⟨?_, hrests⟩
      change branch.shape names :: shapes names siblings = _ :: shapes names' siblings'
      rw [hshape, hshapes]

end

end Branch

/-! ## Trees -/

namespace Tree

/-- The markup of a legible tree is that of the branches below its container. -/
theorem exists_shapes_of_isLegible {tree : Tree} (h : tree.IsLegible Content.holdsNodes) :
    ∃ branches, tree.outline Content.holdsNodes =
        some (.node .container (Branch.shapes tree.names branches)) ∧
      Outline.AllLegible (Branch.shapes tree.names branches) ∧
      tree.markup = Branch.markupAll tree.names false branches := by
  obtain ⟨children, houtline, hlegible⟩ := h
  unfold outline at houtline
  cases hbranch : tree.branch? root with
  | none => simp [hbranch] at houtline
  | some branch =>
    obtain ⟨id, content, branches⟩ := branch
    rw [hbranch, Option.map_some, Branch.outline] at houtline
    cases content with
    | container =>
      obtain rfl : Branch.shapes tree.names branches = children := by
        simpa [Content.holdsNodes, Content.label] using houtline
      refine ⟨branches, by rw [outline, hbranch]; rfl, hlegible, ?_⟩
      rw [markup, outerMarkup, hbranch]
      rfl
    | _ => simp [Content.label] at houtline

/-- Trees with the same markup have the same shape in what belongs to the document, if they
    are legible there. -/
theorem outline_eq_of_markup_eq (first second : Tree)
    (hfirst : first.IsLegible Content.holdsNodes) (hsecond : second.IsLegible Content.holdsNodes)
    (hmarkup : first.markup = second.markup) :
    first.outline Content.holdsNodes = second.outline Content.holdsNodes := by
  obtain ⟨branches, houtline, hlegible, hwritten⟩ := exists_shapes_of_isLegible hfirst
  obtain ⟨branches', houtline', hlegible', hwritten'⟩ := exists_shapes_of_isLegible hsecond
  have hcharacters : (Branch.markupAll first.names false branches).toList ++ [] =
      (Branch.markupAll second.names false branches').toList ++ [] := by
    rw [← hwritten, ← hwritten', hmarkup]
  obtain ⟨hshapes, -⟩ := Branch.markupAll_append_inj branches branches' hlegible hlegible'
    (.inl rfl) (.inl rfl) hcharacters
  rw [houtline, houtline', hshapes]

/-- A paragraph in a section, put together from the inside and from the outside. -/
theorem outline_eq_of_markup_eq_section :
    let inside := Tree.empty.create (.text "a < b")
    let paragraph := (inside.1.intern "id").1.createElement "p"
    let around := (paragraph.1.append paragraph.2 (some inside.2)).createElement "section"
    let tree := (around.1.append around.2 (some paragraph.2)).append root (some around.2)
    tree.IsLegible Content.holdsNodes ∧ Document.sectionTree.IsLegible Content.holdsNodes ∧
      tree.markup = Document.sectionTree.markup ∧
      tree.outline Content.holdsNodes = Document.sectionTree.outline Content.holdsNodes := by
  intro inside paragraph around tree
  have hmarkup : tree.markup = Document.sectionTree.markup := by decide +kernel
  have hlegible : Outline.AllLegible
      [.node (.element "section" []) [.node (.element "p" []) [.node (.text "a < b") []]]] := by
    decide +kernel
  have hfirst : tree.IsLegible Content.holdsNodes := ⟨_, by decide +kernel, hlegible⟩
  have hsecond : Document.sectionTree.IsLegible Content.holdsNodes :=
    ⟨_, by decide +kernel, hlegible⟩
  exact ⟨hfirst, hsecond, hmarkup, outline_eq_of_markup_eq _ _ hfirst hsecond hmarkup⟩

/-- A paragraph below a text is not written, so that markup does not tell whether it is
    there. -/
theorem outline_inside_text :
    let text := Tree.empty.create (.text "a")
    let tree := text.1.append root (some text.2)
    let paragraph := tree.createElement "p"
    let nested := paragraph.1.append text.2 (some paragraph.2)
    (tree.IsLegible fun _ => true) ∧ (nested.IsLegible fun _ => true) ∧
      tree.markup = nested.markup ∧
      (tree.outline fun _ => true) ≠ nested.outline fun _ => true := by
  intro text tree paragraph nested
  refine ⟨⟨[.node (.text "a") []], ?_, ?_⟩,
    ⟨[.node (.text "a") [.node (.element "p" []) []]], ?_, ?_⟩, ?_, ?_⟩
  all_goals decide +kernel

end Tree

end HtmlTemplate
