-- SUMMARY: The syntax of HTML: which characters nodes are written with.
import HtmlTemplate.Html.OpenElement

/-!
# The syntax of HTML

`Writes` says which characters nodes are written with, by the rules that HTML has for its
source text. An element is written as its start tag, what is inside it and its end tag, and a
void element as its start tag alone. The characters of a text stand for themselves or are
written as references; inside an element whose content is raw text they only stand for
themselves. A line feed right behind the start tag of a `pre`, a `listing` or a `textarea` is
taken for a part of the tag.

A text can be written in several ways, and so can a `pre`. Where a node may stand is not said
here.
-/

namespace HtmlTemplate.Html

/-- The text without the line feed that it starts with, if that is left out. -/
def dropLineFeed : Bool → List Char → List Char
  | true, '\n' :: rest => rest
  | _, text => text

@[simp] theorem dropLineFeed_false (text : List Char) : dropLineFeed false text = text := by
  cases text <;> rfl

theorem dropLineFeed_of_ne {skip : Bool} {c : Char} (h : skip = false ∨ c ≠ '\n')
    (text : List Char) : dropLineFeed skip (c :: text) = c :: text := by
  unfold dropLineFeed
  split
  · next heq =>
    obtain hskip | hc := h
    · cases hskip
    · exact absurd (List.cons.inj heq).1 hc
  · rfl

/-- Either a line feed is left out, or the text is as it was. -/
theorem dropLineFeed_cases (skip : Bool) (text : List Char) :
    skip = true ∧ text = '\n' :: dropLineFeed skip text ∨
      dropLineFeed skip text = text ∧ (skip = true → text.head? ≠ some '\n') := by
  unfold dropLineFeed
  split
  · exact .inl ⟨rfl, rfl⟩
  · next hnone =>
    refine .inr ⟨rfl, fun hskip hhead => ?_⟩
    obtain ⟨more, rfl⟩ := List.head?_eq_some_iff.mp hhead
    exact hnone more hskip rfl

theorem dropLineFeed_append (skip : Bool) (first second : List Char) :
    dropLineFeed skip (first ++ second) =
      dropLineFeed skip first ++ dropLineFeed (skip && first.isEmpty) second := by
  cases first with
  | nil => cases skip <;> simp [dropLineFeed]
  | cons c first =>
    rw [List.isEmpty_cons, Bool.and_false, dropLineFeed_false]
    by_cases h : skip = true ∧ c = '\n'
    · obtain ⟨rfl, rfl⟩ := h
      rfl
    · have hne : skip = false ∨ c ≠ '\n' := by
        cases skip with
        | false => exact .inl rfl
        | true => exact .inr fun hc => h ⟨rfl, hc⟩
      rw [List.cons_append, dropLineFeed_of_ne hne, dropLineFeed_of_ne hne, List.cons_append]

/-- The attributes by their written names. -/
def labels (attributes : List Attribute) : List (String × String) :=
  attributes.map fun attr => (attr.writtenName, attr.value)

/-- The attribute with its written name, in no namespace. -/
def Attribute.bare (attr : Attribute) : Attribute := .plain attr.writtenName attr.value

mutual

/-- The node with all attributes bare. -/
def Node.bare : Node → Node
  | .element ns name attributes children =>
    .element ns name (attributes.map Attribute.bare) (bareAll children)
  | node => node

def bareAll : Forest → Forest
  | [] => []
  | node :: rest => node.bare :: bareAll rest

end

namespace Syntax

-- ---------------------------------------------------------------------------
-- Characters
-- ---------------------------------------------------------------------------

/-- Neither a null character nor a carriage return. -/
def isPlain (c : Char) : Bool := c != '\x00' && c != '\r'

/-- References by name, each with its character. -/
def references : List (Char × String) :=
  [('&', "&amp;"), ('<', "&lt;"), ('>', "&gt;"), ('"', "&quot;"), ('\'', "&apos;"),
   ('\xa0', "&nbsp;")]

/-- The characters that cannot stand for themselves in a text. -/
def textMarks : List Char := ['&', '<', '\x00', '\r']

/-- The characters that cannot stand for themselves in the value of an attribute. -/
def valueMarks : List Char := ['&', '"', '\x00', '\r']

/-- The characters of a text are written one by one, as they are or as references. -/
inductive WritesText (marks : List Char) : List Char → List Char → Prop where
  | nil : WritesText marks [] []
  | plain {c : Char} {text markup : List Char} (hc : c ∉ marks)
      (h : WritesText marks text markup) : WritesText marks (c :: text) (c :: markup)
  | reference {reference : Char × String} {text markup : List Char}
      (hreference : reference ∈ references) (h : WritesText marks text markup) :
      WritesText marks (reference.1 :: text) (reference.2.toList ++ markup)

namespace WritesText

/-- A text without marks is written as it is. -/
theorem self {marks text : List Char} (h : ∀ c ∈ text, c ∉ marks) : WritesText marks text text := by
  induction text with
  | nil => exact .nil
  | cons c text ih =>
    obtain ⟨hc, htext⟩ := List.forall_mem_cons.mp h
    exact .plain hc (ih htext)

theorem head?_eq {marks text markup : List Char} {c : Char}
    (h : WritesText marks text (c :: markup)) (hc : c ≠ '&') : text.head? = some c := by
  generalize hwritten : c :: markup = written at h
  cases h with
  | nil => cases hwritten
  | plain => exact congrArg List.head? hwritten.symm
  | reference hmem =>
    have hamps : ∀ reference ∈ references, reference.2.toList.head? = some '&' := by decide
    obtain ⟨more, hmore⟩ := List.head?_eq_some_iff.mp (hamps _ hmem)
    rw [hmore] at hwritten
    exact absurd (List.cons.inj hwritten).1 hc

variable {marks text markup : List Char} (h : WritesText marks text markup)
include h

/-- A mark that is in no reference is not written. -/
theorem notMem {mark : Char} (hmark : mark ∈ marks)
    (hfree : ∀ reference ∈ references, mark ∉ reference.2.toList) : mark ∉ markup := by
  induction h with
  | nil => exact List.not_mem_nil
  | plain hc _ ih =>
    rw [List.mem_cons, not_or]
    exact ⟨fun heq => hc (heq ▸ hmark), ih⟩
  | reference hmem _ ih =>
    rw [List.mem_append, not_or]
    exact ⟨hfree _ hmem, ih⟩

/-- Neither the text nor what it is written with has characters that cannot be written. -/
theorem allPlain (hnull : '\x00' ∈ marks) (hreturn : '\r' ∈ marks) :
    (∀ c ∈ text, isPlain c = true) ∧ ∀ c ∈ markup, isPlain c = true := by
  have hplain : ∀ c ∉ marks, isPlain c = true := fun c hc =>
    Bool.and_eq_true_iff.mpr ⟨bne_iff_ne.mpr fun heq => hc (heq ▸ hnull),
      bne_iff_ne.mpr fun heq => hc (heq ▸ hreturn)⟩
  have hreferences : ∀ reference ∈ references,
      isPlain reference.1 = true ∧ reference.2.toList.all isPlain = true := by decide
  induction h with
  | nil => exact ⟨nofun, nofun⟩
  | plain hc _ ih =>
    exact ⟨List.forall_mem_cons.mpr ⟨hplain _ hc, ih.1⟩,
      List.forall_mem_cons.mpr ⟨hplain _ hc, ih.2⟩⟩
  | reference hmem _ ih =>
    obtain ⟨hfirst, hpiece⟩ := hreferences _ hmem
    exact ⟨List.forall_mem_cons.mpr ⟨hfirst, ih.1⟩,
      List.forall_mem_append.mpr ⟨List.all_eq_true.mp hpiece, ih.2⟩⟩

/-- Only the empty text is written with no characters. -/
theorem ne_nil (hne : text ≠ []) : markup ≠ [] := by
  have hreferences : ∀ reference ∈ references, reference.2.toList ≠ [] := by decide
  cases h with
  | nil => exact absurd rfl hne
  | plain => exact List.cons_ne_nil _ _
  | reference hmem =>
    exact fun hnil => hreferences _ hmem (List.append_eq_nil_iff.mp hnil).1

end WritesText

-- ---------------------------------------------------------------------------
-- Tags
-- ---------------------------------------------------------------------------

/-- A name that is read as that of a tag: it begins with a letter and goes up to a blank, a
    slash or a bracket. -/
def isTagName (name : String) : Bool :=
  name.toList.head?.any Char.isAlpha &&
    name.toList.all fun c => !endsTagName c && c != '\x00'

/-- A name that is read as that of an attribute. Only its first character can be `=`. -/
def isAttributeName (name : String) : Bool :=
  match name.toList with
  | [] => false
  | c :: rest =>
    !endsTagName c && rest.all (!endsAttributeName ·) && (c :: rest).all (· != '\x00')

/-- Attributes are written each behind a blank, with the value between double quotes. -/
inductive WritesAttributes : List (String × String) → List Char → Prop where
  | nil : WritesAttributes [] []
  | cons {name value : String} {more : List (String × String)} {written rest : List Char}
      (hvalue : WritesText valueMarks value.toList written) (h : WritesAttributes more rest) :
      WritesAttributes ((name, value) :: more)
        (' ' :: (name.toList ++ '=' :: '"' :: (written ++ '"' :: rest)))

/-- The characters of a start tag. -/
def startTag (name : String) (attributes : List Char) : List Char :=
  '<' :: (name.toList ++ (attributes ++ ['>']))

/-- The characters of an end tag. -/
def endTag (name : String) : List Char := '<' :: '/' :: (name.toList ++ ['>'])

end Syntax

-- ---------------------------------------------------------------------------
-- What an element holds
-- ---------------------------------------------------------------------------

namespace Syntax

/-- Elements that hold nothing, and have no end tag. -/
def voidNames : List String :=
  ["area", "base", "br", "col", "embed", "hr", "img", "input", "link", "meta", "param", "source",
   "track", "wbr"]

/-- Elements that hold nothing, and whose end tag is ignored. -/
def emptyNames : List String := ["basefont", "bgsound", "keygen"]

/-- Elements whose content is text with references. -/
def escapableNames : List String := ["title", "textarea"]

/-- Elements whose content is raw text. For a `noscript` this is so where scripts run. -/
def rawNames : List String :=
  ["style", "script", "iframe", "noembed", "noframes", "noscript", "xmp"]

/-- Elements whose content is text. -/
def textNames : List String := escapableNames ++ rawNames

end Syntax

/-- What is inside an element. -/
inductive Holding where
  /-- Nothing, and no end tag is written. -/
  | void
  /-- Nothing, and the end tag is ignored. -/
  | nothing
  /-- Nothing, since what a template holds is no child of it. -/
  | template
  /-- A text up to the end tag. -/
  | text
  | nodes
deriving DecidableEq

open Syntax (voidNames emptyNames textNames rawNames)

/-- What is inside an element of a name, of HTML or of another vocabulary. -/
def holdingOf (isHtml : Bool) (name : String) : Holding :=
  if !isHtml then .nodes
  else if voidNames.contains name then .void
  else if emptyNames.contains name then .nothing
  else if name == "template" then .template
  else if textNames.contains name then .text
  else .nodes

def holding (ns name : String) : Holding := holdingOf (ns == Namespace.html.uri) name

def OpenElement.holding (element : OpenElement) : Holding :=
  holdingOf (element.ns == .html) element.name

/-- Whether the texts right inside such an element are raw. -/
def isRaw (ns name : String) : Bool := ns == Namespace.html.uri && rawNames.contains name

/-- Whether a line feed right behind the start tag of such an element is left out. -/
def skipsLineFeed (ns name : String) : Bool :=
  ns == Namespace.html.uri && ["pre", "listing", "textarea"].contains name

/-- The HTML elements that hold something else than nodes. -/
def Holding.names : Holding → List String
  | .void => voidNames
  | .nothing => emptyNames
  | .template => ["template"]
  | .text => textNames
  | .nodes => []

theorem mem_names_of_holdingOf {isHtml : Bool} {name : String} {inside : Holding}
    (h : holdingOf isHtml name = inside) (hne : inside ≠ .nodes) :
    isHtml = true ∧ name ∈ inside.names := by
  subst h
  fun_cases holdingOf isHtml name <;> simp_all [holdingOf, Holding.names]

theorem mem_names_of_holding {ns name : String} {inside : Holding} (h : holding ns name = inside)
    (hne : inside ≠ .nodes) : name ∈ inside.names := (mem_names_of_holdingOf h hne).2

/-- Of what holds something else than nodes, only the text area leaves out a line feed. -/
theorem skipsLineFeed_of_holding {ns name : String}
    (h : holding ns name = .nothing ∨ holding ns name = .template) :
    skipsLineFeed ns name = false := by
  have hnames : ∀ name ∈ Holding.nothing.names ++ Holding.template.names,
      ["pre", "listing", "textarea"].contains name = false := by decide
  have hmem : name ∈ Holding.nothing.names ++ Holding.template.names :=
    List.mem_append.mpr
      (h.imp (mem_names_of_holding · (by decide)) (mem_names_of_holding · (by decide)))
  rw [skipsLineFeed, hnames name hmem, Bool.and_false]

theorem isRaw_of_skipsLineFeed {ns name : String} (h : skipsLineFeed ns name = true) :
    isRaw ns name = false := by
  have hnames : ∀ name ∈ ["pre", "listing", "textarea"],
      rawNames.contains name = false := by decide
  rw [isRaw, hnames name (List.contains_iff_mem.mp (Bool.and_eq_true_iff.mp h).2), Bool.and_false]

theorem isRaw_of_holding {ns name : String} (h : holding ns name = .nodes) :
    isRaw ns name = false := by
  rw [Bool.eq_false_iff]
  intro hraw
  obtain ⟨hhtml, hname⟩ := Bool.and_eq_true_iff.mp hraw
  have hnames : ∀ name ∈ rawNames, holdingOf true name = .text := by decide
  rw [holding, hhtml, hnames name (List.contains_iff_mem.mp hname)] at h
  cases h

namespace Syntax

-- ---------------------------------------------------------------------------
-- Nodes
-- ---------------------------------------------------------------------------

/-- A text is written as it is where texts are raw. -/
def WritesContent (raw : Bool) (content markup : List Char) : Prop :=
  if raw then markup = content else WritesText textMarks content markup

/-- The characters are what nodes side by side are written with; `raw` says that texts are raw
    where they stand. -/
inductive Writes : Bool → Forest → List Char → Prop where
  | nil (raw : Bool) : Writes raw [] []
  | text {raw : Bool} {content : String} {nodes : Forest} {markup rest : List Char}
      (hcontent : WritesContent raw content.toList markup) (hnodes : Writes raw nodes rest) :
      Writes raw (.text content :: nodes) (markup ++ rest)
  | void {raw : Bool} {ns name : String} {attributes : List Attribute} {nodes : Forest}
      {written rest : List Char} (hvoid : holding ns name = .void)
      (hattributes : WritesAttributes (labels attributes) written)
      (hnodes : Writes raw nodes rest) :
      Writes raw (.element ns name attributes [] :: nodes) (startTag name written ++ rest)
  | element {raw : Bool} {ns name : String} {attributes : List Attribute}
      {children nodes : Forest} {written inside rest : List Char}
      (hvoid : holding ns name ≠ .void)
      (hattributes : WritesAttributes (labels attributes) written)
      (hchildren :
        Writes (isRaw ns name) children (dropLineFeed (skipsLineFeed ns name) inside))
      (hnodes : Writes raw nodes rest) :
      Writes raw (.element ns name attributes children :: nodes)
        (startTag name written ++ (inside ++ (endTag name ++ rest)))

end Syntax

end HtmlTemplate.Html
