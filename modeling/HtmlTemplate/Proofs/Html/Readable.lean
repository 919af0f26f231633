-- SUMMARY: Forests that can be written in HTML where they stand, and readers that read them so.
import Mathlib.Data.List.Infix
import Mathlib.Tactic.MkIffOfInductiveProp
import HtmlTemplate.Text.Blank
import HtmlTemplate.Text.LineEnds
import HtmlTemplate.Proofs.Html.Places
import HtmlTemplate.Proofs.Html.Syntax

/-!
# Readable forests

Markup does not say of a tree what the rules of HTML would not let it be: a block inside a
paragraph, a link inside a link, a row outside a table. A forest is readable inside some
open elements if it has nothing of this kind: each start tag opens an element of its name
where it stands, each text is read where it stands, and all names, values and texts have
characters that can be written.

What reads documents `FollowsSyntax` if it reads a readable forest from every way of writing
it. No more is assumed of it: what it makes of other source texts is left open.
-/

namespace HtmlTemplate.Html

-- ---------------------------------------------------------------------------
-- What an element holds
-- ---------------------------------------------------------------------------

/-- A text that is neither blank, so that it is kept, nor has characters that cannot be
    written. -/
def isReadableText (content : String) : Bool :=
  !isBlankText content && content.toList.all Syntax.isPlain

/-- Whether a text starts with a bracket, the name in any case, and the end of a name. -/
def startsWithTag (bracket : String) (name : String) (text : List Char) : Bool :=
  let rest := text.drop bracket.length
  bracket.toList.isPrefixOf text &&
    (rest.take name.length).map Char.toLower == name.toList &&
      (rest.drop name.length).head?.any endsTagName

/-- Raw text that its end tag ends: it is not in it. In a script, a script that starts
    inside a comment goes on behind the end tag, so there is none. -/
def isRawContent (name : String) (text : List Char) : Bool :=
  text.tails.all (!startsWithTag "</" name ·) &&
    (name != "script" || text.tails.all (!"<!--".toList.isPrefixOf ·) ||
      text.tails.all (!startsWithTag "<" "script" ·))

/-- The content of an element that is text up to its end tag. -/
def isReadableContent (name : String) : Forest → Bool
  | [] => true
  | [.text content] =>
    isReadableText content &&
      (!Syntax.rawNames.contains name || isRawContent name content.toList)
  | _ => false

/-- Whether the second node may stand right behind the first. Two texts are read as one, and
    a byte order mark behind a script is left out. -/
def mayFollow : Node → Node → Bool
  | .text _, .text _ => false
  | .element _ name _ _, .text content =>
    name != "script" || content.toList.head? != some '\uFEFF'
  | _, _ => true

/-- The children are what the element holds, where nodes inside it are readable. -/
def Holding.Admits (name : String) (children : Forest) (readable : Prop) : Holding → Prop
  | .void | .nothing | .template => children = []
  | .text => isReadableContent name children = true
  | .nodes => readable

instance (name : String) (children : Forest) (readable : Prop) [Decidable readable] :
    (holding : Holding) → Decidable (holding.Admits name children readable)
  | .void | .nothing | .template => inferInstanceAs (Decidable (children = []))
  | .text => inferInstanceAs (Decidable (_ = true))
  | .nodes => inferInstanceAs (Decidable readable)

-- ---------------------------------------------------------------------------
-- Readable forests
-- ---------------------------------------------------------------------------

/-- The attribute as it is read, with its name in lower case. -/
def lowered (pair : String × String) : String × String := (asciiLower pair.1, pair.2)

/-- An attribute that can be written. -/
def isWritable (pair : String × String) : Bool :=
  Syntax.isAttributeName pair.1 && pair.2.toList.all Syntax.isPlain

/-- The tag that is read for an element. -/
def readTag (name : String) (attributes : List Attribute) : Tag :=
  ⟨asciiLower name, (labels attributes).map lowered, false⟩

/-- The tags of the element are read as those of an element with its name, its namespace and
    its attributes. -/
@[mk_iff]
structure IsReadableTag (stack : List OpenElement) (ns name : String)
    (attributes : List Attribute) : Prop where
  isTagName : Syntax.isTagName name = true
  isWritable : ∀ pair ∈ labels attributes, isWritable pair = true
  distinct : (((labels attributes).map lowered).map (·.1)).Nodup
  opens : opensIn stack (readTag name attributes) = true
  sameName : (opened stack (readTag name attributes)).name = name
  sameNs : (opened stack (readTag name attributes)).ns.uri = ns
  sameAttributes : (elementAttributes (opened stack (readTag name attributes)).ns
    (readTag name attributes)).map Attribute.bare = attributes
  /-- The end tag that is ignored is none of a foreign element further out. -/
  endIgnored : holding ns name = .nothing → stack.head?.any (·.ns == .html) = true

instance (stack : List OpenElement) (ns name : String) (attributes : List Attribute) :
    Decidable (IsReadableTag stack ns name attributes) :=
  decidable_of_iff' _ (isReadableTag_iff stack ns name attributes)

namespace IsReadableTag

variable {stack : List OpenElement} {ns name : String} {attributes : List Attribute}
  (h : IsReadableTag stack ns name attributes)
include h

theorem isHtml_eq :
    ((opened stack (readTag name attributes)).ns == .html) = (ns == Namespace.html.uri) := by
  have huri : ∀ other : Namespace, (other == .html) = (other.uri == Namespace.html.uri) := by
    intro other
    cases other <;> decide
  rw [huri, h.sameNs]

/-- The element that is opened holds what the element holds. -/
theorem holding_eq : (opened stack (readTag name attributes)).holding = holding ns name := by
  rw [OpenElement.holding, holding, h.isHtml_eq, h.sameName]

/-- An HTML element is opened under the name of its tag, which is in lower case. -/
theorem opened_eq (hns : ns = Namespace.html.uri) :
    readsForeign stack (readTag name attributes) = false ∧
      opened stack (readTag name attributes) = .html name ∧ asciiLower name = name := by
  have hhtml := h.isHtml_eq
  rw [beq_iff_eq.mpr hns, beq_iff_eq] at hhtml
  obtain ⟨hforeign, hopened⟩ := opened_eq_html hhtml
  have hname : asciiLower name = name := by
    have hsame := h.sameName
    rwa [hopened] at hsame
  exact ⟨hforeign, hopened.trans (congrArg _ hname), hname⟩

/-- What holds no nodes is an HTML element. -/
theorem opened_eq_of_holding (hne : holding ns name ≠ .nodes) :
    readsForeign stack (readTag name attributes) = false ∧
      opened stack (readTag name attributes) = .html name ∧ asciiLower name = name :=
  h.opened_eq (beq_iff_eq.mp (mem_names_of_holdingOf rfl hne).1)

end IsReadableTag

mutual

/-- The markup of the node is read as this node, inside the open elements. -/
def Node.IsReadable (stack : List OpenElement) : Node → Prop
  | .element ns name attributes children =>
    IsReadableTag stack ns name attributes ∧
      (holding ns name).Admits name children
        (AreReadable (opened stack (readTag name attributes) :: stack) children)
  | .text content => isReadableText content = true ∧ holdsTexts stack = true
  | _ => False

def AreReadable (stack : List OpenElement) : Forest → Prop
  | [] => True
  | node :: rest =>
    node.IsReadable stack ∧ rest.head?.all (mayFollow node) = true ∧ AreReadable stack rest

end

mutual

def decIsReadable (stack : List OpenElement) : (node : Node) → Decidable (node.IsReadable stack)
  | .element _ name attributes children =>
    have := decAreReadable (opened stack (readTag name attributes) :: stack) children
    inferInstanceAs (Decidable (_ ∧ _))
  | .text _ => inferInstanceAs (Decidable (_ ∧ _))
  | .doctype _ _ _ | .comment _ | .instruction _ _ => .isFalse id

def decAreReadable (stack : List OpenElement) : (nodes : Forest) →
    Decidable (AreReadable stack nodes)
  | [] => .isTrue trivial
  | node :: rest =>
    have := decIsReadable stack node
    have := decAreReadable stack rest
    inferInstanceAs (Decidable (_ ∧ _ ∧ _))

end

instance (stack : List OpenElement) : DecidablePred (AreReadable stack) := decAreReadable stack

theorem ne_return_of_isPlain {c : Char} (h : Syntax.isPlain c = true) : c ≠ '\r' :=
  bne_iff_ne.mp (Bool.and_eq_true_iff.mp h).2

theorem notMem_of_isTagName {name : String} (h : Syntax.isTagName name = true) :
    '\r' ∉ name.toList := by
  rw [Syntax.isTagName, Bool.and_eq_true, List.all_eq_true] at h
  exact fun hmem => absurd (h.2 _ hmem) (by decide)

theorem notMem_of_isAttributeName {name : String} (h : Syntax.isAttributeName name = true) :
    '\r' ∉ name.toList := by
  unfold Syntax.isAttributeName at h
  split at h
  · cases h
  · next first rest hchars =>
    simp only [Bool.and_eq_true, List.all_eq_true] at h
    obtain ⟨⟨hfirst, hrest⟩, -⟩ := h
    rw [hchars, List.mem_cons, not_or]
    refine ⟨?_, fun hmem => absurd (hrest _ hmem) (by decide)⟩
    rintro rfl
    exact absurd hfirst (by decide)

-- ---------------------------------------------------------------------------
-- What reads them
-- ---------------------------------------------------------------------------

/-- What reads documents does so by the syntax of HTML. -/
structure FollowsSyntax (read : String → Forest) : Prop where
  /-- Line ends are made line feeds before anything else. -/
  lineEnds : ∀ source : String, read (String.ofList (normalizeLineEnds source.toList)) = read source
  /-- If a readable forest is written behind the tag of a body, the body holds this forest. Of
      the name of an attribute only the written form is told. -/
  body : ∀ (nodes : Forest) (markup : List Char),
    AreReadable [.html "body", .html "html"] nodes → Syntax.Writes false nodes markup →
    bareAll (fragmentOf read (String.ofList markup)) = nodes

end HtmlTemplate.Html
