-- SUMMARY: An attribute selector without operator finds names in lower case, and those alone.
import HtmlTemplate.Proofs.Selecting
import HtmlTemplate.Proofs.Selecting.Negation

/-!
# Attributes that are there

`[name]` asks for an attribute, whatever its value. The reader puts the name into lower
case, and the tree is asked for exactly this name: names with capitals, as foreign elements
have them, are not found, however the selector spells them.
-/

namespace HtmlTemplate

namespace Selector

/-- A letter, a digit, a hyphen or an underscore within ASCII. -/
def isAsciiNameChar (c : Char) : Bool := c.isAlphanum || c == '-' || c == '_'

/-- A name within ASCII. -/
structure IsAsciiName (text : String) : Prop where
  ne_nil : text.toList ≠ []
  chars : text.toList.all isAsciiNameChar = true

theorem asciiNameChar_cases {c : Char} (h : isAsciiNameChar c = true) :
    c.isAlphanum = true ∨ c = '-' ∨ c = '_' := by
  simpa [isAsciiNameChar, or_assoc] using h

theorem IsAsciiName.isName {text : String} (h : IsAsciiName text) : IsName text := by
  refine ⟨h.ne_nil, fun c hc => ?_⟩
  obtain hc | rfl | rfl := asciiNameChar_cases (List.all_eq_true.mp h.chars c hc)
  · simp [isNameChar, hc]
  · rfl
  · rfl

theorem IsAsciiName.isBlank {text : String} (h : IsAsciiName text) :
    ∀ c ∈ text.toList, isBlank c = false := by
  intro c hc
  obtain hc | rfl | rfl := asciiNameChar_cases (List.all_eq_true.mp h.chars c hc)
  · exact isBlank_of_isAlphanum hc
  · rfl
  · rfl

/-- The name between the brackets is read in lower case. -/
theorem parse_present {name : String} (hname : IsAsciiName name) :
    parse ("[" ++ name ++ "]") = .ok [.single [.attr { name := asciiLower name }]] := by
  have htext : ("[" ++ name ++ "]").toList = '[' :: (name.toList ++ [']']) := by simp
  have hskip : skipBlanks (name.toList ++ [']']) = name.toList ++ [']'] := by
    obtain ⟨c, rest, hcons⟩ := List.exists_cons_of_ne_nil hname.ne_nil
    have hc : isBlank c = false := hname.isBlank c (hcons ▸ List.mem_cons_self)
    rw [hcons, List.cons_append, skipBlanks, List.dropWhile_cons_of_neg (by simp [hc])]
  have hread : readName (name.toList ++ [']']) = .ok (name, [']']) :=
    readName_eq_ok.mpr ⟨rfl, hname.isName, stops_cons.mpr rfl⟩
  have hattribute : readAttribute (name.toList ++ [']']) =
      .ok ({ name := asciiLower name }, []) := by
    rw [readAttribute, hskip, hread]
    rfl
  have htests : readTests ((name.toList ++ [']']).length + 1) ('[' :: (name.toList ++ [']'])) =
      .ok ([.attr { name := asciiLower name }], []) :=
    readTests_cons (.attr hattribute) (readTests_stops _ (stops_nil startsTest))
  apply parse_eq_single.mpr
  refine ⟨[], ?_, rfl⟩
  rw [htext]
  exact bind_eq_ok.mpr ⟨_, htests, rfl⟩

end Selector

open Selector

namespace Tree

variable {tree : Tree} {top id : NodeId}

/-- The node is an element below `top`, and one of its attributes has a name as wanted. -/
def Carries (tree : Tree) (top id : NodeId) (wanted : String → Prop) : Prop :=
  tree.Below top id ∧ ∃ element, tree.element? id = some element ∧
    ∃ attr ∈ element.attributes, wanted (tree.name attr.name.localName)

/-- One compound is met by elements below the top on their own. -/
theorem means_single {subject : Compound} :
    tree.Means top [.single subject] id ↔ tree.Below top id ∧ tree.Satisfies id subject := by
  constructor
  · rintro ⟨complex, hcomplex, elements, hchain, hlast⟩
    obtain rfl := List.mem_singleton.mp hcomplex
    cases hchain with
    | single hbelow hsubject =>
      cases hlast
      exact ⟨hbelow, hsubject⟩
  · rintro ⟨hbelow, hsubject⟩
    exact ⟨_, List.mem_cons_self, [id], .single hbelow hsubject, rfl⟩

theorem means_present {name : String} :
    tree.Means top [.single [.attr { name }]] id ↔ tree.Carries top id (· = name) := by
  have hmatches {element : Element} :
      AttributeTest.matches { name } (tree.namedValue? element name) = true ↔
        ∃ attr ∈ element.attributes, tree.name attr.name.localName = name := by
    simp [AttributeTest.matches, namedValue?]
  rw [means_single]
  simp only [Carries, Satisfies, MeetsAll, Meets, and_true, hmatches]

theorem Carries.imp {wanted wanted' : String → Prop} (h : tree.Carries top id wanted)
    (himp : ∀ name, wanted name → wanted' name) : tree.Carries top id wanted' := by
  obtain ⟨hbelow, element, helement, attr, hattr, hwanted⟩ := h
  exact ⟨hbelow, element, helement, attr, hattr, himp _ hwanted⟩

/-- An element whose names are all in lower case has a name in some case if it has it in lower
    case. -/
theorem carries_ignoring_case {element : Element} (helement : tree.element? id = some element)
    (hlower : ∀ attr ∈ element.attributes,
      asciiLower (tree.name attr.name.localName) = tree.name attr.name.localName) {name : String} :
    (tree.Carries top id fun own => eqIgnoringAsciiCase own name = true) ↔
      tree.Carries top id (· = asciiLower name) := by
  constructor
  · rintro ⟨hbelow, element', helement', attr, hattr, heq⟩
    cases helement.symm.trans helement'
    have hname := (hlower attr hattr).symm.trans (eq_of_beq heq)
    exact ⟨hbelow, element, helement, attr, hattr, hname⟩
  · intro hcarries
    apply hcarries.imp
    rintro _ rfl
    rw [eqIgnoringAsciiCase, asciiLower_asciiLower, beq_self_eq_true]

/-- The selector `[name]` finds the elements that have an attribute with the name in lower
    case. Among the elements whose names are all in lower case these are the ones that have
    it in some case. -/
theorem select_present (h : tree.Linked tree.children) (hnames : tree.names.entries.Nodup)
    {name : String} (hname : IsAsciiName name) (top : NodeId) :
    ∃ selector, Selector.parse ("[" ++ name ++ "]") = .ok selector ∧
      (∀ id, id ∈ tree.select top selector ↔ tree.Carries top id (· = asciiLower name)) ∧
      ∀ id element, tree.element? id = some element →
        (∀ attr ∈ element.attributes,
          asciiLower (tree.name attr.name.localName) = tree.name attr.name.localName) →
        (id ∈ tree.select top selector ↔
          tree.Carries top id fun own => eqIgnoringAsciiCase own name = true) := by
  have hparse := parse_present hname
  have hselect (id : NodeId) : id ∈ tree.select top [.single [.attr { name := asciiLower name }]] ↔
      tree.Carries top id (· = asciiLower name) :=
    (mem_select h hnames (isNamed_parse hparse)).trans means_present
  refine ⟨_, hparse, hselect, fun id element helement hlower => ?_⟩
  exact (hselect id).trans (carries_ignoring_case helement hlower).symm

/-- Create an element with one attribute. -/
def createWith (tree : Tree) (tag name value : String) : Tree × NodeId :=
  let (tree, tag) := tree.intern tag
  let (tree, name) := tree.intern name
  tree.create (.element
    { name := ⟨Names.emptyId, tag⟩, attributes := [⟨⟨Names.emptyId, name⟩, value⟩] })

theorem Built.createWith (h : tree.Built) (tag name value : String) :
    (tree.createWith tag name value).1.Built :=
  ((h.intern tag).intern name).create nofun

/-- A foreign element with a capital in the name of its attribute, and inside of it one whose
    attribute has a name in lower case. -/
def svgTree : Tree :=
  let (tree, outer) := Tree.empty.createWith "svg" "viewBox" "0 0 1 1"
  let (tree, inner) := tree.createWith "rect" "width" "1"
  (tree.append root (some outer)).append outer (some inner)

theorem built_svgTree : svgTree.Built := by
  have hnodes := (Built.empty.createWith "svg" "viewBox" "0 0 1 1").createWith "rect" "width" "1"
  have houter := hnodes.appendLeaf root ⟨1⟩ rfl rfl rfl (by decide)
  exact houter.appendLeaf ⟨1⟩ ⟨2⟩ rfl rfl rfl (by decide)

theorem select_present_width : ∃ selector, Selector.parse "[WIDTH]" = .ok selector ∧
    (⟨2⟩ : NodeId) ∈ svgTree.select root selector := by
  have hword : IsAsciiName "WIDTH" := ⟨by decide, by decide⟩
  obtain ⟨selector, hparse, -, hselect⟩ :=
    select_present built_svgTree.linked built_svgTree.nodup_names hword root
  have hbelow : svgTree.Below root ⟨2⟩ := .tail (.single (b := ⟨1⟩) (by decide)) (by decide)
  refine ⟨selector, hparse, (hselect ⟨2⟩ _ rfl (by decide)).mpr ?_⟩
  exact ⟨hbelow, _, rfl, _, List.mem_cons_self, by decide⟩

/-- The name with the capital is found by no spelling, not by its own either. -/
theorem select_present_viewBox :
    svgTree.Linked svgTree.children ∧ svgTree.Carries root ⟨1⟩ (· = "viewBox") ∧
      Selector.parse "[viewBox]" = .ok [.single [.attr { name := "viewbox" }]] ∧
      svgTree.select root [.single [.attr { name := "viewbox" }]] = [] := by
  have hbelow : svgTree.Below root ⟨1⟩ := .single (by decide)
  refine ⟨built_svgTree.linked, ⟨hbelow, _, rfl, _, List.mem_cons_self, ?_⟩, rfl, rfl⟩
  decide

end Tree

end HtmlTemplate
