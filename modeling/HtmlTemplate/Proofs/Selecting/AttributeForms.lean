-- SUMMARY: Selectors of identifiers and classes against the attribute selectors that say the same.
import HtmlTemplate.Proofs.Selecting.Presence
import HtmlTemplate.Proofs.Tree.Noted
import HtmlTemplate.Proofs.Words

/-!
# Identifiers and classes by their attributes

`#word` and `.word` ask for what is noted of an element, `[id="word"]` and
`[class~="word"]` for its attributes. Identifiers are noted as they are. Classes are noted
as words between blanks of any kind, while the attribute selector knows only the blanks of
ASCII: it selects less.
-/

namespace HtmlTemplate

open Selector
open Html (valuesOf storedAll)

/-! ## The four texts -/

namespace Selector

variable {word : String}

/-- A test is read from its text. -/
theorem parse_test {test : Simple} {text : String} (hwritten : test.Written text.toList)
    (hreadable : test.Readable) : parse text = .ok [.single [test]] := by
  have hcompound : AllWritten [test] (text.toList ++ []) := .cons hwritten .nil
  rw [List.append_nil] at hcompound
  have hspaced := spaced_flatten [text.toList]
  rw [List.flatten_singleton] at hspaced
  apply parse_written ⟨_, .last (.single hcompound), hspaced⟩
  intro complex hcomplex
  obtain rfl := List.mem_singleton.mp hcomplex
  intro compound hcompound
  obtain rfl := List.mem_singleton.mp hcompound
  exact ⟨nofun, hreadable, nofun, trivial⟩

theorem parse_id (hword : IsAsciiName word) : parse ("#" ++ word) = .ok [.single [.id word]] := by
  have hwritten : (Simple.id word).Written ("#" ++ word).toList := by
    rw [String.toList_append]
    exact .id word
  exact parse_test hwritten hword.isName

theorem parse_className (hword : IsAsciiName word) :
    parse ("." ++ word) = .ok [.single [.className word]] := by
  have hwritten : (Simple.className word).Written ("." ++ word).toList := by
    rw [String.toList_append]
    exact .className word
  exact parse_test hwritten hword.isName

theorem IsAsciiName.isLowerName (hword : IsAsciiName word) (hlower : asciiLower word = word) :
    IsLowerName word :=
  ⟨hword.isName, hlower, fun c hc => hword.isBlank c (List.mem_of_head? hc)⟩

theorem parse_compared {name : String} (hname : IsLowerName name) (operator : Operator)
    (hword : IsAsciiName word) :
    parse ("[" ++ name ++ operator.sign ++ "\"" ++ word ++ "\"]") =
      .ok [.single [.attr ⟨name, some (operator, word), false⟩]] := by
  have hquotes := quotes_of_isName hword.isName
  have hwritten : (Simple.attr ⟨name, some (operator, word), false⟩).Written
      ("[" ++ name ++ operator.sign ++ "\"" ++ word ++ "\"]").toList := by
    have htext := Simple.Written.attr (.compared name operator hquotes) (spaced_flatten _)
    simpa using htext
  refine parse_test hwritten ⟨hname, ?_, nofun⟩
  rintro _ _ ⟨⟩
  exact ⟨_, hquotes⟩

theorem parse_idEquals (hword : IsAsciiName word) : parse ("[id=\"" ++ word ++ "\"]") =
    .ok [.single [.attr ⟨"id", some (.equals, word), false⟩]] :=
  have hname : IsLowerName "id" := IsAsciiName.isLowerName ⟨by decide, by decide⟩ (by decide)
  parse_compared hname .equals hword

theorem parse_classHasWord (hword : IsAsciiName word) : parse ("[class~=\"" ++ word ++ "\"]") =
    .ok [.single [.attr ⟨"class", some (.hasWord, word), false⟩]] :=
  have hname : IsLowerName "class" := IsAsciiName.isLowerName ⟨by decide, by decide⟩ (by decide)
  parse_compared hname .hasWord hword

end Selector

/-! ## Words -/

/-- A name has no blanks, so that it is a word wherever it stands between separators. -/
theorem mem_words_iff {sep : Char → Bool} (hsep : ∀ {c}, sep c = true → isBlank c = true)
    {word value : String} (hword : IsAsciiName word) :
    word ∈ words sep value ↔ StandsAlone sep word.toList value.toList := by
  rw [mem_words]
  constructor
  · rintro ⟨-, -, hstands⟩
    exact hstands
  · intro hstands
    refine ⟨hword.isName.ne_empty, fun c hc => ?_, hstands⟩
    rw [Bool.eq_false_iff]
    intro hblank
    cases (hword.isBlank c hc).symm.trans (hsep hblank)

/-! ## Attributes of the source -/

section Sources

variable {attributes : List Html.Attribute}

theorem map_written (hplain : ∀ attr ∈ attributes, attr.namePrefix = none) :
    attributes.map Html.Attribute.written = attributes := by
  have hsame : ∀ attr ∈ attributes, Html.Attribute.written attr = id attr := by
    intro attr hattr
    obtain ⟨ns, namePrefix, name, value⟩ := attr
    obtain rfl : namePrefix = none := hplain _ hattr
    rfl
  rw [List.map_congr_left hsame, List.map_id]

/-- At most one attribute has the name, if no two have the same. -/
theorem exists_valuesOf_eq_toList (hdistinct : (attributes.map (·.name)).Nodup) (name : String) :
    ∃ value? : Option String, valuesOf name attributes = value?.toList := by
  induction attributes with
  | nil => exact ⟨none, rfl⟩
  | cons attr rest ih =>
    obtain ⟨hnew, hrest⟩ := List.nodup_cons.mp hdistinct
    by_cases hname : attr.name = name
    · have hnone : rest.filter (·.name == name) = [] := by
        apply List.filter_eq_nil_iff.mpr
        intro other hother heq
        exact hnew (List.mem_map.mpr ⟨other, hother, (eq_of_beq heq).trans hname.symm⟩)
      exact ⟨some attr.value, by simp [valuesOf, hname, hnone]⟩
    · obtain ⟨value?, hvalue⟩ := ih hrest
      exact ⟨value?, by simpa [valuesOf, hname] using hvalue⟩

end Sources

namespace Tree

variable {tree : Tree} {top id : NodeId} {element : Element}

/-- The text is a selector, and it selects the node. -/
def Selects (tree : Tree) (top : NodeId) (text : String) (id : NodeId) : Prop :=
  ∃ selector, Selector.parse text = .ok selector ∧ id ∈ tree.select top selector

theorem selects_test (h : tree.Built) {text : String} {test : Simple}
    (hparse : Selector.parse text = .ok [.single [test]])
    (helement : tree.element? id = some element) :
    tree.Selects top text id ↔ tree.Below top id ∧ tree.Meets id element test := by
  have hselect : id ∈ tree.select top [.single [test]] ↔
      tree.Below top id ∧ tree.Satisfies id [test] :=
    (mem_select h.linked h.nodup_names (isNamed_parse hparse)).trans means_single
  simp only [Selects, hparse, Except.ok.injEq, exists_eq_left', hselect, Satisfies, helement,
    Option.some.injEq, MeetsAll, and_true]

/-- The value of an attribute is that of the first one of the source with the name. -/
theorem namedValue?_eq_head? {attributes : List Html.Attribute}
    (h : List.Forall₂ (Attribute.Reads tree.names) element.attributes attributes) (name : String) :
    tree.namedValue? element name = (valuesOf name attributes).head? := by
  have hfind {attrs : List Attribute} {sources : List Html.Attribute}
      (h : List.Forall₂ (Attribute.Reads tree.names) attrs sources) :
      (attrs.find? fun attr => tree.name attr.name.localName == name).map (·.value) =
        (valuesOf name sources).head? := by
    induction h with
    | nil => rfl
    | @cons attr source _ _ hread _ ih =>
      have hname : tree.name attr.name.localName = source.name := hread.name.get_eq
      by_cases heq : source.name = name
      · simp [valuesOf, hname, heq, hread.value]
      · simpa [valuesOf, hname, heq] using ih
  exact hfind h

theorem map_name_of_holds {ids : List NameId} {texts : List String}
    (h : List.Forall₂ tree.names.Holds ids texts) : ids.map tree.name = texts := by
  induction h with
  | nil => rfl
  | cons hholds _ ih =>
    rw [List.map_cons, ih]
    exact congrArg (· :: _) hholds.get_eq

theorem map_name_of_holds? {id : Option NameId} {text : Option String}
    (h : Option.Rel tree.names.Holds id text) : id.map tree.name = text := by
  cases h with
  | none => rfl
  | some hholds => exact congrArg some hholds.get_eq

/-! ## Both forms -/

section Forms

variable {attributes : List Html.Attribute} {word : String}
  (htakes : element.Takes tree.names attributes)
  (hplain : ∀ attr ∈ attributes, attr.ns = "" ∧ attr.namePrefix = none)
  (hdistinct : (attributes.map (·.name)).Nodup)

include htakes in
theorem meets_id : tree.Meets id element (.id word) ↔
    (valuesOf "id" attributes).getLast? = some word := by
  rw [Meets, ← map_name_of_holds? htakes.id, Option.map_eq_some_iff]

include htakes in
theorem meets_className (hword : IsAsciiName word) : tree.Meets id element (.className word) ↔
    ∃ value ∈ valuesOf "class" attributes, StandsAlone isBlank word.toList value.toList := by
  rw [Meets, ← List.mem_map, map_name_of_holds htakes.classes, List.mem_flatMap]
  simp only [mem_words_iff (fun hblank => hblank) hword]

include htakes hplain hdistinct

theorem meets_attr (test : AttributeTest) : tree.Meets id element (.attr test) ↔
    test.matches (valuesOf test.name attributes).head? = true := by
  have hpairs : (attributes.map fun attr => (attr.ns, attr.writtenName)).Nodup := by
    have hnames : (attributes.map fun attr => (attr.ns, attr.writtenName)).map Prod.snd =
        attributes.map (·.name) := by
      rw [List.map_map]
      apply List.map_congr_left
      intro attr hattr
      simp [Html.Attribute.writtenName, (hplain attr hattr).2]
    exact List.Nodup.of_map Prod.snd (hnames ▸ hdistinct)
  have hreads := htakes.attributes hpairs
  rw [map_written fun attr hattr => (hplain attr hattr).2] at hreads
  rw [Meets, namedValue?_eq_head? hreads]

theorem meets_id_iff : tree.Meets id element (.id word) ↔
    tree.Meets id element (.attr ⟨"id", some (.equals, word), false⟩) := by
  rw [meets_id htakes, meets_attr htakes hplain hdistinct]
  obtain ⟨value?, hvalue⟩ := exists_valuesOf_eq_toList hdistinct "id"
  cases value? <;> simp [hvalue, AttributeTest.matches, Operator.test]

theorem meets_hasWord (hword : IsAsciiName word) :
    tree.Meets id element (.attr ⟨"class", some (.hasWord, word), false⟩) ↔
      ∃ value ∈ valuesOf "class" attributes,
        StandsAlone isAsciiBlank word.toList value.toList := by
  rw [meets_attr htakes hplain hdistinct]
  obtain ⟨value?, hvalue⟩ := exists_valuesOf_eq_toList hdistinct "class"
  cases value? with
  | none => simp [hvalue, AttributeTest.matches]
  | some value =>
    simp [hvalue, AttributeTest.matches, Operator.test, mem_words_iff isBlank_of_isAsciiBlank hword]

end Forms

/-- An element that comes from source text with plain attributes, no two of them of one name:
    by its identifier it is selected exactly when it is by the attribute `id`. A class is
    looked for between blanks of any kind, a word of the attribute `class` between those of
    ASCII, and this is the same where the attribute has no other blanks. -/
theorem selects_forms {options : SourceOptions} {forest : Html.Forest} {place : Nat}
    {ns name : String} {attributes : List Html.Attribute} {children : Html.Forest}
    (hplace : (storedAll options forest)[place]? = some (.element ns name attributes children))
    (hplain : ∀ attr ∈ attributes, attr.ns = "" ∧ attr.namePrefix = none)
    (hdistinct : (attributes.map (·.name)).Nodup) {word : String} (hword : IsAsciiName word)
    (top : NodeId) :
    let tree := ofForest options forest
    let id : NodeId := ⟨place + 1⟩
    (∀ text ∈ ["#" ++ word, "[id=\"" ++ word ++ "\"]", "." ++ word, "[class~=\"" ++ word ++ "\"]"],
        ∃ selector, Selector.parse text = .ok selector) ∧
      (tree.Selects top ("#" ++ word) id ↔ tree.Selects top ("[id=\"" ++ word ++ "\"]") id) ∧
      (tree.Selects top ("." ++ word) id ↔ tree.Below top id ∧
        ∃ value ∈ valuesOf "class" attributes, StandsAlone isBlank word.toList value.toList) ∧
      (tree.Selects top ("[class~=\"" ++ word ++ "\"]") id ↔ tree.Below top id ∧
        ∃ value ∈ valuesOf "class" attributes, StandsAlone isAsciiBlank word.toList value.toList) ∧
      ((∀ value ∈ valuesOf "class" attributes, ∀ c ∈ value.toList,
          isBlank c = true → isAsciiBlank c = true) →
        (tree.Selects top ("." ++ word) id ↔
          tree.Selects top ("[class~=\"" ++ word ++ "\"]") id)) := by
  intro tree id
  obtain ⟨element, helement, htakes⟩ := takes_ofForest hplace
  have hselects {text : String} {test : Simple}
      (hparse : Selector.parse text = .ok [.single [test]]) :
      tree.Selects top text id ↔ tree.Below top id ∧ tree.Meets id element test :=
    selects_test (built_ofForest options forest) hparse helement
  have hclassName := (hselects (parse_className hword)).trans
    (and_congr_right fun _ => meets_className htakes hword)
  have hhasWord := (hselects (parse_classHasWord hword)).trans
    (and_congr_right fun _ => meets_hasWord htakes hplain hdistinct hword)
  refine ⟨?_, ?_, hclassName, hhasWord, fun hascii => ?_⟩
  · intro text htext
    simp only [List.mem_cons, List.not_mem_nil, or_false] at htext
    obtain rfl | rfl | rfl | rfl := htext
    · exact ⟨_, parse_id hword⟩
    · exact ⟨_, parse_idEquals hword⟩
    · exact ⟨_, parse_className hword⟩
    · exact ⟨_, parse_classHasWord hword⟩
  · rw [hselects (parse_id hword), hselects (parse_idEquals hword),
      meets_id_iff htakes hplain hdistinct]
  · rw [hclassName, hhasWord]
    refine and_congr_right fun _ => exists_congr fun value => and_congr_right fun hvalue => ?_
    constructor
    · exact fun hstands => hstands.imp (hascii value hvalue)
    · exact fun hstands => hstands.imp fun _ _ => isBlank_of_isAsciiBlank

/-- A paragraph with an identifier and classes. -/
def noteForest (classes : String) : Html.Forest :=
  [.element "xhtml" "p" [.plain "id" "first", .plain "class" classes] []]

theorem selects_forms_note :
    (ofForest {} (noteForest "note wide")).Selects root ".wide" ⟨1⟩ ∧
      (ofForest {} (noteForest "note wide")).Selects root "[class~=\"wide\"]" ⟨1⟩ := by
  have hplace : (storedAll {} (noteForest "note wide"))[0]? =
      some (.element "xhtml" "p" [.plain "id" "first", .plain "class" "note wide"] []) := rfl
  have hword : IsAsciiName "wide" := ⟨by decide, by decide⟩
  obtain ⟨-, -, -, -, hforms⟩ := selects_forms hplace (by decide) (by decide) hword root
  have hclass : (ofForest {} (noteForest "note wide")).Selects root ".wide" ⟨1⟩ :=
    ⟨[.single [.className "wide"]], rfl, by decide +kernel⟩
  have hascii : ∀ c ∈ "note wide".toList, isBlank c = true → isAsciiBlank c = true := by
    have hall : "note wide".toList.all (fun c => !isBlank c || isAsciiBlank c) = true := by decide
    intro c hc hblank
    have hc := List.all_eq_true.mp hall c hc
    rwa [hblank, Bool.not_true, Bool.false_or] at hc
  exact ⟨hclass, (hforms (List.forall_mem_singleton.mpr hascii)).mp hclass⟩

/-- A blank beyond ASCII ends a class, but no word of the attribute. -/
theorem selects_forms_nbsp :
    (storedAll {} (noteForest "a\u00A0b"))[0]? =
        some (.element "xhtml" "p" [.plain "id" "first", .plain "class" "a\u00A0b"] []) ∧
      (ofForest {} (noteForest "a\u00A0b")).Selects root ".a" ⟨1⟩ ∧
      ¬ (ofForest {} (noteForest "a\u00A0b")).Selects root "[class~=\"a\"]" ⟨1⟩ := by
  refine ⟨rfl, ⟨[.single [.className "a"]], rfl, by decide +kernel⟩, ?_⟩
  rintro ⟨selector, hparse, hmem⟩
  cases hparse
  revert hmem
  decide +kernel

end Tree

end HtmlTemplate
