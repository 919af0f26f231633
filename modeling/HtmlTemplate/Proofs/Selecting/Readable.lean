-- SUMMARY: What holds of every selector that is read, and what its compounds are in the text.
import HtmlTemplate.Proofs.Selecting.Reading

/-!
# Selectors that are read

Not every value of the type can be written as a text that is read again: names consist of
characters of names, an operand lacks one of the two quotes, only the first test of a
compound is one of the type. `Simple.Readable` collects what the reader ensures of a test.

The argument of `:not()` is balanced, since it is cut out by counting parentheses. Of its
parentheses those around further arguments cancel out, and the others stand in the
operands of attribute tests, which therefore are balanced, too.
-/

namespace HtmlTemplate.Selector

/-! ## Readable tests -/

/-- A name in lower case that stays what it is behind blanks. -/
structure IsLowerName (name : String) : Prop extends IsName name where
  lower : asciiLower name = name
  stops : Stops isBlank name.toList

/-- The character can be put around the operand. -/
def Quotes (quote : Char) (operand : String) : Prop :=
  (quote = '"' ∨ quote = '\'') ∧ quote ∉ operand.toList

structure AttributeTest.Readable (test : AttributeTest) : Prop where
  name : IsLowerName test.name
  quotes : ∀ {operator operand}, test.comparison = some (operator, operand) →
    ∃ quote, Quotes quote operand
  flag : test.comparison = none → test.ignoreCase = false

/-- The characters that an attribute test compares with. -/
def AttributeTest.operand (test : AttributeTest) : List Char :=
  match test.comparison with
  | some (_, operand) => operand.toList
  | none => []

/-- A test that only the start of a compound can be. -/
def Simple.isType : Simple → Bool
  | .any | .tag _ => true
  | _ => false

def Simple.operand : Simple → List Char
  | .attr test => test.operand
  | _ => []

/-- The operands of the tests of a compound, one after the other; those inside of `:not()`
    do not count. -/
def operands (compound : Compound) : List Char := compound.flatMap Simple.operand

mutual

/-- What the reader ensures of a test. -/
def Simple.Readable : Simple → Prop
  | .tag name => IsLowerName name ∧ Stops (!isNameStart ·) name.toList
  | .id name | .className name => IsName name
  | .attr test => test.Readable
  | .not compound => compound ≠ [] ∧ AllReadable compound ∧ Balanced (operands compound)
  | .any | .root | .empty | .position _ _ => True

def AllReadable : Compound → Prop
  | [] => True
  | test :: rest => test.Readable ∧ (∀ later ∈ rest, later.isType = false) ∧ AllReadable rest

end

/-- Each compound of the alternative has tests, and all are readable. -/
def Complex.Readable (complex : Complex) : Prop :=
  ∀ compound ∈ complex.compounds, compound ≠ [] ∧ AllReadable compound

@[simp] theorem operands_nil : operands [] = [] := rfl

@[simp] theorem operands_cons (test : Simple) (rest : Compound) :
    operands (test :: rest) = test.operand ++ operands rest := rfl

/-! ## Attributes -/

theorem Stops.map_toLower {p : Char → Bool} (hp : ∀ c, p c.toLower = p c) {text : List Char}
    (h : Stops p text) : Stops p (text.map Char.toLower) := by
  cases text with
  | nil => exact stops_nil p
  | cons c rest =>
    rw [List.map_cons, stops_cons, hp]
    exact stops_cons.mp h

theorem Stops.of_append {p : Char → Bool} {text rest : List Char} (hne : text ≠ [])
    (h : Stops p (text ++ rest)) : Stops p text := by
  cases text with
  | nil => exact absurd rfl hne
  | cons c text => exact stops_cons.mpr (stops_cons.mp h)

theorem isLowerName_readName {text rest : List Char} {name : String} (hstops : Stops isBlank text)
    (h : readName text = .ok (name, rest)) : IsLowerName (asciiLower name) := by
  obtain ⟨rfl, hname, -⟩ := readName_eq_ok.mp h
  have hlower : (asciiLower name).toList = name.toList.map Char.toLower := String.toList_ofList
  refine ⟨⟨?_, ?_⟩, asciiLower_asciiLower name, ?_⟩
  · rw [hlower]
    exact fun hnil => hname.ne_nil (List.map_eq_nil_iff.mp hnil)
  · rw [hlower, List.forall_mem_map]
    intro c hc
    rw [isNameChar_toLower]
    exact hname.chars c hc
  · rw [hlower]
    exact (hstops.of_append hname.ne_nil).map_toLower isBlank_toLower

theorem isPlain_of_operatorOfSign {c : Char} {operator : Operator}
    (h : operatorOfSign? c = some operator) : isPlain c = true := by
  cases c using paren_cases with
  | opening => cases h
  | closing => cases h
  | plain c hplain => exact hplain

theorem leaves_readOperator {text rest : List Char} {operator : Option Operator}
    (h : readOperator text = .ok (operator, rest)) : Leaves text [] rest := by
  unfold readOperator at h
  split at h
  · cases h
    exact .refl _
  · cases h
    exact .char rfl _
  next sign after _ _ =>
    split at h
    next found rest hsign =>
      cases h
      have hplain := isPlain_of_operatorOfSign hsign
      exact .plain (List.forall_mem_cons.mpr ⟨hplain, List.forall_mem_singleton.mpr rfl⟩) rest
    · exact absurd h (stopAt_ne_ok _ _)
    · exact absurd h (stopAt_ne_ok _ _)
  · exact absurd h (stopAt_ne_ok _ _)

theorem quotes_of_readQuoted {quote : Char} {text rest inside : List Char}
    (hquote : quote = '"' ∨ quote = '\'') (h : readQuoted quote text = .ok (inside, rest)) :
    Quotes quote (String.ofList inside) ∧ Leaves (quote :: text) inside rest := by
  obtain ⟨rfl, hfree⟩ := readQuoted_eq_ok.mp h
  have hplain : isPlain quote = true := by obtain rfl | rfl := hquote <;> rfl
  refine ⟨⟨hquote, by rwa [String.toList_ofList]⟩, ?_⟩
  exact (Leaves.char hplain _).trans ((Leaves.whole inside _).after (.char hplain rest))

theorem quotes_of_isName {name : String} (h : IsName name) : Quotes '"' name :=
  ⟨.inl rfl, fun hmem => absurd (h.chars _ hmem) (by decide)⟩

theorem quotes_of_readOperand {text rest : List Char} {operand : String}
    (h : readOperand text = .ok (operand, rest)) :
    (∃ quote, Quotes quote operand) ∧ Leaves text operand.toList rest := by
  unfold readOperand at h
  split at h
  · obtain ⟨⟨inside, after⟩, hread, heq⟩ := map_eq_ok.mp h
    cases heq
    rw [String.toList_ofList]
    exact (quotes_of_readQuoted (.inl rfl) hread).imp_left fun h => ⟨_, h⟩
  · obtain ⟨⟨inside, after⟩, hread, heq⟩ := map_eq_ok.mp h
    cases heq
    rw [String.toList_ofList]
    exact (quotes_of_readQuoted (.inr rfl) hread).imp_left fun h => ⟨_, h⟩
  · obtain ⟨rfl, hname, -⟩ := readName_eq_ok.mp h
    exact ⟨⟨_, quotes_of_isName hname⟩, .whole _ _⟩

theorem leaves_readFlag (text : List Char) : Leaves text [] (readFlag text).2 := by
  unfold readFlag
  split
  · exact (Leaves.char rfl _).trans (leaves_skipBlanks _)
  · exact (Leaves.char rfl _).trans (leaves_skipBlanks _)
  · exact .refl text

theorem readBracket_eq_ok {test test' : AttributeTest} {text rest : List Char} :
    readBracket test text = .ok (test', rest) ↔ test' = test ∧ text = ']' :: rest := by
  unfold readBracket
  constructor
  · intro h
    split at h
    · cases h
      exact ⟨rfl, rfl⟩
    · exact absurd h (stopAt_ne_ok _ _)
  · rintro ⟨rfl, rfl⟩
    rfl

theorem readable_readAttribute {text rest : List Char} {test : AttributeTest}
    (h : readAttribute text = .ok (test, rest)) :
    test.Readable ∧ Leaves text test.operand rest := by
  obtain ⟨⟨name, afterName⟩, hname, h⟩ := bind_eq_ok.mp h
  obtain ⟨⟨operator, afterOperator⟩, hoperator, h⟩ := bind_eq_ok.mp h
  have hlower := isLowerName_readName (stops_dropWhile isBlank text) hname
  have hleaves : Leaves text [] afterOperator :=
    (leaves_skipBlanks text).trans <| (leaves_readName hname).trans <|
      (leaves_skipBlanks afterName).trans (leaves_readOperator hoperator)
  cases operator with
  | none =>
    obtain ⟨rfl, rfl⟩ := readBracket_eq_ok.mp h
    exact ⟨⟨hlower, nofun, fun _ => rfl⟩, hleaves.trans (.char rfl rest)⟩
  | some operator =>
    obtain ⟨⟨operand, afterOperand⟩, hoperand, h⟩ := bind_eq_ok.mp h
    obtain ⟨hquotes, hread⟩ := quotes_of_readOperand hoperand
    obtain ⟨rfl, hbracket⟩ := readBracket_eq_ok.mp h
    refine ⟨⟨hlower, ?_, nofun⟩, ?_⟩
    · intro _ _ heq
      cases heq
      exact hquotes
    · have hstart := hleaves.trans (leaves_skipBlanks afterOperator)
      have hend : Leaves (readFlag (skipBlanks afterOperand)).2 [] rest :=
        hbracket ▸ .char rfl rest
      have hflag := (leaves_skipBlanks afterOperand).trans (leaves_readFlag _)
      exact (hstart.trans hread).after (hflag.trans hend)

/-! ## Pseudo-classes -/

/-- What holds of pseudo-classes: they are readable, are not the type of an element and
    have no operand. -/
structure Simple.Unquoted (test : Simple) : Prop where
  readable : test.Readable
  isType : test.isType = false
  operand : test.operand = []

theorem unquoted_plainPseudoClass {name : String} {test : Simple}
    (h : plainPseudoClass? name = some test) : test.Unquoted := by
  unfold plainPseudoClass? at h
  split at h <;> first | (cases h; exact ⟨trivial, rfl, rfl⟩) | cases h

theorem unquoted_nthPseudoClass {name : String} {simple : Nth → Simple} (formula : Nth)
    (h : nthPseudoClass? name = some simple) : (simple formula).Unquoted := by
  unfold nthPseudoClass? at h
  split at h <;> first | (cases h; exact ⟨trivial, rfl, rfl⟩) | cases h

/-- The reader of whole texts answers readable compounds with the parentheses of the text. -/
def ReadsWhole (readCompound? : List Char → Option Compound) : Prop :=
  ∀ {text compound}, readCompound? text = some compound →
    compound ≠ [] ∧ AllReadable compound ∧ SameNesting text (operands compound)

section Whole

variable {readCompound? : List Char → Option Compound}

theorem argumentPseudoClass_eq_ok {name : String} {argument : List Char} {test : Simple} :
    argumentPseudoClass readCompound? name argument = .ok test ↔
      (∃ simple formula, nthPseudoClass? name = some simple ∧
        Nth.read? (String.ofList argument) = some formula ∧ test = simple formula) ∨
      (name = "not" ∧ ∃ compound, readCompound? argument = some compound ∧
        test = .not compound) := by
  unfold argumentPseudoClass
  constructor
  · intro h
    cases hnth : nthPseudoClass? name with
    | some simple =>
      rw [hnth] at h
      cases hformula : Nth.read? (String.ofList argument) with
      | none => rw [hformula] at h; cases h
      | some formula =>
        rw [hformula] at h
        cases h
        exact .inl ⟨simple, formula, rfl, rfl, rfl⟩
    | none =>
      rw [hnth] at h
      dsimp only at h
      split at h
      next hname =>
        cases hcompound : readCompound? argument with
        | none => rw [hcompound] at h; cases h
        | some compound =>
          rw [hcompound] at h
          cases h
          exact .inr ⟨hname, compound, rfl, rfl⟩
      · cases h
  · rintro (⟨simple, formula, hsimple, hformula, rfl⟩ | ⟨rfl, compound, hcompound, rfl⟩)
    · rw [hsimple, hformula]
      rfl
    · rw [hcompound]
      rfl

theorem unquoted_argumentPseudoClass (hread : ReadsWhole readCompound?) {name : String}
    {argument : List Char} {test : Simple} (hbalanced : Balanced argument)
    (h : argumentPseudoClass readCompound? name argument = .ok test) : test.Unquoted := by
  obtain ⟨simple, formula, hsimple, -, rfl⟩ | ⟨-, compound, hcompound, rfl⟩ :=
    argumentPseudoClass_eq_ok.mp h
  · exact unquoted_nthPseudoClass formula hsimple
  · obtain ⟨hne, hreadable, hnesting⟩ := hread hcompound
    exact ⟨⟨hne, hreadable, hnesting.balanced_iff.mp hbalanced⟩, rfl, rfl⟩

theorem readPseudoClass_eq_ok {text rest : List Char} {test : Simple} :
    readPseudoClass readCompound? text = .ok (test, rest) ↔
      ∃ name after, readName text = .ok (name, after) ∧
        ((∃ inside argument, after = '(' :: inside ∧ readArgument 0 inside = .ok (argument, rest) ∧
            argumentPseudoClass readCompound? (asciiLower name) argument = .ok test) ∨
          Stops (· == '(') after ∧ plainPseudoClass? (asciiLower name) = some test ∧
            rest = after) := by
  unfold readPseudoClass
  constructor
  · intro h
    split at h
    · cases h
    obtain ⟨⟨name, after⟩, hname, h⟩ := bind_eq_ok.mp h
    refine ⟨name, after, hname, ?_⟩
    dsimp only at h
    split at h
    next inside =>
      obtain ⟨⟨argument, _⟩, hargument, h⟩ := bind_eq_ok.mp h
      obtain ⟨simple, hsimple, h⟩ := bind_eq_ok.mp h
      cases h
      exact .inl ⟨inside, argument, rfl, hargument, hsimple⟩
    next hplain =>
      split at h
      next simple hsimple =>
        cases h
        refine .inr ⟨?_, hsimple, rfl⟩
        cases rest with
        | nil => exact stops_nil _
        | cons c rest =>
          rw [stops_cons, beq_eq_false_iff_ne]
          rintro rfl
          exact hplain rest rfl
      · cases h
  · rintro ⟨name, after, hname, h⟩
    obtain ⟨rfl, hisName, -⟩ := readName_eq_ok.mp hname
    split
    next heq => cases hisName.isNameChar_head heq
    refine bind_eq_ok.mpr ⟨_, hname, ?_⟩
    obtain ⟨inside, argument, rfl, hargument, htest⟩ | ⟨hopen, hplain, rfl⟩ := h
    · exact bind_eq_ok.mpr ⟨_, hargument, bind_eq_ok.mpr ⟨_, htest, rfl⟩⟩
    · dsimp only
      split
      next => cases stops_cons.mp hopen
      · rw [hplain]
        rfl

theorem unquoted_readPseudoClass (hread : ReadsWhole readCompound?) {text rest : List Char}
    {test : Simple} (h : readPseudoClass readCompound? text = .ok (test, rest)) :
    test.Unquoted ∧ Leaves text [] rest := by
  obtain ⟨name, after, hname, h⟩ := readPseudoClass_eq_ok.mp h
  have hleaves := leaves_readName hname
  obtain ⟨inside, argument, rfl, hargument, htest⟩ | ⟨-, hplain, rfl⟩ := h
  · have hbalanced : Balanced argument := (readArgument_eq_ok.mp hargument).2
    exact ⟨unquoted_argumentPseudoClass hread hbalanced htest,
      hleaves.trans (leaves_readArgument hargument)⟩
  · exact ⟨unquoted_plainPseudoClass hplain, hleaves⟩

end Whole

/-! ## Tests behind the type -/

/-- A character that a test behind the type starts with. -/
def startsTest (c : Char) : Bool := c == '#' || c == '.' || c == '[' || c == ':'

/-- One test is read behind the sign that it starts with. -/
inductive ReadsTest (readCompound? : List Char → Option Compound) :
    Char → List Char → Simple → List Char → Prop where
  | id {text rest : List Char} {name : String} (h : readName text = .ok (name, rest)) :
      ReadsTest readCompound? '#' text (.id name) rest
  | className {text rest : List Char} {name : String} (h : readName text = .ok (name, rest)) :
      ReadsTest readCompound? '.' text (.className name) rest
  | attr {text rest : List Char} {test : AttributeTest}
      (h : readAttribute text = .ok (test, rest)) :
      ReadsTest readCompound? '[' text (.attr test) rest
  | pseudoClass {text rest : List Char} {test : Simple}
      (h : readPseudoClass readCompound? text = .ok (test, rest)) :
      ReadsTest readCompound? ':' text test rest

theorem readTests_stops {text : List Char} (steps : Nat) (h : Stops startsTest text) :
    readTests steps text = .ok ([], text) := by
  cases steps with
  | zero => rfl
  | succ steps =>
    unfold readTests
    split
    case h_5 => rfl
    all_goals cases stops_cons.mp h

theorem readTests_cons {steps : Nat} {sign : Char} {text mid rest : List Char} {test : Simple}
    {tests : Compound} (htest : ReadsTest (readWholeBy (readTests steps)) sign text test mid)
    (h : readTests steps mid = .ok (tests, rest)) :
    readTests (steps + 1) (sign :: text) = .ok (test :: tests, rest) := by
  cases htest with
  | id hread | className hread | attr hread | pseudoClass hread =>
    exact bind_eq_ok.mpr ⟨_, hread, map_eq_ok.mpr ⟨_, h, rfl⟩⟩

/-- Either there is no test to read, or one is read and then the others. -/
theorem readTests_cases {steps : Nat} {text rest : List Char} {tests : Compound}
    (h : readTests (steps + 1) text = .ok (tests, rest)) :
    Stops startsTest text ∧ tests = [] ∧ rest = text ∨
      ∃ sign after test mid more, text = sign :: after ∧ tests = test :: more ∧
        ReadsTest (readWholeBy (readTests steps)) sign after test mid ∧
          readTests steps mid = .ok (more, rest) := by
  have hmore {sign : Char} {after mid : List Char} {test : Simple}
      (htest : ReadsTest (readWholeBy (readTests steps)) sign after test mid)
      (h : (readTests steps mid).map (fun part => (test :: part.1, part.2)) = .ok (tests, rest)) :
      ∃ sign' after' test mid more, sign :: after = sign' :: after' ∧ tests = test :: more ∧
        ReadsTest (readWholeBy (readTests steps)) sign' after' test mid ∧
          readTests steps mid = .ok (more, rest) := by
    obtain ⟨⟨more, _⟩, hmore, heq⟩ := map_eq_ok.mp h
    cases heq
    exact ⟨sign, after, test, mid, more, rfl, rfl, htest, hmore⟩
  unfold readTests at h
  split at h
  · obtain ⟨_, hread, h⟩ := bind_eq_ok.mp h
    exact .inr (hmore (.id hread) h)
  · obtain ⟨_, hread, h⟩ := bind_eq_ok.mp h
    exact .inr (hmore (.className hread) h)
  · obtain ⟨_, hread, h⟩ := bind_eq_ok.mp h
    exact .inr (hmore (.attr hread) h)
  · obtain ⟨_, hread, h⟩ := bind_eq_ok.mp h
    exact .inr (hmore (.pseudoClass hread) h)
  next hid hclass hattr hpseudo =>
    cases h
    refine .inl ⟨?_, rfl, rfl⟩
    cases text with
    | nil => exact stops_nil startsTest
    | cons c after =>
      rw [stops_cons, startsTest]
      simp only [Bool.or_eq_false_iff, beq_eq_false_iff_ne]
      refine ⟨⟨⟨?_, ?_⟩, ?_⟩, ?_⟩
      · rintro rfl; exact hid after rfl
      · rintro rfl; exact hclass after rfl
      · rintro rfl; exact hattr after rfl
      · rintro rfl; exact hpseudo after rfl

/-! ## Compounds -/

/-- Tests behind the type of a compound were read from a text. -/
structure ReadableTests (text : List Char) (tests : Compound) (rest : List Char) : Prop where
  readable : AllReadable tests
  isType : ∀ test ∈ tests, test.isType = false
  leaves : Leaves text (operands tests) rest

theorem ReadableTests.nil (text : List Char) : ReadableTests text [] text :=
  ⟨trivial, nofun, .refl text⟩

theorem ReadableTests.cons {text mid rest : List Char} {test : Simple} {tests : Compound}
    (hreadable : test.Readable) (htype : test.isType = false)
    (hleaves : Leaves text test.operand mid) (h : ReadableTests mid tests rest) :
    ReadableTests text (test :: tests) rest :=
  ⟨⟨hreadable, h.isType, h.readable⟩, List.forall_mem_cons.mpr ⟨htype, h.isType⟩,
    hleaves.trans h.leaves⟩

theorem isNameChar_of_isNameStart {c : Char} (h : isNameStart c = true) : isNameChar c = true := by
  simp only [isNameStart, isNameChar, Char.isAlphanum, Bool.or_eq_true] at h ⊢
  exact h.imp_left (·.imp_left (·.imp_left .inl))

/-- A name at the start of a compound is its type. -/
theorem readType_name {text rest : List Char} {name : String} (hstart : Stops (!isNameStart ·) text)
    (h : readName text = .ok (name, rest)) : readType text = ([.tag (asciiLower name)], rest) := by
  obtain ⟨htext, hname, hrest⟩ := readName_eq_ok.mp h
  have htake := takeWhile_append hname.chars hrest
  have hdrop := dropWhile_append hname.chars hrest
  rw [← htext] at htake hdrop
  unfold readType
  split
  · cases stops_cons.mp hstart
  next c _ _ =>
    have hc : isNameStart c = true := by simpa using hstart
    rw [if_pos hc, htake, hdrop, String.ofList_toList]
  · exact absurd (List.append_eq_nil_iff.mp htext.symm).1 hname.ne_nil

theorem readName_of_isNameStart {c : Char} (h : isNameStart c = true) (rest : List Char) :
    ∃ part, readName (c :: rest) = .ok part := by
  rw [readName, List.takeWhile_cons_of_pos (isNameChar_of_isNameStart h)]
  exact ⟨_, rfl⟩

/-- A character that a compound with a test of the type starts with. -/
def startsType (c : Char) : Bool := c == '*' || isNameStart c

theorem readType_stops {text : List Char} (h : Stops startsType text) :
    readType text = ([], text) := by
  unfold readType
  split
  · cases stops_cons.mp h
  · rw [if_neg (by simpa using (Bool.or_eq_false_iff.mp (stops_cons.mp h)).2)]
  · rfl

theorem readType_cases (text : List Char) :
    Stops startsType text ∨ (∃ rest, text = '*' :: rest) ∨
      ∃ name rest, readName text = .ok (name, rest) ∧ Stops (!isNameStart ·) text := by
  cases text with
  | nil => exact .inl (stops_nil startsType)
  | cons c text =>
    by_cases hc : isNameStart c = true
    · obtain ⟨⟨name, rest⟩, hname⟩ := readName_of_isNameStart hc text
      exact .inr (.inr ⟨name, rest, hname, stops_cons.mpr (by rw [hc]; rfl)⟩)
    by_cases hany : c = '*'
    · exact .inr (.inl ⟨text, hany ▸ rfl⟩)
    · exact .inl (stops_cons.mpr (by simp [startsType, hany, hc]))

/-- The test of the type comes before the other tests. -/
theorem readable_readType {text rest : List Char} {tests : Compound} (hstops : Stops isBlank text)
    (h : ReadableTests (readType text).2 tests rest) :
    AllReadable ((readType text).1 ++ tests) ∧
      Leaves text (operands ((readType text).1 ++ tests)) rest := by
  obtain hnone | ⟨after, rfl⟩ | ⟨name, after, hname, hstart⟩ := readType_cases text
  · rw [readType_stops hnone] at h ⊢
    exact ⟨h.readable, h.leaves⟩
  · exact ⟨⟨trivial, h.isType, h.readable⟩, (Leaves.char rfl after).trans h.leaves⟩
  · rw [readType_name hstart hname] at h ⊢
    have hlower := isLowerName_readName hstops hname
    have hbegins : Stops (!isNameStart ·) (asciiLower name).toList := by
      obtain ⟨rfl, hisName, -⟩ := readName_eq_ok.mp hname
      rw [asciiLower, String.toList_ofList]
      exact (hstart.of_append hisName.ne_nil).map_toLower fun c => by rw [isNameStart_toLower]
    exact ⟨⟨⟨hlower, hbegins⟩, h.isType, h.readable⟩, (leaves_readName hname).trans h.leaves⟩

section Tests

variable {readTests : List Char → Except Stop (Part Compound)} {compound : Compound}
  {text : List Char}

/-- A compound is the test of its type with the tests behind it. -/
theorem readCompoundBy_eq_ok {rest : List Char} :
    readCompoundBy readTests text = .ok (compound, rest) ↔
      ∃ tests, readTests (readType text).2 = .ok (tests, rest) ∧
        compound = (readType text).1 ++ tests ∧ compound ≠ [] := by
  constructor
  · intro h
    obtain ⟨⟨tests, after⟩, hread, h⟩ := bind_eq_ok.mp h
    dsimp only at h
    split at h
    · exact absurd h (stopAt_ne_ok _ _)
    next hne =>
      cases h
      exact ⟨tests, hread, rfl, hne⟩
  · rintro ⟨tests, hread, rfl, hne⟩
    refine bind_eq_ok.mpr ⟨_, hread, ?_⟩
    dsimp only
    split
    next hnil => exact absurd hnil hne
    next => rfl

theorem readWholeBy_eq_some :
    readWholeBy readTests text = some compound ↔
      ∃ rest, readCompoundBy readTests (skipBlanks text) = .ok (compound, rest) ∧
        skipBlanks rest = [] := by
  unfold readWholeBy
  constructor
  · intro h
    split at h
    next found rest hread =>
      split at h
      next hblank =>
        cases h
        exact ⟨rest, hread, List.isEmpty_iff.mp hblank⟩
      · cases h
    · cases h
  · rintro ⟨rest, hread, hblank⟩
    simp only [hread, hblank, List.isEmpty_nil, if_true]

theorem readable_readCompoundBy {rest : List Char}
    (htests : ∀ {text tests rest}, readTests text = .ok (tests, rest) →
      ReadableTests text tests rest)
    (hstops : Stops isBlank text) (h : readCompoundBy readTests text = .ok (compound, rest)) :
    compound ≠ [] ∧ AllReadable compound ∧ Leaves text (operands compound) rest := by
  obtain ⟨tests, hread, rfl, hne⟩ := readCompoundBy_eq_ok.mp h
  exact ⟨hne, readable_readType hstops (htests hread)⟩

theorem readsWhole_readWholeBy
    (htests : ∀ {text tests rest}, readTests text = .ok (tests, rest) →
      ReadableTests text tests rest) :
    ReadsWhole (readWholeBy readTests) := by
  intro text compound h
  obtain ⟨rest, hread, hblank⟩ := readWholeBy_eq_some.mp h
  obtain ⟨hne, hreadable, hleaves⟩ :=
    readable_readCompoundBy htests (stops_dropWhile isBlank text) hread
  refine ⟨hne, hreadable, ?_⟩
  have hend := hleaves.after (leaves_skipBlanks rest)
  rw [hblank] at hend
  have hwhole := ((leaves_skipBlanks text).trans hend).nesting
  rwa [List.nil_append, List.append_nil] at hwhole

end Tests

theorem ReadsTest.isPlain {readCompound? : List Char → Option Compound} {sign : Char}
    {text rest : List Char} {test : Simple} (h : ReadsTest readCompound? sign text test rest) :
    isPlain sign = true := by
  cases h <;> rfl

theorem ReadsTest.readable {readCompound? : List Char → Option Compound}
    (hread : ReadsWhole readCompound?) {sign : Char} {text rest : List Char} {test : Simple}
    (h : ReadsTest readCompound? sign text test rest) :
    test.Readable ∧ test.isType = false ∧ Leaves text test.operand rest := by
  cases h with
  | id h | className h => exact ⟨(readName_eq_ok.mp h).2.1, rfl, leaves_readName h⟩
  | attr h =>
    obtain ⟨hreadable, hleaves⟩ := readable_readAttribute h
    exact ⟨hreadable, rfl, hleaves⟩
  | pseudoClass h =>
    obtain ⟨hunquoted, hleaves⟩ := unquoted_readPseudoClass hread h
    rw [hunquoted.operand]
    exact ⟨hunquoted.readable, hunquoted.isType, hleaves⟩

/-- The tests inside of `:not()` are read by the same reader with fewer steps. -/
theorem readableTests_readTests {steps : Nat} {text rest : List Char} {tests : Compound}
    (h : readTests steps text = .ok (tests, rest)) : ReadableTests text tests rest := by
  induction steps generalizing text rest tests with
  | zero =>
    cases h
    exact .nil text
  | succ steps ih =>
    obtain ⟨-, rfl, rfl⟩ | ⟨sign, after, test, mid, more, rfl, rfl, htest, hmore⟩ :=
      readTests_cases h
    · exact .nil rest
    · obtain ⟨hreadable, htype, hleaves⟩ := htest.readable (readsWhole_readWholeBy ih)
      exact .cons hreadable htype ((Leaves.char htest.isPlain after).trans hleaves) (ih hmore)

theorem readable_readCompound {text rest : List Char} {compound : Compound}
    (hstops : Stops isBlank text) (h : readCompound text = .ok (compound, rest)) :
    compound ≠ [] ∧ AllReadable compound ∧ Leaves text (operands compound) rest :=
  readable_readCompoundBy readableTests_readTests hstops h

/-! ## Alternatives -/

/-- Either nothing is combined with an alternative, or one compound and then the others. -/
theorem readCombined_cases {steps : Nat} {left complex : Complex} {text rest : List Char}
    (h : readCombined (steps + 1) left text = .ok (complex, rest)) :
    complex = left ∧ skipBlanks rest = skipBlanks text ∨
      ∃ combinator subject after mid, Stops isBlank after ∧
        readCompound after = .ok (subject, mid) ∧
          readCombined steps (left.combined combinator subject) mid = .ok (complex, rest) := by
  have hstops := stops_dropWhile isBlank text
  unfold readCombined at h
  split at h
  next hskip =>
    cases h
    exact .inl ⟨rfl, hskip.symm⟩
  next c after hskip =>
  split at h
  next hcomma =>
    cases h
    subst hcomma
    exact .inl ⟨rfl, hskip.symm⟩
  split at h
  next combinator _ =>
    obtain ⟨⟨subject, mid⟩, hsubject, h⟩ := bind_eq_ok.mp h
    exact .inr ⟨combinator, subject, _, mid, stops_dropWhile isBlank after, hsubject, h⟩
  · split at h
    · obtain ⟨⟨subject, mid⟩, hsubject, h⟩ := bind_eq_ok.mp h
      exact .inr ⟨.descendant, subject, _, mid, hskip ▸ hstops, hsubject, h⟩
    · exact absurd h (stopAt_ne_ok _ _)

theorem readable_readCombined {steps : Nat} {left complex : Complex} {text rest : List Char}
    (hleft : left.Readable) (h : readCombined steps left text = .ok (complex, rest)) :
    complex.Readable := by
  induction steps generalizing left text with
  | zero => cases h; exact hleft
  | succ steps ih =>
    obtain ⟨rfl, -⟩ | ⟨combinator, subject, after, mid, hstops, hsubject, h⟩ :=
      readCombined_cases h
    · exact hleft
    · obtain ⟨hne, hreadable, -⟩ := readable_readCompound hstops hsubject
      have hcombined : (left.combined combinator subject).Readable :=
        List.forall_mem_append.mpr ⟨hleft, List.forall_mem_singleton.mpr ⟨hne, hreadable⟩⟩
      exact ih hcombined h

theorem readable_readComplex {text rest : List Char} {complex : Complex}
    (hstops : Stops isBlank text) (h : readComplex text = .ok (complex, rest)) :
    complex.Readable := by
  obtain ⟨⟨subject, afterSubject⟩, hsubject, h⟩ := bind_eq_ok.mp h
  obtain ⟨hne, hreadable, -⟩ := readable_readCompound hstops hsubject
  have hsingle : (Complex.single subject).Readable :=
    List.forall_mem_singleton.mpr ⟨hne, hreadable⟩
  exact readable_readCombined hsingle h

theorem readable_readAlternatives {steps : Nat} {text : List Char} {selector : Selector}
    (h : readAlternatives steps text = .ok selector) :
    selector ≠ [] ∧ ∀ complex ∈ selector, complex.Readable := by
  induction steps generalizing text selector with
  | zero => exact absurd h (stopAt_ne_ok _ _)
  | succ steps ih =>
    obtain ⟨⟨complex, afterComplex⟩, hcomplex, h⟩ := bind_eq_ok.mp h
    have hfirst := readable_readComplex (stops_dropWhile isBlank text) hcomplex
    dsimp only at h
    split at h
    · cases h
      exact ⟨nofun, List.forall_mem_singleton.mpr hfirst⟩
    · split at h
      · obtain ⟨more, hmore, h⟩ := bind_eq_ok.mp h
        cases h
        exact ⟨nofun, List.forall_mem_cons.mpr ⟨hfirst, (ih hmore).2⟩⟩
      · exact absurd h (stopAt_ne_ok _ _)

theorem parse_eq_ok {text : String} {selector : Selector} :
    parse text = .ok selector ↔
      readAlternatives (text.toList.length + 1) text.toList = .ok selector := by
  unfold parse
  cases readAlternatives (text.toList.length + 1) text.toList with
  | error stop => exact ⟨nofun, nofun⟩
  | ok found => constructor <;> rintro ⟨⟩ <;> rfl

/-- A selector that is read has alternatives, and all are readable. -/
theorem readable_parse {text : String} {selector : Selector} (h : parse text = .ok selector) :
    selector ≠ [] ∧ ∀ complex ∈ selector, complex.Readable :=
  readable_readAlternatives (parse_eq_ok.mp h)

end HtmlTemplate.Selector
