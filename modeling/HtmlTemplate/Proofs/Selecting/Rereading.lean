-- SUMMARY: The texts of tests and compounds are read again, whatever comes behind them.
import HtmlTemplate.Proofs.Selecting.Written

/-!
# Written compounds are read again

The readers take what is written and leave the text behind it, provided that this does
not go on with something that would be taken, too. What may not stand behind a test and
behind a compound is said by `continuesTest` and `continuesCompound`; gaps, signs and
commas may stand behind both.
-/

namespace HtmlTemplate.Selector

/-! ## Gaps -/

theorem isNameChar_of_isBlank {c : Char} (hblank : isBlank c = true)
    (hascii : isBeyondAscii c = false) : isNameChar c = false := by
  rw [Bool.eq_false_iff]
  intro hname
  simp only [isNameChar, hascii, Bool.or_false, Bool.or_eq_true, beq_iff_eq] at hname
  obtain (hname | rfl) | rfl := hname
  · cases (isBlank_of_isAlphanum hname).symm.trans hblank
  · cases hblank
  · cases hblank

theorem Stops.imp {p q : Char → Bool} {text : List Char} (h : Stops p text)
    (himp : ∀ {c}, p c = false → q c = false) : Stops q text :=
  fun c hc => himp (h c hc)

theorem Stops.append {p : Char → Bool} {part rest : List Char} (hpart : Stops p part)
    (hrest : part = [] → Stops p rest) : Stops p (part ++ rest) := by
  cases part with
  | nil => exact hrest rfl
  | cons c part => exact stops_cons.mpr (stops_cons.mp hpart)

theorem IsGap.stops {p : Char → Bool} {gap : List Char} (hgap : IsGap gap)
    (hp : ∀ {c}, isBlank c = true → isBeyondAscii c = false → p c = false) : Stops p gap := by
  cases gap with
  | nil => exact stops_nil p
  | cons c gap =>
    obtain ⟨hblank, hascii⟩ := hgap c List.mem_cons_self
    exact stops_cons.mpr (hp hblank hascii)

theorem skipBlanks_append {gap after : List Char} (hgap : IsGap gap) (h : Stops isBlank after) :
    skipBlanks (gap ++ after) = after :=
  dropWhile_append (fun c hc => (hgap c hc).1) h

section Spaced

variable {words : List (List Char)} {word text rest : List Char}

/-- A gap is skipped up to the word behind it. -/
theorem Spaced.skip_cons (h : Spaced (word :: words) text) (hne : word ≠ [])
    (hstops : Stops isBlank word) (rest : List Char) :
    ∃ more, Spaced words more ∧ skipBlanks (text ++ rest) = word ++ (more ++ rest) := by
  cases h with
  | @cons gap more _ _ hgap h =>
    refine ⟨more, h, ?_⟩
    rw [List.append_assoc, List.append_assoc]
    exact skipBlanks_append hgap (hstops.append fun hnil => absurd hnil hne)

theorem Spaced.skip_nil (h : Spaced [] text) (hrest : Stops isBlank rest) :
    skipBlanks (text ++ rest) = rest := by
  cases h with
  | nil hgap => exact skipBlanks_append hgap hrest

theorem Spaced.length_le (h : Spaced (word :: words) text) : word.length ≤ text.length := by
  cases h with
  | cons _ _ _ =>
    rw [List.length_append, List.length_append]
    omega

theorem Spaced.skip_end (h : Spaced [] text) : skipBlanks text = [] := by
  have hskip := h.skip_nil (stops_nil isBlank)
  rwa [List.append_nil] at hskip

/-- A gap takes nothing that the words behind it do not take. -/
theorem Spaced.stops {p : Char → Bool} (h : Spaced words text)
    (hp : ∀ {c}, isBlank c = true → isBeyondAscii c = false → p c = false)
    (hstops : Stops p (words.flatten ++ rest)) : Stops p (text ++ rest) := by
  induction h with
  | nil hgap => exact (hgap.stops hp).append fun _ => hstops
  | @cons gap text words word hgap h ih =>
    rw [List.append_assoc, List.append_assoc]
    refine (hgap.stops hp).append fun _ => ?_
    rw [List.flatten_cons, List.append_assoc] at hstops
    cases word with
    | nil => exact ih hstops
    | cons c word => exact stops_cons.mpr (stops_cons.mp hstops)

end Spaced

/-! ## Attributes -/

theorem readOperator_sign (operator : Operator) (rest : List Char) :
    readOperator (operator.sign.toList ++ rest) = .ok (some operator, rest) := by
  cases operator <;> rfl

theorem readOperand_quoted {quote : Char} {operand : String} (h : Quotes quote operand)
    (rest : List Char) :
    readOperand (quote :: operand.toList ++ [quote] ++ rest) = .ok (operand, rest) := by
  have hread : readQuoted quote (operand.toList ++ [quote] ++ rest) = .ok (operand.toList, rest) :=
    readQuoted_eq_ok.mpr ⟨by simp, h.2⟩
  obtain ⟨rfl | rfl, -⟩ := h <;>
    exact map_eq_ok.mpr ⟨_, hread, congrArg (·, rest) String.ofList_toList⟩

section Comparison

variable {name : String} {operator : Operator} {operand : String} {quote : Char}
  {words : List (List Char)} {text : List Char}

/-- What is read behind the operand decides about the flag. -/
theorem readAttribute_comparison (hname : IsLowerName name) (hquotes : Quotes quote operand)
    (htext : Spaced (name.toList :: operator.sign.toList ::
      (quote :: operand.toList ++ [quote]) :: words) text) (rest : List Char) :
    ∃ more, Spaced words more ∧ readAttribute (text ++ rest) =
      readBracket
        ⟨name, some (operator, operand), (readFlag (skipBlanks (more ++ rest))).1⟩
        (readFlag (skipBlanks (more ++ rest))).2 := by
  obtain ⟨afterName, hafterName, hskipName⟩ := htext.skip_cons hname.ne_nil hname.stops rest
  have hsign : operator.sign.toList ≠ [] ∧ Stops isBlank operator.sign.toList := by
    cases operator <;> exact ⟨nofun, stops_cons.mpr rfl⟩
  obtain ⟨afterSign, hafterSign, hskipSign⟩ := hafterName.skip_cons hsign.1 hsign.2 rest
  have hquote : Stops isBlank (quote :: operand.toList ++ [quote]) := by
    obtain ⟨rfl | rfl, -⟩ := hquotes <;> exact stops_cons.mpr rfl
  obtain ⟨more, hmore, hskipOperand⟩ := hafterSign.skip_cons nofun hquote rest
  have hstops : Stops isNameChar (afterName ++ rest) := by
    refine hafterName.stops isNameChar_of_isBlank ?_
    cases operator <;> exact stops_cons.mpr rfl
  have hread : readName (skipBlanks (text ++ rest)) = .ok (name, afterName ++ rest) :=
    readName_eq_ok.mpr ⟨hskipName, hname.toIsName, hstops⟩
  refine ⟨more, hmore, ?_⟩
  rw [readAttribute, hread]
  dsimp only [bind, Except.bind]
  rw [hskipSign, readOperator_sign]
  dsimp only
  rw [hskipOperand, readOperand_quoted hquotes, hname.lower]

end Comparison

theorem readAttribute_written {test : AttributeTest} {words : List (List Char)} {text : List Char}
    (htest : test.Readable) (hwords : test.Words words) (htext : Spaced words text)
    (rest : List Char) : readAttribute (text ++ ']' :: rest) = .ok (test, rest) := by
  have hbracket : Stops isBlank (']' :: rest) := stops_cons.mpr rfl
  cases hwords with
  | present name =>
    have hname := htest.name
    obtain ⟨more, hmore, hskip⟩ := htext.skip_cons hname.ne_nil hname.stops (']' :: rest)
    have hstops : Stops isNameChar (more ++ ']' :: rest) :=
      hmore.stops isNameChar_of_isBlank (stops_cons.mpr rfl)
    have hread : readName (skipBlanks (text ++ ']' :: rest)) = .ok (name, more ++ ']' :: rest) :=
      readName_eq_ok.mpr ⟨hskip, hname.toIsName, hstops⟩
    rw [readAttribute, hread]
    dsimp only [bind, Except.bind]
    rw [hmore.skip_nil hbracket, hname.lower]
    rfl
  | compared name operator hquotes =>
    obtain ⟨more, hmore, hread⟩ := readAttribute_comparison htest.name hquotes htext (']' :: rest)
    rw [hread, hmore.skip_nil hbracket]
    rfl
  | @ignoringCase name operator operand quote flag hquotes hflag =>
    obtain ⟨more, hmore, hread⟩ := readAttribute_comparison htest.name hquotes htext (']' :: rest)
    have hstops : Stops isBlank [flag] := by
      obtain rfl | rfl := hflag <;> exact stops_cons.mpr rfl
    obtain ⟨afterFlag, hafterFlag, hskip⟩ := hmore.skip_cons nofun hstops (']' :: rest)
    have hflagRead : readFlag (flag :: (afterFlag ++ ']' :: rest)) = (true, ']' :: rest) := by
      have hend := hafterFlag.skip_nil hbracket
      obtain rfl | rfl := hflag <;> exact congrArg (true, ·) hend
    rw [hread, hskip, List.singleton_append, hflagRead]
    rfl

/-! ## Pseudo-classes -/

/-- The names of the pseudo-classes. -/
def pseudoClasses : List String :=
  ["root", "empty", "not", "first-child", "last-child", "only-child", "nth-child",
    "nth-last-child", "first-of-type", "last-of-type", "only-of-type", "nth-of-type",
    "nth-last-of-type"]

theorem isLowerName_of_mem {name : String} (h : name ∈ pseudoClasses) : IsLowerName name := by
  have hall : ∀ name ∈ pseudoClasses, name.toList ≠ [] ∧ name.toList.all isNameChar = true ∧
      asciiLower name = name ∧ name.toList.head?.all (!isBlank ·) = true := by
    decide
  obtain ⟨hne, hchars, hlower, hstops⟩ := hall name h
  refine ⟨⟨hne, List.all_eq_true.mp hchars⟩, hlower, fun c hc => ?_⟩
  simpa [Option.mem_def.mp hc] using hstops

theorem name_mem_pseudoClasses (ofType : Bool) (position : Position) :
    position.name ofType ∈ pseudoClasses := by
  cases position <;> cases ofType <;> simp [Position.name, pseudoClasses]

theorem plainPseudoClass?_name (ofType : Bool) {position : Position}
    (h : position.formula? = none) :
    plainPseudoClass? (position.name ofType) = some (.position ofType position) := by
  cases position <;> cases h <;> cases ofType <;> rfl

theorem exists_nthPseudoClass?_name (ofType : Bool) {position : Position} {formula : Nth}
    (h : position.formula? = some formula) :
    ∃ simple, nthPseudoClass? (position.name ofType) = some simple ∧
      simple formula = .position ofType position := by
  cases position <;> cases h <;> cases ofType <;> exact ⟨_, rfl, rfl⟩

/-- A character that would go on with a test. -/
def continuesTest (c : Char) : Bool := isNameChar c || c == '('

/-- A character that would go on with a compound. -/
def continuesCompound (c : Char) : Bool := continuesTest c || startsTest c

theorem Stops.name {rest : List Char} (h : Stops continuesTest rest) : Stops isNameChar rest :=
  h.imp fun h => (Bool.or_eq_false_iff.mp h).1

section PseudoClass

variable {readCompound? : List Char → Option Compound} {name : String} {test : Simple}

theorem readPseudoClass_plain (hname : IsLowerName name)
    (hplain : plainPseudoClass? name = some test) {rest : List Char}
    (hrest : Stops continuesTest rest) :
    readPseudoClass readCompound? (name.toList ++ rest) = .ok (test, rest) := by
  have hread : readName (name.toList ++ rest) = .ok (name, rest) :=
    readName_eq_ok.mpr ⟨rfl, hname.toIsName, hrest.name⟩
  have hopen : Stops (· == '(') rest := hrest.imp fun h => (Bool.or_eq_false_iff.mp h).2
  rw [← hname.lower] at hplain
  exact readPseudoClass_eq_ok.mpr ⟨name, rest, hread, .inr ⟨hopen, hplain, rfl⟩⟩

theorem readPseudoClass_argument_eq_ok (hname : IsLowerName name) {text rest : List Char} :
    readPseudoClass readCompound? (name.toList ++ '(' :: text) = .ok (test, rest) ↔
      ∃ argument, readArgument 0 text = .ok (argument, rest) ∧
        argumentPseudoClass readCompound? name argument = .ok test := by
  have hread : readName (name.toList ++ '(' :: text) = .ok (name, '(' :: text) :=
    readName_eq_ok.mpr ⟨rfl, hname.toIsName, stops_cons.mpr rfl⟩
  rw [readPseudoClass_eq_ok]
  constructor
  · rintro ⟨_, _, hread', h⟩
    cases hread.symm.trans hread'
    rw [hname.lower] at h
    obtain ⟨_, argument, heq, hargument, htest⟩ | ⟨hopen, -⟩ := h
    · cases heq
      exact ⟨argument, hargument, htest⟩
    · cases stops_cons.mp hopen
  · rintro ⟨argument, hargument, htest⟩
    rw [← hname.lower] at htest
    exact ⟨name, _, hread, .inl ⟨text, argument, rfl, hargument, htest⟩⟩

/-- A balanced argument is read up to the parenthesis behind it. -/
theorem readPseudoClass_argument (hname : IsLowerName name) {argument : List Char}
    (hargument : Balanced argument)
    (h : argumentPseudoClass readCompound? name argument = .ok test) (rest : List Char) :
    readPseudoClass readCompound? (name.toList ++ '(' :: (argument ++ ')' :: rest)) =
      .ok (test, rest) :=
  (readPseudoClass_argument_eq_ok hname).mpr
    ⟨argument, readArgument_eq_ok.mpr ⟨rfl, hargument⟩, h⟩

end PseudoClass

/-! ## Compounds -/

/-- A test that is not one of the type starts with its own sign. -/
theorem Simple.Written.exists_cons {test : Simple} {text : List Char} (h : test.Written text)
    (htype : test.isType = false) :
    ∃ c more, text = c :: more ∧ (c = '#' ∨ c = '.' ∨ c = '[' ∨ c = ':') := by
  cases h with
  | any => cases htype
  | tag => cases htype
  | id => exact ⟨'#', _, rfl, .inl rfl⟩
  | className => exact ⟨'.', _, rfl, .inr (.inl rfl)⟩
  | attr => exact ⟨'[', _, rfl, .inr (.inr (.inl rfl))⟩
  | root | empty | position | formula | not => exact ⟨':', _, rfl, .inr (.inr (.inr rfl))⟩

theorem Stops.compound {rest : List Char} (h : Stops continuesCompound rest) :
    Stops continuesTest rest ∧ Stops startsTest rest :=
  ⟨h.imp fun h => (Bool.or_eq_false_iff.mp h).1, h.imp fun h => (Bool.or_eq_false_iff.mp h).2⟩

/-- Behind a test come the other tests of the compound and what is behind it. -/
theorem stops_written {tests : Compound} {text rest : List Char} (h : AllWritten tests text)
    (htype : ∀ test ∈ tests, test.isType = false) (hrest : Stops continuesCompound rest) :
    Stops continuesTest (text ++ rest) := by
  cases h with
  | nil => exact hrest.compound.1
  | cons htest hmore =>
    obtain ⟨c, more, rfl, hc⟩ := htest.exists_cons (htype _ List.mem_cons_self)
    refine stops_cons.mpr ?_
    obtain rfl | rfl | rfl | rfl := hc <;> rfl

/-- A character that is read as a combinator, or as the end of an alternative. -/
def startsCombined (c : Char) : Bool := c == ',' || (combinatorOfSign? c).isSome

theorem startsCombined_of_isNameStart {c : Char} (h : isNameStart c = true) :
    startsCombined c = false := by
  unfold startsCombined combinatorOfSign?
  split
  · cases h
  · cases h
  · cases h
  · rw [Option.isSome_none, Bool.or_false, beq_eq_false_iff_ne]
    rintro rfl
    cases h

/-- A compound starts with neither a blank nor a combinator. -/
theorem AllWritten.starts {compound : Compound} {text : List Char} (h : AllWritten compound text)
    (hne : compound ≠ []) (hreadable : AllReadable compound) :
    text ≠ [] ∧ Stops isBlank text ∧ Stops startsCombined text := by
  cases h with
  | nil => exact absurd rfl hne
  | @cons test _ _ more htest hmore =>
    cases htype : test.isType with
    | true =>
      cases htest with
      | any => exact ⟨nofun, stops_cons.mpr rfl, stops_cons.mpr rfl⟩
      | tag name =>
        obtain ⟨hname, hstart⟩ := hreadable.1
        have hskip {p : Char → Bool} (h : Stops p name.toList) : Stops p (name.toList ++ more) :=
          h.append fun hnil => absurd hnil hname.ne_nil
        refine ⟨fun hnil => hname.ne_nil (List.append_eq_nil_iff.mp hnil).1, hskip hname.stops,
          hskip (hstart.imp fun h => startsCombined_of_isNameStart (by simpa using h))⟩
      | id | className | attr | root | empty | position | formula | not => cases htype
    | false =>
      obtain ⟨c, after, rfl, hc⟩ := htest.exists_cons htype
      obtain rfl | rfl | rfl | rfl := hc <;>
        exact ⟨nofun, stops_cons.mpr rfl, stops_cons.mpr rfl⟩

theorem continuesCompound_of_isBlank {c : Char} (hblank : isBlank c = true)
    (hascii : isBeyondAscii c = false) : continuesCompound c = false := by
  rw [continuesCompound, continuesTest, startsTest, isNameChar_of_isBlank hblank hascii]
  simp only [Bool.false_or, Bool.or_eq_false_iff, beq_eq_false_iff_ne]
  refine ⟨?_, ⟨⟨?_, ?_⟩, ?_⟩, ?_⟩ <;>
    · rintro rfl
      cases hblank

theorem Simple.Written.readType_of_isType {test : Simple} {text after : List Char}
    (h : test.Written text) (hreadable : test.Readable) (htype : test.isType = true)
    (hstops : Stops isNameChar after) : readType (text ++ after) = ([test], after) := by
  cases h with
  | any => rfl
  | tag name =>
    have hname : IsLowerName name := hreadable.1
    have hread : readName (name.toList ++ after) = .ok (name, after) :=
      readName_eq_ok.mpr ⟨rfl, hname.toIsName, hstops⟩
    have hstart : Stops (!isNameStart ·) (name.toList ++ after) :=
      hreadable.2.append fun hnil => absurd hnil hname.ne_nil
    rw [readType_name hstart hread, hname.lower]
  | id | className | attr | root | empty | position | formula | not => cases htype

theorem Simple.Written.readType_eq {test : Simple} {text : List Char} (h : test.Written text)
    (htype : test.isType = false) (after : List Char) :
    readType (text ++ after) = ([], text ++ after) := by
  obtain ⟨c, more, rfl, hc⟩ := h.exists_cons htype
  obtain rfl | rfl | rfl | rfl := hc <;> rfl

section Tests

variable {readTests : List Char → Except Stop (Part Compound)} {compound : Compound}
  {text rest : List Char}

/-- The compound is read if its tests are read. -/
theorem readCompoundBy_written (h : AllWritten compound text) (hne : compound ≠ [])
    (hreadable : AllReadable compound) (hrest : Stops continuesCompound rest)
    (htests : ∀ {tests more}, AllWritten tests more → AllReadable tests →
      (∀ test ∈ tests, test.isType = false) → more.length ≤ text.length →
        readTests (more ++ rest) = .ok (tests, rest)) :
    readCompoundBy readTests (text ++ rest) = .ok (compound, rest) := by
  rw [readCompoundBy_eq_ok]
  cases h with
  | nil => exact absurd rfl hne
  | @cons test tests first more htest hmore =>
    have hbehind : ∀ later ∈ tests, later.isType = false := hreadable.2.1
    cases htype : test.isType with
    | true =>
      have hstops := (stops_written hmore hbehind hrest).name
      rw [List.append_assoc, htest.readType_of_isType hreadable.1 htype hstops]
      exact ⟨tests, htests hmore hreadable.2.2 hbehind (by simp), rfl, hne⟩
    | false =>
      have hall : ∀ test' ∈ test :: tests, test'.isType = false :=
        List.forall_mem_cons.mpr ⟨htype, hbehind⟩
      have hread := htests (.cons htest hmore) hreadable hall (Nat.le_refl _)
      rw [List.append_assoc] at hread ⊢
      rw [htest.readType_eq htype]
      exact ⟨test :: tests, hread, rfl, hne⟩

theorem readWholeBy_written {argument : List Char} (h : AllWritten compound text)
    (hne : compound ≠ []) (hreadable : AllReadable compound) (hargument : Spaced [text] argument)
    (htests : ∀ {tests more rest}, AllWritten tests more → AllReadable tests →
      (∀ test ∈ tests, test.isType = false) → Stops continuesCompound rest →
        more.length ≤ text.length → readTests (more ++ rest) = .ok (tests, rest)) :
    readWholeBy readTests argument = some compound := by
  obtain ⟨htext, hstops, -⟩ := h.starts hne hreadable
  obtain ⟨gap, hgap, hskip⟩ := hargument.skip_cons htext hstops []
  rw [List.append_nil, List.append_nil] at hskip
  have hrest : Stops continuesCompound gap := by
    have hrest := hgap.stops continuesCompound_of_isBlank (stops_nil continuesCompound)
    rwa [List.append_nil] at hrest
  have hread : readCompoundBy readTests (text ++ gap) = .ok (compound, gap) :=
    readCompoundBy_written h hne hreadable hrest fun hwritten hall htype hlength =>
      htests hwritten hall htype hrest hlength
  exact readWholeBy_eq_some.mpr ⟨gap, hskip ▸ hread, hgap.skip_end⟩

end Tests

/-- A test is read behind its sign if compounds inside of `:not()` are. -/
theorem Simple.Written.reads {readCompound? : List Char → Option Compound} {test : Simple}
    {text rest : List Char} (h : test.Written text) (hreadable : test.Readable)
    (htype : test.isType = false) (hrest : Stops continuesTest rest)
    (hread : ReadsWhole readCompound?)
    (hwhole : ∀ {compound inner argument}, AllWritten compound inner → compound ≠ [] →
      AllReadable compound → Spaced [inner] argument → argument.length < text.length →
        readCompound? argument = some compound) :
    ∃ sign after, text = sign :: after ∧
      ReadsTest readCompound? sign (after ++ rest) test rest := by
  cases h with
  | any | tag => cases htype
  | id name =>
    exact ⟨_, _, rfl, .id (readName_eq_ok.mpr ⟨rfl, hreadable, hrest.name⟩)⟩
  | className name =>
    exact ⟨_, _, rfl, .className (readName_eq_ok.mpr ⟨rfl, hreadable, hrest.name⟩)⟩
  | @attr test words text hwords htext =>
    have hattribute := readAttribute_written hreadable hwords htext rest
    refine ⟨'[', text ++ [']'], rfl, .attr ?_⟩
    rw [List.append_assoc]
    exact hattribute
  | root =>
    have hname : IsLowerName "root" := isLowerName_of_mem (by decide)
    exact ⟨_, _, rfl, .pseudoClass (readPseudoClass_plain hname rfl hrest)⟩
  | empty =>
    have hname : IsLowerName "empty" := isLowerName_of_mem (by decide)
    exact ⟨_, _, rfl, .pseudoClass (readPseudoClass_plain hname rfl hrest)⟩
  | @position ofType position hplain =>
    have hname := isLowerName_of_mem (name_mem_pseudoClasses ofType position)
    have hsimple := plainPseudoClass?_name ofType hplain
    exact ⟨_, _, rfl, .pseudoClass (readPseudoClass_plain hname hsimple hrest)⟩
  | @formula ofType position formula argument hformula hargument =>
    have hname := isLowerName_of_mem (name_mem_pseudoClasses ofType position)
    obtain ⟨simple, hsimple, heq⟩ := exists_nthPseudoClass?_name ofType hformula
    have htest : argumentPseudoClass readCompound? (position.name ofType) argument =
        .ok (.position ofType position) :=
      argumentPseudoClass_eq_ok.mpr
        (.inl ⟨simple, formula, hsimple, Nth.read?_of_filter hargument, heq.symm⟩)
    have hpseudo := readPseudoClass_argument hname (Nth.balanced_of_filter hargument) htest rest
    refine ⟨':', (position.name ofType).toList ++ '(' :: argument ++ [')'], rfl, .pseudoClass ?_⟩
    simpa only [List.append_assoc, List.cons_append, List.nil_append] using hpseudo
  | @not compound inner argument hcompound hargument =>
    have hname : IsLowerName "not" := isLowerName_of_mem (by decide)
    obtain ⟨hne, hall, hbalanced⟩ := hreadable
    have hlength : argument.length < (":not(".toList ++ argument ++ [')']).length := by
      simp only [List.length_append, List.length_singleton]
      omega
    have hcompound' := hwhole hcompound hne hall hargument hlength
    have htest : argumentPseudoClass readCompound? "not" argument = .ok (.not compound) :=
      argumentPseudoClass_eq_ok.mpr (.inr ⟨rfl, compound, hcompound', rfl⟩)
    have hnesting := (hread hcompound').2.2.balanced_iff
    have hpseudo := readPseudoClass_argument hname (hnesting.mpr hbalanced) htest rest
    refine ⟨':', "not".toList ++ '(' :: argument ++ [')'], rfl, .pseudoClass ?_⟩
    simpa only [List.append_assoc, List.cons_append, List.nil_append] using hpseudo

/-- The tests of a compound are read one by one. -/
theorem readTests_written {steps : Nat} {tests : Compound} {text rest : List Char}
    (h : AllWritten tests text) (hreadable : AllReadable tests)
    (htype : ∀ test ∈ tests, test.isType = false) (hrest : Stops continuesCompound rest)
    (hlength : text.length ≤ steps) : readTests steps (text ++ rest) = .ok (tests, rest) := by
  -- not on the tests: the argument of `:not()` is read with fewer steps, like the tests behind
  induction steps generalizing tests text rest with
  | zero =>
    cases h with
    | nil => rfl
    | cons htest hmore =>
      obtain ⟨c, after, rfl, -⟩ := htest.exists_cons (htype _ List.mem_cons_self)
      cases hlength
  | succ steps ih =>
    cases h with
    | nil => exact readTests_stops _ hrest.compound.2
    | @cons test tests first more htest hmore =>
      have hstops := stops_written hmore hreadable.2.1 hrest
      rw [List.length_append] at hlength
      have hread : ReadsWhole (readWholeBy (readTests steps)) :=
        readsWhole_readWholeBy readableTests_readTests
      have hwhole {compound : Compound} {inner argument : List Char}
          (hcompound : AllWritten compound inner) (hne : compound ≠ [])
          (hall : AllReadable compound) (hargument : Spaced [inner] argument)
          (hlt : argument.length < first.length) :
          readWholeBy (readTests steps) argument = some compound := by
        have hle := hargument.length_le
        refine readWholeBy_written hcompound hne hall hargument ?_
        intro tests more rest hwritten hall htype hrest hlength
        exact ih hwritten hall htype hrest (by omega)
      obtain ⟨sign, after, rfl, hreads⟩ :=
        htest.reads hreadable.1 (htype test List.mem_cons_self) hstops hread hwhole
      have hmoreRead : readTests steps (more ++ rest) = .ok (tests, rest) := by
        rw [List.length_cons] at hlength
        exact ih hmore hreadable.2.2 hreadable.2.1 hrest (by omega)
      rw [List.append_assoc]
      exact readTests_cons hreads hmoreRead

theorem readCompound_written {compound : Compound} {text rest : List Char}
    (h : AllWritten compound text) (hne : compound ≠ []) (hreadable : AllReadable compound)
    (hrest : Stops continuesCompound rest) :
    readCompound (text ++ rest) = .ok (compound, rest) := by
  refine readCompoundBy_written h hne hreadable hrest fun hwritten hall htype hlength => ?_
  refine readTests_written hwritten hall htype hrest ?_
  rw [List.length_append]
  omega

end HtmlTemplate.Selector
