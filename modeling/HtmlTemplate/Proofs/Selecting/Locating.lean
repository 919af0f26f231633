-- SUMMARY: The place of an unexpected character: nothing behind it has been looked at.
import HtmlTemplate.Proofs.Selecting.Closing

/-!
# Where a selector goes wrong

Readers go through a text from left to right and decide by the next character alone.
`Prompt` says this of a reader: when it stops in front of a character, having read
something or having refused this character, then it has looked at the text before it and
at the character, so that any other text that begins in the same way is read or refused in
the same way. This is closed under reading one part after the other, and has to be shown
only of the readers that look at characters themselves.

The steps that a reader is given depend on the length of the whole text, also on what is
behind the character. Beyond the length of the text they do not matter.
-/

namespace HtmlTemplate.Selector

-- ---------------------------------------------------------------------------
-- Prompt readers
-- ---------------------------------------------------------------------------

/-- How a reader stops in front of what is left of a text. -/
inductive Ending (α : Type) where
  | read (value : α)
  | refused

def Ending.at {α : Type} : Ending α → List Char → Except Stop (Part α)
  | .read value, rest => .ok (value, rest)
  | .refused, rest => stopAt rest

/-- Where the reader stops in front of a character of the text, what is behind this
    character does not matter. -/
def Prompt {α : Type} (read : List Char → Except Stop (Part α)) (text : List Char) : Prop :=
  ∀ (ending : Ending α) c rest, read text = ending.at (c :: rest) →
    ∃ start, text = start ++ c :: rest ∧
      ∀ rest', read (start ++ c :: rest') = ending.at (c :: rest')

namespace Prompt

variable {α β : Type} {read other : List Char → Except Stop (Part α)} {text : List Char}

theorem pure (value : α) (text : List Char) : Prompt (fun text => .ok (value, text)) text := by
  intro ending c rest h
  cases ending with
  | read other =>
    cases h
    exact ⟨[], rfl, fun _ => rfl⟩
  | refused => cases h

theorem stopAt (text : List Char) : Prompt (α := α) Selector.stopAt text := by
  intro ending c rest h
  cases ending with
  | read value => exact absurd h (stopAt_ne_ok _ _)
  | refused =>
    cases text with
    | nil => cases h
    | cons c text =>
      cases h
      exact ⟨[], rfl, fun _ => rfl⟩

/-- A reader that comes to the end, or stops for a reason of its own. -/
theorem of_ne (h : ∀ (ending : Ending α) c rest, read text ≠ ending.at (c :: rest)) :
    Prompt read text :=
  fun ending c rest heq => absurd heq (h ending c rest)

theorem of_error {stop : Stop} (h : read text = .error stop)
    (hstop : ∀ c rest, stop ≠ .unexpected c rest) : Prompt read text := by
  refine of_ne fun ending c rest heq => ?_
  rw [h] at heq
  cases ending with
  | read value => cases heq
  | refused => exact hstop c rest (Except.error.inj heq)

/-- Of a text that has no characters nothing is left. -/
theorem empty (h : Prompt other []) (heq : read [] = other []) : Prompt read [] := by
  refine of_ne fun ending c rest hread => ?_
  obtain ⟨start, hnil, -⟩ := h ending c rest (heq ▸ hread)
  exact absurd hnil.symm (List.append_ne_nil_of_right_ne_nil _ (List.cons_ne_nil _ _))

theorem nil (h : read [] = .error .atEnd) : Prompt read [] :=
  of_error h nofun

theorem congr (h : Prompt other text) (heq : ∀ text, read text = other text) :
    Prompt read text := by
  have hfun : read = other := funext heq
  rwa [hfun]

/-- A reader that goes by the next character, and reads the text from there on. -/
theorem whole {c : Char} (h : Prompt other (c :: text))
    (heq : ∀ text, read (c :: text) = other (c :: text)) : Prompt read (c :: text) := by
  intro ending found rest hread
  obtain ⟨start, htext, hothers⟩ := h ending found rest ((heq text).symm.trans hread)
  refine ⟨start, htext, fun rest' => ?_⟩
  cases start with
  | nil =>
    cases htext
    exact (heq rest').trans (hothers rest')
  | cons _ start =>
    cases htext
    exact (heq _).trans (hothers rest')

/-- A reader that goes by the next character, and reads the text behind it. -/
theorem after {c : Char} (h : Prompt other text) (heq : ∀ text, read (c :: text) = other text) :
    Prompt read (c :: text) := by
  intro ending found rest hread
  obtain ⟨start, rfl, hothers⟩ := h ending found rest ((heq text).symm.trans hread)
  exact ⟨c :: start, rfl, fun rest' => (heq _).trans (hothers rest')⟩

/-- One reader goes on where another one has stopped. -/
theorem bind {k : α → List Char → Except Stop (Part β)} (h : Prompt read text)
    (hnext : ∀ value mid, read text = .ok (value, mid) → Prompt (k value) mid) :
    Prompt (fun text => read text >>= fun part => k part.1 part.2) text := by
  intro ending c rest heq
  dsimp only at heq ⊢
  cases hread : read text with
  | error stop =>
    rw [hread] at heq
    cases ending with
    | read value => cases heq
    | refused =>
      obtain rfl : stop = .unexpected c rest := Except.error.inj heq
      obtain ⟨start, htext, hothers⟩ := h .refused c rest hread
      refine ⟨start, htext, fun rest' => ?_⟩
      rw [hothers rest']
      rfl
  | ok part =>
    obtain ⟨value, mid⟩ := part
    rw [hread] at heq
    obtain ⟨inside, rfl, hinside⟩ := hnext value mid hread ending c rest heq
    -- The first reader has stopped in front of the first character that the second one saw.
    have hmid : ∃ d more, inside ++ c :: rest = d :: more ∧
        ∀ rest', ∃ more', inside ++ c :: rest' = d :: more' := by
      cases inside with
      | nil => exact ⟨c, rest, rfl, fun rest' => ⟨rest', rfl⟩⟩
      | cons d inside => exact ⟨d, _, rfl, fun rest' => ⟨_, rfl⟩⟩
    obtain ⟨d, more, hmore, hothers⟩ := hmid
    obtain ⟨start, rfl, hstart⟩ := h (.read value) d more (hmore ▸ hread)
    refine ⟨start ++ inside, by rw [List.append_assoc, hmore], fun rest' => ?_⟩
    obtain ⟨more', hmore'⟩ := hothers rest'
    have hread' : read (start ++ inside ++ c :: rest') = .ok (value, inside ++ c :: rest') := by
      rw [List.append_assoc, hmore']
      exact hstart more'
    rw [hread']
    exact hinside rest'

theorem map {f : α → β} (h : Prompt read text) :
    Prompt (fun text => (read text).map fun part => (f part.1, part.2)) text := by
  have hbind : Prompt (fun text => read text >>= fun part => .ok (f part.1, part.2)) text :=
    h.bind fun value mid _ => pure (f value) mid
  have heq : (fun text => (read text).map fun part => (f part.1, part.2)) =
      fun text => read text >>= fun part => .ok (f part.1, part.2) := by
    funext text
    cases read text <;> rfl
  rwa [heq]

/-- Blanks are skipped up to a character that is none. -/
theorem skipBlanks (h : Prompt read (skipBlanks text)) :
    Prompt (fun text => read (Selector.skipBlanks text)) text := by
  have hskip : Prompt (fun text => .ok ((), Selector.skipBlanks text)) text := by
    intro ending c rest heq
    cases ending with
    | refused => cases heq
    | read value =>
      have hrest : Selector.skipBlanks text = c :: rest := congrArg Prod.snd (Except.ok.inj heq)
      have hblanks : ∀ c ∈ text.takeWhile isBlank, isBlank c = true :=
        List.all_eq_true.mp List.all_takeWhile
      have hstops : Stops isBlank (Selector.skipBlanks text) := stops_dropWhile isBlank text
      rw [hrest, stops_cons] at hstops
      refine ⟨text.takeWhile isBlank, ?_, fun rest' => ?_⟩
      · rw [← hrest]
        exact List.takeWhile_append_dropWhile.symm
      · have hskip' : Selector.skipBlanks (text.takeWhile isBlank ++ c :: rest') = c :: rest' :=
          dropWhile_append hblanks (stops_cons.mpr hstops)
        exact congrArg (fun rest => Except.ok ((), rest)) hskip'
  refine hskip.bind (k := fun _ => read) fun value mid hmid => ?_
  cases hmid
  exact h

/-- What is left is no longer than the text. -/
theorem length_le {value : α} {rest : List Char} (h : Prompt read text)
    (hread : read text = .ok (value, rest)) : rest.length ≤ text.length := by
  cases rest with
  | nil => exact Nat.zero_le _
  | cons c rest =>
    obtain ⟨start, rfl, -⟩ := h (.read value) c rest hread
    rw [List.length_append]
    exact Nat.le_add_left _ _

end Prompt

-- ---------------------------------------------------------------------------
-- Names and attributes
-- ---------------------------------------------------------------------------

theorem prompt_readName (text : List Char) : Prompt readName text := by
  cases text with
  | nil => exact .nil rfl
  | cons first text =>
    by_cases hfirst : isNameChar first = true
    · intro ending c rest h
      cases ending with
      | read name =>
        obtain ⟨htext, hname, hrest⟩ := readName_eq_ok.mp h
        refine ⟨name.toList, htext, fun rest' => ?_⟩
        exact readName_eq_ok.mpr ⟨rfl, hname, stops_cons.mpr (stops_cons.mp hrest)⟩
      | refused =>
        rw [readName, List.takeWhile_cons_of_pos hfirst] at h
        cases h
    · refine (Prompt.stopAt (first :: text)).whole fun text => ?_
      rw [readName, List.takeWhile_cons_of_neg hfirst]

/-- What has to follow the sign of an operator. -/
def readEquals (operator : Operator) (text : List Char) : Except Stop (Part (Option Operator)) :=
  match text with
  | '=' :: rest => .ok (some operator, rest)
  | _ => stopAt text

theorem readOperator_of_sign {sign : Char} {operator : Operator}
    (h : operatorOfSign? sign = some operator) (text : List Char) :
    readOperator (sign :: text) = readEquals operator text := by
  unfold readOperator readEquals
  split
  next heq => cases heq; cases h
  next heq => cases heq; cases h
  next heq =>
    cases heq
    rw [h]
    split <;> simp_all
  next heq => cases heq

theorem prompt_readEquals (operator : Operator) (text : List Char) :
    Prompt (readEquals operator) text := by
  cases text with
  | nil => exact .nil rfl
  | cons next text =>
    by_cases hnext : next = '='
    · subst hnext
      exact (Prompt.pure (some operator) text).after fun _ => rfl
    · refine (Prompt.stopAt (next :: text)).whole fun text => ?_
      simp [readEquals, hnext]

theorem prompt_readOperator (text : List Char) : Prompt readOperator text := by
  cases text with
  | nil => exact .nil rfl
  | cons sign text =>
    by_cases hclose : sign = ']'
    · subst hclose
      exact (Prompt.pure none (']' :: text)).whole fun _ => rfl
    by_cases hequals : sign = '='
    · subst hequals
      exact (Prompt.pure (some .equals) text).after fun _ => rfl
    cases hsign : operatorOfSign? sign with
    | none =>
      refine (Prompt.stopAt (sign :: text)).whole fun text => ?_
      simp [readOperator, hsign]
    | some operator =>
      exact (prompt_readEquals operator text).after (readOperator_of_sign hsign)

theorem map_eq_stopAt {α β : Type} {part : Except Stop (Part α)} {change : Part α → Part β}
    {c : Char} {rest : List Char} (h : part.map change = stopAt (c :: rest)) :
    part = stopAt (c :: rest) := by
  cases part with
  | ok part => cases h
  | error stop => exact congrArg Except.error (Except.error.inj h)

theorem readQuoted_ne_stopAt (quote : Char) (text : List Char) {c : Char} {rest : List Char} :
    readQuoted quote text ≠ stopAt (c :: rest) := by
  induction text with
  | nil => rintro ⟨⟩
  | cons d text ih =>
    unfold readQuoted
    split
    · rintro ⟨⟩
    · exact fun h => ih (map_eq_stopAt h)

theorem prompt_readQuoted (quote : Char) (text : List Char) :
    Prompt (readQuoted quote) text := by
  intro ending c rest h
  cases ending with
  | read inside =>
    obtain ⟨rfl, hfree⟩ := readQuoted_eq_ok.mp h
    refine ⟨inside ++ [quote], by simp, fun rest' => ?_⟩
    exact readQuoted_eq_ok.mpr ⟨by simp, hfree⟩
  | refused => exact absurd h (readQuoted_ne_stopAt quote text)

theorem prompt_readOperand (text : List Char) : Prompt readOperand text := by
  cases text with
  | nil => exact .nil rfl
  | cons c text =>
    by_cases hdouble : c = '"'
    · subst hdouble
      exact (prompt_readQuoted '"' text).map.after fun _ => rfl
    by_cases hsingle : c = '\''
    · subst hsingle
      exact (prompt_readQuoted '\'' text).map.after fun _ => rfl
    · refine (prompt_readName (c :: text)).whole fun text => ?_
      simp [readOperand, hdouble, hsingle]

theorem prompt_readFlag (text : List Char) : Prompt (fun text => .ok (readFlag text)) text := by
  cases text with
  | nil => exact .of_ne fun ending c rest h => by cases ending <;> cases h
  | cons c text =>
    have hskip (flag : Bool) : Prompt (fun text => .ok (flag, skipBlanks text)) text :=
      .skipBlanks (.pure flag _)
    by_cases hsmall : c = 'i'
    · subst hsmall
      exact (hskip true).after fun _ => rfl
    by_cases hcapital : c = 'I'
    · subst hcapital
      exact (hskip true).after fun _ => rfl
    · refine (Prompt.pure false (c :: text)).whole fun text => ?_
      simp [readFlag, hsmall, hcapital]

theorem prompt_readBracket (test : AttributeTest) (text : List Char) :
    Prompt (readBracket test) text := by
  cases text with
  | nil => exact .nil rfl
  | cons c text =>
    by_cases hclose : c = ']'
    · subst hclose
      exact (Prompt.pure test text).after fun _ => rfl
    · refine (Prompt.stopAt (c :: text)).whole fun text => ?_
      simp [readBracket, hclose]

/-- What is read behind the operand of an attribute test. -/
def readTestEnd (name : String) (operator : Operator) (operand : String) (text : List Char) :
    Except Stop (Part AttributeTest) :=
  let flag := readFlag (skipBlanks text)
  readBracket { name, comparison := some (operator, operand), ignoreCase := flag.1 } flag.2

/-- What is read behind the name of an attribute test and its operator. -/
def readComparison (name : String) (operator : Option Operator) (text : List Char) :
    Except Stop (Part AttributeTest) :=
  match operator with
  | none => readBracket { name } text
  | some operator =>
    readOperand (skipBlanks text) >>= fun part => readTestEnd name operator part.1 part.2

theorem readAttribute_eq (text : List Char) :
    readAttribute text = (readName (skipBlanks text) >>= fun name =>
      readOperator (skipBlanks name.2) >>= fun operator =>
        readComparison (asciiLower name.1) operator.1 operator.2) := by
  refine bind_congr fun name => bind_congr fun ⟨operator, rest⟩ => ?_
  cases operator <;> rfl

theorem prompt_readTestEnd (name : String) (operator : Operator) (operand : String)
    (text : List Char) : Prompt (readTestEnd name operator operand) text :=
  Prompt.bind (k := fun flag =>
      readBracket { name, comparison := some (operator, operand), ignoreCase := flag })
    (.skipBlanks (prompt_readFlag _)) fun _ _ _ => prompt_readBracket _ _

theorem prompt_readComparison (name : String) (operator : Option Operator) (text : List Char) :
    Prompt (readComparison name operator) text := by
  cases operator with
  | none => exact prompt_readBracket _ _
  | some operator =>
    exact (Prompt.skipBlanks (prompt_readOperand _)).bind (k := readTestEnd name operator)
      fun _ _ _ => prompt_readTestEnd _ _ _ _

theorem prompt_readAttribute (text : List Char) : Prompt readAttribute text := by
  refine Prompt.congr ?_ readAttribute_eq
  refine (Prompt.skipBlanks (prompt_readName _)).bind
    (k := fun name text => readOperator (skipBlanks text) >>= fun operator =>
      readComparison (asciiLower name) operator.1 operator.2) fun name afterName _ => ?_
  exact (Prompt.skipBlanks (prompt_readOperator _)).bind
    (k := readComparison (asciiLower name)) fun _ _ _ => prompt_readComparison _ _ _

-- ---------------------------------------------------------------------------
-- Pseudo-classes
-- ---------------------------------------------------------------------------

theorem readArgument_ne_stopAt (depth : Nat) (text : List Char) {c : Char} {rest : List Char} :
    readArgument depth text ≠ stopAt (c :: rest) := by
  induction text generalizing depth with
  | nil => nofun
  | cons d text ih =>
    have hmore (depth : Nat) : (readArgument depth text).map
        (fun part => (d :: part.1, part.2)) ≠ stopAt (c :: rest) := by
      intro h
      exact ih depth (map_eq_stopAt h)
    unfold readArgument
    split
    · nofun
    all_goals exact hmore _

theorem prompt_readArgument (depth : Nat) (text : List Char) :
    Prompt (readArgument depth) text := by
  intro ending c rest h
  cases ending with
  | read argument =>
    obtain ⟨rfl, hargument⟩ := readArgument_eq_ok.mp h
    refine ⟨argument ++ [')'], by simp, fun rest' => ?_⟩
    exact readArgument_eq_ok.mpr ⟨by simp, hargument⟩
  | refused => exact absurd h (readArgument_ne_stopAt depth text)

/-- An argument is refused as a whole. -/
theorem argumentPseudoClass_ne_unexpected {readCompound? : List Char → Option Compound}
    {name : String} {argument : List Char} {stop : Stop}
    (h : argumentPseudoClass readCompound? name argument = .error stop) (c : Char)
    (rest : List Char) : stop ≠ .unexpected c rest := by
  rintro rfl
  unfold argumentPseudoClass at h
  cases hnth : nthPseudoClass? name with
  | some simple =>
    rw [hnth] at h
    cases hformula : Nth.read? (String.ofList argument) with
    | none => rw [hformula] at h; cases h
    | some formula => rw [hformula] at h; cases h
  | none =>
    rw [hnth] at h
    dsimp only at h
    split at h
    · cases hcompound : readCompound? argument with
      | none => rw [hcompound] at h; cases h
      | some compound => rw [hcompound] at h; cases h
    · cases h

/-- What a pseudo-class of a name alone is read as. -/
def readPlain (name : String) (text : List Char) : Except Stop (Part Simple) :=
  match plainPseudoClass? name with
  | some simple => .ok (simple, text)
  | none => .error (.unsupportedPseudoClass name)

theorem prompt_readPlain (name : String) (text : List Char) : Prompt (readPlain name) text := by
  cases hplain : plainPseudoClass? name with
  | some simple => exact (Prompt.pure simple text).congr fun text => by rw [readPlain, hplain]
  | none =>
    have herror : readPlain name text = .error (.unsupportedPseudoClass name) := by
      rw [readPlain, hplain]
    exact .of_error herror nofun

section PseudoClass

variable (readCompound? : List Char → Option Compound)

/-- What is read as the test of an argument. -/
def readArgumentTest (name : String) (argument text : List Char) : Except Stop (Part Simple) :=
  (argumentPseudoClass readCompound? name argument).map fun simple => (simple, text)

theorem prompt_readArgumentTest (name : String) (argument text : List Char) :
    Prompt (readArgumentTest readCompound? name argument) text := by
  cases hread : argumentPseudoClass readCompound? name argument with
  | ok simple =>
    exact (Prompt.pure simple text).congr fun text => by rw [readArgumentTest, hread]; rfl
  | error stop =>
    exact .of_error (by rw [readArgumentTest, hread]; rfl) (argumentPseudoClass_ne_unexpected hread)

/-- What is read behind the name of a pseudo-class. -/
def readNamed (name : String) (text : List Char) : Except Stop (Part Simple) :=
  match text with
  | '(' :: rest =>
    readArgument 0 rest >>= fun part => readArgumentTest readCompound? name part.1 part.2
  | _ => readPlain name text

theorem readNamed_of_ne (name : String) {text : List Char} (h : ∀ rest, text ≠ '(' :: rest) :
    readNamed readCompound? name text = readPlain name text := by
  unfold readNamed
  split
  next rest => exact absurd rfl (h rest)
  next => rfl

theorem prompt_readNamed (name : String) (text : List Char) :
    Prompt (readNamed readCompound? name) text := by
  have hargument (text : List Char) : Prompt (fun text => readArgument 0 text >>= fun part =>
      readArgumentTest readCompound? name part.1 part.2) text :=
    (prompt_readArgument 0 text).bind fun _ _ _ => prompt_readArgumentTest _ _ _ _
  cases text with
  | nil => exact (prompt_readPlain name []).empty rfl
  | cons c text =>
    by_cases hopen : c = '('
    · subst hopen
      exact (hargument text).after fun _ => rfl
    · exact (prompt_readPlain name (c :: text)).whole fun text =>
        readNamed_of_ne _ _ fun rest heq => hopen (List.cons_eq_cons.mp heq).1

theorem readPseudoClass_eq (first : Char) (hfirst : first ≠ ':') (text : List Char) :
    readPseudoClass readCompound? (first :: text) = (readName (first :: text) >>= fun name =>
      readNamed readCompound? (asciiLower name.1) name.2) := by
  unfold readPseudoClass
  split
  next heq => exact absurd (List.cons_eq_cons.mp heq).1 hfirst
  refine bind_congr fun ⟨name, rest⟩ => ?_
  dsimp only
  split
  · refine bind_congr fun ⟨argument, rest⟩ => ?_
    unfold readArgumentTest
    cases argumentPseudoClass readCompound? (asciiLower name) argument <;> rfl
  next hopen =>
    rw [readNamed_of_ne _ _ hopen, readPlain]
    cases plainPseudoClass? (asciiLower name) <;> rfl

theorem prompt_readPseudoClass (text : List Char) :
    Prompt (readPseudoClass readCompound?) text := by
  cases text with
  | nil => exact .nil rfl
  | cons c text =>
    by_cases hcolon : c = ':'
    · subst hcolon
      exact .of_error rfl nofun
    · have hname : Prompt (fun text => readName text >>= fun name =>
          readNamed readCompound? (asciiLower name.1) name.2) (c :: text) :=
        (prompt_readName _).bind (k := fun name => readNamed readCompound? (asciiLower name))
          fun _ _ _ => prompt_readNamed _ _ _
      exact hname.whole (readPseudoClass_eq readCompound? c hcolon)

end PseudoClass

-- ---------------------------------------------------------------------------
-- Tests
-- ---------------------------------------------------------------------------

/-- A step goes on in the same way if it goes on in the same way from what was read. -/
theorem bind_congr_ok {α β : Type} {part : Except Stop α} {next next' : α → Except Stop β}
    (h : ∀ value, part = .ok value → next value = next' value) :
    part >>= next = part >>= next' := by
  cases part with
  | error stop => rfl
  | ok value => exact h value rfl

/-- One test behind the type of a compound, by the sign that it starts with. -/
def readTest (readCompound? : List Char → Option Compound) (sign : Char) (text : List Char) :
    Except Stop (Part Simple) :=
  match sign with
  | '#' => (readName text).map fun part => (.id part.1, part.2)
  | '.' => (readName text).map fun part => (.className part.1, part.2)
  | '[' => (readAttribute text).map fun part => (.attr part.1, part.2)
  | _ => readPseudoClass readCompound? text

theorem readTests_succ (steps : Nat) {sign : Char} (hsign : startsTest sign = true)
    (text : List Char) :
    readTests (steps + 1) (sign :: text) =
      (readTest (readWholeBy (readTests steps)) sign text >>= fun test =>
        (readTests steps test.2).map fun tests => (test.1 :: tests.1, tests.2)) := by
  simp only [startsTest, Bool.or_eq_true, beq_iff_eq, or_assoc] at hsign
  obtain rfl | rfl | rfl | rfl := hsign
  · cases hread : readName text <;> simp [readTests, readTest, hread, bind, Except.bind, Except.map]
  · cases hread : readName text <;> simp [readTests, readTest, hread, bind, Except.bind, Except.map]
  · cases hread : readAttribute text <;>
      simp [readTests, readTest, hread, bind, Except.bind, Except.map]
  · rfl

theorem prompt_readTest (readCompound? : List Char → Option Compound) (sign : Char)
    (text : List Char) : Prompt (readTest readCompound? sign) text := by
  unfold readTest
  split
  · exact (prompt_readName text).map
  · exact (prompt_readName text).map
  · exact (prompt_readAttribute text).map
  · exact prompt_readPseudoClass readCompound? text

/-! ## Steps -/

section Steps

variable {readCompound? readCompound?' : List Char → Option Compound}

/-- Arguments are shorter than the text that they are cut out of. -/
theorem readTest_congr {sign : Char} {text : List Char}
    (h : ∀ argument, argument.length < text.length →
      readCompound? argument = readCompound?' argument) :
    readTest readCompound? sign text = readTest readCompound?' sign text := by
  have hpseudo : readPseudoClass readCompound? text = readPseudoClass readCompound?' text := by
    cases text with
    | nil => rfl
    | cons first text =>
      by_cases hcolon : first = ':'
      · subst hcolon
        rfl
      rw [readPseudoClass_eq _ _ hcolon, readPseudoClass_eq _ _ hcolon]
      refine bind_congr_ok fun ⟨name, rest⟩ hname => ?_
      have hrest := (prompt_readName _).length_le hname
      dsimp only
      unfold readNamed
      split
      · refine bind_congr_ok fun ⟨argument, after⟩ hargument => ?_
        have hlt : argument.length < (first :: text).length := by
          rw [(readArgument_eq_ok.mp hargument).1] at hrest
          simp only [List.length_cons, List.length_append] at hrest ⊢
          omega
        unfold readArgumentTest argumentPseudoClass
        rw [h argument hlt]
      · rfl
  unfold readTest
  split
  · rfl
  · rfl
  · rfl
  · exact hpseudo

variable {readTests readTests' : List Char → Except Stop (Part Compound)}

/-- What is done with the tests of a compound: there has to be one. -/
def readCompoundEnd (typeTest tests : Compound) (text : List Char) :
    Except Stop (Part Compound) :=
  match typeTest ++ tests with
  | [] => stopAt text
  | compound => .ok (compound, text)

theorem readCompoundBy_eq (readTests : List Char → Except Stop (Part Compound))
    (text : List Char) :
    readCompoundBy readTests text = (readTests (readType text).2 >>= fun tests =>
      readCompoundEnd (readType text).1 tests.1 tests.2) := by
  unfold readCompoundBy
  generalize readType text = part
  refine bind_congr fun ⟨tests, rest⟩ => ?_
  dsimp only
  unfold readCompoundEnd
  cases part.1 ++ tests <;> rfl

theorem readCompoundBy_congr {text : List Char}
    (h : ∀ part, part.length ≤ text.length → readTests part = readTests' part) :
    readCompoundBy readTests text = readCompoundBy readTests' text := by
  rw [readCompoundBy_eq, readCompoundBy_eq, h _ (length_readType_le text)]

theorem readWholeBy_congr {text : List Char}
    (h : ∀ part, part.length ≤ text.length → readTests part = readTests' part) :
    readWholeBy readTests text = readWholeBy readTests' text := by
  have hskip := (leaves_skipBlanks text).length_le
  unfold readWholeBy
  rw [readCompoundBy_congr fun part hpart => h part (Nat.le_trans hpart hskip)]

end Steps

/-- As many steps as characters are enough, and more change nothing. -/
theorem readTests_steps {steps steps' : Nat} {text : List Char} (h : text.length ≤ steps)
    (h' : text.length ≤ steps') : readTests steps text = readTests steps' text := by
  induction steps generalizing steps' text with
  | zero =>
    obtain rfl := List.length_eq_zero_iff.mp (Nat.le_zero.mp h)
    rw [readTests_stops _ (stops_nil _), readTests_stops _ (stops_nil _)]
  | succ steps ih =>
    cases text with
    | nil => rw [readTests_stops _ (stops_nil _), readTests_stops _ (stops_nil _)]
    | cons sign text =>
      cases hsign : startsTest sign with
      | false =>
        rw [readTests_stops _ (stops_cons.mpr hsign), readTests_stops _ (stops_cons.mpr hsign)]
      | true =>
        obtain ⟨steps', rfl⟩ : ∃ n, steps' = n + 1 := ⟨steps' - 1, by simp at h'; omega⟩
        simp only [List.length_cons, Nat.add_le_add_iff_right] at h h'
        have hwhole (argument : List Char) (hargument : argument.length < text.length) :
            readWholeBy (readTests steps) argument = readWholeBy (readTests steps') argument :=
          readWholeBy_congr fun part hpart => ih (by omega) (by omega)
        rw [readTests_succ _ hsign, readTests_succ _ hsign, readTest_congr hwhole]
        refine bind_congr_ok fun ⟨test, mid⟩ htest => ?_
        have hmid := (prompt_readTest _ sign text).length_le htest
        have hless : mid.length ≤ steps := Nat.le_trans hmid h
        have hless' : mid.length ≤ steps' := Nat.le_trans hmid h'
        dsimp only
        rw [ih hless hless']

/-- The tests behind a type, in as many steps as it takes. -/
def readAllTests (text : List Char) : Except Stop (Part Compound) := readTests text.length text

theorem readAllTests_cons {sign : Char} (hsign : startsTest sign = true) (text : List Char) :
    readAllTests (sign :: text) =
      (readTest (readWholeBy readAllTests) sign text >>= fun test =>
        (readAllTests test.2).map fun tests => (test.1 :: tests.1, tests.2)) := by
  have hwhole (argument : List Char) (hargument : argument.length < text.length) :
      readWholeBy (readTests text.length) argument = readWholeBy readAllTests argument :=
    readWholeBy_congr fun part hpart => readTests_steps (by omega) (Nat.le_refl _)
  rw [readAllTests, List.length_cons, readTests_succ _ hsign, readTest_congr hwhole]
  refine bind_congr_ok fun ⟨test, mid⟩ htest => ?_
  have hmid := (prompt_readTest _ sign text).length_le htest
  dsimp only
  rw [readTests_steps hmid (Nat.le_refl _), readAllTests]

theorem prompt_readAllTests (text : List Char) : Prompt readAllTests text := by
  -- Each test takes a character at least.
  induction hlength : text.length using Nat.strongRecOn generalizing text with
  | _ length ih =>
    cases text with
    | nil => exact (Prompt.pure [] []).empty rfl
    | cons sign text =>
      cases hsign : startsTest sign with
      | false =>
        exact (Prompt.pure [] (sign :: text)).whole fun text =>
          readTests_stops _ (stops_cons.mpr hsign)
      | true =>
        have htests : Prompt (fun text => readTest (readWholeBy readAllTests) sign text >>=
            fun test => (readAllTests test.2).map fun tests => (test.1 :: tests.1, tests.2))
            text := by
          refine (prompt_readTest _ sign text).bind (k := fun test text =>
            (readAllTests text).map fun tests => (test :: tests.1, tests.2)) fun test mid h => ?_
          have hmid := (prompt_readTest _ sign text).length_le h
          exact (ih mid.length (by simp at hlength; omega) mid rfl).map
        exact htests.after (readAllTests_cons hsign)

-- ---------------------------------------------------------------------------
-- Compounds and alternatives
-- ---------------------------------------------------------------------------

theorem prompt_readType (text : List Char) : Prompt (fun text => .ok (readType text)) text := by
  cases text with
  | nil => exact (Prompt.pure [] []).empty rfl
  | cons c text =>
    by_cases hany : c = '*'
    · subst hany
      exact (Prompt.pure [.any] text).after fun _ => rfl
    cases hstart : isNameStart c with
    | true =>
      refine ((prompt_readName (c :: text)).map
        (f := fun name => [.tag (asciiLower name)])).whole fun text => ?_
      obtain ⟨⟨name, rest⟩, hname⟩ := readName_of_isNameStart hstart text
      have hstops : Stops (!isNameStart ·) (c :: text) := stops_cons.mpr (by rw [hstart]; rfl)
      rw [readType_name hstops hname, hname]
      rfl
    | false =>
      refine (Prompt.pure [] (c :: text)).whole fun text => ?_
      rw [readType_stops (stops_cons.mpr (by simp [startsType, hany, hstart]))]

theorem prompt_readCompoundEnd (typeTest tests : Compound) (text : List Char) :
    Prompt (readCompoundEnd typeTest tests) text := by
  unfold readCompoundEnd
  cases typeTest ++ tests with
  | nil => exact .stopAt text
  | cons test more => exact .pure _ text

theorem readCompound_eq (text : List Char) :
    readCompound text = (readAllTests (readType text).2 >>= fun tests =>
      readCompoundEnd (readType text).1 tests.1 tests.2) := by
  rw [readCompound, readCompoundBy_congr fun part hpart => readTests_steps hpart (Nat.le_refl _),
    readCompoundBy_eq]
  rfl

theorem prompt_readCompound (text : List Char) : Prompt readCompound text := by
  refine Prompt.congr ?_ readCompound_eq
  refine (prompt_readType text).bind (k := fun typeTest text =>
    readAllTests text >>= fun tests => readCompoundEnd typeTest tests.1 tests.2) fun _ mid _ => ?_
  exact (prompt_readAllTests mid).bind (k := readCompoundEnd _)
    fun _ _ _ => prompt_readCompoundEnd _ _ _

section Combined

/-- The compound behind a combinator, and what `next` reads from there on. -/
def readCombinedWith (next : Complex → List Char → Except Stop (Part Complex)) (left : Complex)
    (combinator : Combinator) (text : List Char) : Except Stop (Part Complex) :=
  readCompound text >>= fun subject => next (left.combined combinator subject.1) subject.2

/-- What an alternative goes on with, where blanks have been skipped. -/
def readCombinedBy (next : Complex → List Char → Except Stop (Part Complex)) (spaced : Bool)
    (left : Complex) (text : List Char) : Except Stop (Part Complex) :=
  match text with
  | [] => .ok (left, [])
  | c :: rest =>
    if c = ',' then .ok (left, c :: rest)
    else match combinatorOfSign? c with
      | some combinator => readCombinedWith next left combinator (skipBlanks rest)
      | none => if spaced then readCombinedWith next left .descendant text else stopAt text

theorem readCombined_succ (steps : Nat) (left : Complex) (text : List Char) :
    readCombined (steps + 1) left text =
      readCombinedBy (readCombined steps) (decide ((skipBlanks text).length < text.length)) left
        (skipBlanks text) := by
  unfold readCombined readCombinedBy
  cases skipBlanks text with
  | nil => rfl
  | cons c rest => simp only [List.length_cons, decide_eq_true_eq]; rfl

theorem readCombined_blank (steps : Nat) (left : Complex) {c : Char} (h : isBlank c = true)
    (text : List Char) :
    readCombined (steps + 1) left (c :: text) =
      readCombinedBy (readCombined steps) true left (skipBlanks text) := by
  have hskip : skipBlanks (c :: text) = skipBlanks text := List.dropWhile_cons_of_pos h
  have hlength := (leaves_skipBlanks text).length_le
  rw [readCombined_succ, hskip, decide_eq_true (by rw [List.length_cons]; omega)]

theorem readCombined_plain (steps : Nat) (left : Complex) {c : Char} (h : isBlank c = false)
    (text : List Char) :
    readCombined (steps + 1) left (c :: text) =
      readCombinedBy (readCombined steps) false left (c :: text) := by
  have hskip : skipBlanks (c :: text) = c :: text := List.dropWhile_cons_of_neg (by simp [h])
  rw [readCombined_succ, hskip, decide_eq_false (Nat.lt_irrefl _)]

variable {next next' : Complex → List Char → Except Stop (Part Complex)}

theorem readCombinedWith_congr {text : List Char} {left : Complex} {combinator : Combinator}
    (h : ∀ left part, part.length ≤ text.length → next left part = next' left part) :
    readCombinedWith next left combinator text = readCombinedWith next' left combinator text :=
  bind_congr_ok fun _ hsubject => h _ _ ((prompt_readCompound text).length_le hsubject)

theorem readCombinedBy_congr {spaced : Bool} {left : Complex} {text : List Char} {length : Nat}
    (hlength : text.length ≤ length + 1) (hspaced : spaced = true → text.length ≤ length)
    (h : ∀ left part, part.length ≤ length → next left part = next' left part) :
    readCombinedBy next spaced left text = readCombinedBy next' spaced left text := by
  unfold readCombinedBy
  split
  · rfl
  next c rest =>
    split
    · rfl
    split
    · have hskip := (leaves_skipBlanks rest).length_le
      rw [List.length_cons] at hlength
      exact readCombinedWith_congr fun left part hpart => h left part (by omega)
    · split
      next hspace =>
        have hrest := hspaced hspace
        exact readCombinedWith_congr fun left part hpart => h left part (by omega)
      · rfl

theorem readCombined_steps {steps steps' : Nat} {left : Complex} {text : List Char}
    (h : text.length ≤ steps) (h' : text.length ≤ steps') :
    readCombined steps left text = readCombined steps' left text := by
  induction steps generalizing steps' left text with
  | zero =>
    obtain rfl := List.length_eq_zero_iff.mp (Nat.le_zero.mp h)
    cases steps' <;> rfl
  | succ steps ih =>
    cases text with
    | nil => cases steps' <;> rfl
    | cons c text =>
      obtain ⟨steps', rfl⟩ : ∃ n, steps' = n + 1 := ⟨steps' - 1, by simp at h'; omega⟩
      simp only [List.length_cons, Nat.add_le_add_iff_right] at h h'
      have hnext (left : Complex) (part : List Char) (hpart : part.length ≤ text.length) :
          readCombined steps left part = readCombined steps' left part :=
        ih (by omega) (by omega)
      have hskip := (leaves_skipBlanks text).length_le
      cases hc : isBlank c with
      | true =>
        rw [readCombined_blank _ _ hc, readCombined_blank _ _ hc]
        exact readCombinedBy_congr (by omega) (fun _ => hskip) hnext
      | false =>
        rw [readCombined_plain _ _ hc, readCombined_plain _ _ hc]
        exact readCombinedBy_congr (Nat.le_refl _) nofun hnext

/-- What is combined with an alternative, in as many steps as it takes. -/
def readAllCombined (left : Complex) (text : List Char) : Except Stop (Part Complex) :=
  readCombined text.length left text

theorem prompt_readCombinedBy {spaced : Bool} (left : Complex) {text : List Char} {length : Nat}
    (hlength : text.length ≤ length + 1) (hspaced : spaced = true → text.length ≤ length)
    (h : ∀ left part, part.length ≤ length → Prompt (next left) part) :
    Prompt (readCombinedBy next spaced left) text := by
  have hwith (combinator : Combinator) (text : List Char) (htext : text.length ≤ length) :
      Prompt (readCombinedWith next left combinator) text := by
    refine (prompt_readCompound text).bind (k := fun subject =>
      next (left.combined combinator subject)) fun subject mid hsubject => ?_
    have hmid := (prompt_readCompound text).length_le hsubject
    exact h _ _ (by omega)
  cases text with
  | nil => exact (Prompt.pure left []).empty rfl
  | cons c text =>
    by_cases hcomma : c = ','
    · subst hcomma
      exact (Prompt.pure left (',' :: text)).whole fun _ => rfl
    cases hsign : combinatorOfSign? c with
    | some combinator =>
      have hskip := (leaves_skipBlanks text).length_le
      rw [List.length_cons] at hlength
      refine (Prompt.skipBlanks (hwith combinator _ (by omega))).after fun text => ?_
      simp [readCombinedBy, hcomma, hsign]
    | none =>
      cases spaced with
      | true =>
        refine (hwith .descendant (c :: text) (hspaced rfl)).whole fun text => ?_
        simp [readCombinedBy, hcomma, hsign]
      | false =>
        refine (Prompt.stopAt (c :: text)).whole fun text => ?_
        simp [readCombinedBy, hcomma, hsign]

theorem prompt_readAllCombined (left : Complex) (text : List Char) :
    Prompt (readAllCombined left) text := by
  -- A compound takes a character, and so do the blanks that combine two of them.
  induction hlength : text.length using Nat.strongRecOn generalizing left text with
  | _ length ih =>
    cases text with
    | nil => exact (Prompt.pure left []).empty rfl
    | cons c text =>
      rw [List.length_cons] at hlength
      have hnext (left : Complex) (part : List Char) (hpart : part.length ≤ text.length) :
          Prompt (readAllCombined left) part :=
        ih part.length (by omega) left part rfl
      have hsteps (text : List Char) (left : Complex) (part : List Char)
          (hpart : part.length ≤ text.length) :
          readCombined text.length left part = readAllCombined left part :=
        readCombined_steps hpart (Nat.le_refl _)
      have hskip (text : List Char) := (leaves_skipBlanks text).length_le
      cases hc : isBlank c with
      | true =>
        have hprompt : Prompt (readCombinedBy readAllCombined true left) (skipBlanks text) :=
          prompt_readCombinedBy left (Nat.le_succ_of_le (hskip text)) (fun _ => hskip text) hnext
        refine hprompt.skipBlanks.after fun text => ?_
        rw [readAllCombined, List.length_cons, readCombined_blank _ _ hc]
        exact readCombinedBy_congr (Nat.le_succ_of_le (hskip text)) (fun _ => hskip text)
          (hsteps text)
      | false =>
        have hprompt : Prompt (readCombinedBy readAllCombined false left) (c :: text) :=
          prompt_readCombinedBy left (Nat.le_refl _) nofun hnext
        refine hprompt.whole fun text => ?_
        rw [readAllCombined, List.length_cons, readCombined_plain _ _ hc]
        exact readCombinedBy_congr (Nat.le_refl _) nofun (hsteps text)

end Combined

theorem readComplex_eq (text : List Char) :
    readComplex text = (readCompound text >>= fun subject =>
      readAllCombined (.single subject.1) subject.2) :=
  bind_congr_ok fun ⟨_, _⟩ hsubject =>
    readCombined_steps ((prompt_readCompound text).length_le hsubject) (Nat.le_refl _)

theorem prompt_readComplex (text : List Char) : Prompt readComplex text := by
  refine Prompt.congr ?_ readComplex_eq
  exact (prompt_readCompound text).bind (k := fun subject => readAllCombined (.single subject))
    fun _ _ _ => prompt_readAllCombined _ _

/-! ## Selectors -/

/-- What a selector goes on with behind an alternative, where blanks have been skipped. -/
def readMoreBy (next : List Char → Except Stop (Part Selector)) (complex : Complex)
    (text : List Char) : Except Stop (Part Selector) :=
  match text with
  | [] => .ok ([complex], [])
  | c :: rest =>
    if c = ',' then (next rest).map fun more => (complex :: more.1, more.2)
    else stopAt text

/-- The alternatives of a text, of which nothing is left. -/
def readSelectorWithin (steps : Nat) (text : List Char) : Except Stop (Part Selector) :=
  (readAlternatives steps text).map fun selector => (selector, [])

theorem readSelectorWithin_succ (steps : Nat) (text : List Char) :
    readSelectorWithin (steps + 1) text =
      (readComplex (skipBlanks text) >>= fun complex =>
        readMoreBy (readSelectorWithin steps) complex.1 (skipBlanks complex.2)) := by
  rw [readSelectorWithin, readAlternatives]
  cases readComplex (skipBlanks text) with
  | error stop => rfl
  | ok complex =>
    obtain ⟨complex, rest⟩ := complex
    dsimp only [bind, Except.bind]
    cases skipBlanks rest with
    | nil => rfl
    | cons c rest =>
      by_cases hcomma : c = ','
      · subst hcomma
        dsimp only [readMoreBy, readSelectorWithin]
        cases readAlternatives steps rest <;> rfl
      · simp only [readMoreBy, hcomma, if_false]
        rfl

theorem readMoreBy_congr {next next' : List Char → Except Stop (Part Selector)}
    {complex : Complex} {text : List Char}
    (h : ∀ rest, rest.length < text.length → next rest = next' rest) :
    readMoreBy next complex text = readMoreBy next' complex text := by
  unfold readMoreBy
  split
  · rfl
  · rw [h _ (Nat.lt_succ_self _)]

theorem readSelectorWithin_steps {steps steps' : Nat} {text : List Char}
    (h : text.length < steps) (h' : text.length < steps') :
    readSelectorWithin steps text = readSelectorWithin steps' text := by
  induction steps generalizing steps' text with
  | zero => exact absurd h (Nat.not_lt_zero _)
  | succ steps ih =>
    obtain ⟨steps', rfl⟩ : ∃ n, steps' = n + 1 := ⟨steps' - 1, by omega⟩
    rw [readSelectorWithin_succ, readSelectorWithin_succ]
    refine bind_congr_ok fun ⟨complex, mid⟩ hcomplex => ?_
    have hskip := (leaves_skipBlanks text).length_le
    have hmid := (prompt_readComplex _).length_le hcomplex
    have hrest := (leaves_skipBlanks mid).length_le
    refine readMoreBy_congr fun rest hlt => ?_
    dsimp only at hlt
    exact ih (by omega) (by omega)

def readSelector (text : List Char) : Except Stop (Part Selector) :=
  readSelectorWithin (text.length + 1) text

theorem readSelector_eq (text : List Char) :
    readSelector text = (readComplex (skipBlanks text) >>= fun complex =>
      readMoreBy readSelector complex.1 (skipBlanks complex.2)) := by
  rw [readSelector, readSelectorWithin_succ]
  refine bind_congr_ok fun ⟨complex, mid⟩ hcomplex => ?_
  have hskip := (leaves_skipBlanks text).length_le
  have hmid := (prompt_readComplex _).length_le hcomplex
  have hrest := (leaves_skipBlanks mid).length_le
  refine readMoreBy_congr fun rest hlt => ?_
  dsimp only at hlt
  exact readSelectorWithin_steps (by omega) (by omega)

theorem prompt_readMoreBy {next : List Char → Except Stop (Part Selector)} (complex : Complex)
    {text : List Char} (h : ∀ rest, rest.length < text.length → Prompt next rest) :
    Prompt (readMoreBy next complex) text := by
  cases text with
  | nil => exact (Prompt.pure [complex] []).empty rfl
  | cons c text =>
    by_cases hcomma : c = ','
    · subst hcomma
      exact (h text (Nat.lt_succ_self _)).map.after fun _ => rfl
    · refine (Prompt.stopAt (c :: text)).whole fun text => ?_
      simp [readMoreBy, hcomma]

theorem prompt_readSelector (text : List Char) : Prompt readSelector text := by
  -- A comma stands between two alternatives.
  induction hlength : text.length using Nat.strongRecOn generalizing text with
  | _ length ih =>
    refine Prompt.congr ?_ readSelector_eq
    refine (Prompt.skipBlanks (prompt_readComplex _)).bind (k := fun complex text =>
      readMoreBy readSelector complex (skipBlanks text)) fun complex mid hcomplex => ?_
    have hskip := (leaves_skipBlanks text).length_le
    have hmid := (prompt_readComplex _).length_le hcomplex
    have hrest := (leaves_skipBlanks mid).length_le
    refine Prompt.skipBlanks (prompt_readMoreBy complex fun rest hlt => ?_)
    exact ih rest.length (by omega) rest rfl

-- ---------------------------------------------------------------------------
-- Errors
-- ---------------------------------------------------------------------------

theorem parse_eq_error {text : String} {error : Error} :
    parse text = .error error ↔
      ∃ stop, readSelector text.toList = .error stop ∧ error = ⟨text, stop.fault text⟩ := by
  unfold parse readSelector readSelectorWithin
  cases readAlternatives (text.toList.length + 1) text.toList with
  | ok selector => exact ⟨nofun, nofun⟩
  | error stop =>
    constructor
    · intro h
      exact ⟨stop, rfl, (Except.error.inj h).symm⟩
    · rintro ⟨stop', hstop, rfl⟩
      cases hstop
      rfl

/-- Only the end of a text counts as a lack of anything but blanks. -/
theorem fault_eq_blank {stop : Stop} {text : String} :
    stop.fault text = .blank ↔ stop = .atEnd ∧ isBlankText text = true := by
  cases stop with
  | atEnd => by_cases hblank : isBlankText text = true <;> simp [Stop.fault, hblank]
  | _ => simp [Stop.fault]

theorem fault_eq_unexpected {stop : Stop} {text : String} {offset : Nat} {found : Char} :
    stop.fault text = .unexpected offset found ↔
      ∃ rest, stop = .unexpected found rest ∧ offset = text.toList.length - (rest.length + 1) := by
  cases stop with
  | atEnd => by_cases hblank : isBlankText text = true <;> simp [Stop.fault, hblank]
  | unexpected c rest =>
    simp only [Stop.fault, Fault.unexpected.injEq, Stop.unexpected.injEq]
    constructor
    · rintro ⟨rfl, rfl⟩
      exact ⟨rest, ⟨rfl, rfl⟩, rfl⟩
    · rintro ⟨_, ⟨rfl, rfl⟩, rfl⟩
      exact ⟨rfl, rfl⟩
  | _ => simp [Stop.fault]

theorem readSelector_blank {text : List Char} (h : ∀ c ∈ text, isBlank c = true) :
    readSelector text = .error .atEnd := by
  have hskip : skipBlanks text = [] := by
    simpa [skipBlanks] using dropWhile_append h (stops_nil isBlank)
  rw [readSelector_eq, hskip]
  rfl

theorem parse_eq_blank {text : String} {selector : String} :
    parse text = .error ⟨selector, .blank⟩ ↔
      selector = text ∧ ∀ c ∈ text.toList, isBlank c = true := by
  constructor
  · intro h
    obtain ⟨stop, -, herror⟩ := parse_eq_error.mp h
    obtain ⟨hselector, hfault⟩ := Error.mk.inj herror
    exact ⟨hselector, List.all_eq_true.mp (fault_eq_blank.mp hfault.symm).2⟩
  · rintro ⟨rfl, hblanks⟩
    refine parse_eq_error.mpr ⟨.atEnd, readSelector_blank hblanks, ?_⟩
    rw [fault_eq_blank.mpr ⟨rfl, List.all_eq_true.mpr hblanks⟩]

theorem eq_append_of_take {text start : List Char} {c : Char}
    (h : text.take (start.length + 1) = start ++ [c]) :
    ∃ rest, text = start ++ c :: rest := by
  refine ⟨text.drop (start.length + 1), ?_⟩
  calc text = text.take (start.length + 1) ++ text.drop (start.length + 1) :=
        (List.take_append_drop _ _).symm
    _ = start ++ c :: text.drop (start.length + 1) := by rw [h, List.append_assoc]; rfl

/-- A refused text is refused in front of a character, and with it all texts that are the
    same up to this character. -/
theorem readSelector_eq_stopAt {text : List Char} {found : Char} {rest : List Char}
    (h : readSelector text = .error (.unexpected found rest)) :
    ∃ start, text = start ++ found :: rest ∧
      ∀ rest', readSelector (start ++ found :: rest') = .error (.unexpected found rest') :=
  prompt_readSelector text .refused found rest h

theorem parse_eq_unexpected {text : String} {start : List Char} {found : Char}
    {rest : List Char} (htext : text.toList = start ++ found :: rest)
    (h : readSelector (start ++ found :: rest) = .error (.unexpected found rest)) :
    parse text = .error ⟨text, .unexpected start.length found⟩ := by
  refine parse_eq_error.mpr ⟨.unexpected found rest, htext ▸ h, ?_⟩
  rw [fault_eq_unexpected.mpr ⟨rest, rfl, ?_⟩]
  rw [htext, List.length_append, List.length_cons, Nat.add_sub_cancel]

/-- Only a text without anything but blanks is refused as blank. Where a character is
    unexpected, it stands at the offset that is reported, and no other text that is the same up
    to this character is read any further. -/
theorem parse_located (text : String) :
    ((∃ selector, parse text = .error ⟨selector, .blank⟩) ↔
        ∀ c ∈ text.toList, isBlank c = true) ∧
      ∀ selector offset found, parse text = .error ⟨selector, .unexpected offset found⟩ →
        selector = text ∧ offset < text.toList.length ∧ text.toList[offset]? = some found ∧
          ∀ other : String, other.toList.take (offset + 1) = text.toList.take (offset + 1) →
            parse other = .error ⟨other, .unexpected offset found⟩ := by
  refine ⟨⟨fun ⟨_, h⟩ => (parse_eq_blank.mp h).2, fun h => ⟨text, parse_eq_blank.mpr ⟨rfl, h⟩⟩⟩,
    fun selector offset found h => ?_⟩
  obtain ⟨stop, hstop, herror⟩ := parse_eq_error.mp h
  obtain ⟨hselector, hfault⟩ := Error.mk.inj herror
  obtain ⟨rest, rfl, hoffset⟩ := fault_eq_unexpected.mp hfault.symm
  obtain ⟨start, htext, hothers⟩ := readSelector_eq_stopAt hstop
  obtain rfl : offset = start.length := by
    rw [hoffset, htext, List.length_append, List.length_cons, Nat.add_sub_cancel]
  rw [htext]
  refine ⟨hselector, by simp, by simp, fun other hother => ?_⟩
  have htake : (start ++ found :: rest).take (start.length + 1) = start ++ [found] := by
    rw [List.take_length_add_append]
    rfl
  obtain ⟨rest', hrest'⟩ := eq_append_of_take (hother.trans htake)
  exact parse_eq_unexpected hrest' (hothers rest')

/-- The second comma of a text is where no alternative can begin. -/
theorem parse_located_comma :
    parse "a,,b" = .error ⟨"a,,b", .unexpected 2 ','⟩ ∧
      parse "a,,[" = .error ⟨"a,,[", .unexpected 2 ','⟩ := by
  have h : parse "a,,b" = .error ⟨"a,,b", .unexpected 2 ','⟩ := by rfl
  exact ⟨h, ((parse_located "a,,b").2 _ _ _ h).2.2.2 "a,,[" (by decide)⟩

end HtmlTemplate.Selector
