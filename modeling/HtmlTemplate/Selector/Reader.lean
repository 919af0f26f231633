-- SUMMARY: Reading selectors from text, and the errors that are found on the way.
import HtmlTemplate.Selector

/-!
# Reading selectors

Recursive descent over the characters that are left. Each part of the grammar has
a function that answers what it has read and the rest, or a fault. A fault keeps
the rest of the text at the place where it was found; `Selector.parse` turns it
into an error with the whole text and the number of characters before the place.

Parts that repeat are read in a number of steps that is at most the length of the
text, since each takes a character.
-/

namespace HtmlTemplate.Selector

-- ---------------------------------------------------------------------------
-- Errors
-- ---------------------------------------------------------------------------

/-- Why a text is no selector. -/
inductive Fault where
  /-- Nothing but blanks. -/
  | blank
  /-- A character that cannot stand where it does. -/
  | unexpected (offset : Nat) (found : Char)
  | unsupportedPseudoClass (name : String)
  | invalidArgument (name argument : String)
  /-- The text ends where something has to follow. -/
  | unfinished
deriving DecidableEq

structure Error where
  selector : String
  fault : Fault
deriving DecidableEq

def Error.message (error : Error) : String :=
  let selector := error.selector
  match error.fault with
  | .blank => "empty selector"
  | .unexpected offset found =>
    s!"unexpected `{found}` at offset {offset} in selector `{selector}`"
  | .unsupportedPseudoClass name => s!"unsupported pseudo-class `:{name}` in selector `{selector}`"
  | .invalidArgument name argument =>
    s!"invalid argument `{argument}` for `:{name}` in selector `{selector}`"
  | .unfinished => s!"selector `{selector}` ends with a dangling combinator"

/-- A fault where it is found. -/
inductive Stop where
  | atEnd
  | unexpected (found : Char) (rest : List Char)
  | unsupportedPseudoClass (name : String)
  | invalidArgument (name argument : String)

/-- What was read, and the rest of the text. -/
abbrev Part (α : Type) := α × List Char

/-- Stop at what is left. -/
def stopAt {α : Type} : List Char → Except Stop α
  | [] => .error .atEnd
  | c :: rest => .error (.unexpected c rest)

theorem stopAt_ne_ok {α : Type} (text : List Char) (part : α) : stopAt text ≠ .ok part := by
  cases text <;> nofun

/-- A step is followed by another one only if it succeeds. -/
theorem bind_eq_ok {α β : Type} {part : Except Stop α} {next : α → Except Stop β} {result : β} :
    (part >>= next) = .ok result ↔ ∃ value, part = .ok value ∧ next value = .ok result := by
  cases part <;> simp [bind, Except.bind]

theorem map_eq_ok {α β : Type} {part : Except Stop α} {change : α → β} {result : β} :
    part.map change = .ok result ↔ ∃ value, part = .ok value ∧ change value = result := by
  cases part <;> simp [Except.map]

-- ---------------------------------------------------------------------------
-- Names
-- ---------------------------------------------------------------------------

/-- A character beyond ASCII may stand anywhere in a name. -/
def isBeyondAscii (c : Char) : Bool := c.toNat ≥ 0x80

/-- A character that a type name may start with. -/
def isNameStart (c : Char) : Bool := c.isAlpha || c == '_' || c == '-' || isBeyondAscii c

/-- A character of a name. -/
def isNameChar (c : Char) : Bool := c.isAlphanum || c == '_' || c == '-' || isBeyondAscii c

def skipBlanks (text : List Char) : List Char := text.dropWhile isBlank

/-- Read a name, which has a character at least. -/
def readName (text : List Char) : Except Stop (Part String) :=
  match text.takeWhile isNameChar with
  | [] => stopAt text
  | name => .ok (String.ofList name, text.dropWhile isNameChar)

-- ---------------------------------------------------------------------------
-- Attributes
-- ---------------------------------------------------------------------------

/-- The operator that starts with a sign in front of its `=`. -/
def operatorOfSign? : Char → Option Operator
  | '~' => some .hasWord
  | '|' => some .hasStem
  | '^' => some .startsWith
  | '$' => some .endsWith
  | '*' => some .contains
  | _ => none

/-- Read an operator; there is none in front of the closing bracket. -/
def readOperator (text : List Char) : Except Stop (Part (Option Operator)) :=
  match text with
  | ']' :: _ => .ok (none, text)
  | '=' :: rest => .ok (some .equals, rest)
  | sign :: rest =>
    match operatorOfSign? sign, rest with
    | some operator, '=' :: rest => .ok (some operator, rest)
    | some _, rest => stopAt rest
    | none, _ => stopAt text
  | [] => stopAt text

/-- Read a text up to a quote. -/
def readQuoted (quote : Char) : List Char → Except Stop (Part (List Char))
  | [] => .error .atEnd
  | c :: rest =>
    if c = quote then .ok ([], rest)
    else (readQuoted quote rest).map fun (text, rest) => (c :: text, rest)

/-- Read an operand, quoted or a name. -/
def readOperand (text : List Char) : Except Stop (Part String) :=
  match text with
  | '"' :: rest => (readQuoted '"' rest).map fun (text, rest) => (String.ofList text, rest)
  | '\'' :: rest => (readQuoted '\'' rest).map fun (text, rest) => (String.ofList text, rest)
  | _ => readName text

/-- Read the flag that makes a comparison ignore case. -/
def readFlag (text : List Char) : Bool × List Char :=
  match text with
  | 'i' :: rest => (true, skipBlanks rest)
  | 'I' :: rest => (true, skipBlanks rest)
  | _ => (false, text)

/-- Read the closing bracket. -/
def readBracket (test : AttributeTest) (text : List Char) : Except Stop (Part AttributeTest) :=
  match text with
  | ']' :: rest => .ok (test, rest)
  | _ => stopAt text

/-- Read an attribute test after its opening bracket. -/
def readAttribute (text : List Char) : Except Stop (Part AttributeTest) := do
  let (name, rest) ← readName (skipBlanks text)
  let name := asciiLower name
  let (operator, rest) ← readOperator (skipBlanks rest)
  match operator with
  | none => readBracket { name } rest
  | some operator =>
    let (operand, rest) ← readOperand (skipBlanks rest)
    let (ignoreCase, rest) := readFlag (skipBlanks rest)
    readBracket { name, comparison := some (operator, operand), ignoreCase } rest

-- ---------------------------------------------------------------------------
-- Pseudo-classes
-- ---------------------------------------------------------------------------

/-- Read the argument of a pseudo-class up to the parenthesis that closes it;
    `depth` more are open inside it. -/
def readArgument (depth : Nat) : List Char → Except Stop (Part (List Char))
  | [] => .error .atEnd
  | c :: rest =>
    match c, depth with
    | ')', 0 => .ok ([], rest)
    | ')', depth + 1 => (readArgument depth rest).map fun (text, rest) => (c :: text, rest)
    | '(', depth => (readArgument (depth + 1) rest).map fun (text, rest) => (c :: text, rest)
    | c, depth => (readArgument depth rest).map fun (text, rest) => (c :: text, rest)

/-- The pseudo-class of a name alone. -/
def plainPseudoClass? (name : String) : Option Simple :=
  match name with
  | "root" => some .root
  | "empty" => some .empty
  | "first-child" => some (.position false .first)
  | "last-child" => some (.position false .last)
  | "only-child" => some (.position false .only)
  | "first-of-type" => some (.position true .first)
  | "last-of-type" => some (.position true .last)
  | "only-of-type" => some (.position true .only)
  | _ => none

/-- The pseudo-class of a name that takes a formula. -/
def nthPseudoClass? (name : String) : Option (Nth → Simple) :=
  match name with
  | "nth-child" => some fun formula => .position false (.nth formula)
  | "nth-last-child" => some fun formula => .position false (.nthLast formula)
  | "nth-of-type" => some fun formula => .position true (.nth formula)
  | "nth-last-of-type" => some fun formula => .position true (.nthLast formula)
  | _ => none

/-- The pseudo-class of a name and an argument; `readCompound?` reads the argument
    of `:not()`. -/
def argumentPseudoClass (readCompound? : List Char → Option Compound) (name : String)
    (argument : List Char) : Except Stop Simple :=
  let checked : Option Simple → Except Stop Simple
    | some simple => .ok simple
    | none => .error (.invalidArgument name (String.ofList argument))
  match nthPseudoClass? name with
  | some simple => checked ((Nth.read? (String.ofList argument)).map simple)
  | none =>
    if name = "not" then checked ((readCompound? argument).map .not)
    else .error (.unsupportedPseudoClass name)

/-- Read a pseudo-class after its colon. Pseudo-elements select no element. -/
def readPseudoClass (readCompound? : List Char → Option Compound) (text : List Char) :
    Except Stop (Part Simple) :=
  match text with
  | ':' :: rest =>
    .error (.unsupportedPseudoClass (":" ++ String.ofList (rest.takeWhile isNameChar)))
  | _ => do
    let (name, rest) ← readName text
    let name := asciiLower name
    match rest with
    | '(' :: rest => do
      let (argument, rest) ← readArgument 0 rest
      let simple ← argumentPseudoClass readCompound? name argument
      return (simple, rest)
    | _ =>
      match plainPseudoClass? name with
      | some simple => return (simple, rest)
      | none => .error (.unsupportedPseudoClass name)

-- ---------------------------------------------------------------------------
-- Compounds
-- ---------------------------------------------------------------------------

/-- Read the test of the type that a compound may start with. -/
def readType (text : List Char) : Compound × List Char :=
  match text with
  | '*' :: rest => ([.any], rest)
  | c :: _ =>
    if isNameStart c then
      ([.tag (asciiLower (String.ofList (text.takeWhile isNameChar)))],
        text.dropWhile isNameChar)
    else ([], text)
  | [] => ([], [])

/-- Read a compound with a reader for the tests behind its type. -/
def readCompoundBy (readTests : List Char → Except Stop (Part Compound)) (text : List Char) :
    Except Stop (Part Compound) := do
  let (typeTest, rest) := readType text
  let (tests, rest) ← readTests rest
  match typeTest ++ tests with
  | [] => stopAt rest
  | compound => return (compound, rest)

/-- Read a text that is one compound, with blanks around it. -/
def readWholeBy (readTests : List Char → Except Stop (Part Compound)) (text : List Char) :
    Option Compound :=
  match readCompoundBy readTests (skipBlanks text) with
  | .ok (compound, rest) => if (skipBlanks rest).isEmpty then some compound else none
  | .error _ => none

/-- Read the tests of a compound behind its type. -/
def readTests : Nat → List Char → Except Stop (Part Compound)
  | 0, text => .ok ([], text)
  | steps + 1, text =>
    let continueWith (test : Simple) (rest : List Char) : Except Stop (Part Compound) :=
      (readTests steps rest).map fun (tests, rest) => (test :: tests, rest)
    match text with
    | '#' :: rest => do
      let (name, rest) ← readName rest
      continueWith (.id name) rest
    | '.' :: rest => do
      let (name, rest) ← readName rest
      continueWith (.className name) rest
    | '[' :: rest => do
      let (test, rest) ← readAttribute rest
      continueWith (.attr test) rest
    | ':' :: rest => do
      let (test, rest) ← readPseudoClass (readWholeBy (readTests steps)) rest
      continueWith test rest
    | _ => .ok ([], text)

/-- Read a compound. -/
def readCompound (text : List Char) : Except Stop (Part Compound) :=
  readCompoundBy (readTests text.length) text

-- ---------------------------------------------------------------------------
-- Alternatives
-- ---------------------------------------------------------------------------

/-- The combinator of a sign. -/
def combinatorOfSign? : Char → Option Combinator
  | '>' => some .child
  | '+' => some .nextSibling
  | '~' => some .laterSibling
  | _ => none

/-- Read what is combined with an alternative on its right, up to a comma or the
    end. Blanks alone combine, too. -/
def readCombined : Nat → Complex → List Char → Except Stop (Part Complex)
  | 0, left, text => .ok (left, text)
  | steps + 1, left, text =>
    match skipBlanks text with
    | [] => .ok (left, [])
    | c :: rest =>
      if c = ',' then .ok (left, c :: rest)
      else match combinatorOfSign? c with
        | some combinator => do
          let (subject, rest) ← readCompound (skipBlanks rest)
          readCombined steps (.combined left combinator subject) rest
        | none =>
          if rest.length + 1 < text.length then do
            let (subject, rest) ← readCompound (c :: rest)
            readCombined steps (.combined left .descendant subject) rest
          else stopAt (c :: rest)

/-- Read an alternative. -/
def readComplex (text : List Char) : Except Stop (Part Complex) := do
  let (subject, rest) ← readCompound text
  readCombined text.length (.single subject) rest

/-- Read alternatives to the end of the text. -/
def readAlternatives : Nat → List Char → Except Stop Selector
  | 0, text => stopAt text
  | steps + 1, text => do
    let (complex, rest) ← readComplex (skipBlanks text)
    match skipBlanks rest with
    | [] => return [complex]
    | c :: rest =>
      if c = ',' then do
        let more ← readAlternatives steps rest
        return complex :: more
      else stopAt (c :: rest)

/-- The fault of a stop, where the whole text is known. -/
def Stop.fault (selector : String) : Stop → Fault
  | .atEnd => if isBlankText selector then .blank else .unfinished
  | .unexpected found rest => .unexpected (selector.toList.length - (rest.length + 1)) found
  | .unsupportedPseudoClass name => .unsupportedPseudoClass name
  | .invalidArgument name argument => .invalidArgument name argument

/-- Read a selector. -/
def parse (text : String) : Except Error Selector :=
  (readAlternatives (text.toList.length + 1) text.toList).mapError fun stop =>
    ⟨text, stop.fault text⟩

end HtmlTemplate.Selector
