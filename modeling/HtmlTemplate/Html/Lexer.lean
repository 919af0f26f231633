-- SUMMARY: Cutting HTML source text into lexemes.
import HtmlTemplate.Html.Reference
import HtmlTemplate.Html.Token

/-!
# The lexer

`Lexer.step` takes the next piece off the text and answers its lexemes, the mode
for the text after it and that text. Every step takes at least one character.
The mode is chosen from outside, too: after `<title>`, say, the text up to
`</title>` is no markup.
-/

namespace HtmlTemplate.Html.Lexer

/-- The null character cannot stand in names, values and raw text. -/
def withoutNull (text : List Char) : List Char :=
  text.map fun c => if c == '\x00' then replacement else c

def characters (text : List Char) : List Lexeme := text.map fun c => .token (.character c)

/-- A text with references. A number without its semicolon is a fault in front of
    its character. That is noticed at the start of the text only: further on, there
    is a character before it. -/
def decoded (text : List Char) : List Lexeme :=
  let shown := characters (decode false text)
  if startsUnfinishedNumber text then .fault :: shown else shown

/-- Split a text at the first place where `mark` stands: what is before the mark
    and what is after it. -/
def splitAtMark? (mark : List Char) : List Char → Option (List Char × List Char)
  | [] => if mark.isEmpty then some ([], []) else none
  | c :: rest =>
    if mark.isPrefixOf (c :: rest) then some ([], (c :: rest).drop mark.length)
    else (splitAtMark? mark rest).map fun (before, after) => (c :: before, after)

/-- The rest after a word in any ASCII case. -/
def dropKeyword? (word : String) (text : List Char) : Option (List Char) :=
  let length := word.toList.length
  if (text.take length).map Char.toUpper == word.toList then some (text.drop length) else none

-- ---------------------------------------------------------------------------
-- Tags
-- ---------------------------------------------------------------------------

def lowerName (name : List Char) : String := String.ofList (withoutNull (name.map Char.toLower))

/-- Read the value of an attribute, after the `=`. -/
def attributeValue? (text : List Char) : Option (String × List Char) :=
  let found :=
    match text.dropWhile isAsciiBlank with
    | '"' :: rest => splitAtMark? ['"'] rest
    | '\'' :: rest => splitAtMark? ['\''] rest
    | rest =>
      let ends := fun c => isAsciiBlank c || c == '>'
      some (rest.takeWhile (!ends ·), rest.dropWhile (!ends ·))
  found.map fun (value, after) => (String.ofList (decode true (withoutNull value)), after)

/-- Add an attribute unless there is one of its name. -/
def addAttribute (attributes : List (String × String)) (name value : String) :
    List (String × String) :=
  if (attributes.lookup name).isSome then attributes else attributes ++ [(name, value)]

/-- Read the attributes of a tag up to its `>`; also whether a `/` stands before
    it. There is no tag when the input ends first. -/
def attributes? : Nat → List (String × String) → List Char →
    Option (List (String × String) × Bool × List Char)
  | 0, _, _ => none
  | fuel + 1, found, text =>
    match text.dropWhile isAsciiBlank with
    | [] => none
    | '>' :: rest => some (found, false, rest)
    | '/' :: '>' :: rest => some (found, true, rest)
    | '/' :: rest => attributes? fuel found rest
    | c :: rest =>
      let name := lowerName (c :: rest.takeWhile (!endsAttributeName ·))
      match (rest.dropWhile (!endsAttributeName ·)).dropWhile isAsciiBlank with
      | '=' :: rest =>
        match attributeValue? rest with
        | some (value, rest) => attributes? fuel (addAttribute found name value) rest
        | none => none
      | rest => attributes? fuel (addAttribute found name "") rest

/-- Read a tag from its name on. -/
def tag? (text : List Char) : Option (Tag × List Char) :=
  let name := lowerName (text.takeWhile (!endsTagName ·))
  (attributes? (text.length + 1) [] (text.dropWhile (!endsTagName ·))).map
    fun (attributes, selfClosing, rest) => (⟨name, attributes, selfClosing⟩, rest)

/-- A tag that the input breaks off is no token, and nothing is left after it. -/
def tagToken (make : Tag → Token) (text : List Char) : List Lexeme × List Char :=
  match tag? text with
  | some (tag, rest) => ([.token (make tag)], rest)
  | none => ([], [])

-- ---------------------------------------------------------------------------
-- Comments
-- ---------------------------------------------------------------------------

/-- Markup that is no tag and no comment is kept as a comment up to its `>`. -/
def bogusComment (text : List Char) : List Lexeme × List Char :=
  ([.token (.comment (String.ofList (withoutNull (text.takeWhile (· != '>')))))],
    (text.dropWhile (· != '>')).drop 1)

/-- Drop the unfinished end of a comment that the input breaks off. -/
def dropBrokenEnd (text : List Char) : List Char :=
  match text.reverse with
  | '!' :: '-' :: '-' :: rest => rest.reverse
  | '-' :: '-' :: rest => rest.reverse
  | '-' :: rest => rest.reverse
  | _ => text

/-- Read a comment after its `<!--`. It ends with `-->` or `--!>`, whichever comes
    first; `>` or `->` right at its start ends it, too. -/
def comment (text : List Char) : List Lexeme × List Char :=
  let shown (body : List Char) := [.token (.comment (String.ofList (withoutNull body)))]
  match text with
  | '>' :: rest => (shown [], rest)
  | '-' :: '>' :: rest => (shown [], rest)
  | _ =>
    match splitAtMark? ['-', '-', '>'] text, splitAtMark? ['-', '-', '!', '>'] text with
    | some (body, rest), some (body', rest') =>
      if body.length < body'.length then (shown body, rest) else (shown body', rest')
    | some (body, rest), none => (shown body, rest)
    | none, some (body, rest) => (shown body, rest)
    | none, none => (shown (dropBrokenEnd text), [])

-- ---------------------------------------------------------------------------
-- Document type declarations
-- ---------------------------------------------------------------------------

/-- What follows the last identifier of a declaration, and its end. -/
def endDeclaration (doctype : Declaration) (text : List Char) : List Lexeme × List Char :=
  match text.dropWhile isAsciiBlank with
  | '>' :: rest => ([.declaration doctype], rest)
  | [] => ([.declaration { doctype with broken := true }], [])
  | rest => ([.declaration doctype], (rest.dropWhile (· != '>')).drop 1)

/-- A declaration that does not go on as it should is skipped to its end. -/
def brokenDeclaration (doctype : Declaration) (text : List Char) : List Lexeme × List Char :=
  ([.declaration { doctype with broken := true }], (text.dropWhile (· != '>')).drop 1)

/-- Read a quoted identifier after its quote. A `>` inside it breaks it off, and
    the declaration with it: then there is no rest. -/
def identifier (quote : Char) (text : List Char) : String × Option (List Char) :=
  let ends := fun c => c == quote || c == '>'
  (String.ofList (withoutNull (text.takeWhile (!ends ·))),
    match text.dropWhile (!ends ·) with
    | c :: rest => if c == quote then some rest else none
    | [] => none)

/-- Where the text goes on after an identifier that was broken off. -/
def afterBrokenIdentifier (quote : Char) (text : List Char) : List Char :=
  (text.dropWhile fun c => !(c == quote || c == '>')).drop 1

/-- Read the system identifier of a declaration, if there is one. -/
def systemIdentifier (required : Bool) (doctype : Declaration) (text : List Char) :
    List Lexeme × List Char :=
  let quotedBy (quote : Char) (rest : List Char) :=
    match identifier quote rest with
    | (system, some after) => endDeclaration { doctype with systemId := some system } after
    | (system, none) =>
      ([.declaration { doctype with systemId := some system, broken := true }],
        afterBrokenIdentifier quote rest)
  match text.dropWhile isAsciiBlank with
  | '"' :: rest => quotedBy '"' rest
  | '\'' :: rest => quotedBy '\'' rest
  | '>' :: rest => ([.declaration { doctype with broken := doctype.broken || required }], rest)
  | rest => brokenDeclaration doctype rest

/-- Read the public identifier of a declaration and the system identifier. -/
def publicIdentifier (doctype : Declaration) (text : List Char) : List Lexeme × List Char :=
  let quotedBy (quote : Char) (rest : List Char) :=
    match identifier quote rest with
    | (publicId, some after) =>
      systemIdentifier false { doctype with publicId := some publicId } after
    | (publicId, none) =>
      ([.declaration { doctype with publicId := some publicId, broken := true }],
        afterBrokenIdentifier quote rest)
  match text.dropWhile isAsciiBlank with
  | '"' :: rest => quotedBy '"' rest
  | '\'' :: rest => quotedBy '\'' rest
  | rest => brokenDeclaration doctype rest

/-- Read a declaration after its `<!DOCTYPE`. -/
def declaration (text : List Char) : List Lexeme × List Char :=
  let unnamed : Declaration := ⟨none, none, none, true⟩
  match text.dropWhile isAsciiBlank with
  | [] => ([.declaration unnamed], [])
  | '>' :: rest => ([.declaration unnamed], rest)
  | rest =>
    let ends := fun c => isAsciiBlank c || c == '>'
    let doctype : Declaration :=
      ⟨some (lowerName (rest.takeWhile (!ends ·))), none, none, false⟩
    match (rest.dropWhile (!ends ·)).dropWhile isAsciiBlank with
    | [] => ([.declaration { doctype with broken := true }], [])
    | '>' :: rest => ([.declaration doctype], rest)
    | rest =>
      match dropKeyword? "PUBLIC" rest, dropKeyword? "SYSTEM" rest with
      | some rest, _ => publicIdentifier doctype rest
      | none, some rest => systemIdentifier true doctype rest
      | none, none => brokenDeclaration doctype rest

-- ---------------------------------------------------------------------------
-- Markup
-- ---------------------------------------------------------------------------

/-- Read what follows `<!`. Character data sections are known only inside foreign
    elements. -/
def afterBang (foreign : Bool) (text : List Char) : List Lexeme × List Char :=
  match text with
  | '-' :: '-' :: rest => comment rest
  | _ =>
    match dropKeyword? "DOCTYPE" text with
    | some rest => declaration rest
    | none =>
      let opening := "[CDATA[".toList
      if foreign && opening.isPrefixOf text then
        let body := text.drop opening.length
        match splitAtMark? [']', ']', '>'] body with
        | some (data, rest) => (characters data, rest)
        | none => (characters body, [])
      else bogusComment text

/-- Read the next piece of markup. -/
def markup (foreign : Bool) : List Char → List Lexeme × List Char
  | '<' :: '!' :: rest => afterBang foreign rest
  | '<' :: '?' :: rest => bogusComment ('?' :: rest)
  | '<' :: '/' :: rest =>
    match rest with
    | [] => (characters ['<', '/'], [])
    | '>' :: rest => ([.fault], rest)
    | c :: _ => if c.isAlpha then tagToken .endTag rest else bogusComment rest
  | '<' :: rest =>
    match rest with
    | c :: _ => if c.isAlpha then tagToken .startTag rest else (characters ['<'], rest)
    | [] => (characters ['<'], [])
  | text => (decoded (text.takeWhile (· != '<')), text.dropWhile (· != '<'))

-- ---------------------------------------------------------------------------
-- Raw text and scripts
-- ---------------------------------------------------------------------------

/-- Whether `text` is `</name` and a character that ends the name. -/
def startsEndTag (name : String) (text : List Char) : Bool :=
  match text with
  | '<' :: '/' :: rest =>
    lowerName (rest.takeWhile Char.isAlpha) == name &&
      match rest.dropWhile Char.isAlpha with
      | c :: _ => endsTagName c
      | [] => false
  | _ => false

/-- Read the next piece of the content of an element that only the end tag `name`
    ends. -/
def rawText (name : String) (references : Bool) (stay : TextMode) (text : List Char) :
    List Lexeme × TextMode × List Char :=
  if startsEndTag name text then
    let (lexemes, rest) := tagToken .endTag (text.drop 2)
    (lexemes, .markup, rest)
  else
    let run := withoutNull (text.take 1 ++ (text.drop 1).takeWhile (· != '<'))
    let shown := if references then decoded run else characters run
    (shown, stay, (text.drop 1).dropWhile (· != '<'))

/-- The letters after `<`, when they are followed by a character that ends a
    name, with that character. -/
def scriptWord? (text : List Char) : Option (String × Nat) :=
  match text.dropWhile Char.isAlpha with
  | c :: _ =>
    if endsTagName c then
      let letters := text.takeWhile Char.isAlpha
      some (lowerName letters, letters.length + 1)
    else none
  | [] => none

/-- Take some characters of a script as they are. -/
def scriptCharacters (count : Nat) (next : TextMode) (text : List Char) :
    List Lexeme × TextMode × List Char :=
  (characters (withoutNull (text.take count)), next, text.drop count)

/-- Read the next piece of a script. A `<!--` opens a comment of the script, which
    `-->` ends; inside it a `<script>` is matched with its `</script>`. -/
def script (mode : TextMode) (text : List Char) : List Lexeme × TextMode × List Char :=
  let commentEnds := "-->".toList.isPrefixOf text
  match mode with
  | .scriptNested =>
    if commentEnds then scriptCharacters 3 .script text
    else if "</".toList.isPrefixOf text then
      match scriptWord? (text.drop 2) with
      | some ("script", length) => scriptCharacters (length + 2) .scriptComment text
      | _ => scriptCharacters 2 .scriptNested text
    else scriptCharacters 1 .scriptNested text
  | .scriptComment =>
    if commentEnds then scriptCharacters 3 .script text
    else if startsEndTag "script" text then rawText "script" false mode text
    else if "<".toList.isPrefixOf text then
      match scriptWord? (text.drop 1) with
      | some ("script", length) => scriptCharacters (length + 1) .scriptNested text
      | _ => scriptCharacters 1 .scriptComment text
    else scriptCharacters 1 .scriptComment text
  | _ =>
    if "<!--".toList.isPrefixOf text then scriptCharacters 2 .scriptComment text
    else rawText "script" false .script text

/-- Take the next piece off a text that is not empty. -/
def step (foreign : Bool) (mode : TextMode) (text : List Char) :
    List Lexeme × TextMode × List Char :=
  match mode with
  | .markup =>
    let (lexemes, rest) := markup foreign text
    (lexemes, .markup, rest)
  | .escapable name => rawText name true mode text
  | .raw name => rawText name false mode text
  | .plain => (characters (withoutNull text), .plain, [])
  | .script | .scriptComment | .scriptNested => script mode text

end HtmlTemplate.Html.Lexer
