-- SUMMARY: How a selector is written as a text, with gaps wherever they do not matter.
import HtmlTemplate.Proofs.Selecting.Formulas
import HtmlTemplate.Proofs.Selecting.Readable

/-!
# Written selectors

`Written` relates a selector to its texts: alternatives with commas between them,
compounds with the signs of their combinators, the tests of a compound without anything
between them. Operands stand between quotes that they do not contain, and formulas have
both signs. Gaps of ASCII blanks may be wider or narrower where they do not matter: at
both ends, around commas and signs, inside of brackets and parentheses. A descendant is
written as a gap that is not empty.

What is read can be written. The converse, that each such text is read as the selector it
is written for, is the subject of `RoundTrip`.
-/

namespace HtmlTemplate.Selector

/-! ## Gaps -/

/-- A text of blanks within ASCII. -/
def IsGap (text : List Char) : Prop := ∀ c ∈ text, isBlank c = true ∧ isBeyondAscii c = false

/-- Words with gaps in front of them, between them and behind them. -/
inductive Spaced : List (List Char) → List Char → Prop where
  | nil {gap : List Char} (hgap : IsGap gap) : Spaced [] gap
  | cons {gap text : List Char} {words : List (List Char)} (word : List Char) (hgap : IsGap gap)
      (h : Spaced words text) : Spaced (word :: words) (gap ++ word ++ text)

/-! ## Tests -/

/-- The words between the brackets of an attribute test. -/
inductive AttributeTest.Words : AttributeTest → List (List Char) → Prop where
  | present (name : String) : Words { name } [name.toList]
  | compared (name : String) (operator : Operator) {operand : String} {quote : Char}
      (hquotes : Quotes quote operand) :
      Words { name, comparison := some (operator, operand) }
        [name.toList, operator.sign.toList, quote :: operand.toList ++ [quote]]
  | ignoringCase (name : String) (operator : Operator) {operand : String} {quote flag : Char}
      (hquotes : Quotes quote operand) (hflag : flag = 'i' ∨ flag = 'I') :
      Words { name, comparison := some (operator, operand), ignoreCase := true }
        [name.toList, operator.sign.toList, quote :: operand.toList ++ [quote], [flag]]

mutual

/-- A text of a test. -/
inductive Simple.Written : Simple → List Char → Prop where
  | any : Simple.Written .any ['*']
  | tag (name : String) : Simple.Written (.tag name) name.toList
  | id (name : String) : Simple.Written (.id name) ('#' :: name.toList)
  | className (name : String) : Simple.Written (.className name) ('.' :: name.toList)
  | attr {test : AttributeTest} {words : List (List Char)} {text : List Char}
      (hwords : test.Words words) (htext : Spaced words text) :
      Simple.Written (.attr test) ('[' :: text ++ [']'])
  | root : Simple.Written .root ":root".toList
  | empty : Simple.Written .empty ":empty".toList
  | position (ofType : Bool) {position : Position} (hplain : position.formula? = none) :
      Simple.Written (.position ofType position) (':' :: (position.name ofType).toList)
  | formula (ofType : Bool) {position : Position} {formula : Nth} {argument : List Char}
      (hformula : position.formula? = some formula)
      (hargument : argument.filter (!isBlank ·) = formula.text) :
      Simple.Written (.position ofType position)
        (':' :: (position.name ofType).toList ++ '(' :: argument ++ [')'])
  | not {compound : Compound} {text argument : List Char} (h : AllWritten compound text)
      (hargument : Spaced [text] argument) :
      Simple.Written (.not compound) (":not(".toList ++ argument ++ [')'])

/-- A text of a compound: its tests one after the other. -/
inductive AllWritten : Compound → List Char → Prop where
  | nil : AllWritten [] []
  | cons {test : Simple} {rest : Compound} {text more : List Char} (htest : test.Written text)
      (h : AllWritten rest more) : AllWritten (test :: rest) (text ++ more)

end

/-! ## Alternatives -/

/-- A text of a combinator: a gap, or its sign with other gaps around it. -/
inductive Combinator.Written : Combinator → List Char → Prop where
  | blanks {gap : List Char} (hgap : IsGap gap) (hne : gap ≠ []) : Written .descendant gap
  | sign {combinator : Combinator} {c : Char} {text : List Char}
      (hsign : combinator.sign.toList = [' ', c, ' ']) (htext : Spaced [[c]] text) :
      Written combinator text

inductive Complex.Written : Complex → List Char → Prop where
  | single {subject : Compound} {text : List Char} (h : AllWritten subject text) :
      Written (.single subject) text
  | combined {left : Complex} {combinator : Combinator} {subject : Compound}
      {text between more : List Char} (hleft : left.Written text)
      (hcombinator : combinator.Written between) (hsubject : AllWritten subject more) :
      Written (.combined left combinator subject) (text ++ between ++ more)

/-- The alternatives of a selector and the commas between them. -/
inductive Parts : Selector → List (List Char) → Prop where
  | last {complex : Complex} {text : List Char} (h : complex.Written text) :
      Parts [complex] [text]
  | more {complex : Complex} {selector : Selector} {text : List Char} {words : List (List Char)}
      (h : complex.Written text) (hmore : Parts selector words) :
      Parts (complex :: selector) (text :: [','] :: words)

/-- A text of a selector. -/
def Written (selector : Selector) (text : String) : Prop :=
  ∃ words, Parts selector words ∧ Spaced words text.toList

/-! ## What is read can be written -/

theorem isGap_nil : IsGap [] := nofun

theorem isGap_blank : IsGap [' '] := List.forall_mem_singleton.mpr (by decide)

/-- Words may stand without gaps. -/
theorem spaced_flatten (words : List (List Char)) : Spaced words words.flatten := by
  induction words with
  | nil => exact .nil isGap_nil
  | cons word words ih => exact .cons word isGap_nil ih

theorem AttributeTest.Readable.exists_words {test : AttributeTest} (h : test.Readable) :
    ∃ words, test.Words words := by
  obtain ⟨name, comparison, ignoreCase⟩ := test
  cases comparison with
  | none =>
    have hflag : ignoreCase = false := h.flag rfl
    subst hflag
    exact ⟨_, .present name⟩
  | some comparison =>
    obtain ⟨operator, operand⟩ := comparison
    obtain ⟨quote, hquotes⟩ := h.quotes rfl
    cases ignoreCase with
    | false => exact ⟨_, .compared name operator hquotes⟩
    | true => exact ⟨_, .ignoringCase name operator hquotes (.inl rfl)⟩

mutual

theorem Simple.Readable.exists_written {test : Simple} (h : test.Readable) :
    ∃ text, test.Written text := by
  match test, h with
  | .any, _ => exact ⟨_, .any⟩
  | .tag name, _ => exact ⟨_, .tag name⟩
  | .id name, _ => exact ⟨_, .id name⟩
  | .className name, _ => exact ⟨_, .className name⟩
  | .attr test, h =>
    obtain ⟨words, hwords⟩ := AttributeTest.Readable.exists_words h
    exact ⟨_, .attr hwords (spaced_flatten words)⟩
  | .root, _ => exact ⟨_, .root⟩
  | .empty, _ => exact ⟨_, .empty⟩
  | .position ofType position, _ =>
    cases hformula : position.formula? with
    | none => exact ⟨_, .position ofType hformula⟩
    | some formula => exact ⟨_, .formula ofType hformula formula.filter_text⟩
  | .not compound, h =>
    obtain ⟨text, htext⟩ := AllReadable.exists_written h.2.1
    exact ⟨_, .not htext (spaced_flatten [text])⟩

theorem AllReadable.exists_written {compound : Compound} (h : AllReadable compound) :
    ∃ text, AllWritten compound text := by
  match compound, h with
  | [], _ => exact ⟨_, .nil⟩
  | test :: rest, h =>
    obtain ⟨text, htext⟩ := Simple.Readable.exists_written h.1
    obtain ⟨more, hmore⟩ := AllReadable.exists_written h.2.2
    exact ⟨_, .cons htext hmore⟩

end

theorem Combinator.exists_written (combinator : Combinator) : ∃ text, combinator.Written text := by
  cases combinator with
  | descendant => exact ⟨_, .blanks isGap_blank nofun⟩
  | child => exact ⟨_, .sign rfl (spaced_flatten _)⟩
  | nextSibling => exact ⟨_, .sign rfl (spaced_flatten _)⟩
  | laterSibling => exact ⟨_, .sign rfl (spaced_flatten _)⟩

theorem Complex.Readable.exists_written {complex : Complex} (h : complex.Readable) :
    ∃ text, complex.Written text := by
  induction complex with
  | single subject =>
    obtain ⟨text, htext⟩ := (h subject (List.mem_singleton_self _)).2.exists_written
    exact ⟨text, .single htext⟩
  | combined left combinator subject ih =>
    rw [Complex.Readable, Complex.compounds, List.forall_mem_append] at h
    obtain ⟨text, htext⟩ := ih h.1
    obtain ⟨between, hbetween⟩ := combinator.exists_written
    obtain ⟨more, hmore⟩ := (h.2 subject (List.mem_singleton_self _)).2.exists_written
    exact ⟨_, .combined htext hbetween hmore⟩

theorem exists_parts {selector : Selector} (hne : selector ≠ [])
    (h : ∀ complex ∈ selector, complex.Readable) : ∃ words, Parts selector words := by
  induction selector with
  | nil => exact absurd rfl hne
  | cons complex rest ih =>
    rw [List.forall_mem_cons] at h
    obtain ⟨text, htext⟩ := h.1.exists_written
    cases rest with
    | nil => exact ⟨_, .last htext⟩
    | cons next rest =>
      obtain ⟨words, hwords⟩ := ih nofun h.2
      exact ⟨_, .more htext hwords⟩

/-- Every selector that is read has a text. -/
theorem exists_written {selector : Selector} (hne : selector ≠ [])
    (h : ∀ complex ∈ selector, complex.Readable) : ∃ text, Written selector text := by
  obtain ⟨words, hwords⟩ := exists_parts hne h
  exact ⟨String.ofList words.flatten, words, hwords, String.toList_ofList ▸ spaced_flatten words⟩

end HtmlTemplate.Selector
