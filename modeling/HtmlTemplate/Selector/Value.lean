-- SUMMARY: Tests of attribute values: equality, words, starts, ends and parts.
import HtmlTemplate.Text.Blank
import HtmlTemplate.Text.LowerCase

/-!
# Value tests

An attribute selector may compare the value of the attribute with an operand, by
one of six operators. With the flag `i` both are compared in lower case.
-/

namespace HtmlTemplate.Selector

/-- The operators of attribute selectors. -/
inductive Operator where
  /-- `=` -/
  | equals
  /-- `~=`, one of the words between ASCII blanks. -/
  | hasWord
  /-- `|=`, the operand alone or followed by a hyphen. -/
  | hasStem
  /-- `^=` -/
  | startsWith
  /-- `$=` -/
  | endsWith
  /-- `*=` -/
  | contains
deriving DecidableEq

/-- The operator as it is written. -/
def Operator.sign : Operator → String
  | .equals => "="
  | .hasWord => "~="
  | .hasStem => "|="
  | .startsWith => "^="
  | .endsWith => "$="
  | .contains => "*="

/-- Whether one text stands somewhere in another. -/
def isPart (part : List Char) : List Char → Bool
  | [] => part.isEmpty
  | c :: rest => part.isPrefixOf (c :: rest) || isPart part rest

/-- Whether a value is a stem or goes on with a hyphen behind it. -/
def isStem (stem value : List Char) : Bool :=
  stem.isPrefixOf value &&
    match value.drop stem.length with
    | [] => true
    | c :: _ => c == '-'

/-- Test a value. Nothing starts with, ends with or contains the empty operand. -/
def Operator.test (operator : Operator) (operand value : String) : Bool :=
  match operator with
  | .equals => value == operand
  | .hasWord => (words isAsciiBlank value).contains operand
  | .hasStem => isStem operand.toList value.toList
  | .startsWith => !operand.isEmpty && operand.toList.isPrefixOf value.toList
  | .endsWith => !operand.isEmpty && operand.toList.isSuffixOf value.toList
  | .contains => !operand.isEmpty && isPart operand.toList value.toList

/-- The test of one attribute: that it is there, or how its value compares. -/
structure AttributeTest where
  name : String
  comparison : Option (Operator × String) := none
  ignoreCase : Bool := false
deriving DecidableEq

/-- Test the value of the attribute; `none` when the element lacks it. -/
def AttributeTest.matches (test : AttributeTest) (value : Option String) : Bool :=
  match test.comparison, value with
  | none, value => value.isSome
  | some _, none => false
  | some (operator, operand), some value =>
    if test.ignoreCase then operator.test (fullLower operand) (fullLower value)
    else operator.test operand value

end HtmlTemplate.Selector
