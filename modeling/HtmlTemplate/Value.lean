-- SUMMARY: The values that a template is rendered with.

/-!
# Values

A template is rendered with one value for each of its slots. A value that is
absent leaves the template as it is. A list holds, for each repetition of an
element, the values of the slots inside it: a frame.
-/

namespace HtmlTemplate

inductive Value where
  | absent
  | bool (b : Bool)
  | int (n : Int)
  /-- Markup, which is written as it is. -/
  | text (markup : String)
  | list (frames : List (List Value))
deriving Inhabited

/-- The values of the slots of one context, by slot. -/
abbrev Frame := List Value

/-- The kinds of values. -/
inductive Value.Kind where
  | absent
  | bool
  | int
  | text
  | list
deriving DecidableEq

namespace Value

/-- The kind as it is named in messages. -/
def Kind.name : Kind → String
  | .absent => "absent value"
  | .bool => "bool"
  | .int => "int"
  | .text => "text"
  | .list => "list"

def kind : Value → Kind
  | .absent => .absent
  | .bool _ => .bool
  | .int _ => .int
  | .text _ => .text
  | .list _ => .list

/-- Every value counts as given but the absent one and `false`; an empty text and
    an empty list are given. -/
def isTruthy : Value → Bool
  | .absent => false
  | .bool b => b
  | _ => true

def isAbsent : Value → Bool
  | .absent => true
  | _ => false

/-- The markup of a value; a list has none. -/
def markup? : Value → Option String
  | .absent => some ""
  | .bool b => some (if b then "true" else "false")
  | .int n => some (toString n)
  | .text markup => some markup
  | .list _ => none

end Value

/-- The value at a slot of a frame; slots beyond its end are absent. -/
def Frame.get (frame : Frame) (slot : Nat) : Value := frame.getD slot .absent

end HtmlTemplate
