-- SUMMARY: Mutations: the changes to elements that a document can declare, and how they are logged.

/-!
# Mutations

A mutation is a change to elements that is declared once and given a value at
each rendering. Its kind is a text, so that kinds can be added; five of them are
standard. A scope logs each mutation under its kind and arguments, with the slot
that its value has.
-/

namespace HtmlTemplate

/-- A mutation by its kind and its arguments. -/
structure Mutation where
  kind : String
  arguments : List String := []
deriving DecidableEq

namespace Mutation

/-- The content of an element is replaced by the value, if it is given. -/
def replaceInnerHtml : String := "replace-inner-html"

/-- The value is written after the content of an element. -/
def append : String := "append"

/-- The value is that of the attribute named by the argument. -/
def setAttribute : String := "set-attribute"

/-- An element is left out when the value is given. -/
def remove : String := "remove"

/-- An element is written once for each frame of the value. -/
def repeatEach : String := "repeat-each"

/-- The mutation as it is written in messages. -/
def description (mutation : Mutation) : String :=
  if mutation.arguments.isEmpty then mutation.kind
  else mutation.kind ++ "(" ++ ", ".intercalate mutation.arguments ++ ")"

end Mutation

/-- A mutation and its slot in the context of its scope. -/
structure LoggedMutation where
  mutation : Mutation
  slot : Nat
deriving DecidableEq

end HtmlTemplate
