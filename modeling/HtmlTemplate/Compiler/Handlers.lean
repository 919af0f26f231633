-- SUMMARY: Handlers: what each kind of mutation does to the plan of an element.
import HtmlTemplate.Text.Quoted
import HtmlTemplate.Compiler.Plan
import HtmlTemplate.Declarations

/-!
# Handlers

A handler is called once for each mutation of an element. It sees the plan so far,
the site of the mutation, its variable and its arguments, and answers the new plan
or an error. Five handlers are standard. A table keeps one handler for each kind.
-/

namespace HtmlTemplate

/-- Where a mutation is logged. -/
structure Site where
  declarations : Declarations
  scope : Scope

/-- The parameters of the repetition over the scope, if it was entered as a
    repeated region. -/
def Site.loopParameters? (site : Site) : Option Parameters :=
  (site.scope.nested.bind site.declarations.context?).map Context.loopParameters

abbrev Handler := Plan → Site → Var → List String → Except CompileError Plan

namespace Handler

/-- A handler that takes a number of arguments. -/
def expecting (kind : String) (count : Nat) (handler : Handler) : Handler :=
  fun plan site var arguments =>
    if arguments.length = count then handler plan site var arguments
    else .error (.invalidArguments kind plan.node count arguments.length)

/-- The content is the value, if it is given. -/
def replaceInnerHtml : Handler :=
  expecting Mutation.replaceInnerHtml 0 fun plan _ var _ =>
    .ok (plan.wrapInner fun content => .choice (.truthy var) (.dynamic var) (some content))

/-- The value comes after the content. -/
def append : Handler :=
  expecting Mutation.append 0 fun plan _ var _ =>
    .ok (plan.wrapInner fun content => .sequence [content, .dynamic var])

/-- The value overrides the attribute. -/
def setAttribute : Handler :=
  expecting Mutation.setAttribute 1 fun plan _ var arguments =>
    .ok (arguments.foldl (fun plan name => plan.override name var) plan)

/-- The element is left out when the value is given. -/
def remove : Handler :=
  expecting Mutation.remove 0 fun plan _ var _ =>
    .ok (plan.wrapOuter fun element => .choice (.falsy var) element none)

/-- The element is repeated over the value. -/
def repeatEach : Handler :=
  expecting Mutation.repeatEach 0 fun plan site var _ =>
    .ok (plan.wrapOuter fun element => .block ⟨var, site.loopParameters?⟩ element)

end Handler

/-- Handlers by kind; no kind is in the table twice. -/
structure Handlers where
  entries : List (String × Handler) := []

namespace Handlers

def get? (handlers : Handlers) (kind : String) : Option Handler := handlers.entries.lookup kind

def contains (handlers : Handlers) (kind : String) : Bool := (handlers.get? kind).isSome

/-- Take the handler of a kind out of the table. -/
def erase (handlers : Handlers) (kind : String) : Handlers :=
  ⟨handlers.entries.filter (·.1 != kind)⟩

/-- Give a kind a handler, in place of the one it may have. -/
def insert (handlers : Handlers) (kind : String) (handler : Handler) : Handlers :=
  ⟨(handlers.erase kind).entries ++ [(kind, handler)]⟩

/-- The five standard handlers by their kinds. -/
def standard : Handlers :=
  ⟨[(Mutation.replaceInnerHtml, .replaceInnerHtml), (Mutation.append, .append),
    (Mutation.setAttribute, .setAttribute), (Mutation.remove, .remove),
    (Mutation.repeatEach, .repeatEach)]⟩

/-- The kinds in the table, in order. -/
def kinds (handlers : Handlers) : List String :=
  (handlers.entries.map (·.1)).mergeSort fun a b => a ≤ b

/-- The table as it is written in messages. -/
def description (handlers : Handlers) : String :=
  "HandlerTable \x7b kinds: [" ++ ", ".intercalate (handlers.kinds.map quoted) ++ "] \x7d"

end Handlers

end HtmlTemplate
