-- SUMMARY: What can go wrong with a document: its selectors, its compilation and its rendering.
import HtmlTemplate.Selector.Reader
import HtmlTemplate.Template.Rendering
import HtmlTemplate.Tree

/-!
# Errors

Errors are causes with the nodes, variables and counts that they are about; their
wording is in the `message` functions. A compilation that fails leaves nothing
behind. In messages ids are written with the word for what they number.
-/

namespace HtmlTemplate

/-- The number of a scope in its document. -/
structure ScopeId where
  index : Nat
deriving DecidableEq

def ScopeId.label (id : ScopeId) : String := s!"ScopeId({id.index})"

/-- A node as it is written in messages. -/
def NodeId.label (id : NodeId) : String := s!"NodeId({id.index})"

/-- A node as it is written in messages; the largest number stands for no node. -/
def NodeId.labelOf (id : Option NodeId) : String := (id.getD ⟨4294967295⟩).label

/-- Why a document cannot be compiled. -/
inductive CompileError where
  /-- A node that templates cannot hold. -/
  | unrecognizedNode (node : NodeId) (category : Category)
  | unknownMutation (kind : String) (node : NodeId) (element : String)
  | invalidArguments (kind : String) (node : NodeId) (expected found : Nat)
  | notAnElement (kind : String) (node : NodeId) (category : Category)
  /-- A variable that is read outside the repetition that binds its context. -/
  | unboundVariable (kind : String) (node : Option NodeId) (var : Var)
  /-- A handler that gives up. -/
  | rejected (reason : String)
deriving DecidableEq

def CompileError.message : CompileError → String
  | .unrecognizedNode node category => s!"cannot compile {category.name} node {node.label}"
  | .unknownMutation kind node element =>
    s!"no handler registered for mutation `{kind}` (logged against <{element}>, " ++
      s!"node {node.label})"
  | .invalidArguments kind node expected found =>
    s!"mutation `{kind}` on node {node.label} expects {expected} argument(s), got {found}"
  | .notAnElement kind node category =>
    s!"mutation `{kind}` targets {category.name} node {node.label}; only elements can be mutated"
  | .unboundVariable kind node var =>
    let label := NodeId.labelOf node
    s!"mutation `{kind}` on node {label} reads `{var.name}` outside the repeated region " ++
      s!"that binds context {var.context.index}"
  | .rejected reason => s!"code generation failed: {reason}"

/-- Why something asked of a document fails. -/
inductive Error where
  | selector (error : Selector.Error)
  | compile (error : CompileError)
  | render (error : RenderError)
  /-- A scope that the document does not have. -/
  | unknownScope (scope : ScopeId)
deriving DecidableEq

def Error.message : Error → String
  | .selector error => error.message
  | .compile error => error.message
  | .render error => error.message
  | .unknownScope scope => s!"{scope.label} was not issued by this document"

end HtmlTemplate
