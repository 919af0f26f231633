-- SUMMARY: Compiling a tree and what is declared about it into a template.
import HtmlTemplate.Compiler.Attributes
import HtmlTemplate.Compiler.Handlers
import HtmlTemplate.Tree.Walk

/-!
# The compiler

The compiler walks the tree once. A node without mutations is compiled to its
markup; an element with mutations goes through the handlers of their kinds. In
the end every variable has to be read inside the repetition that binds its
context.
-/

namespace HtmlTemplate

structure Compiler where
  handlers : Handlers := .standard
  attributePass : AttributePass := .withOverrides

/-! ## Binding -/

namespace Template

/-- The variable, if its context is not among those that are bound. -/
def checkBound (bound : List ContextId) (var : Var) : Option Var :=
  if bound.contains var.context then none else some var

mutual

/-- The first variable that is read where its context is not bound. -/
def unbound? : Template → List ContextId → Option Var
  | .static _, _ => none
  | .dynamic var, bound => checkBound bound var
  | .sequence items, bound => unboundAmong? items bound
  | .choice condition yes no, bound =>
    checkBound bound condition.var <|> unbound? yes bound <|> unboundOption? no bound
  | .block repetition body, bound =>
    checkBound bound repetition.source <|>
      match repetition.frame with
      | some parameters => unbound? body (parameters.context :: bound)
      | none => unbound? body bound
  | .element _ attributes content, bound => unbound? attributes bound <|> unbound? content bound
  | .attr _ value, bound => unbound? value bound

def unboundAmong? : List Template → List ContextId → Option Var
  | [], _ => none
  | item :: rest, bound => unbound? item bound <|> unboundAmong? rest bound

def unboundOption? : Option Template → List ContextId → Option Var
  | some item, bound => unbound? item bound
  | none, _ => none

end

end Template

namespace Compiler

/-- The error about a variable that is not bound: its mutation, and the first node
    of the scope that logged it. -/
def unboundError (d : Declarations) (var : Var) : CompileError :=
  match d.owner? var with
  | some (scope, logged) => .unboundVariable logged.mutation.kind scope.nodes.head? var
  | none => .unboundVariable "" none var

/-! ## Elements with mutations -/

/-- Apply mutations to the plan of an element, in order. -/
def applyMutations (compiler : Compiler) (d : Declarations) (tag : String) :
    List (Scope × LoggedMutation) → Plan → Except CompileError Plan
  | [], plan => .ok plan
  | (scope, logged) :: rest, plan =>
    match compiler.handlers.get? logged.mutation.kind with
    | none => .error (.unknownMutation logged.mutation.kind plan.node tag)
    | some handler =>
      match handler plan ⟨d, scope⟩ ⟨scope.context, logged.slot⟩ logged.mutation.arguments with
      | .ok plan => compiler.applyMutations d tag rest plan
      | .error e => .error e

/-- Put an element together from its plan. Its children are compiled only when no
    handler has given it another content. -/
def assemble (compiler : Compiler) (d : Declarations) (tag : String)
    (children : Except CompileError (List Template)) (plan : Plan) :
    Except CompileError Template :=
  let content : Except CompileError Template := match plan.content with
    | some content => .ok content
    | none => children.map Template.sequence
  content.map fun content =>
    plan.applyOuter
      (.element tag (compiler.attributePass plan d.tree) (plan.applyInner content))

/-- Compile a node with mutations, given what its children compile to. -/
def compileMutated (compiler : Compiler) (d : Declarations) (id : NodeId) (content : Content)
    (children : Except CompileError (List Template)) : Except CompileError Template :=
  let mutations := d.mutationsOf id
  match content.element? with
  | none =>
    let kind := ((mutations.head?.map fun first => first.2.mutation.kind)).getD ""
    .error (.notAnElement kind id content.category)
  | some element =>
    let tag := d.tree.name element.name.localName
    match compiler.applyMutations d tag mutations { node := id } with
    | .error e => .error e
    | .ok plan => compiler.assemble d tag children plan

/-! ## The walk -/

/-- Whether the text right inside a node is written raw. -/
def holdsRawText (names : Names) : Content → Bool
  | .element element => Markup.isRawText (names.get element.name.localName)
  | _ => false

/-- Compile a node without mutations, given what its children compile to. -/
def compileUntouched (d : Declarations) (id : NodeId) (raw : Bool) (content : Content)
    (children : Except CompileError (List Template)) : Except CompileError Template :=
  match content with
  | .container => children.map Template.sequence
  | .element element =>
    children.map fun items =>
      .element (d.tree.name element.name.localName)
        (AttributePass.sourceAttributes d.tree element) (.sequence items)
  | .text text => .ok (.static (Markup.text raw text))
  | .doctype name publicId systemId =>
    .ok (.static (Markup.doctype (d.tree.name name) publicId systemId))
  | .comment _ => .error (.unrecognizedNode id .comment)
  | .instruction _ _ => .error (.unrecognizedNode id .instruction)

mutual

/-- Compile a branch; `raw` says that it is right inside a raw-text element. -/
def compileBranch (compiler : Compiler) (d : Declarations) (raw : Bool) :
    Branch → Except CompileError Template
  | .node id content children =>
    let children := compileBranches compiler d (holdsRawText d.tree.names content) children
    if d.isMutated id then compiler.compileMutated d id content children
    else compileUntouched d id raw content children

/-- Compile branches side by side; the first error counts. -/
def compileBranches (compiler : Compiler) (d : Declarations) (raw : Bool) :
    List Branch → Except CompileError (List Template)
  | [] => .ok []
  | branch :: rest =>
    match compileBranch compiler d raw branch with
    | .error e => .error e
    | .ok template => (compileBranches compiler d raw rest).map (template :: ·)

end

/-- Compile the whole tree. -/
def compile (compiler : Compiler) (d : Declarations) : Except CompileError Template :=
  let compiled : Except CompileError Template := match d.tree.branch? Tree.root with
    | some branch => compiler.compileBranch d false branch
    | none => .ok .empty
  match compiled with
  | .error e => .error e
  | .ok template =>
    match template.unbound? [Declarations.rootContext] with
    | some var => .error (unboundError d var)
    | none => .ok template

end Compiler

end HtmlTemplate
