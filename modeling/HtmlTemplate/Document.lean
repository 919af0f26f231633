-- SUMMARY: Documents: a tree, what is declared about it, and the program that it was last compiled to.
import HtmlTemplate.Compiler

/-!
# Documents

A document is compiled when it is rendered, and then again only after something
new has been logged. A compilation that fails leaves the last program in place,
and the document is still due for one.
-/

namespace HtmlTemplate

/-- A program with the number of the compilation that made it: two renderers with
    one number are the same. -/
structure Renderer where
  build : Nat
  program : Program

structure Document where
  declarations : Declarations
  compiler : Compiler := {}
  /-- Whether programs are made from normal forms. -/
  optimizing : Bool := true
  compiled : Option Renderer := none
  /-- How many compilations have succeeded. -/
  builds : Nat := 0

namespace Document

/-- A document over a tree with nothing declared. -/
def ofTree (tree : Tree) (compiler : Compiler := {}) (optimizing : Bool := true) : Document :=
  { declarations := .start tree, compiler, optimizing }

def tree (doc : Document) : Tree := doc.declarations.tree

def isDirty (doc : Document) : Bool := doc.declarations.isDirty

/-- Put new declarations into a document, beside a result. -/
def withDeclarations {α : Type} (doc : Document) (result : α × Declarations) : α × Document :=
  (result.1, { doc with declarations := result.2 })

/-- Search below every node of a scope. -/
def resolve (doc : Document) (scope : ScopeId) (selector : String) :
    Except Error ScopeId × Document :=
  doc.withDeclarations (doc.declarations.resolve scope selector)

/-- Search the whole document. -/
def find (doc : Document) (selector : String) : Except Error ScopeId × Document :=
  doc.resolve Declarations.rootScope selector

/-- Log a mutation on a scope. -/
def log (doc : Document) (scope : ScopeId) (mutation : Mutation) : Except Error Nat × Document :=
  doc.withDeclarations (doc.declarations.log scope mutation)

/-- The context of the repeated region over a scope. -/
def nest (doc : Document) (scope : ScopeId) : Except Error ContextId × Document :=
  doc.withDeclarations (doc.declarations.nest scope)

/-- The template of the current declarations, not in normal form. -/
def template (doc : Document) : Except CompileError Template :=
  doc.compiler.compile doc.declarations

/-- The parameters of a rendering. -/
def parameters (doc : Document) : Parameters :=
  ⟨Declarations.rootContext, doc.declarations.nextSlot Declarations.rootContext, true⟩

/-- Compile the current declarations and keep the program. -/
def recompile (doc : Document) : Except Error Renderer × Document :=
  match doc.template with
  | .error e => (.error (.compile e), doc)
  | .ok template =>
    let renderer := ⟨doc.builds, .build doc.optimizing template doc.parameters⟩
    (.ok renderer, { doc with
      declarations := { doc.declarations with isDirty := false }
      compiled := some renderer
      builds := doc.builds + 1 })

/-- The renderer of the current declarations, compiled when there is a need. -/
def compile (doc : Document) : Except Error Renderer × Document :=
  match doc.isDirty, doc.compiled with
  | false, some renderer => (.ok renderer, doc)
  | _, _ => doc.recompile

/-- Render with one value for each slot of the document; the last ones may be left
    out. -/
def render (doc : Document) (arguments : Frame) : Except Error String × Document :=
  match doc.compile with
  | (.error e, doc) => (.error e, doc)
  | (.ok renderer, doc) => ((renderer.program.render arguments).mapError .render, doc)

/-- The document as it is written in messages. -/
def description (doc : Document) : String :=
  let d := doc.declarations
  s!"Document \x7b nodes: {d.tree.size}, contexts: {d.contexts.size}, " ++
    s!"scopes: {d.scopes.size}, dirty: {d.isDirty}, compiled: {doc.compiled.isSome} \x7d"

end Document

end HtmlTemplate
