-- SUMMARY: Documents with a backend of their own, which makes renderers from templates or refuses them.
import HtmlTemplate.Document

/-!
# Backends

A backend makes a renderer from a template and its parameters, or refuses to. The
standard backend evaluates the template, or its normal form, and refuses nothing. A
document with that backend is a `Document`; here is one with any backend.
-/

namespace HtmlTemplate

/-- Makes what is called with arguments from a template and its parameters. -/
abbrev Backend := Template → Parameters → Except CompileError (Frame → Rendered)

/-- The backend that evaluates the template as it is, or its normal form. -/
def Backend.interpreter (optimizing : Bool) : Backend := fun template parameters =>
  .ok (Program.build optimizing template parameters).render

/-- What a backend made, with the number of the compilation: two renderers with one
    number are the same. -/
structure BackedRenderer where
  build : Nat
  render : Frame → Rendered

structure BackedDocument where
  declarations : Declarations
  compiler : Compiler := {}
  backend : Backend := .interpreter true
  compiled : Option BackedRenderer := none
  /-- How many compilations have succeeded. -/
  builds : Nat := 0

namespace BackedDocument

def ofTree (tree : Tree) (compiler : Compiler := {}) (backend : Backend := .interpreter true) :
    BackedDocument :=
  { declarations := .start tree, compiler, backend }

def isDirty (doc : BackedDocument) : Bool := doc.declarations.isDirty

/-- Put new declarations into a document, beside a result. -/
def withDeclarations {α : Type} (doc : BackedDocument) (result : α × Declarations) :
    α × BackedDocument :=
  (result.1, { doc with declarations := result.2 })

/-- Search below every node of a scope. -/
def resolve (doc : BackedDocument) (scope : ScopeId) (selector : String) :
    Except Error ScopeId × BackedDocument :=
  doc.withDeclarations (doc.declarations.resolve scope selector)

/-- Search the whole document. -/
def find (doc : BackedDocument) (selector : String) : Except Error ScopeId × BackedDocument :=
  doc.resolve Declarations.rootScope selector

/-- Log a mutation on a scope. -/
def log (doc : BackedDocument) (scope : ScopeId) (mutation : Mutation) :
    Except Error Nat × BackedDocument :=
  doc.withDeclarations (doc.declarations.log scope mutation)

/-- The context of the repeated region over a scope. -/
def nest (doc : BackedDocument) (scope : ScopeId) : Except Error ContextId × BackedDocument :=
  doc.withDeclarations (doc.declarations.nest scope)

/-- The parameters of a rendering. -/
def parameters (doc : BackedDocument) : Parameters :=
  ⟨Declarations.rootContext, doc.declarations.nextSlot Declarations.rootContext, true⟩

/-- The next renderer, if the compiler and the backend succeed. -/
def build (doc : BackedDocument) : Except CompileError BackedRenderer :=
  match doc.compiler.compile doc.declarations with
  | .error e => .error e
  | .ok template => (doc.backend template doc.parameters).map fun render => ⟨doc.builds, render⟩

/-- Keep a renderer of the current declarations. -/
def install (doc : BackedDocument) (renderer : BackedRenderer) : BackedDocument :=
  { doc with
    declarations := { doc.declarations with isDirty := false }
    compiled := some renderer
    builds := doc.builds + 1 }

/-- Compile the current declarations and keep the renderer. -/
def recompile (doc : BackedDocument) : Except Error BackedRenderer × BackedDocument :=
  match doc.build with
  | .error e => (.error (.compile e), doc)
  | .ok renderer => (.ok renderer, doc.install renderer)

/-- The renderer of the current declarations, compiled when there is a need. -/
def compile (doc : BackedDocument) : Except Error BackedRenderer × BackedDocument :=
  match doc.isDirty, doc.compiled with
  | false, some renderer => (.ok renderer, doc)
  | _, _ => doc.recompile

/-- Render with one value for each slot of the document; the last ones may be left
    out. -/
def render (doc : BackedDocument) (arguments : Frame) : Except Error String × BackedDocument :=
  match doc.compile with
  | (.error e, doc) => (.error e, doc)
  | (.ok renderer, doc) => ((renderer.render arguments).mapError .render, doc)

end BackedDocument

/-! ## The standard backend -/

/-- A renderer without the template that it evaluates. -/
def Renderer.backed (renderer : Renderer) : BackedRenderer :=
  ⟨renderer.build, renderer.program.render⟩

/-- A document with its backend beside it. -/
def Document.backed (doc : Document) : BackedDocument :=
  { declarations := doc.declarations
    compiler := doc.compiler
    backend := .interpreter doc.optimizing
    compiled := doc.compiled.map Renderer.backed
    builds := doc.builds }

end HtmlTemplate
