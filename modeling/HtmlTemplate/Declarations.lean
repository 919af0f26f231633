-- SUMMARY: What is declared about a tree: scopes of selected nodes, the mutations logged on them, and their slots.
import HtmlTemplate.Error
import HtmlTemplate.Mutation
import HtmlTemplate.Selector.Matching

/-!
# Declarations

Mutations are declared on scopes. A scope is a list of nodes: the container alone
for the first one, and what a selector selects below the nodes of another scope
for the rest. Asking again for the same selector of the same scope answers the
same scope.

Each scope belongs to a context, which hands out the slots for the mutations
logged on its scopes. A context is made for the document, and one for each scope
that is entered as a repeated region; such a context has a scope of its own over
the same nodes.

An operation answers its result, which may be an error, together with the
declarations after it.
-/

namespace HtmlTemplate

/-! ## Scopes and contexts -/

structure Scope where
  id : ScopeId
  nodes : List NodeId
  /-- The context that slots are taken from. -/
  context : ContextId
  /-- The mutations logged on the scope, in order. -/
  log : List LoggedMutation := []
  /-- The slots of the mutations logged on the scope, by the mutation. -/
  slots : List (Mutation × Nat) := []
  /-- The scopes that selectors were resolved to. -/
  children : List (String × ScopeId) := []
  /-- The context of the repeated region. -/
  nested : Option ContextId := none
deriving DecidableEq

namespace Scope

/-- The slot of a mutation that is logged. -/
def slot? (scope : Scope) (mutation : Mutation) : Option Nat := scope.slots.lookup mutation

/-- Log a mutation under a slot. -/
def record (scope : Scope) (mutation : Mutation) (slot : Nat) : Scope :=
  { scope with
    log := scope.log ++ [⟨mutation, slot⟩]
    slots := (mutation, slot) :: scope.slots }

/-- The scope that a selector was resolved to. -/
def child? (scope : Scope) (selector : String) : Option ScopeId := scope.children.lookup selector

end Scope

structure Context where
  id : ContextId
  slotCount : Nat := 0
  /-- The scope over the nodes that the context was made for. -/
  scope : ScopeId
deriving DecidableEq

namespace Context

def var (context : Context) (slot : Nat) : Var := ⟨context.id, slot⟩

/-- The parameters of a rendering. -/
def parameters (context : Context) : Parameters := ⟨context.id, context.slotCount, true⟩

/-- The parameters of a repetition. -/
def loopParameters (context : Context) : Parameters := ⟨context.id, context.slotCount, false⟩

end Context

/-! ## The index of mutated nodes -/

/-- For each node that is mutated, the scopes that mutate it, in the order in which
    they first logged something. -/
abbrev MutationIndex := List (NodeId × List ScopeId)

namespace MutationIndex

/-- The scopes that mutate a node. -/
def scopes (index : MutationIndex) (node : NodeId) : List ScopeId := (index.lookup node).getD []

/-- Note that a scope mutates a node. -/
def add (scope : ScopeId) (node : NodeId) : MutationIndex → MutationIndex
  | [] => [(node, [scope])]
  | (other, scopes) :: rest =>
    if other = node then
      (other, if scopes.contains scope then scopes else scopes ++ [scope]) :: rest
    else (other, scopes) :: add scope node rest

/-- Note that a scope mutates its nodes. -/
def addAll (index : MutationIndex) (scope : ScopeId) (nodes : List NodeId) : MutationIndex :=
  nodes.foldl (fun index node => add scope node index) index

end MutationIndex

/-! ## Declarations -/

structure Declarations where
  tree : Tree
  contexts : Array Context := #[]
  scopes : Array Scope := #[]
  index : MutationIndex := []
  /-- Something has been logged since the last successful compilation. -/
  isDirty : Bool := false

namespace Declarations

def context? (d : Declarations) (id : ContextId) : Option Context := d.contexts[id.index]?

def scope? (d : Declarations) (id : ScopeId) : Option Scope := d.scopes[id.index]?

/-- The context of the document. -/
def rootContext : ContextId := ⟨0⟩

/-- The scope of the container. -/
def rootScope : ScopeId := ⟨0⟩

/-- Make a context with a scope over some nodes. -/
def register (d : Declarations) (nodes : List NodeId) : ContextId × Declarations :=
  let context : ContextId := ⟨d.contexts.size⟩
  let scope : ScopeId := ⟨d.scopes.size⟩
  (context, { d with
    contexts := d.contexts.push { id := context, scope }
    scopes := d.scopes.push { id := scope, nodes, context } })

/-- The declarations of a tree that nothing is declared about. -/
def start (tree : Tree) : Declarations := (({ tree } : Declarations).register [Tree.root]).2

def updateScope (d : Declarations) (id : ScopeId) (change : Scope → Scope) : Declarations :=
  { d with scopes := d.scopes.modify id.index change }

/-- Search below every node of a scope. What is found is a scope of the same
    context, also when it is nothing. -/
def resolve (d : Declarations) (id : ScopeId) (selector : String) :
    Except Error ScopeId × Declarations :=
  match d.scope? id with
  | none => (.error (.unknownScope id), d)
  | some scope =>
    match scope.child? selector with
    | some child => (.ok child, d)
    | none =>
      match Selector.parse selector with
      | .error e => (.error (.selector e), d)
      | .ok parsed =>
        let child : ScopeId := ⟨d.scopes.size⟩
        let nodes := scope.nodes.flatMap fun node => d.tree.select node parsed
        let found : Scope := { id := child, nodes, context := scope.context }
        (.ok child,
          ({ d with scopes := d.scopes.push found }).updateScope id fun scope =>
            { scope with children := scope.children ++ [(selector, child)] })

/-- The next slot of a context. -/
def nextSlot (d : Declarations) (id : ContextId) : Nat := ((d.context? id).map (·.slotCount)).getD 0

/-- Log a mutation on a scope. A mutation that is logged already keeps its slot,
    and nothing changes. -/
def log (d : Declarations) (id : ScopeId) (mutation : Mutation) : Except Error Nat × Declarations :=
  match d.scope? id with
  | none => (.error (.unknownScope id), d)
  | some scope =>
    match scope.slot? mutation with
    | some slot => (.ok slot, d)
    | none =>
      let slot := d.nextSlot scope.context
      let d := { d with contexts := d.contexts.modify scope.context.index fun context =>
        { context with slotCount := context.slotCount + 1 } }
      let d := d.updateScope id fun scope => scope.record mutation slot
      (.ok slot, { d with index := d.index.addAll id scope.nodes, isDirty := true })

/-- The context of the repeated region over a scope, made when it is first asked
    for. -/
def nest (d : Declarations) (id : ScopeId) : Except Error ContextId × Declarations :=
  match d.scope? id with
  | none => (.error (.unknownScope id), d)
  | some scope =>
    match scope.nested with
    | some context => (.ok context, d)
    | none =>
      let (context, d) := d.register scope.nodes
      (.ok context, d.updateScope id fun scope => { scope with nested := some context })

/-- The scopes with mutations of a node, in the order in which they first logged
    something. -/
def touching (d : Declarations) (node : NodeId) : List Scope :=
  (d.index.scopes node).filterMap d.scope?

def isMutated (d : Declarations) (node : NodeId) : Bool := !(d.index.scopes node).isEmpty

/-- The mutations of a node with their scopes, in the order in which they are
    applied. -/
def mutationsOf (d : Declarations) (node : NodeId) : List (Scope × LoggedMutation) :=
  (d.touching node).flatMap fun scope => scope.log.map fun logged => (scope, logged)

/-- The scope and the mutation that own a variable. -/
def owner? (d : Declarations) (var : Var) : Option (Scope × LoggedMutation) :=
  (d.scopes.toList.filter (·.context == var.context)).findSome? fun scope =>
    (scope.log.find? (·.slot == var.slot)).map fun logged => (scope, logged)

end Declarations

end HtmlTemplate
