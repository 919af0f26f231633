-- SUMMARY: Where scopes and contexts come from: searches are remembered, and contexts form a tree.
import HtmlTemplate.Proofs.Declarations.Extends

/-!
# Origins of scopes and contexts

A scope is made in one of two ways, by a search from another scope or together with a
context, and both count from the same number. A search is remembered under its selector;
what it found, and for a region the scope that was entered, stay what they were.
`Declarations.Traced` says where each scope that is remembered and each context comes
from. It asks nothing of the tree, whose links may even lead round in a circle.
-/

namespace HtmlTemplate

namespace Declarations

variable {d d' : Declarations} {i j k : ScopeId} {c : ContextId} {scope : Scope}
  {selector selector' : String}

/-! ## Searches that are remembered -/

/-- The scope `k` is remembered under a selector of the scope `i`. -/
def Remembers (d : Declarations) (i : ScopeId) (selector : String) (k : ScopeId) : Prop :=
  ∃ s, d.scope? i = some s ∧ s.child? selector = some k

/-- The scope `k` is what the selector finds below the nodes of the scope `i`. -/
def Finds (d : Declarations) (i : ScopeId) (selector : String) (k : ScopeId) : Prop :=
  ∃ s t parsed, d.scope? i = some s ∧ d.scope? k = some t ∧
    Selector.parse selector = .ok parsed ∧ t.context = s.context ∧ t.nodes = d.search s parsed

/-- What is remembered is answered, and nothing changes. -/
theorem Remembers.resolve_eq (h : d.Remembers i selector k) :
    d.resolve i selector = (.ok k, d) := by
  obtain ⟨s, hs, hchild⟩ := h
  simp only [resolve, hs, hchild]

/-- Scopes keep their nodes and contexts, so what was found is found there later. -/
theorem Finds.extends (h : d.Finds i selector k) (hextends : d.Extends d') :
    d'.Finds i selector k := by
  obtain ⟨s, t, parsed, hs, ht, hparse, hcontext, hnodes⟩ := h
  obtain ⟨s', -, hs', hnodes_s, hcontext_s, -⟩ := hextends.scope hs
  obtain ⟨t', -, ht', hnodes_t, hcontext_t, -⟩ := hextends.scope ht
  refine ⟨s', t', parsed, hs', ht', hparse, ?_, ?_⟩
  · rw [hcontext_t, hcontext, hcontext_s]
  · rw [hnodes_t, hnodes, search, search, hnodes_s, hextends.tree]

theorem remembers_withLogged {id : ScopeId} {mutation : Mutation} :
    (d.withLogged id scope mutation).Remembers i selector k ↔ d.Remembers i selector k := by
  constructor
  · rintro ⟨s, hs, hchild⟩
    obtain ⟨old, hold, rfl⟩ := of_scope?_withLogged hs
    exact ⟨old, hold, hchild⟩
  · rintro ⟨s, hs, hchild⟩
    exact ⟨_, scope?_withLogged id scope mutation hs, hchild⟩

/-- Nothing is searched for yet from the scope of a new region. -/
theorem remembers_withRegion {id : ScopeId} :
    (d.withRegion id scope).Remembers i selector k ↔ d.Remembers i selector k := by
  constructor
  · rintro ⟨s, hs, hchild⟩
    obtain ⟨old, hold | ⟨-, rfl⟩, rfl⟩ := of_scope?_withRegion hs
    · exact ⟨old, hold, hchild⟩
    · cases hchild
  · rintro ⟨s, hs, hchild⟩
    exact ⟨_, scope?_withRegion id scope hs, hchild⟩

theorem Remembers.withFound (h : d.Remembers i selector' k) (id : ScopeId) (scope : Scope)
    (selector : String) (nodes : List NodeId) :
    (d.withFound id scope selector nodes).Remembers i selector' k := by
  obtain ⟨s, hs, hchild⟩ := h
  have hlt : i.index ≠ d.scopes.size := Nat.ne_of_lt (lt_of_scope? hs)
  rw [Remembers, Declarations.withFound, scope?_updateScope, scope?_push, if_neg hlt, hs,
    Option.map_some]
  refine ⟨_, rfl, ?_⟩
  split
  · have hlookup : s.children.lookup selector' = some k := hchild
    simp [Scope.child?, List.lookup_append, hlookup]
  · exact hchild

/-- What is remembered after a search was remembered before, or it is what was found. -/
theorem of_remembers_withFound {id : ScopeId} {nodes : List NodeId} (hid : d.scope? id = some scope)
    (h : (d.withFound id scope selector nodes).Remembers i selector' k) :
    d.Remembers i selector' k ∨ i = id ∧ selector' = selector ∧ k = ⟨d.scopes.size⟩ := by
  obtain ⟨s, hs, hchild⟩ := h
  rcases child?_withFound hid hs hchild with ⟨old, hold, hchild⟩ | hnew
  · exact .inl ⟨old, hold, hchild⟩
  · exact .inr hnew

/-- What is remembered stays so. -/
theorem Remembers.step (h : d.Remembers i selector k) (hstep : d.Step d') :
    d'.Remembers i selector k := by
  cases hstep with
  | same => exact h
  | found selector nodes hid => exact h.withFound _ _ selector nodes
  | logged mutation hid => exact remembers_withLogged.mpr h
  | entered hid => exact remembers_withRegion.mpr h

/-! ## Contexts -/

/-- The context was made with the scope `r`; any but the first is nested in a scope over
    the same nodes. -/
def MadeWith (d : Declarations) (c : ContextId) (r : ScopeId) : Prop :=
  ∃ region, d.scope? r = some region ∧ region.context = c ∧
    (c ≠ rootContext → ∃ i s, d.scope? i = some s ∧ s.nested = some c ∧ region.nodes = s.nodes)

theorem MadeWith.extends {r : ScopeId} (h : d.MadeWith c r) (hextends : d.Extends d') :
    d'.MadeWith c r := by
  obtain ⟨region, hregion, hcontext, hnested⟩ := h
  obtain ⟨region', -, hregion', hnodes', hcontext', -⟩ := hextends.scope hregion
  refine ⟨region', hregion', hcontext'.trans hcontext, fun hc => ?_⟩
  obtain ⟨i, s, hs, hnested, hnodes⟩ := hnested hc
  obtain ⟨s', -, hs', hnodes_s, -, hnested_s, -⟩ := hextends.scope hs
  exact ⟨i, s', hs', hnested_s c hnested, by rw [hnodes', hnodes, hnodes_s]⟩

/-! ## The invariant -/

/-- It is known of every scope that is remembered, and of every context, where it comes
    from. -/
structure Traced (d : Declarations) : Prop where
  finds : ∀ {i selector k}, d.Remembers i selector k → d.Finds i selector k
  /-- A scope is remembered under one selector of one scope. -/
  remembers_inj : ∀ {i j selector selector' k}, d.Remembers i selector k →
    d.Remembers j selector' k → i = j ∧ selector = selector'
  madeWith : ∀ {c x}, d.context? c = some x → d.MadeWith c x.scope

namespace Traced

theorem start (tree : Tree) : (Declarations.start tree).Traced := by
  have hnone : ∀ {i selector k}, ¬ (Declarations.start tree).Remembers i selector k := by
    rintro i selector k ⟨s, hs, hchild⟩
    obtain ⟨rfl, rfl⟩ := of_scope?_start hs
    cases hchild
  constructor
  case finds => exact fun h => absurd h hnone
  case remembers_inj => exact fun h => absurd h hnone
  case madeWith =>
    intro c x hx
    have hlt := lt_of_context? hx
    obtain ⟨index⟩ := c
    have hindex : index = 0 := by simpa [Declarations.start, register] using hlt
    subst hindex
    obtain rfl := Option.some.inj hx
    exact ⟨_, rfl, rfl, fun hc => absurd rfl hc⟩

/-- The scope that was found has a number that no scope had before. -/
theorem withFound (h : d.Traced) (hid : d.scope? i = some scope)
    {parsed : Selector} (hparse : Selector.parse selector = .ok parsed) :
    (d.withFound i scope selector (d.search scope parsed)).Traced := by
  have hextends := Extends.withFound d i scope selector (d.search scope parsed)
  have hfresh : ∀ {j selector'}, ¬ d.Remembers j selector' ⟨d.scopes.size⟩ := by
    intro j selector' hold
    obtain ⟨-, t, -, -, ht, -⟩ := h.finds hold
    exact Nat.lt_irrefl _ (lt_of_scope? ht)
  constructor
  case finds =>
    intro j selector' k hk
    rcases of_remembers_withFound hid hk with hold | ⟨rfl, rfl, rfl⟩
    · exact (h.finds hold).extends hextends
    · obtain ⟨children, hid'⟩ :=
        scope?_withFound j scope selector' (d.search scope parsed) hid
      exact ⟨_, _, parsed, hid', scope?_withFound_new hid selector' _, hparse, rfl, rfl⟩
  case remembers_inj =>
    intro j j' first second k hk hk'
    rcases of_remembers_withFound hid hk with hold | ⟨rfl, rfl, rfl⟩ <;>
      rcases of_remembers_withFound hid hk' with hold' | ⟨rfl, rfl, hnew⟩
    · exact h.remembers_inj hold hold'
    · exact absurd (hnew ▸ hold) hfresh
    · exact absurd hold' hfresh
    · exact ⟨rfl, rfl⟩
  case madeWith =>
    intro c x hx
    have hx' : d.context? c = some x := hx
    exact (h.madeWith hx').extends hextends

theorem withLogged (h : d.Traced) (hd : d.WellFormed) (hid : d.scope? i = some scope)
    (mutation : Mutation) : (d.withLogged i scope mutation).Traced := by
  have hextends := Extends.withLogged hd hid mutation
  constructor
  case finds => exact fun hk => (h.finds (remembers_withLogged.mp hk)).extends hextends
  case remembers_inj =>
    intro j j' first second k hk hk'
    exact h.remembers_inj (remembers_withLogged.mp hk) (remembers_withLogged.mp hk')
  case madeWith =>
    intro c x hx
    rw [context?_withLogged, Option.map_eq_some_iff] at hx
    obtain ⟨old, hold, rfl⟩ := hx
    have hmade := (h.madeWith hold).extends hextends
    split <;> exact hmade

/-- The new context is the one that is nested in the scope that was entered. -/
theorem withRegion (h : d.Traced) (hid : d.scope? i = some scope) (hnew : scope.nested = none) :
    (d.withRegion i scope).Traced := by
  have hextends := Extends.withRegion hid hnew
  constructor
  case finds => exact fun hk => (h.finds (remembers_withRegion.mp hk)).extends hextends
  case remembers_inj =>
    intro j j' first second k hk hk'
    exact h.remembers_inj (remembers_withRegion.mp hk) (remembers_withRegion.mp hk')
  case madeWith =>
    intro c x hx
    rcases of_context?_withRegion hx with hx | ⟨rfl, rfl⟩
    · exact (h.madeWith hx).extends hextends
    · exact ⟨_, scope?_withRegion_new hid, rfl, fun _ =>
        ⟨i, _, scope?_withRegion i scope hid, if_pos rfl, rfl⟩⟩

theorem resolve (h : d.Traced) (id : ScopeId) (selector : String) :
    (d.resolve id selector).2.Traced := by
  rcases d.resolve_snd id selector with heq | ⟨scope, parsed, hid, -, hparse, heq⟩
  · rw [heq]
    exact h
  · rw [heq]
    exact h.withFound hid hparse

theorem log (h : d.Traced) (hd : d.WellFormed) (id : ScopeId) (mutation : Mutation) :
    (d.log id mutation).2.Traced := by
  rcases d.log_snd id mutation with heq | ⟨scope, hid, -, heq⟩
  · rw [heq]
    exact h
  · rw [heq]
    exact h.withLogged hd hid mutation

theorem nest (h : d.Traced) (id : ScopeId) : (d.nest id).2.Traced := by
  rcases d.nest_snd id with heq | ⟨scope, hid, hnew, heq⟩
  · rw [heq]
    exact h
  · rw [heq]
    exact h.withRegion hid hnew

end Traced

end Declarations

namespace Document

variable {doc : Document} {i k : ScopeId} {selector : String}

theorem traced_run (tree : Tree) (compiler : Compiler) (optimizing : Bool)
    (operations : List Operation) :
    ((ofTree tree compiler optimizing).run operations).declarations.Traced := by
  refine declarations_induction (.start tree) ?_ ?_ ?_ ?_ compiler optimizing operations
  · exact fun h _ _ => h.resolve
  · exact fun h hd => h.log hd
  · exact fun h _ => h.nest
  · exact fun h => { h with }

theorem remembers_run (h : doc.declarations.Remembers i selector k) (operations : List Operation) :
    (doc.run operations).declarations.Remembers i selector k := by
  refine run_induction (P := fun doc => doc.declarations.Remembers i selector k) ?_ h operations
  intro doc doc' h hstep
  cases hstep with
  | same => exact h
  | declared hd => exact h.step hd
  | rebuilt => exact h

theorem resolve_of_remembers (h : doc.declarations.Remembers i selector k) :
    doc.resolve i selector = (.ok k, doc) := by
  simp only [resolve, h.resolve_eq, withDeclarations]

/-- After every run: what is remembered under a selector of a scope has the context of the
    scope and the nodes that the selector finds below its nodes, and is answered again
    without any change; a scope that a search answers is remembered from then on; no scope
    is remembered twice; scopes keep their nodes and contexts; and every context but the
    first is nested in exactly one scope, of an earlier context, and was made with a scope
    over the same nodes. -/
theorem scopes_run (tree : Tree) (compiler : Compiler) (optimizing : Bool)
    (operations : List Operation) :
    let doc := (ofTree tree compiler optimizing).run operations
    let d := doc.declarations
    (∀ i s selector k, d.scope? i = some s → s.child? selector = some k →
      (∃ child parsed, d.scope? k = some child ∧ Selector.parse selector = .ok parsed ∧
        child.context = s.context ∧
        child.nodes = s.nodes.flatMap fun node => tree.select node parsed) ∧
      doc.resolve i selector = (.ok k, doc)) ∧
    (∀ i selector k, (doc.resolve i selector).1 = .ok k → ∀ more,
      let later := (doc.resolve i selector).2.run more
      later.declarations.Remembers i selector k ∧ later.resolve i selector = (.ok k, later)) ∧
    (∀ i j s t selector selector' k, d.scope? i = some s → d.scope? j = some t →
      s.child? selector = some k → t.child? selector' = some k → i = j ∧ selector = selector') ∧
    (∀ i s, d.scope? i = some s → ∀ more, ∃ t, (doc.run more).declarations.scope? i = some t ∧
      t.nodes = s.nodes ∧ t.context = s.context) ∧
    (∀ c x, d.context? c = some x → ∃ region, d.scope? x.scope = some region ∧
      region.context = c ∧
      if c = Declarations.rootContext then ∀ i s, d.scope? i = some s → s.nested ≠ some c
      else ∃ i s, d.scope? i = some s ∧ s.nested = some c ∧
        (∀ j t, d.scope? j = some t → t.nested = some c → j = i) ∧
        s.context.index < c.index ∧ region.nodes = s.nodes) := by
  intro doc d
  have hd : d.WellFormed := wellFormed_run tree compiler optimizing operations
  have htraced : d.Traced := traced_run tree compiler optimizing operations
  have htree : d.tree = tree := tree_run _ operations
  refine ⟨?_, ?_, ?_, ?_, ?_⟩
  · intro i s selector k hs hchild
    have hremembers : d.Remembers i selector k := ⟨s, hs, hchild⟩
    obtain ⟨s', child, parsed, hs', hchild', hparse, hcontext, hnodes⟩ :=
      htraced.finds hremembers
    obtain rfl := Option.some.inj (hs.symm.trans hs')
    refine ⟨⟨child, parsed, hchild', hparse, hcontext, ?_⟩, resolve_of_remembers hremembers⟩
    rw [hnodes, Declarations.search, htree]
  · intro i selector k hanswer more later
    have hanswered : (doc.resolve i selector).2.declarations.Remembers i selector k :=
      Declarations.child?_of_resolve hanswer
    have hlater : later.declarations.Remembers i selector k := remembers_run hanswered more
    exact ⟨hlater, resolve_of_remembers hlater⟩
  · exact fun i j s t selector selector' k hs ht hk hk' =>
      htraced.remembers_inj ⟨s, hs, hk⟩ ⟨t, ht, hk'⟩
  · intro i s hs more
    obtain ⟨t, -, ht, hnodes, hcontext, -⟩ := (extends_run hd more).scope hs
    exact ⟨t, ht, hnodes, hcontext⟩
  · intro c x hx
    obtain ⟨region, hregion, hcontext, hnested⟩ := htraced.madeWith hx
    refine ⟨region, hregion, hcontext, ?_⟩
    split
    next hc =>
      intro i s hs hs_nested
      obtain ⟨hlt, -⟩ := hd.nested_of hs hs_nested
      rw [hc] at hlt
      exact absurd hlt (Nat.not_lt_zero _)
    next hc =>
      obtain ⟨i, s, hs, hs_nested, hnodes⟩ := hnested hc
      obtain ⟨hlt, -⟩ := hd.nested_of hs hs_nested
      exact ⟨i, s, hs, hs_nested, fun j t ht ht_nested => hd.nested_inj ht hs ht_nested hs_nested,
        hlt, hnodes⟩

end Document

end HtmlTemplate
