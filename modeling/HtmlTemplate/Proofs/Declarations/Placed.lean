-- SUMMARY: Where in the tree the nodes of scopes are: below the nodes of the region of their context.
import HtmlTemplate.Proofs.Operations
import HtmlTemplate.Proofs.Tree.Below
import Mathlib.Data.List.Induction

/-!
# The nodes of scopes

Every context has a region, the nodes that it was made for: the container for the
context of the document, and the nodes of the entered scope for the others. A scope
is either the one over the region of its context or the result of searches from
there, and then its nodes are elements strictly below the region.
-/

namespace HtmlTemplate

/-- Every one of the nodes is strictly below one of the tops. -/
def Tree.AllBelow (tree : Tree) (tops nodes : List NodeId) : Prop :=
  ∀ id ∈ nodes, ∃ top ∈ tops, tree.Below top id

theorem Tree.AllBelow.trans {tree : Tree} {tops nodes inner : List NodeId}
    (h : tree.AllBelow tops nodes) (h' : tree.AllBelow nodes inner) : tree.AllBelow tops inner := by
  intro id hid
  obtain ⟨node, hnode, hbelow⟩ := h' id hid
  obtain ⟨top, htop, hbelow'⟩ := h node hnode
  exact ⟨top, htop, hbelow'.trans hbelow⟩

namespace Declarations

variable {d : Declarations} {id : ScopeId} {scope : Scope}

/-! ## Operations that change something -/

/-- What a search from a scope finds. -/
def search (d : Declarations) (scope : Scope) (selector : Selector) : List NodeId :=
  scope.nodes.flatMap fun node => d.tree.select node selector

theorem resolve_snd (d : Declarations) (id : ScopeId) (selector : String) :
    (d.resolve id selector).2 = d ∨
      ∃ scope parsed, d.scope? id = some scope ∧ scope.child? selector = none ∧
        Selector.parse selector = .ok parsed ∧
        d.resolve id selector = (.ok ⟨d.scopes.size⟩,
          d.withFound id scope selector (d.search scope parsed)) := by
  unfold resolve
  split
  · exact .inl rfl
  next scope h =>
    split
    · exact .inl rfl
    next hchild =>
      split
      · exact .inl rfl
      next parsed hparse => exact .inr ⟨scope, parsed, h, hchild, hparse, rfl⟩

theorem log_snd (d : Declarations) (id : ScopeId) (mutation : Mutation) :
    (d.log id mutation).2 = d ∨
      ∃ scope, d.scope? id = some scope ∧ scope.slot? mutation = none ∧
        (d.log id mutation).2 = d.withLogged id scope mutation := by
  unfold log
  split
  · exact .inl rfl
  next scope h =>
    split
    · exact .inl rfl
    next hnew => exact .inr ⟨scope, h, hnew, rfl⟩

theorem nest_snd (d : Declarations) (id : ScopeId) :
    (d.nest id).2 = d ∨
      ∃ scope, d.scope? id = some scope ∧ scope.nested = none ∧
        (d.nest id).2 = d.withRegion id scope := by
  unfold nest
  split
  · exact .inl rfl
  next scope h =>
    split
    · exact .inl rfl
    next hnew => exact .inr ⟨scope, h, hnew, rfl⟩

/-! ## Scopes that are new -/

/-- The scope of what was found. -/
theorem scope?_withFound_new (hid : d.scope? id = some scope) (selector : String)
    (nodes : List NodeId) :
    (d.withFound id scope selector nodes).scope? ⟨d.scopes.size⟩ =
      some { id := ⟨d.scopes.size⟩, nodes, context := scope.context } := by
  have hne : (⟨d.scopes.size⟩ : ScopeId) ≠ id := by
    rintro rfl
    exact Nat.lt_irrefl _ (lt_of_scope? hid)
  rw [Declarations.withFound, scope?_updateScope, scope?_push]
  simp [hne]

/-- The scopes that selectors were resolved to, after one more search. -/
theorem child?_withFound {selector selector' : String} {nodes : List NodeId} {i j : ScopeId}
    {s : Scope} (hid : d.scope? id = some scope)
    (hs : (d.withFound id scope selector nodes).scope? i = some s)
    (hj : s.child? selector' = some j) :
    (∃ old, d.scope? i = some old ∧ old.child? selector' = some j) ∨
      i = id ∧ selector' = selector ∧ j = ⟨d.scopes.size⟩ := by
  have hlt : id.index ≠ d.scopes.size := Nat.ne_of_lt (lt_of_scope? hid)
  rw [Declarations.withFound, scope?_updateScope, scope?_push, Option.map_eq_some_iff] at hs
  obtain ⟨old, hold, rfl⟩ := hs
  by_cases hi : i = id
  · subst hi
    rw [if_neg hlt] at hold
    simp only [if_true, Scope.child?, List.lookup_append, Option.or_eq_some_iff] at hj
    rcases hj with hj | ⟨-, hj⟩
    · exact .inl ⟨old, hold, hj⟩
    · rw [List.lookup_cons, List.lookup_nil] at hj
      split at hj
      next hselector => exact .inr ⟨rfl, eq_of_beq hselector, (Option.some.inj hj).symm⟩
      next => cases hj
  · rw [if_neg hi] at hj
    split at hold
    · obtain rfl := Option.some.inj hold
      cases hj
    · exact .inl ⟨old, hold, hj⟩

/-- What was resolved is found again under its selector. -/
theorem child?_of_resolve {i j : ScopeId} {selector : String}
    (h : (d.resolve i selector).1 = .ok j) :
    ∃ s, (d.resolve i selector).2.scope? i = some s ∧ s.child? selector = some j := by
  unfold resolve at h ⊢
  split at h
  · cases h
  next s hs =>
    split at h
    next hchild =>
      cases h
      exact ⟨s, hs, hchild⟩
    next hchild =>
      split at h
      · cases h
      next parsed _ =>
        cases h
        have hlt : i.index ≠ d.scopes.size := Nat.ne_of_lt (lt_of_scope? hs)
        dsimp only
        rw [scope?_updateScope, scope?_push, if_neg hlt, hs, Option.map_some, if_pos rfl]
        refine ⟨_, rfl, ?_⟩
        have hnone : s.children.lookup selector = none := hchild
        simp [Scope.child?, List.lookup_append, hnone]

/-- The scope of a new region. -/
theorem scope?_withRegion_new (hid : d.scope? id = some scope) :
    (d.withRegion id scope).scope? ⟨d.scopes.size⟩ =
      some { id := ⟨d.scopes.size⟩, nodes := scope.nodes, context := ⟨d.contexts.size⟩ } := by
  have hne : (⟨d.scopes.size⟩ : ScopeId) ≠ id := by
    rintro rfl
    exact Nat.lt_irrefl _ (lt_of_scope? hid)
  have hpush : (d.register scope.nodes).2.scope? ⟨d.scopes.size⟩ =
      some { id := ⟨d.scopes.size⟩, nodes := scope.nodes, context := ⟨d.contexts.size⟩ } :=
    (scope?_push d _ _).trans (if_pos rfl)
  rw [Declarations.withRegion, scope?_updateScope, hpush]
  simp [hne]

/-- A scope with a region is not the one that gets a new region. -/
theorem scope?_withRegion_of_nested (hid : d.scope? id = some scope) (hnew : scope.nested = none)
    {i : ScopeId} {s : Scope} (hs : d.scope? i = some s) {c : ContextId} (hc : s.nested = some c) :
    (d.withRegion id scope).scope? i = some s := by
  have hi : i ≠ id := by
    rintro rfl
    obtain rfl := Option.some.inj (hs.symm.trans hid)
    cases hnew.symm.trans hc
  rw [scope?_withRegion id scope hs, if_neg hi]

/-! ## Regions -/

/-- The nodes that a context was made for. -/
def regionNodes (d : Declarations) (c : ContextId) : List NodeId :=
  (((d.context? c).bind fun context => d.scope? context.scope).map (·.nodes)).getD []

theorem regionNodes_eq {c : ContextId} {context : Context} (hcontext : d.context? c = some context)
    (hscope : d.scope? context.scope = some scope) : d.regionNodes c = scope.nodes := by
  simp [regionNodes, hcontext, hscope]

/-- Scopes are over regions, or they are where they were searched for. -/
structure Placed (d : Declarations) : Prop where
  /-- The scope that a context was made with. -/
  region : ∀ {c x}, d.context? c = some x → ∃ r, d.scope? x.scope = some r ∧ r.context = c
  regionNodes_root : d.regionNodes rootContext = [Tree.root]
  regionNodes_nested : ∀ {i s c}, d.scope? i = some s → s.nested = some c →
    d.regionNodes c = s.nodes
  /-- Every context but the first is nested in a scope. -/
  exists_nested : ∀ {c x}, d.context? c = some x → c ≠ rootContext →
    ∃ i s, d.scope? i = some s ∧ s.nested = some c
  below : ∀ {i s x}, d.scope? i = some s → d.context? s.context = some x → i ≠ x.scope →
    d.tree.AllBelow (d.regionNodes s.context) s.nodes
  child : ∀ {i s selector j}, d.scope? i = some s → s.child? selector = some j →
    ∃ t, d.scope? j = some t ∧ t.context = s.context ∧ d.tree.AllBelow s.nodes t.nodes
  inside : ∀ {i s}, d.scope? i = some s → ∀ node ∈ s.nodes,
    node = Tree.root ∨ d.tree.Below Tree.root node ∧ d.tree.isElement node = true

namespace Placed

theorem start (tree : Tree) : (Declarations.start tree).Placed := by
  have hscope : ∀ {i s}, (Declarations.start tree).scope? i = some s →
      i = rootScope ∧ s = { id := rootScope, nodes := [Tree.root], context := rootContext } :=
    of_scope?_start
  have hcontext : ∀ {c x}, (Declarations.start tree).context? c = some x →
      c = rootContext ∧ x = { id := rootContext, scope := rootScope } := by
    intro c x hx
    have hlt := lt_of_context? hx
    obtain ⟨index⟩ := c
    have hindex : index = 0 := by simpa [Declarations.start, register] using hlt
    subst hindex
    exact ⟨rfl, (Option.some.inj hx).symm⟩
  constructor
  case region => intro c x hx; obtain ⟨rfl, rfl⟩ := hcontext hx; exact ⟨_, rfl, rfl⟩
  case regionNodes_root => rfl
  case regionNodes_nested => intro i s c hs hc; obtain ⟨rfl, rfl⟩ := hscope hs; cases hc
  case exists_nested => intro c x hx hc; exact absurd (hcontext hx).1 hc
  case below =>
    intro i s x hs hx hi
    obtain ⟨rfl, rfl⟩ := hscope hs
    obtain ⟨-, rfl⟩ := hcontext hx
    exact absurd rfl hi
  case child => intro i s selector j hs hj; obtain ⟨rfl, rfl⟩ := hscope hs; cases hj
  case inside =>
    intro i s hs node hnode
    obtain ⟨rfl, rfl⟩ := hscope hs
    exact .inl (by simpa using hnode)

theorem exists_rootContext (h : d.Placed) : ∃ x, d.context? rootContext = some x := by
  cases hx : d.context? rootContext with
  | some x => exact ⟨x, rfl⟩
  | none =>
    have hroot := h.regionNodes_root
    simp [regionNodes, hx] at hroot

theorem regionNodes_withFound (h : d.Placed) (id : ScopeId) (scope : Scope) (selector : String)
    (nodes : List NodeId) (c : ContextId) :
    (d.withFound id scope selector nodes).regionNodes c = d.regionNodes c := by
  cases hx : d.context? c with
  | none =>
    have hx' : (d.withFound id scope selector nodes).context? c = none := hx
    simp [regionNodes, hx, hx']
  | some x =>
    obtain ⟨r, hr, -⟩ := h.region hx
    obtain ⟨children, hr'⟩ := scope?_withFound id scope selector nodes hr
    have hx' : (d.withFound id scope selector nodes).context? c = some x := hx
    rw [regionNodes_eq hx hr, regionNodes_eq hx' hr']

/-- What is found is strictly below the nodes of the scope, and so below the region. -/
theorem withFound (h : d.Placed) (hid : d.scope? id = some scope)
    (hbuilt : d.tree.Built) (selector : String) (parsed : Selector) :
    (d.withFound id scope selector (d.search scope parsed)).Placed := by
  have hregion := h.regionNodes_withFound id scope selector (d.search scope parsed)
  have hfound : d.tree.AllBelow scope.nodes (d.search scope parsed) := by
    intro node hnode
    obtain ⟨top, htop, hnode⟩ := List.mem_flatMap.mp hnode
    exact ⟨top, htop, (hbuilt.linked.of_mem_select hnode).1⟩
  constructor
  case region =>
    intro c x hx
    obtain ⟨r, hr, hcontext⟩ := h.region hx
    obtain ⟨children, hr'⟩ := scope?_withFound id scope selector (d.search scope parsed) hr
    exact ⟨_, hr', hcontext⟩
  case regionNodes_root => rw [hregion, h.regionNodes_root]
  case regionNodes_nested =>
    intro i s c hs hc
    obtain ⟨old, children, hold | ⟨-, rfl⟩, rfl⟩ := of_scope?_withFound hs
    · rw [hregion, h.regionNodes_nested hold hc]
    · cases hc
  case exists_nested =>
    intro c x hx hc
    obtain ⟨i, s, hs, hnested⟩ := h.exists_nested hx hc
    obtain ⟨children, hs'⟩ := scope?_withFound id scope selector (d.search scope parsed) hs
    exact ⟨i, _, hs', hnested⟩
  case below =>
    intro i s x hs hx hi
    rw [hregion]
    obtain ⟨old, children, hold | ⟨-, rfl⟩, rfl⟩ := of_scope?_withFound hs
    · exact (h.below hold hx hi :)
    · have hx' : d.context? scope.context = some x := hx
      by_cases hscope : id = x.scope
      · have hnodes : d.regionNodes scope.context = scope.nodes :=
          regionNodes_eq hx' (hscope ▸ hid)
        rw [hnodes]
        exact hfound
      · exact (h.below hid hx' hscope).trans hfound
  case child =>
    intro i s selector' j hs hj
    rcases child?_withFound hid hs hj with ⟨old, hold, hj⟩ | ⟨rfl, -, rfl⟩
    · obtain ⟨t, ht, hcontext, hbelow⟩ := h.child hold hj
      obtain ⟨children, hold'⟩ := scope?_withFound id scope selector (d.search scope parsed) hold
      obtain ⟨children', ht'⟩ := scope?_withFound id scope selector (d.search scope parsed) ht
      obtain rfl := Option.some.inj (hs.symm.trans hold')
      exact ⟨_, ht', hcontext, hbelow⟩
    · obtain ⟨children, hid'⟩ := scope?_withFound i scope selector (d.search scope parsed) hid
      obtain rfl := Option.some.inj (hs.symm.trans hid')
      exact ⟨_, scope?_withFound_new hid selector _, rfl, hfound⟩
  case inside =>
    intro i s hs node hnode
    obtain ⟨old, children, hold | ⟨-, rfl⟩, rfl⟩ := of_scope?_withFound hs
    · exact h.inside hold node hnode
    · obtain ⟨top, htop, hnode⟩ := List.mem_flatMap.mp hnode
      obtain ⟨hbelow, helement⟩ := hbuilt.linked.of_mem_select hnode
      rcases h.inside hid top htop with rfl | ⟨htop, -⟩
      · exact .inr ⟨hbelow, helement⟩
      · exact .inr ⟨htop.trans hbelow, helement⟩

theorem regionNodes_withLogged (h : d.Placed) (id : ScopeId) (scope : Scope) (mutation : Mutation)
    (c : ContextId) :
    (d.withLogged id scope mutation).regionNodes c = d.regionNodes c := by
  have hcontext := context?_withLogged d id scope mutation c
  cases hx : d.context? c with
  | none =>
    rw [hx, Option.map_none] at hcontext
    simp [regionNodes, hcontext, hx]
  | some x =>
    obtain ⟨r, hr, -⟩ := h.region hx
    rw [hx, Option.map_some] at hcontext
    obtain ⟨x', hx', hscope⟩ : ∃ x', (d.withLogged id scope mutation).context? c = some x' ∧
        x'.scope = x.scope := ⟨_, hcontext, by split <;> rfl⟩
    have hnodes := regionNodes_eq hx' (hscope ▸ scope?_withLogged id scope mutation hr)
    rw [hnodes, regionNodes_eq hx hr]

/-- Logging moves no scope. -/
theorem withLogged (h : d.Placed) (mutation : Mutation) :
    (d.withLogged id scope mutation).Placed := by
  have hregion := h.regionNodes_withLogged id scope mutation
  have hcontext : ∀ {c x}, (d.withLogged id scope mutation).context? c = some x →
      ∃ old, d.context? c = some old ∧ x.scope = old.scope := by
    intro c x hx
    rw [context?_withLogged, Option.map_eq_some_iff] at hx
    obtain ⟨old, hold, rfl⟩ := hx
    exact ⟨old, hold, by split <;> rfl⟩
  constructor
  case region =>
    intro c x hx
    obtain ⟨old, hold, hscope⟩ := hcontext hx
    obtain ⟨r, hr, hr_context⟩ := h.region hold
    rw [hscope]
    exact ⟨_, scope?_withLogged id scope mutation hr, hr_context⟩
  case regionNodes_root => rw [hregion, h.regionNodes_root]
  case regionNodes_nested =>
    intro i s c hs hc
    obtain ⟨old, hold, rfl⟩ := of_scope?_withLogged hs
    rw [hregion, h.regionNodes_nested hold hc]
  case exists_nested =>
    intro c x hx hc
    obtain ⟨old, hold, -⟩ := hcontext hx
    obtain ⟨i, s, hs, hnested⟩ := h.exists_nested hold hc
    exact ⟨i, _, scope?_withLogged id scope mutation hs, hnested⟩
  case below =>
    intro i s x hs hx hi
    obtain ⟨old, hold, rfl⟩ := of_scope?_withLogged hs
    obtain ⟨x', hx', hscope⟩ := hcontext hx
    rw [hregion]
    exact (h.below hold hx' (hscope ▸ hi) :)
  case child =>
    intro i s selector j hs hj
    obtain ⟨old, hold, rfl⟩ := of_scope?_withLogged hs
    obtain ⟨t, ht, ht_context, hbelow⟩ := h.child hold hj
    exact ⟨_, scope?_withLogged id scope mutation ht, ht_context, hbelow⟩
  case inside =>
    intro i s hs
    obtain ⟨old, hold, rfl⟩ := of_scope?_withLogged hs
    exact (h.inside hold :)

theorem regionNodes_withRegion (h : d.Placed) (hid : d.scope? id = some scope) (c : ContextId) :
    (d.withRegion id scope).regionNodes c =
      if c.index = d.contexts.size then scope.nodes else d.regionNodes c := by
  have hcontext := context?_withRegion d id scope c
  split
  next hc =>
    rw [if_pos hc] at hcontext
    have hnodes := regionNodes_eq hcontext (scope?_withRegion_new hid)
    rw [hnodes]
  next hc =>
    rw [if_neg hc] at hcontext
    cases hx : d.context? c with
    | none => simp [regionNodes, hcontext, hx]
    | some x =>
      obtain ⟨r, hr, -⟩ := h.region hx
      have hnodes := regionNodes_eq (hcontext.trans hx) (scope?_withRegion id scope hr)
      rw [hnodes, regionNodes_eq hx hr]

/-- The region of a new context has the nodes of the scope that it is nested in. -/
theorem withRegion (h : d.Placed) (hd : d.WellFormed) (hid : d.scope? id = some scope)
    (hnew : scope.nested = none) : (d.withRegion id scope).Placed := by
  have hregion := h.regionNodes_withRegion hid
  have hold_region {c x} (hx : d.context? c = some x) :
      (d.withRegion id scope).regionNodes c = d.regionNodes c := by
    rw [hregion, if_neg (Nat.ne_of_lt (lt_of_context? hx))]
  constructor
  case region =>
    intro c x hx
    rcases of_context?_withRegion hx with hx | ⟨rfl, rfl⟩
    · obtain ⟨r, hr, hr_context⟩ := h.region hx
      exact ⟨_, scope?_withRegion id scope hr, hr_context⟩
    · exact ⟨_, scope?_withRegion_new hid, rfl⟩
  case regionNodes_root =>
    obtain ⟨x, hx⟩ := h.exists_rootContext
    rw [hold_region hx, h.regionNodes_root]
  case regionNodes_nested =>
    intro i s c hs hc
    obtain ⟨-, -, hnodes, rfl⟩ | ⟨old, hold, -, hnodes, hc⟩ := of_nested_withRegion hid hs hc
    · rw [hregion, if_pos rfl, hnodes]
    · obtain ⟨-, x, hx⟩ := hd.nested_of hold hc
      rw [hold_region hx, h.regionNodes_nested hold hc, hnodes]
  case exists_nested =>
    intro c x hx hc
    rcases of_context?_withRegion hx with hx | ⟨rfl, rfl⟩
    · obtain ⟨i, s, hs, hnested⟩ := h.exists_nested hx hc
      exact ⟨i, s, scope?_withRegion_of_nested hid hnew hs hnested, hnested⟩
    · exact ⟨id, _, scope?_withRegion id scope hid, if_pos rfl⟩
  case below =>
    intro i s x hs hx hi
    obtain ⟨old, hold | ⟨rfl, rfl⟩, rfl⟩ := of_scope?_withRegion hs
    · obtain ⟨x', hx'⟩ := hd.context_of hold
      obtain rfl := Option.some.inj
        (hx.symm.trans (context?_withRegion_of_some id scope hx'))
      rw [hold_region hx']
      exact (h.below hold hx' hi :)
    · rcases of_context?_withRegion hx with hx | ⟨-, rfl⟩
      · exact absurd (lt_of_context? hx) (Nat.lt_irrefl _)
      · exact absurd rfl hi
  case child =>
    intro i s selector j hs hj
    obtain ⟨old, hold | ⟨rfl, rfl⟩, rfl⟩ := of_scope?_withRegion hs
    · obtain ⟨t, ht, ht_context, hbelow⟩ := h.child hold hj
      exact ⟨_, scope?_withRegion id scope ht, ht_context, hbelow⟩
    · cases hj
  case inside =>
    intro i s hs
    obtain ⟨old, hold | ⟨rfl, rfl⟩, rfl⟩ := of_scope?_withRegion hs
    · exact (h.inside hold :)
    · exact (h.inside hid :)

/-! ## Operations -/

theorem resolve (h : d.Placed) (hbuilt : d.tree.Built) (id : ScopeId) (selector : String) :
    (d.resolve id selector).2.Placed := by
  rcases d.resolve_snd id selector with heq | ⟨scope, parsed, hid, -, -, heq⟩
  · rw [heq]
    exact h
  · rw [heq]
    exact h.withFound hid hbuilt selector parsed

theorem log (h : d.Placed) (id : ScopeId) (mutation : Mutation) :
    (d.log id mutation).2.Placed := by
  rcases d.log_snd id mutation with heq | ⟨scope, -, -, heq⟩
  · rw [heq]
    exact h
  · rw [heq]
    exact h.withLogged mutation

theorem nest (h : d.Placed) (hd : d.WellFormed) (id : ScopeId) : (d.nest id).2.Placed := by
  rcases d.nest_snd id with heq | ⟨scope, hid, hnew, heq⟩
  · rw [heq]
    exact h
  · rw [heq]
    exact h.withRegion hd hid hnew

end Placed

end Declarations

namespace Document

/-- A compilation changes no declarations. -/
theorem compile_snd (doc : Document) :
    doc.compile.2 = doc ∨ ∃ template, doc.compile.2 = doc.rebuilt template := by
  unfold compile
  split
  · exact .inl rfl
  · unfold recompile
    split
    · exact .inl rfl
    · exact .inr ⟨_, rfl⟩

/-- What holds of nothing declared, and is kept by searching, logging, entering and
    compiling, holds of the declarations after every run. -/
theorem declarations_induction {P : Declarations → Prop} {tree : Tree} (hstart : P (.start tree))
    (hresolve : ∀ {d : Declarations}, P d → d.WellFormed → d.tree = tree → ∀ id selector,
      P (d.resolve id selector).2)
    (hlog : ∀ {d : Declarations}, P d → d.WellFormed → ∀ id mutation, P (d.log id mutation).2)
    (hnest : ∀ {d : Declarations}, P d → d.WellFormed → ∀ id, P (d.nest id).2)
    (hclean : ∀ {d : Declarations}, P d → P { d with isDirty := false })
    (compiler : Compiler) (optimizing : Bool) (operations : List Operation) :
    P ((ofTree tree compiler optimizing).run operations).declarations := by
  induction operations using List.reverseRecOn with
  | nil => exact hstart
  | append_singleton operations operation ih =>
    have hd := wellFormed_run tree compiler optimizing operations
    have htree := tree_run (ofTree tree compiler optimizing) operations
    rw [run_concat]
    generalize (ofTree tree compiler optimizing).run operations = doc at ih hd htree ⊢
    have hcompile : P doc.compile.2.declarations := by
      rcases doc.compile_snd with heq | ⟨template, heq⟩
      · rw [heq]
        exact ih
      · rw [heq]
        exact hclean ih
    cases operation with
    | find selector => exact hresolve ih hd htree _ selector
    | resolve scope selector => exact hresolve ih hd htree scope selector
    | log scope mutation => exact hlog ih hd scope mutation
    | nest scope => exact hnest ih hd scope
    | compile => exact hcompile
    | render arguments =>
      rw [perform, render_snd]
      exact hcompile

/-- After any operations on a tree that is built, scopes are where they were searched
    for. -/
theorem placed_run {tree : Tree} (hbuilt : tree.Built) (compiler : Compiler)
    (optimizing : Bool) (operations : List Operation) :
    ((ofTree tree compiler optimizing).run operations).declarations.Placed := by
  refine declarations_induction (.start tree) ?_ ?_ ?_ ?_ compiler optimizing operations
  · exact fun h _ htree => h.resolve (htree ▸ hbuilt)
  · exact fun h _ => h.log
  · exact fun h hd => h.nest hd
  · exact fun h => { h with }

theorem built_sectionTree : sectionTree.Built := by
  have htext : Content.text "a < b" ≠ .container := nofun
  have hnodes := ((Tree.Built.empty.createElement "section").createElement "p").create htext
  exact ((hnodes.appendLeaf Tree.root ⟨1⟩ rfl rfl rfl (by decide)).appendLeaf ⟨1⟩ ⟨2⟩ rfl rfl rfl
    (by decide)).appendLeaf ⟨2⟩ ⟨3⟩ rfl rfl rfl (by decide)

end Document

end HtmlTemplate
