-- SUMMARY: The invariant of declarations, and that every operation keeps it.
import HtmlTemplate.Proofs.Declarations

/-!
# Well-formed declarations

Declarations that come from operations on a tree keep their numbers straight:
scopes and contexts stand at their numbers, the slots of a scope are those of its
log, every slot below the count of its context belongs to at most one logged
mutation, every nested context to one scope, and the index notes exactly the scopes
with mutations. Nested contexts are made
after the context of their scope, so contexts are nested without circles.
-/

namespace HtmlTemplate.Declarations

structure WellFormed (d : Declarations) : Prop where
  scope_id : ∀ {i s}, d.scope? i = some s → s.id = i
  context_id : ∀ {c x}, d.context? c = some x → x.id = c
  /-- Every scope belongs to a context. -/
  context_of : ∀ {i s}, d.scope? i = some s → ∃ x, d.context? s.context = some x
  /-- The table of slots says what the log says. -/
  slot_iff : ∀ {i s m k}, d.scope? i = some s → (s.slot? m = some k ↔ ⟨m, k⟩ ∈ s.log)
  slot_lt : ∀ {i s l}, d.scope? i = some s → l ∈ s.log → l.slot < d.nextSlot s.context
  /-- A slot of a context is owned by one mutation of one scope. -/
  slot_inj : ∀ {i j s t l m}, d.scope? i = some s → d.scope? j = some t →
    s.context = t.context → l ∈ s.log → m ∈ t.log → l.slot = m.slot → i = j ∧ l = m
  nested_of : ∀ {i s c}, d.scope? i = some s → s.nested = some c →
    s.context.index < c.index ∧ ∃ x, d.context? c = some x
  /-- A context is nested in one scope. -/
  nested_inj : ∀ {i j s t c}, d.scope? i = some s → d.scope? j = some t →
    s.nested = some c → t.nested = some c → i = j
  /-- The index notes the scopes with mutations for their nodes, and no other scope. -/
  mem_index : ∀ {i node}, i ∈ d.index.scopes node ↔
    ∃ s, d.scope? i = some s ∧ s.log ≠ [] ∧ node ∈ s.nodes

namespace WellFormed

variable {d : Declarations} {id : ScopeId} {scope : Scope}

theorem start (tree : Tree) : (Declarations.start tree).WellFormed := by
  have hscope : ∀ {i s}, (Declarations.start tree).scope? i = some s →
      i = rootScope ∧ s = { id := rootScope, nodes := [Tree.root], context := rootContext } :=
    of_scope?_start
  have hcontext : ∀ {c x}, (Declarations.start tree).context? c = some x →
      c = rootContext ∧ x = { id := rootContext, scope := rootScope } := by
    intro c x hx
    have hlt := lt_of_context? hx
    obtain ⟨index⟩ := c
    have hindex : index = 0 := by simpa [Declarations.start, register] using hlt
    subst hindex
    exact ⟨rfl, (Option.some.inj hx).symm⟩
  constructor
  case scope_id => intro i s hs; obtain ⟨rfl, rfl⟩ := hscope hs; rfl
  case context_id => intro c x hx; obtain ⟨rfl, rfl⟩ := hcontext hx; rfl
  case context_of => intro i s hs; obtain ⟨rfl, rfl⟩ := hscope hs; exact ⟨_, rfl⟩
  case slot_iff => intro i s m k hs; obtain ⟨rfl, rfl⟩ := hscope hs; simp [Scope.slot?]
  case slot_lt => intro i s l hs hl; obtain ⟨rfl, rfl⟩ := hscope hs; cases hl
  case slot_inj => intro i j s t l m hs _ _ hl; obtain ⟨rfl, rfl⟩ := hscope hs; cases hl
  case nested_of => intro i s c hs hc; obtain ⟨rfl, rfl⟩ := hscope hs; cases hc
  case nested_inj => intro i j s t c hs _ hc; obtain ⟨rfl, rfl⟩ := hscope hs; cases hc
  case mem_index =>
    intro i node
    constructor
    · intro h
      cases h
    · rintro ⟨s, hs, hlog, -⟩
      obtain ⟨rfl, rfl⟩ := hscope hs
      exact absurd rfl hlog

/-- The new scope of a selector has no mutations and no region, so that all which
    is said about them comes from the scopes that were there. -/
theorem withFound (h : d.WellFormed) (hid : d.scope? id = some scope) (selector : String)
    (nodes : List NodeId) : (d.withFound id scope selector nodes).WellFormed := by
  constructor
  case scope_id =>
    intro i s hs
    obtain ⟨old, children, hold | ⟨-, rfl⟩, rfl⟩ := of_scope?_withFound hs
    · exact (h.scope_id hold :)
    · rfl
  case context_id => exact h.context_id
  case context_of =>
    intro i s hs
    obtain ⟨old, children, hold | ⟨-, rfl⟩, rfl⟩ := of_scope?_withFound hs
    · exact (h.context_of hold :)
    · exact (h.context_of hid :)
  case slot_iff =>
    intro i s m k hs
    obtain ⟨old, children, hold | ⟨-, rfl⟩, rfl⟩ := of_scope?_withFound hs
    · exact (h.slot_iff hold :)
    · simp [Scope.slot?]
  case slot_lt =>
    intro i s l hs hl
    obtain ⟨old, children, hold | ⟨-, rfl⟩, rfl⟩ := of_scope?_withFound hs
    · exact (h.slot_lt hold hl :)
    · cases hl
  case slot_inj =>
    intro i j s t l m hs ht hcontext hl hm hslot
    obtain ⟨old, children, hold | ⟨-, rfl⟩, rfl⟩ := of_scope?_withFound hs
    · obtain ⟨old', children', hold' | ⟨-, rfl⟩, rfl⟩ := of_scope?_withFound ht
      · exact h.slot_inj hold hold' hcontext hl hm hslot
      · cases hm
    · cases hl
  case nested_of =>
    intro i s c hs hc
    obtain ⟨old, children, hold | ⟨-, rfl⟩, rfl⟩ := of_scope?_withFound hs
    · exact (h.nested_of hold hc :)
    · cases hc
  case nested_inj =>
    intro i j s t c hs ht hc hc'
    obtain ⟨old, children, hold | ⟨-, rfl⟩, rfl⟩ := of_scope?_withFound hs
    · obtain ⟨old', children', hold' | ⟨-, rfl⟩, rfl⟩ := of_scope?_withFound ht
      · exact h.nested_inj hold hold' hc hc'
      · cases hc'
    · cases hc
  case mem_index =>
    intro i node
    refine h.mem_index.trans ⟨?_, ?_⟩
    · rintro ⟨s, hs, hlog, hnode⟩
      obtain ⟨children, hs'⟩ := scope?_withFound id scope selector nodes hs
      exact ⟨_, hs', hlog, hnode⟩
    · rintro ⟨s, hs, hlog, hnode⟩
      obtain ⟨old, children, hold | ⟨-, rfl⟩, rfl⟩ := of_scope?_withFound hs
      · exact ⟨old, hold, hlog, hnode⟩
      · exact absurd rfl hlog

/-- The slot of a new mutation is beyond every slot of its context. -/
theorem withLogged (h : d.WellFormed) (hid : d.scope? id = some scope) {mutation : Mutation}
    (hslot : scope.slot? mutation = none) : (d.withLogged id scope mutation).WellFormed := by
  have hnext := nextSlot_withLogged d id mutation (h.context_of hid)
  constructor
  case scope_id =>
    intro i s hs
    obtain ⟨old, hold, rfl⟩ := of_scope?_withLogged hs
    exact (h.scope_id hold :)
  case context_id =>
    intro c x hx
    rw [context?_withLogged, Option.map_eq_some_iff] at hx
    obtain ⟨old, hold, rfl⟩ := hx
    split <;> exact (h.context_id hold :)
  case context_of =>
    intro i s hs
    obtain ⟨old, hold, rfl⟩ := of_scope?_withLogged hs
    obtain ⟨x, hx⟩ := h.context_of hold
    exact ⟨_, by rw [context?_withLogged, hx, Option.map_some]⟩
  case slot_iff =>
    intro i s m k hs
    obtain ⟨old, hold, rfl⟩ := of_scope?_withLogged hs
    have hiff := h.slot_iff (m := m) (k := k) hold
    by_cases hi : i = id
    · subst hi
      obtain rfl := Option.some.inj (hold.symm.trans hid)
      simp only [Scope.slot?, if_true, List.lookup_cons, List.mem_append, List.mem_singleton,
        LoggedMutation.mk.injEq] at hiff hslot ⊢
      by_cases hm : m = mutation
      · subst hm
        have hmem : ⟨m, k⟩ ∉ old.log := fun hmem => by simp [hiff.mpr hmem] at hslot
        simp [hmem, eq_comm]
      · have hne : (m == mutation) = false := by simpa using hm
        simp [hne, hm, hiff]
    · simpa only [Scope.slot?, hi, if_false] using hiff
  case slot_lt =>
    intro i s l hs hl
    obtain ⟨old, hold, hcontext, -, hl | ⟨rfl, rfl, rfl⟩⟩ := of_mem_log_withLogged hid hs hl
    · have hlt := h.slot_lt hold hl
      rw [hnext, hcontext]
      split <;> omega
    · rw [hnext, hcontext, if_pos rfl]
      exact Nat.lt_succ_self _
  case slot_inj =>
    intro i j s t l m hs ht hcontext hl hm hslot
    obtain ⟨old, hold, hs_context, -, hl⟩ := of_mem_log_withLogged hid hs hl
    obtain ⟨old', hold', ht_context, -, hm⟩ := of_mem_log_withLogged hid ht hm
    rw [hs_context, ht_context] at hcontext
    rcases hl with hl | ⟨rfl, rfl, rfl⟩ <;> rcases hm with hm | ⟨rfl, rfl, rfl⟩
    · exact h.slot_inj hold hold' hcontext hl hm hslot
    · have hlt := h.slot_lt hold hl
      rw [hcontext, hslot] at hlt
      exact absurd hlt (Nat.lt_irrefl _)
    · have hlt := h.slot_lt hold' hm
      rw [← hcontext, ← hslot] at hlt
      exact absurd hlt (Nat.lt_irrefl _)
    · exact ⟨rfl, rfl⟩
  case nested_of =>
    intro i s c hs hc
    obtain ⟨old, hold, rfl⟩ := of_scope?_withLogged hs
    obtain ⟨hlt, x, hx⟩ := h.nested_of hold hc
    exact ⟨hlt, _, by rw [context?_withLogged, hx, Option.map_some]⟩
  case nested_inj =>
    intro i j s t c hs ht hc hc'
    obtain ⟨old, hold, rfl⟩ := of_scope?_withLogged hs
    obtain ⟨old', hold', rfl⟩ := of_scope?_withLogged ht
    exact h.nested_inj hold hold' hc hc'
  case mem_index =>
    intro i node
    rw [mem_scopes_withLogged]
    constructor
    · rintro (hmem | ⟨rfl, hnode⟩)
      · obtain ⟨s, hs, hlog, hnode⟩ := h.mem_index.mp hmem
        refine ⟨_, scope?_withLogged id scope mutation hs, ?_, hnode⟩
        dsimp only
        split
        · exact List.append_ne_nil_of_left_ne_nil hlog _
        · exact hlog
      · refine ⟨_, scope?_withLogged i scope mutation hid, ?_, hnode⟩
        rw [if_pos rfl]
        exact List.concat_ne_nil _ _
    · rintro ⟨s, hs, hlog, hnode⟩
      obtain ⟨old, hold, rfl⟩ := of_scope?_withLogged hs
      by_cases hi : i = id
      · subst hi
        obtain rfl := Option.some.inj (hold.symm.trans hid)
        exact .inr ⟨rfl, hnode⟩
      · have hlog' : old.log ≠ [] := fun hnil => hlog ((if_neg hi).trans hnil)
        exact .inl (h.mem_index.mpr ⟨old, hold, hlog', hnode⟩)

/-- A new context is nested in the scope that was entered, and in no other. -/
theorem withRegion (h : d.WellFormed) (hid : d.scope? id = some scope) :
    (d.withRegion id scope).WellFormed := by
  have hnext := nextSlot_withRegion d id scope
  constructor
  case scope_id =>
    intro i s hs
    obtain ⟨old, hold | ⟨-, rfl⟩, rfl⟩ := of_scope?_withRegion hs
    · exact (h.scope_id hold :)
    · rfl
  case context_id =>
    intro c x hx
    rcases of_context?_withRegion hx with hx | ⟨rfl, rfl⟩
    · exact h.context_id hx
    · rfl
  case context_of =>
    intro i s hs
    obtain ⟨old, hold | ⟨-, rfl⟩, rfl⟩ := of_scope?_withRegion hs
    · obtain ⟨x, hx⟩ := h.context_of hold
      exact ⟨x, context?_withRegion_of_some id scope hx⟩
    · exact ⟨_, by rw [context?_withRegion, if_pos rfl]⟩
  case slot_iff =>
    intro i s m k hs
    obtain ⟨old, hold | ⟨-, rfl⟩, rfl⟩ := of_scope?_withRegion hs
    · exact (h.slot_iff hold :)
    · simp [Scope.slot?]
  case slot_lt =>
    intro i s l hs hl
    rw [hnext]
    obtain ⟨old, hold | ⟨-, rfl⟩, rfl⟩ := of_scope?_withRegion hs
    · exact (h.slot_lt hold hl :)
    · cases hl
  case slot_inj =>
    intro i j s t l m hs ht hcontext hl hm hslot
    obtain ⟨old, hold | ⟨-, rfl⟩, rfl⟩ := of_scope?_withRegion hs
    · obtain ⟨old', hold' | ⟨-, rfl⟩, rfl⟩ := of_scope?_withRegion ht
      · exact h.slot_inj hold hold' hcontext hl hm hslot
      · cases hm
    · cases hl
  case nested_of =>
    intro i s c hs hc
    obtain ⟨-, hcontext, -, rfl⟩ | ⟨old, hold, hcontext, -, hc⟩ := of_nested_withRegion hid hs hc
    · obtain ⟨x, hx⟩ := h.context_of hid
      rw [hcontext]
      exact ⟨lt_of_context? hx, _, by rw [context?_withRegion, if_pos rfl]⟩
    · obtain ⟨hlt, x, hx⟩ := h.nested_of hold hc
      rw [hcontext]
      exact ⟨hlt, x, context?_withRegion_of_some id scope hx⟩
  case nested_inj =>
    intro i j s t c hs ht hc hc'
    -- The context of an older region has a smaller number than the new one.
    have hold_lt : ∀ {j t}, d.scope? j = some t → t.nested = some c → c ≠ ⟨d.contexts.size⟩ := by
      intro j t ht hc
      obtain ⟨-, x, hx⟩ := h.nested_of ht hc
      rintro rfl
      exact absurd (lt_of_context? hx) (Nat.lt_irrefl _)
    obtain ⟨rfl, -, -, hnew⟩ | ⟨old, hold, -, -, hc⟩ := of_nested_withRegion hid hs hc <;>
      obtain ⟨rfl, -, -, hnew'⟩ | ⟨old', hold', -, -, hc'⟩ := of_nested_withRegion hid ht hc'
    · rfl
    · exact absurd hnew (hold_lt hold' hc')
    · exact absurd hnew' (hold_lt hold hc)
    · exact h.nested_inj hold hold' hc hc'
  case mem_index =>
    intro i node
    refine h.mem_index.trans ⟨?_, ?_⟩
    · rintro ⟨s, hs, hlog, hnode⟩
      exact ⟨_, scope?_withRegion id scope hs, hlog, hnode⟩
    · rintro ⟨s, hs, hlog, hnode⟩
      obtain ⟨old, hold | ⟨-, rfl⟩, rfl⟩ := of_scope?_withRegion hs
      · exact ⟨old, hold, hlog, hnode⟩
      · exact absurd rfl hlog

/-- No operation breaks the invariant. -/
theorem step {d' : Declarations} (h : d.WellFormed) (hstep : d.Step d') : d'.WellFormed := by
  cases hstep with
  | same => exact h
  | found selector nodes hid => exact h.withFound hid selector nodes
  | logged mutation hid hslot => exact h.withLogged hid hslot
  | entered hid => exact h.withRegion hid

/-- A compilation only notes that nothing new is logged. -/
theorem clean (h : d.WellFormed) : { d with isDirty := false : Declarations }.WellFormed :=
  ⟨h.scope_id, h.context_id, h.context_of, h.slot_iff, h.slot_lt, h.slot_inj, h.nested_of,
    h.nested_inj, h.mem_index⟩

end WellFormed

end HtmlTemplate.Declarations
