-- SUMMARY: Declarations that come later: what is logged stays, and what is new has slots of its own.
import HtmlTemplate.Proofs.Declarations.Placed

/-!
# Later declarations

Operations only ever add to declarations. Scopes keep their nodes and contexts, logs
and the index grow at their ends, and a region that was entered stays. What is logged
later has slots that its context did not have before, which is how it is told from
what was there.
-/

namespace HtmlTemplate

namespace Declarations

variable {d d' d'' : Declarations} {id : ScopeId} {scope : Scope}

/-- `d'` is what `d` may become. -/
structure Extends (d d' : Declarations) : Prop where
  tree : d'.tree = d.tree
  scope : ∀ {i s}, d.scope? i = some s → ∃ t more, d'.scope? i = some t ∧
    t.nodes = s.nodes ∧ t.context = s.context ∧ (∀ c, s.nested = some c → t.nested = some c) ∧
    t.log = s.log ++ more ∧ ∀ logged ∈ more, d.nextSlot s.context ≤ logged.slot
  newScope : ∀ {i t}, d'.scope? i = some t → d.scope? i = none →
    ∀ logged ∈ t.log, d.nextSlot t.context ≤ logged.slot
  /-- Contexts stay over their scopes. -/
  context : ∀ {c x}, d.context? c = some x → ∃ y, d'.context? c = some y ∧ y.scope = x.scope
  slots : ∀ c, d.nextSlot c ≤ d'.nextSlot c
  index : ∀ node, ∃ more, d'.index.scopes node = d.index.scopes node ++ more ∧
    ∀ i ∈ more, i ∉ d.index.scopes node

namespace Extends

theorem refl (d : Declarations) : d.Extends d := by
  constructor
  case tree => rfl
  case scope =>
    intro i s hs
    exact ⟨s, [], hs, rfl, rfl, fun _ => id, (List.append_nil _).symm, nofun⟩
  case newScope => intro i t ht hnone; cases hnone.symm.trans ht
  case context => exact fun hx => ⟨_, hx, rfl⟩
  case slots => exact fun _ => Nat.le_refl _
  case index => exact fun _ => ⟨[], (List.append_nil _).symm, nofun⟩

theorem trans (h : d.Extends d') (h' : d'.Extends d'') : d.Extends d'' := by
  constructor
  case tree => exact h'.tree.trans h.tree
  case scope =>
    intro i s hs
    obtain ⟨t, more, ht, hnodes, hcontext, hnested, hlog, hmore⟩ := h.scope hs
    obtain ⟨u, more', hu, hnodes', hcontext', hnested', hlog', hmore'⟩ := h'.scope ht
    refine ⟨u, more ++ more', hu, hnodes'.trans hnodes, hcontext'.trans hcontext,
      fun c hc => hnested' c (hnested c hc), by rw [hlog', hlog, List.append_assoc], ?_⟩
    intro logged hlogged
    rcases List.mem_append.mp hlogged with hlogged | hlogged
    · exact hmore logged hlogged
    · have hslot := hmore' logged hlogged
      rw [hcontext] at hslot
      exact Nat.le_trans (h.slots _) hslot
  case newScope =>
    intro i u hu hnone logged hlogged
    cases ht : d'.scope? i with
    | none => exact Nat.le_trans (h.slots _) (h'.newScope hu ht logged hlogged)
    | some t =>
      obtain ⟨u', more, hu', -, hcontext, -, hlog, hmore⟩ := h'.scope ht
      obtain rfl := Option.some.inj (hu'.symm.trans hu)
      rw [hlog, List.mem_append] at hlogged
      rw [hcontext]
      rcases hlogged with hlogged | hlogged
      · exact h.newScope ht hnone logged hlogged
      · exact Nat.le_trans (h.slots _) (hmore logged hlogged)
  case context =>
    intro c x hx
    obtain ⟨y, hy, hscope⟩ := h.context hx
    obtain ⟨z, hz, hscope'⟩ := h'.context hy
    exact ⟨z, hz, hscope'.trans hscope⟩
  case slots => exact fun c => Nat.le_trans (h.slots c) (h'.slots c)
  case index =>
    intro node
    obtain ⟨more, hindex, hmore⟩ := h.index node
    obtain ⟨more', hindex', hmore'⟩ := h'.index node
    refine ⟨more ++ more', by rw [hindex', hindex, List.append_assoc], fun i hi => ?_⟩
    rcases List.mem_append.mp hi with hi | hi
    · exact hmore i hi
    · have hnot := hmore' i hi
      rw [hindex, List.mem_append, not_or] at hnot
      exact hnot.1

/-- Whether something counts as logged since the last compilation does not matter. -/
theorem of_fields (h : d.Extends d') (dirty : Bool) :
    d.Extends { d' with isDirty := dirty } :=
  ⟨h.tree, h.scope, h.newScope, h.context, h.slots, h.index⟩

/-! ## One operation -/

theorem withFound (d : Declarations) (id : ScopeId) (scope : Scope) (selector : String)
    (nodes : List NodeId) : d.Extends (d.withFound id scope selector nodes) := by
  constructor
  case tree => rfl
  case scope =>
    intro i s hs
    obtain ⟨children, hs'⟩ := scope?_withFound id scope selector nodes hs
    exact ⟨_, [], hs', rfl, rfl, fun _ hc => hc, (List.append_nil _).symm, nofun⟩
  case newScope =>
    intro i t ht hnone logged hlogged
    obtain ⟨old, children, hold | ⟨-, rfl⟩, rfl⟩ := of_scope?_withFound ht
    · cases hnone.symm.trans hold
    · cases hlogged
  case context => exact fun hx => ⟨_, hx, rfl⟩
  case slots => exact fun _ => Nat.le_refl _
  case index => exact fun _ => ⟨[], (List.append_nil _).symm, nofun⟩

theorem withLogged (hd : d.WellFormed) (hid : d.scope? id = some scope) (mutation : Mutation) :
    d.Extends (d.withLogged id scope mutation) := by
  constructor
  case tree => rfl
  case scope =>
    intro i s hs
    refine ⟨_, if i = id then [⟨mutation, d.nextSlot scope.context⟩] else [],
      scope?_withLogged id scope mutation hs, rfl, rfl, fun _ hc => hc, ?_, ?_⟩
    · dsimp only
      split
      · rfl
      · rw [List.append_nil]
    · intro logged hlogged
      split at hlogged
      next hi =>
        subst hi
        obtain rfl := Option.some.inj (hs.symm.trans hid)
        obtain rfl := List.mem_singleton.mp hlogged
        exact Nat.le_refl _
      next => cases hlogged
  case newScope =>
    intro i t ht hnone
    obtain ⟨old, hold, -⟩ := of_scope?_withLogged ht
    cases hnone.symm.trans hold
  case context =>
    intro c x hx
    rw [context?_withLogged, hx]
    exact ⟨_, rfl, by split <;> rfl⟩
  case slots =>
    intro c
    rw [nextSlot_withLogged d id mutation (hd.context_of hid)]
    split <;> omega
  case index =>
    intro node
    rw [scopes_withLogged]
    split
    next hnew => exact ⟨[id], rfl, fun i hi => List.mem_singleton.mp hi ▸ hnew.2⟩
    next => exact ⟨[], (List.append_nil _).symm, nofun⟩

theorem withRegion (hid : d.scope? id = some scope) (hnew : scope.nested = none) :
    d.Extends (d.withRegion id scope) := by
  constructor
  case tree => rfl
  case scope =>
    intro i s hs
    refine ⟨_, [], scope?_withRegion id scope hs, rfl, rfl, fun c hc => ?_,
      (List.append_nil _).symm, nofun⟩
    have hs' := scope?_withRegion_of_nested hid hnew hs hc
    have heq := Option.some.inj ((scope?_withRegion id scope hs).symm.trans hs')
    exact (congrArg Scope.nested heq).trans hc
  case newScope =>
    intro i t ht hnone logged hlogged
    obtain ⟨old, hold | ⟨-, rfl⟩, rfl⟩ := of_scope?_withRegion ht
    · cases hnone.symm.trans hold
    · cases hlogged
  case context => exact fun hx => ⟨_, context?_withRegion_of_some id scope hx, rfl⟩
  case slots => exact fun c => Nat.le_of_eq (nextSlot_withRegion d id scope c).symm
  case index => exact fun _ => ⟨[], (List.append_nil _).symm, nofun⟩

/-- Every operation leads to later declarations. -/
theorem of_step (hd : d.WellFormed) (hstep : d.Step d') : d.Extends d' := by
  cases hstep with
  | same => exact .refl d
  | found selector nodes hid => exact .withFound d _ _ selector nodes
  | logged mutation hid => exact .withLogged hd hid mutation
  | entered hid hnew => exact .withRegion hid hnew

/-! ## What is known before -/

variable {i : ScopeId} {s t : Scope} {logged : LoggedMutation}

/-- The scopes of before are the same ones later. -/
theorem of_scope? (h : d.Extends d') (hs : d.scope? i = some s) (ht : d'.scope? i = some t) :
    t.nodes = s.nodes ∧ t.context = s.context ∧ (∀ c, s.nested = some c → t.nested = some c) ∧
      ∃ more, t.log = s.log ++ more ∧ ∀ logged ∈ more, d.nextSlot s.context ≤ logged.slot := by
  obtain ⟨t', more, ht', hnodes, hcontext, hnested, hlog, hmore⟩ := h.scope hs
  obtain rfl := Option.some.inj (ht'.symm.trans ht)
  exact ⟨hnodes, hcontext, hnested, more, hlog, hmore⟩

/-- What is logged later was logged before, or its slot is a new one. -/
theorem of_mem_log (h : d.Extends d') (ht : d'.scope? i = some t) (hlogged : logged ∈ t.log) :
    (∃ s, d.scope? i = some s ∧ logged ∈ s.log) ∨ d.nextSlot t.context ≤ logged.slot := by
  cases hs : d.scope? i with
  | none => exact .inr (h.newScope ht hs logged hlogged)
  | some s =>
    obtain ⟨-, hcontext, -, more, hlog, hmore⟩ := h.of_scope? hs ht
    rw [hlog, List.mem_append] at hlogged
    rcases hlogged with hlogged | hlogged
    · exact .inl ⟨s, rfl, hlogged⟩
    · exact .inr (hcontext ▸ hmore logged hlogged)

/-- The nodes of a region do not change. -/
theorem regionNodes (h : d.Extends d') (hplaced : d.Placed) {c : ContextId} {x : Context}
    (hx : d.context? c = some x) : d'.regionNodes c = d.regionNodes c := by
  obtain ⟨r, hr, -⟩ := hplaced.region hx
  obtain ⟨y, hy, hscope⟩ := h.context hx
  obtain ⟨t, -, ht, hnodes, -⟩ := h.scope hr
  rw [regionNodes_eq hy (hscope ▸ ht), hnodes, regionNodes_eq hx hr]

end Extends

end Declarations

/-- Whatever operations lead to are later declarations. -/
theorem Document.extends_run {doc : Document} (hd : doc.declarations.WellFormed)
    (operations : List Operation) :
    doc.declarations.Extends (doc.run operations).declarations := by
  refine (run_induction (P := fun later => later.declarations.WellFormed ∧
    doc.declarations.Extends later.declarations) ?_ ⟨hd, .refl _⟩ operations).2
  rintro later later' ⟨hlater, hextends⟩ hstep
  cases hstep with
  | same => exact ⟨hlater, hextends⟩
  | declared hdeclared => exact ⟨hlater.step hdeclared, hextends.trans (.of_step hlater hdeclared)⟩
  | rebuilt => exact ⟨hlater.clean, hextends.of_fields false⟩

end HtmlTemplate
