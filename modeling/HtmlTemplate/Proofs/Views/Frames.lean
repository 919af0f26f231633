-- SUMMARY: Frames of views: which values they hold after calls that succeed or fail, and that their contexts have room for them.
import HtmlTemplate.Proofs.Repeating
import HtmlTemplate.Proofs.Views.Scripts

/-!
# Frames of views

While a view repeats elements, its scope and its values are put aside, and each item
fills a frame of its own. Here is what holds wherever a call can be made while scripts run
on a document, at the top and inside of any `within` and `each`, also after calls that have
failed. A call leaves the scope as it is. A repetition that fails leaves the values as they
are, and one that succeeds changes one slot, which holds a frame for each item with what
this item has declared. No frame is longer than the slots of its context.
-/

namespace HtmlTemplate

/-! ## Room for frames -/

namespace Declarations

/-- The context has a slot for each value of the frame. Frames at the slots of its
    repetitions belong to regions, and these have slots for their values. -/
inductive HasRoom (d : Declarations) : ContextId → Frame → Prop where
  | intro {c : ContextId} {frame : Frame} (hlength : frame.length ≤ d.nextSlot c)
      (hregion : ∀ i scope logged frames, d.scope? i = some scope → scope.context = c →
        logged ∈ scope.log → logged.mutation.kind = Mutation.repeatEach →
        frame.get logged.slot = .list frames → scope.nested ≠ none)
      (hframes : ∀ i scope logged frames inner, d.scope? i = some scope → scope.context = c →
        logged ∈ scope.log → logged.mutation.kind = Mutation.repeatEach →
        frame.get logged.slot = .list frames → scope.nested = some inner →
        ∀ values ∈ frames, HasRoom d inner values) :
      HasRoom d c frame

variable {d d' : Declarations} {c : ContextId} {frame : Frame} {i : ScopeId} {scope : Scope}

namespace HasRoom

theorem length_le (h : d.HasRoom c frame) : frame.length ≤ d.nextSlot c := by
  obtain ⟨hlength⟩ := h
  exact hlength

theorem nil (d : Declarations) (c : ContextId) : d.HasRoom c [] := by
  refine .intro (Nat.zero_le _) ?_ ?_
  · intro i scope logged frames _ _ _ _ hlist
    cases hlist
  · intro i scope logged frames inner _ _ _ _ hlist
    cases hlist

/-- There is room in later declarations. What is logged later has slots beyond the frame. -/
theorem later (h : d.HasRoom c frame) (hextends : d.Extends d') : d'.HasRoom c frame := by
  induction h with
  | @intro c frame hlength hregion hframes ih =>
    have hbefore {i scope logged frames} (hs : d'.scope? i = some scope)
        (hcontext : scope.context = c) (hlogged : logged ∈ scope.log)
        (hlist : frame.get logged.slot = .list frames) :
        ∃ old, d.scope? i = some old ∧ old.context = c ∧ logged ∈ old.log ∧
          ∀ inner, old.nested = some inner → scope.nested = some inner := by
      rcases hextends.of_mem_log hs hlogged with ⟨old, hold, hlogged⟩ | hslot
      · obtain ⟨-, hsame, hnested, -⟩ := hextends.of_scope? hold hs
        exact ⟨old, hold, hsame.symm.trans hcontext, hlogged, hnested⟩
      · rw [hcontext] at hslot
        rw [Frame.get_of_length_le (Nat.le_trans hlength hslot)] at hlist
        cases hlist
    refine .intro (Nat.le_trans hlength (hextends.slots c)) ?_ ?_
    · intro i scope logged frames hs hcontext hlogged hkind hlist
      obtain ⟨old, hold, hcontext, hlogged, hnested⟩ := hbefore hs hcontext hlogged hlist
      obtain ⟨inner, hinner⟩ := Option.ne_none_iff_exists'.mp
        (hregion i old logged frames hold hcontext hlogged hkind hlist)
      simp [hnested inner hinner]
    · intro i scope logged frames inner hs hcontext hlogged hkind hlist hinner
      obtain ⟨old, hold, hcontext, hlogged, hnested⟩ := hbefore hs hcontext hlogged hlist
      obtain ⟨inner', hinner'⟩ := Option.ne_none_iff_exists'.mp
        (hregion i old logged frames hold hcontext hlogged hkind hlist)
      obtain rfl := Option.some.inj ((hnested inner' hinner').symm.trans hinner)
      exact ih i old logged frames inner' hold hcontext hlogged hkind hlist hinner'

/-- There is room for a value at the slot of a mutation, if it is no repetition or its value
    holds frames of the region. -/
theorem put (h : d.HasRoom scope.context frame) (hd : d.WellFormed) (hs : d.scope? i = some scope)
    {logged : LoggedMutation} (hlogged : logged ∈ scope.log) {value : Value}
    (hvalue : logged.mutation.kind = Mutation.repeatEach → ∃ frames inner,
      value = .list frames ∧ scope.nested = some inner ∧
        ∀ values ∈ frames, d.HasRoom inner values) :
    d.HasRoom scope.context (frame.put logged.slot value) := by
  have howner {j t l} (ht : d.scope? j = some t) (hcontext : t.context = scope.context)
      (hl : l ∈ t.log) (hslot : l.slot = logged.slot) : t = scope ∧ l = logged := by
    obtain ⟨rfl, rfl⟩ := hd.slot_inj ht hs hcontext hl hlogged hslot
    exact ⟨Option.some.inj (ht.symm.trans hs), rfl⟩
  generalize hc : scope.context = c at h howner ⊢
  cases h with
  | intro hlength hregion hframes =>
    refine .intro ?_ ?_ ?_
    · rw [Frame.length_put]
      exact Nat.max_le.mpr ⟨hlength, hc ▸ hd.slot_lt hs hlogged⟩
    · intro j t l frames ht hcontext hl hkind hlist
      rw [Frame.get_put] at hlist
      split at hlist
      next hslot =>
        obtain ⟨rfl, rfl⟩ := howner ht hcontext hl hslot
        obtain ⟨-, inner, -, hinner, -⟩ := hvalue hkind
        simp [hinner]
      next => exact hregion j t l frames ht hcontext hl hkind hlist
    · intro j t l frames inner ht hcontext hl hkind hlist hinner
      rw [Frame.get_put] at hlist
      split at hlist
      next hslot =>
        obtain ⟨rfl, rfl⟩ := howner ht hcontext hl hslot
        obtain ⟨frames', inner', rfl, hinner', hroom⟩ := hvalue hkind
        obtain rfl := Option.some.inj (hinner'.symm.trans hinner)
        cases hlist
        exact hroom
      next => exact hframes j t l frames inner ht hcontext hl hkind hlist hinner

end HasRoom

end Declarations

/-! ## Views between calls -/

namespace View

variable {view view' : View} {selector : String}

/-- The document of the view comes from operations on a tree, and the context of its scope
    has room for its values. -/
structure Framed (view : View) : Prop where
  reached : view.document.Reached
  hasRoom : ∃ scope, view.document.declarations.scope? view.scope = some scope ∧
    view.document.declarations.HasRoom scope.context view.values

/-- What is kept from one view to another one, which calls have led to. -/
structure Leads (view view' : View) : Prop where
  framed : view'.Framed
  scope : view'.scope = view.scope
  exists_run : ∃ operations, view'.document = view.document.run operations

namespace Framed

/-- There is room for the values of a view while others declare something. -/
theorem run (h : view.Framed) (operations : List Operation) :
    Framed { view with document := view.document.run operations } := by
  have hextends := Document.extends_run h.reached.wellFormed operations
  obtain ⟨scope, hscope, hroom⟩ := h.hasRoom
  obtain ⟨t, -, ht, -, hcontext, -⟩ := hextends.scope hscope
  exact ⟨h.reached.run operations, t, ht, hcontext ▸ hroom.later hextends⟩

/-- Values may be left out. -/
theorem clear (h : view.Framed) : Framed { view with values := [] } := by
  obtain ⟨scope, hscope, -⟩ := h.hasRoom
  exact ⟨h.reached, scope, hscope, .nil _ _⟩

/-- The same values fit a scope of the same context. -/
theorem moved (h : view.Framed) {other : ScopeId} {s t : Scope}
    (hs : view.document.declarations.scope? view.scope = some s)
    (ht : view.document.declarations.scope? other = some t) (hcontext : t.context = s.context) :
    Framed { view with scope := other } := by
  obtain ⟨s', hs', hroom⟩ := h.hasRoom
  obtain rfl := Option.some.inj (hs'.symm.trans hs)
  exact ⟨h.reached, t, ht, hcontext ▸ hroom⟩

theorem refl (h : view.Framed) : view.Leads view := ⟨h, rfl, [], rfl⟩

theorem leads_run (h : view.Framed) (operations : List Operation) :
    view.Leads { view with document := view.document.run operations } :=
  ⟨h.run operations, rfl, operations, rfl⟩

end Framed

theorem Leads.trans {last : View} (h : view.Leads view') (h' : view'.Leads last) :
    view.Leads last := by
  obtain ⟨first, hfirst⟩ := h.exists_run
  obtain ⟨second, hsecond⟩ := h'.exists_run
  refine ⟨h'.framed, h'.scope.trans h.scope, first ++ second, ?_⟩
  rw [hsecond, hfirst, Document.run_append]

/-- Later declarations extend those of before. -/
theorem Leads.extends (h : view.Leads view') (hframed : view.Framed) :
    view.document.declarations.Extends view'.document.declarations := by
  obtain ⟨operations, hrun⟩ := h.exists_run
  rw [hrun]
  exact Document.extends_run hframed.reached.wellFormed operations

/-! ## Calls -/

theorem give_of_log {target : ScopeId} {mutation : Mutation} {slot : Nat}
    (hanswer : (view.document.log target mutation).1 = .ok slot) (value : Value) :
    view.give target mutation value = (.ok (), { view with
      document := (view.document.log target mutation).2
      values := view.values.put slot value }) := by
  unfold give
  split
  next hlog => rw [hlog] at hanswer; cases hanswer
  next hlog => rw [hlog] at hanswer ⊢; cases hanswer; rfl

/-- A mutation on a scope of the context of the view is given a value. -/
theorem Framed.give (h : view.Framed) {target : ScopeId} {s t : Scope}
    (hs : view.document.declarations.scope? view.scope = some s)
    (ht : view.document.declarations.scope? target = some t) (hcontext : t.context = s.context)
    {mutation : Mutation} {value : Value}
    (hvalue : mutation.kind = Mutation.repeatEach → ∃ frames inner, value = .list frames ∧
      t.nested = some inner ∧
        ∀ values ∈ frames, view.document.declarations.HasRoom inner values) :
    view.Leads (view.give target mutation value).2 := by
  obtain ⟨slot, hanswer⟩ := Declarations.exists_log ht mutation
  have hextends := Document.extends_run h.reached.wellFormed [.log target mutation]
  have hlogged := h.run [.log target mutation]
  obtain ⟨t', ht', hcontext', hnested, hmem⟩ :=
    Declarations.exists_logged h.reached.wellFormed hanswer ht
  obtain ⟨s', hs', hroom⟩ := hlogged.hasRoom
  have hsame : s'.context = t'.context := by
    rw [(hextends.of_scope? hs hs').2.1, hcontext', hcontext]
  rw [give_of_log hanswer]
  refine ⟨⟨hlogged.reached, s', hs', ?_⟩, rfl, [.log target mutation], rfl⟩
  rw [hsame] at hroom ⊢
  refine hroom.put hlogged.reached.wellFormed ht' hmem fun hkind => ?_
  obtain ⟨frames, inner, rfl, hinner, hframes⟩ := hvalue hkind
  exact ⟨frames, inner, rfl, hnested.trans hinner,
    fun values hvalues => (hframes values hvalues).later hextends⟩

/-- What was resolved is a scope of the context of the view. -/
theorem Framed.resolve (h : view.Framed) {target : ScopeId} {inside : View}
    (hresolve : view.resolve selector = (.ok target, inside)) :
    view.Leads inside ∧ ∃ s t, inside.document.declarations.scope? inside.scope = some s ∧
      inside.document.declarations.scope? target = some t ∧ t.context = s.context := by
  have hanswer : (view.document.declarations.resolve view.scope selector).1 = .ok target :=
    congrArg Prod.fst hresolve
  obtain rfl : { view with document := view.document.run [.resolve view.scope selector] } =
    inside := congrArg Prod.snd hresolve
  have hleads := h.leads_run [.resolve view.scope selector]
  obtain ⟨s, t, -, hs, ht, -, hcontext, -⟩ :=
    hleads.framed.reached.traced.finds (Declarations.child?_of_resolve hanswer)
  exact ⟨hleads, s, t, hs, ht, hcontext⟩

/-- A search that fails leaves the view framed. -/
theorem Framed.resolve_snd (h : view.Framed) (selector : String) :
    view.Leads (view.resolve selector).2 := h.leads_run [.resolve view.scope selector]

/-- Wherever there is a framed view, the body leads to one. -/
def Framing (body : View → Outcome) : Prop :=
  ∀ view : View, view.Framed → view.Leads (body view).2

theorem framing_declare (selector : String) {mutation : Mutation}
    (hkind : mutation.kind ≠ Mutation.repeatEach) (value : Value) :
    Framing fun view => view.declare selector mutation value := by
  intro view h
  have hresolved := h.resolve_snd selector
  dsimp only
  unfold declare
  cases hresolve : view.resolve selector with
  | mk result inside =>
    rw [hresolve] at hresolved
    cases result with
    | error e => exact hresolved
    | ok target =>
      obtain ⟨hleads, s, t, hs, ht, hcontext⟩ := h.resolve hresolve
      exact hleads.trans (hleads.framed.give hs ht hcontext fun hrepeat => absurd hrepeat hkind)

theorem framing_within (selector : String) {body : View → Outcome} (hbody : Framing body) :
    Framing fun view => view.within selector body := by
  intro view h
  have hresolved := h.resolve_snd selector
  dsimp only
  unfold within
  cases hresolve : view.resolve selector with
  | mk result inside =>
    rw [hresolve] at hresolved
    cases result with
    | error e => exact hresolved
    | ok target =>
      obtain ⟨hleads, s, t, hs, ht, hcontext⟩ := h.resolve hresolve
      have hmoved := hleads.framed.moved hs ht hcontext
      have hlast := hbody _ hmoved
      have hextends := hlast.extends hmoved
      dsimp only
      generalize (body { inside with scope := target }).2 = last at hlast hextends
      -- Afterwards the two scopes still have one context.
      obtain ⟨s', -, hs', -, hs_context, -⟩ := hextends.scope hs
      obtain ⟨t', -, ht', -, ht_context, -⟩ := hextends.scope ht
      have hscope : last.scope = target := hlast.scope
      rw [← hscope] at ht'
      have hback := hlast.framed.moved ht' hs' (by rw [hs_context, ht_context, hcontext])
      obtain ⟨first, hfirst⟩ := hleads.exists_run
      obtain ⟨second, hsecond⟩ := hlast.exists_run
      refine ⟨hleads.scope ▸ hback, rfl, first ++ second, ?_⟩
      rw [Document.run_append, ← hfirst]
      exact hsecond

/-! ## Regions -/

/-- Inside of a region there are no values, and the scope is one of its context. -/
theorem Framed.enterRepeated (h : view.Framed) {target : ScopeId} {inside : View}
    (henter : view.enterRepeated selector = (.ok target, inside)) :
    inside.Framed ∧ ∃ s t r, inside.document.declarations.scope? view.scope = some s ∧
      inside.document.declarations.scope? target = some t ∧ t.context = s.context ∧
      inside.document.declarations.scope? inside.scope = some r ∧ t.nested = some r.context := by
  obtain ⟨found, nested, hresolve, hanswer, rfl⟩ := enterRepeated_eq_ok henter
  obtain ⟨hleads, s, t, hs, ht, hcontext⟩ := h.resolve hresolve
  have hreached : (found.document.nest target).2.Reached :=
    hleads.framed.reached.run [.nest target]
  have hextends : found.document.declarations.Extends (found.document.nest target).2.declarations :=
    Document.extends_run hleads.framed.reached.wellFormed [.nest target]
  have hanswer : (found.document.declarations.nest target).1 = .ok nested := hanswer
  obtain ⟨t', ht', hnested⟩ := Declarations.exists_entered hanswer ht
  have ht' : (found.document.nest target).2.declarations.scope? target = some t' := ht'
  obtain ⟨s', -, hs', -, hs_context, -⟩ := hextends.scope hs
  obtain ⟨-, x, hx⟩ := hreached.wellFormed.nested_of ht' hnested
  obtain ⟨r, hr, hr_context, -⟩ := hreached.traced.madeWith hx
  have hscope : (((found.document.nest target).2.declarations.context? nested).map
      (·.scope)).getD target = x.scope := by rw [hx]; rfl
  refine ⟨⟨hreached, r, hscope ▸ hr, .nil _ _⟩, s', t', r, hleads.scope ▸ hs', ht', ?_,
    hscope ▸ hr, hr_context ▸ hnested⟩
  rw [(hextends.of_scope? ht ht').2.1, hcontext, hs_context]

theorem exists_run_enterRepeated (view : View) (selector : String) :
    ∃ operations, (view.enterRepeated selector).2.document = view.document.run operations := by
  unfold View.enterRepeated View.resolve
  cases hresolve : view.document.resolve view.scope selector with
  | mk result found =>
    have hfound : found = view.document.run [.resolve view.scope selector] :=
      (congrArg Prod.snd hresolve).symm
    cases result with
    | error e => exact ⟨[.resolve view.scope selector], hfound⟩
    | ok target =>
      refine ⟨[.resolve view.scope selector] ++ [.nest target], ?_⟩
      rw [Document.run_append, ← hfound]
      dsimp only
      split
      next hnest => exact (congrArg Prod.snd hnest).symm
      next hnest => exact (congrArg Prod.snd hnest).symm

/-- The frames of the bodies have room in the context of the region. -/
theorem Framed.gather {bodies : List (View → Outcome)} (hbodies : ∀ body ∈ bodies, Framing body)
    (h : view.Framed) :
    view.Leads (gather bodies view).2 ∧
      ∀ frames, (gather bodies view).1 = .ok frames → ∀ scope,
        (gather bodies view).2.document.declarations.scope? view.scope = some scope →
        ∀ frame ∈ frames,
          (gather bodies view).2.document.declarations.HasRoom scope.context frame := by
  induction bodies generalizing view with
  | nil => exact ⟨h.refl, fun frames hframes => by cases hframes; nofun⟩
  | cons body rest ih =>
    rw [List.forall_mem_cons] at hbodies
    have hbody := hbodies.1 view h
    rw [gather_cons]
    cases houtcome : body view with
    | mk result inside =>
      rw [houtcome] at hbody
      cases result with
      | error e => exact ⟨hbody, nofun⟩
      | ok done =>
        obtain ⟨hrest, hframes⟩ := ih hbodies.2 hbody.framed.clear
        have hextends := hrest.extends hbody.framed.clear
        have hcleared : view.Leads { inside with values := [] } :=
          ⟨hbody.framed.clear, hbody.scope, hbody.exists_run⟩
        dsimp only at hrest hframes hextends ⊢
        generalize View.gather rest { inside with values := [] } = gathered at *
        obtain ⟨result, last⟩ := gathered
        refine ⟨hcleared.trans hrest, fun frames hresult scope hscope => ?_⟩
        cases result with
        | error e => cases hresult
        | ok more =>
          cases hresult
          obtain ⟨region, hregion, hroom⟩ := hbody.framed.hasRoom
          have hsame : inside.scope = view.scope := hbody.scope
          rw [List.forall_mem_cons]
          refine ⟨?_, hframes more rfl scope (hsame ▸ hscope)⟩
          rw [hsame] at hregion
          rw [(hextends.of_scope? hregion hscope).2.1]
          exact hroom.later hextends

/-- After the bodies have been run there is room for the values of before, and the region has
    room for the frames. -/
theorem Framed.gathered (h : view.Framed) {bodies : List (View → Outcome)}
    (hbodies : ∀ body ∈ bodies, Framing body) {target : ScopeId} {inside last : View}
    (henter : view.enterRepeated selector = (.ok target, inside))
    {result : Except Error (List Frame)} (hgather : View.gather bodies inside = (result, last)) :
    view.Leads { view with document := last.document } ∧
      ∃ s t region, last.document.declarations.scope? view.scope = some s ∧
        last.document.declarations.scope? target = some t ∧ t.context = s.context ∧
        t.nested = some region ∧ ∀ frames, result = .ok frames →
          ∀ frame ∈ frames, last.document.declarations.HasRoom region frame := by
  obtain ⟨hinside, s, t, r, hs, ht, hcontext, hr, hnested⟩ := h.enterRepeated henter
  obtain ⟨hlast, hframes⟩ := hinside.gather hbodies
  rw [hgather] at hlast hframes
  have hextends := hlast.extends hinside
  obtain ⟨s', -, hs', -, hs_context, -⟩ := hextends.scope hs
  obtain ⟨t', -, ht', -, ht_context, ht_nested, -⟩ := hextends.scope ht
  obtain ⟨r', -, hr', -, hr_context, -⟩ := hextends.scope hr
  refine ⟨?_, s', t', r'.context, hs', ht', ?_, ?_,
    fun frames hresult => hframes frames hresult r' hr'⟩
  · obtain ⟨entering, hentering⟩ := view.exists_run_enterRepeated selector
    obtain ⟨further, hfurther⟩ := hlast.exists_run
    rw [henter] at hentering
    dsimp only at hentering hfurther
    rw [hfurther, hentering, ← Document.run_append]
    exact h.leads_run (entering ++ further)
  · rw [ht_context, hcontext, hs_context]
  · rw [hr_context]
    exact ht_nested _ hnested

theorem framing_each (selector : String) {bodies : List (View → Outcome)}
    (hbodies : ∀ body ∈ bodies, Framing body) :
    Framing fun view => view.each selector bodies := by
  intro view h
  dsimp only
  unfold each
  cases henter : view.enterRepeated selector with
  | mk result inside =>
    cases result with
    | error e =>
      obtain ⟨entering, hentering⟩ := view.exists_run_enterRepeated selector
      rw [henter] at hentering
      dsimp only at hentering ⊢
      rw [hentering]
      exact h.leads_run entering
    | ok target =>
      dsimp only
      cases hgather : View.gather bodies inside with
      | mk result last =>
        obtain ⟨hlater, s, t, region, hs, ht, hcontext, hnested, hroom⟩ :=
          h.gathered hbodies henter hgather
        cases result with
        | error e => exact hlater
        | ok frames =>
          exact hlater.trans (hlater.framed.give hs ht hcontext fun _ =>
            ⟨frames, region, rfl, hnested, hroom frames rfl⟩)

/-! ## Scripts -/

namespace Script

mutual

/-- A script leads from one framed view to another one, with all the scripts that it holds. -/
theorem framing_run (script : Script) : Framing script.run := by
  intro view h
  cases script with
  | answer result => exact h.refl
  | declare selector mutation value hkind next =>
    have hcall := framing_declare selector hkind value view h
    rw [run]
    exact hcall.trans (framing_run (next _) _ hcall.framed)
  | within selector body next =>
    have hcall := framing_within selector (framing_run body) view h
    rw [run]
    exact hcall.trans (framing_run (next _) _ hcall.framed)
  | each selector items next =>
    have hcall := framing_each selector (framing_bodies items) view h
    rw [run]
    exact hcall.trans (framing_run (next _) _ hcall.framed)

theorem framing_bodies (items : List Script) : ∀ body ∈ bodies items, Framing body := by
  cases items with
  | nil => nofun
  | cons item rest => exact List.forall_mem_cons.mpr ⟨framing_run item, framing_bodies rest⟩

end

end Script

/-- A view on which a call can be made while scripts run on a document: a new one, one after
    any script or a rendering, one within what a selector selects, and one inside of a region,
    where each item begins without values. -/
inductive Occurs : View → Prop where
  | new {document : Document} (h : document.Reached) : Occurs { document }
  | after {view : View} (h : Occurs view) (script : Script) : Occurs (script.run view).2
  | rendered {view : View} (h : Occurs view) : Occurs view.render.2
  | within {view inside : View} {selector : String} {scope : ScopeId} (h : Occurs view)
      (hresolve : view.resolve selector = (.ok scope, inside)) : Occurs { inside with scope }
  | inside {view inside : View} {selector : String} {scope : ScopeId} (h : Occurs view)
      (henter : view.enterRepeated selector = (.ok scope, inside)) : Occurs inside
  | item {view : View} (h : Occurs view) : Occurs { view with values := [] }

/-- Wherever a call can be made, there is room for the values. -/
theorem Occurs.framed (h : view.Occurs) : view.Framed := by
  induction h with
  | @new document h =>
    obtain ⟨t, ht⟩ : ∃ t, document.declarations.scope? Declarations.rootScope = some t := by
      obtain ⟨tree, compiler, optimizing, operations, rfl⟩ := h
      have hstart : (Document.ofTree tree compiler optimizing).Reached :=
        ⟨tree, compiler, optimizing, [], rfl⟩
      exact hstart.exists_scope? rfl operations
    exact ⟨h, t, ht, .nil _ _⟩
  | after _ script ih => exact (script.framing_run _ ih).framed
  | rendered _ ih =>
    rw [render_snd]
    exact ih.run [.compile]
  | within _ hresolve ih =>
    obtain ⟨hleads, s, t, hs, ht, hcontext⟩ := ih.resolve hresolve
    exact hleads.framed.moved hs ht hcontext
  | inside _ henter ih => exact (ih.enterRepeated henter).1
  | item _ ih => exact ih.clear

/-! ## Repetitions -/

theorem each_eq_error {bodies : List (View → Outcome)} {e : Error}
    (h : view.each selector bodies = (.error e, view')) : view'.values = view.values := by
  unfold each at h
  split at h
  · cases h
    rfl
  · split at h
    · cases h
      rfl
    · unfold give at h
      split at h
      · cases h
        rfl
      · cases h

/-- The slot of a repetition that has succeeded, and its region, which has room for the
    frames. -/
theorem Framed.each_eq_ok (h : view.Framed) {bodies : List (View → Outcome)}
    (hbodies : ∀ body ∈ bodies, Framing body)
    (heach : view.each selector bodies = (.ok (), view')) :
    ∃ target inside frames last t slot region,
      view.enterRepeated selector = (.ok target, inside) ∧
      View.gather bodies inside = (.ok frames, last) ∧
      view'.document.declarations.scope? target = some t ∧
      ⟨{ kind := Mutation.repeatEach }, slot⟩ ∈ t.log ∧ t.nested = some region ∧
      view'.values = view.values.put slot (.list frames) ∧
      ∀ frame ∈ frames, view'.document.declarations.HasRoom region frame := by
  obtain ⟨target, inside, frames, last, henter, hgather, hgive⟩ := View.each_eq_ok heach
  obtain ⟨slot, hanswer, rfl⟩ := give_eq_ok hgive
  obtain ⟨hlater, s, t, region, hs, ht, hcontext, hnested, hroom⟩ :=
    h.gathered hbodies henter hgather
  have hreached : last.document.Reached := hlater.framed.reached
  have hanswer : (last.document.declarations.log target { kind := Mutation.repeatEach }).1 =
    .ok slot := hanswer
  obtain ⟨t', ht', -, hnested', hlogged⟩ :=
    Declarations.exists_logged hreached.wellFormed hanswer ht
  have hextends := Document.extends_run hreached.wellFormed
    [.log target { kind := Mutation.repeatEach }]
  exact ⟨target, inside, frames, last, t', slot, region, henter, hgather, ht', hlogged,
    hnested'.trans hnested, rfl, fun frame hframe => (hroom frames rfl frame hframe).later hextends⟩

/-- A repetition with a script for each item has succeeded. It was run inside of a region and
    logged on a scope, and has led from one view to the other. -/
structure Repeated (items : List Script) (view inside after : View) (scope : Scope) (slot : Nat)
    (frames : List Frame) : Prop where
  logged : ⟨{ kind := Mutation.repeatEach }, slot⟩ ∈ scope.log
  /-- The slot of the repetition holds a frame for each item. -/
  get_slot : after.values.get slot = .list frames
  /-- The other values stay, and as many absent ones as there is need for are put in. -/
  get_other : ∀ other, other ≠ slot → after.values.get other = view.values.get other
  length_values : after.values.length = max view.values.length (slot + 1)
  /-- The items are run in their order, and each begins in the region and without values. -/
  map_begun : (Script.begun items inside).map (·.1) = items
  begins : ∀ item ∈ Script.begun items inside, item.2.scope = inside.scope ∧ item.2.values = []
  /-- A frame holds what its item declares last for a slot, and no value at other slots. -/
  get_frames : List.Forall₂ (fun item (frame : Frame) => ∀ slot, frame.get slot =
      (lastGiven? (item.1.declared item.2) slot).getD .absent) (Script.begun items inside) frames
  hasRoom : ∃ region, scope.nested = some region ∧
    ∀ frame ∈ frames, after.document.declarations.HasRoom region frame

/-- Wherever a call can be made while scripts run on a document, the context of the scope has
    room for the values, and so have regions for the frames inside. A script leaves the scope
    as it is. A repetition that fails leaves the values as they are, and one that succeeds
    changes the slot of the repetition alone, which holds the frames of its items. -/
theorem frames_of_occurs (h : view.Occurs) :
    (∃ scope, view.document.declarations.scope? view.scope = some scope ∧
      view.document.declarations.HasRoom scope.context view.values) ∧
    (∀ script : Script, (script.run view).2.scope = view.scope) ∧
    ∀ selector items after,
      (∀ e, view.each selector (Script.bodies items) = (.error e, after) →
        after.values = view.values) ∧
      (view.each selector (Script.bodies items) = (.ok (), after) →
        ∃ target inside scope slot frames, view.enterRepeated selector = (.ok target, inside) ∧
          after.document.declarations.scope? target = some scope ∧
          Repeated items view inside after scope slot frames) := by
  have hframed := h.framed
  refine ⟨hframed.hasRoom, fun script => (script.fills_run view).scope, fun selector items after =>
    ⟨fun e => each_eq_error, fun heach => ?_⟩⟩
  obtain ⟨target, inside, frames, last, scope, slot, region, henter, hgather, hscope, hlogged,
    hnested, hvalues, hroom⟩ := hframed.each_eq_ok (Script.framing_bodies items) heach
  have hempty : inside.values = [] := by
    obtain ⟨found, nested, -, -, rfl⟩ := enterRepeated_eq_ok henter
    rfl
  refine ⟨target, inside, scope, slot, frames, henter, hscope, ?_⟩
  exact {
    logged := hlogged
    get_slot := by rw [hvalues, Frame.get_put, if_pos rfl]
    get_other := fun other hother => by rw [hvalues, Frame.get_put, if_neg hother]
    length_values := by rw [hvalues, Frame.length_put]
    map_begun := Script.map_begun items inside
    begins := fun item => Script.of_mem_begun hempty
    get_frames := Script.gather_bodies hempty hgather
    hasRoom := ⟨region, hnested, hroom⟩ }

/-- A section is repeated with a paragraph that is written twice and with one that is left
    as it is. A repetition whose second item cannot be read leaves no values. -/
theorem frames_of_occurs_section :
    let view : View := { document := .ofTree Document.sectionTree }
    let items := Script.ofItems [[.text "p" "a", .text "p" "b"], []]
    let failing := Script.ofItems [[.text "p" "a"], [.text "p >" "b"]]
    let repeated := (view.each "section" (Script.bodies items)).2
    let failed := (view.each "section" (Script.bodies failing)).2
    view.Occurs ∧ view.each "section" (Script.bodies items) = (.ok (), repeated) ∧
      (∃ slot frames, repeated.values.get slot = .list frames ∧ frames.length = 2 ∧
        ∃ region, ∀ frame ∈ frames,
          frame.length ≤ repeated.document.declarations.nextSlot region) ∧
      (∃ e, view.each "section" (Script.bodies failing) = (.error e, failed)) ∧
      failed.values = view.values := by
  intro view items failing repeated failed
  have hoccurs : view.Occurs := .new ⟨Document.sectionTree, {}, true, [], rfl⟩
  have hok {outcome : Outcome} (h : outcome.1.isOk = true) : outcome = (.ok (), outcome.2) := by
    obtain ⟨_ | _, _⟩ := outcome
    · cases h
    · rfl
  have herr {outcome : Outcome} (h : outcome.1.isOk = false) :
      ∃ e, outcome = (.error e, outcome.2) := by
    obtain ⟨_ | _, _⟩ := outcome
    · exact ⟨_, rfl⟩
    · cases h
  have hrepeated : view.each "section" (Script.bodies items) = (.ok (), repeated) :=
    hok (by decide +kernel)
  obtain ⟨e, hfailed⟩ : ∃ e, view.each "section" (Script.bodies failing) = (.error e, failed) :=
    herr (by decide +kernel)
  obtain ⟨-, -, hcalls⟩ := frames_of_occurs hoccurs
  obtain ⟨-, hok⟩ := hcalls "section" items repeated
  obtain ⟨herror, -⟩ := hcalls "section" failing failed
  obtain ⟨target, inside, scope, slot, frames, -, -, hsection⟩ := hok hrepeated
  obtain ⟨region, -, hroom⟩ := hsection.hasRoom
  refine ⟨hoccurs, hrepeated, ⟨slot, frames, hsection.get_slot, ?_, region, fun frame hframe =>
    (hroom frame hframe).length_le⟩, ⟨e, hfailed⟩, herror e hfailed⟩
  rw [← hsection.get_frames.length_eq, ← List.length_map (f := (·.1)), hsection.map_begun]
  rfl

end View

end HtmlTemplate
