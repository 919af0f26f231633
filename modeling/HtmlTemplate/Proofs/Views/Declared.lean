-- SUMMARY: What views keep of the declarations of their document, so that it can be compiled.
import HtmlTemplate.Proofs.Compiling
import HtmlTemplate.Proofs.Declarations.Extends
import HtmlTemplate.Proofs.Shapes
import HtmlTemplate.View

/-!
# Declarations of views

A view mutates only what it has searched for, and by standard mutations. It logs a
repetition when it leaves a region that it has entered, so that all regions are
repeated but those that it is inside of. `Declarations.FromViews` says this of the
declarations of its document; the document of a view outside of all regions can be
compiled. What a view was given before stays well-shaped while declarations grow.
-/

namespace HtmlTemplate

/-! ## Frames that are filled -/

namespace Frame

theorem length_put (frame : Frame) (slot : Nat) (value : Value) :
    (frame.put slot value).length = max frame.length (slot + 1) := by
  simp only [put, List.length_set, List.length_append, List.length_replicate]
  omega

theorem get_put (frame : Frame) (slot other : Nat) (value : Value) :
    (frame.put slot value).get other = if other = slot then value else frame.get other := by
  have hlength := length_put frame slot value
  simp only [get, put, List.getD_eq_getElem?_getD, List.getElem?_set, List.length_append,
    List.length_replicate] at hlength ⊢
  by_cases heq : other = slot
  · subst heq
    have hlt : other < frame.length + (other + 1 - frame.length) := by omega
    simp [hlt]
  · rw [if_neg (Ne.symm heq), if_neg heq]
    by_cases hlt : other < frame.length
    · rw [List.getElem?_append_left hlt]
    · rw [List.getElem?_append_right (Nat.le_of_not_lt hlt),
        List.getElem?_eq_none (Nat.le_of_not_lt hlt), List.getElem?_replicate]
      split <;> rfl

end Frame

namespace Declarations

variable {d d' : Declarations} {c : ContextId} {frame : Frame} {i : ScopeId} {scope : Scope}
  {mutation : Mutation}

/-- The value is such as a mutation on the scope takes. -/
structure Takes (d : Declarations) (scope : Scope) (mutation : Mutation) (value : Value) :
    Prop where
  repeated : mutation.kind = Mutation.repeatEach → ∃ frames, value = .list frames ∧
    ∀ inner, scope.nested = some inner → ∀ values ∈ frames, d.WellShaped inner values
  written : mutation.kind ∈ [Mutation.replaceInnerHtml, Mutation.append, Mutation.setAttribute] →
    value.kind ≠ .list

/-- A frame stays well-shaped when a value is put at the slot of a mutation that takes it. -/
theorem WellShaped.put (h : d.WellShaped scope.context frame) (hd : d.WellFormed)
    (hs : d.scope? i = some scope) {logged : LoggedMutation} (hlogged : logged ∈ scope.log)
    {value : Value} (hvalue : d.Takes scope logged.mutation value) :
    d.WellShaped scope.context (frame.put logged.slot value) := by
  have howner {j t l} (ht : d.scope? j = some t) (hcontext : t.context = scope.context)
      (hl : l ∈ t.log) (hslot : l.slot = logged.slot) : t = scope ∧ l = logged := by
    obtain ⟨rfl, rfl⟩ := hd.slot_inj ht hs hcontext hl hlogged hslot
    exact ⟨Option.some.inj (ht.symm.trans hs), rfl⟩
  generalize hc : scope.context = c at h howner ⊢
  cases h with
  | intro hlength hrepeated hnested hwritten =>
    refine .intro ?_ ?_ ?_ ?_
    · rw [Frame.length_put]
      exact Nat.max_le.mpr ⟨hlength, hc ▸ hd.slot_lt hs hlogged⟩
    · intro j t l ht hcontext hl hkind
      rw [Frame.get_put]
      split
      next hslot =>
        obtain ⟨rfl, rfl⟩ := howner ht hcontext hl hslot
        obtain ⟨frames, rfl, -⟩ := hvalue.repeated hkind
        exact .inr ⟨frames, rfl⟩
      next => exact hrepeated j t l ht hcontext hl hkind
    · intro j t l frames inner ht hcontext hl hkind hlist hinner
      rw [Frame.get_put] at hlist
      split at hlist
      next hslot =>
        obtain ⟨rfl, rfl⟩ := howner ht hcontext hl hslot
        obtain ⟨frames', rfl, hframes⟩ := hvalue.repeated hkind
        cases hlist
        exact hframes inner hinner
      next => exact hnested j t l frames inner ht hcontext hl hkind hlist hinner
    · intro j t l ht hcontext hl hkind frames hlist
      rw [Frame.get_put] at hlist
      split at hlist
      next hslot =>
        obtain ⟨rfl, rfl⟩ := howner ht hcontext hl hslot
        exact hvalue.written hkind (congrArg Value.kind hlist)
      next => exact hwritten j t l ht hcontext hl hkind frames hlist

/-- A frame stays well-shaped when the mutations that are new have slots beyond the old
    ones, and what is repeated has the region that it had. -/
theorem WellShaped.of_slots (h : d.WellShaped c frame)
    (hslots : ∀ c, d.nextSlot c ≤ d'.nextSlot c)
    (horigin : ∀ i s l, d'.scope? i = some s → l ∈ s.log →
      (∃ old, d.scope? i = some old ∧ old.context = s.context ∧ l ∈ old.log ∧
        (l.mutation.kind = Mutation.repeatEach → old.nested = s.nested)) ∨
      d.nextSlot s.context ≤ l.slot) :
    d'.WellShaped c frame := by
  induction h with
  | @intro c frame hlength hrepeated hnested hwritten ih =>
    have hcases {i s l} (hs : d'.scope? i = some s) (hcontext : s.context = c) (hl : l ∈ s.log) :
        (∃ old, d.scope? i = some old ∧ old.context = c ∧ l ∈ old.log ∧
          (l.mutation.kind = Mutation.repeatEach → old.nested = s.nested)) ∨
        frame.get l.slot = .absent := by
      rw [← hcontext]
      refine (horigin i s l hs hl).imp id fun hslot => Frame.get_of_length_le ?_
      exact Nat.le_trans (hcontext ▸ hlength) hslot
    refine .intro (Nat.le_trans hlength (hslots c)) ?_ ?_ ?_
    · intro i s l hs hcontext hl hkind
      rcases hcases hs hcontext hl with ⟨old, hold, hcontext, hl, -⟩ | habsent
      · exact hrepeated i old l hold hcontext hl hkind
      · exact .inl habsent
    · intro i s l frames inner hs hcontext hl hkind hlist hinner
      rcases hcases hs hcontext hl with ⟨old, hold, hcontext, hl, hregion⟩ | habsent
      · exact ih i old l frames inner hold hcontext hl hkind hlist ((hregion hkind).trans hinner)
      · cases habsent.symm.trans hlist
    · intro i s l hs hcontext hl hkind frames hlist
      rcases hcases hs hcontext hl with ⟨old, hold, hcontext, hl, -⟩ | habsent
      · exact hwritten i old l hold hcontext hl hkind frames hlist
      · cases habsent.symm.trans hlist

/-! ## Declarations that views make -/

/-- A repetition over the region of the context is logged. -/
def Repeated (d : Declarations) (c : ContextId) : Prop :=
  ∃ i scope logged, d.scope? i = some scope ∧ scope.nested = some c ∧ logged ∈ scope.log ∧
    logged.mutation.kind = Mutation.repeatEach

/-- The nodes of the scope were searched for. -/
def Searched (d : Declarations) (scope : Scope) : Prop :=
  d.tree.AllBelow (d.regionNodes scope.context) scope.nodes

/-- The container is not among the nodes that were searched for. -/
theorem Placed.root_not_mem (h : d.Placed) (hd : d.WellFormed) (hbuilt : d.tree.Built)
    (hs : d.scope? i = some scope) (hsearched : d.Searched scope) : Tree.root ∉ scope.nodes := by
  intro hroot
  obtain ⟨top, htop, hbelow⟩ := hsearched Tree.root hroot
  obtain ⟨x, hx⟩ := hd.context_of hs
  obtain ⟨r, hr, -⟩ := h.region hx
  rw [regionNodes_eq hx hr] at htop
  refine hbuilt.linked.not_below_self Tree.root ?_
  rcases h.inside hr top htop with rfl | ⟨htop_below, -⟩
  · exact hbelow
  · exact htop_below.trans hbelow

/-- What views keep of the declarations of their document, inside of the regions that are
    `opened`. -/
structure FromViews (d : Declarations) (opened : List ContextId) : Prop where
  standard : ∀ {i s l}, d.scope? i = some s → l ∈ s.log → l.mutation.IsStandard
  /-- Only what was searched for is mutated. -/
  searched : ∀ {i s}, d.scope? i = some s → s.log ≠ [] → d.Searched s
  /-- Only regions are repeated. -/
  entered : ∀ {i s l}, d.scope? i = some s → l ∈ s.log →
    l.mutation.kind = Mutation.repeatEach → s.nested ≠ none
  repeated : ∀ {c x}, d.context? c = some x → c ≠ rootContext → c ∉ opened → d.Repeated c

/-- Scopes stay, and so do the shapes of frames. -/
structure Grows (d d' : Declarations) : Prop where
  scope : ∀ {i s}, d.scope? i = some s → ∃ t, d'.scope? i = some t ∧ t.context = s.context ∧
    (∀ c, s.nested = some c → t.nested = some c) ∧ (d.Searched s → d'.Searched t)
  wellShaped : ∀ {c frame}, d.WellShaped c frame → d'.WellShaped c frame

namespace Grows

theorem refl (d : Declarations) : d.Grows d :=
  ⟨fun hs => ⟨_, hs, rfl, fun _ => id, id⟩, id⟩

theorem trans {d'' : Declarations} (h : d.Grows d') (h' : d'.Grows d'') : d.Grows d'' := by
  refine ⟨fun hs => ?_, fun hframe => h'.wellShaped (h.wellShaped hframe)⟩
  obtain ⟨t, ht, hcontext, hnested, hsearched⟩ := h.scope hs
  obtain ⟨u, hu, hcontext', hnested', hsearched'⟩ := h'.scope ht
  exact ⟨u, hu, hcontext'.trans hcontext, fun c hc => hnested' c (hnested c hc),
    fun h => hsearched' (hsearched h)⟩

theorem context_eq (h : d.Grows d') {s t : Scope} (hs : d.scope? i = some s)
    (ht : d'.scope? i = some t) : t.context = s.context := by
  obtain ⟨t', ht', hcontext, -⟩ := h.scope hs
  obtain rfl := Option.some.inj (ht'.symm.trans ht)
  exact hcontext

end Grows

/-! ## Later declarations -/

/-- What was searched for still was. -/
theorem Extends.searched (h : d.Extends d') (hd : d.WellFormed) (hplaced : d.Placed) {s t : Scope}
    (hs : d.scope? i = some s) (ht : d'.scope? i = some t) (hsearched : d.Searched s) :
    d'.Searched t := by
  obtain ⟨hnodes, hcontext, -⟩ := h.of_scope? hs ht
  obtain ⟨x, hx⟩ := hd.context_of hs
  rw [Searched, h.tree, hnodes, hcontext, h.regionNodes hplaced hx]
  exact hsearched

/-- Shapes stay where only regions are repeated: a scope that gets a region is not repeated
    yet, so that no list was given for it. -/
theorem Extends.grows (h : d.Extends d') (hd : d.WellFormed) (hplaced : d.Placed)
    (hentered : ∀ {i s l}, d.scope? i = some s → l ∈ s.log →
      l.mutation.kind = Mutation.repeatEach → s.nested ≠ none) : d.Grows d' := by
  constructor
  case scope =>
    intro i s hs
    obtain ⟨t, -, ht, -, hcontext, hnested, -⟩ := h.scope hs
    exact ⟨t, ht, hcontext, hnested, h.searched hd hplaced hs ht⟩
  case wellShaped =>
    intro c frame hframe
    refine hframe.of_slots h.slots fun j t l ht hl => ?_
    rcases h.of_mem_log ht hl with ⟨s, hs, hl⟩ | hslot
    · obtain ⟨-, hcontext, hnested, -⟩ := h.of_scope? hs ht
      refine .inl ⟨s, hs, hcontext.symm, hl, fun hkind => ?_⟩
      obtain ⟨c', hc'⟩ := Option.ne_none_iff_exists'.mp (hentered hs hl hkind)
      rw [hc', hnested c' hc']
    · exact .inr hslot

namespace FromViews

variable {opened : List ContextId}

theorem start (tree : Tree) : (Declarations.start tree).FromViews [] := by
  have hlog : ∀ {i s}, (Declarations.start tree).scope? i = some s → s.log = [] := by
    intro i s hs
    obtain ⟨-, rfl⟩ := of_scope?_start hs
    rfl
  constructor
  case standard => intro i s l hs hl; rw [hlog hs] at hl; cases hl
  case searched => intro i s hs hlogs; exact absurd (hlog hs) hlogs
  case entered => intro i s l hs hl; rw [hlog hs] at hl; cases hl
  case repeated =>
    intro c x hx hc
    obtain ⟨i, s, hs, hnested⟩ := (Placed.start tree).exists_nested hx hc
    obtain ⟨-, rfl⟩ := of_scope?_start hs
    cases hnested

/-- A region may count as opened, whether it is repeated or not. -/
theorem cons (h : d.FromViews opened) (c : ContextId) : d.FromViews (c :: opened) :=
  { h with repeated := fun hx hc hopened => h.repeated hx hc fun hmem =>
      hopened (List.mem_cons_of_mem _ hmem) }

/-- A region that is repeated need not count as opened. -/
theorem close (h : d.FromViews (c :: opened)) (hrepeated : d.Repeated c) : d.FromViews opened := by
  refine { h with repeated := fun {c' x} hx hc' hopened => ?_ }
  by_cases hc : c' = c
  · exact hc ▸ hrepeated
  · exact h.repeated hx hc' fun hmem => (List.mem_cons.mp hmem).elim hc hopened

/-! ## Searching -/

theorem withFound (h : d.FromViews opened) (hplaced : d.Placed) (selector : String)
    (nodes : List NodeId) : (d.withFound i scope selector nodes).FromViews opened := by
  have hregion := hplaced.regionNodes_withFound i scope selector nodes
  constructor
  case standard =>
    intro j s l hs hl
    obtain ⟨old, children, hold | ⟨-, rfl⟩, rfl⟩ := of_scope?_withFound hs
    · exact (h.standard hold hl :)
    · cases hl
  case searched =>
    intro j s hs hlog
    obtain ⟨old, children, hold | ⟨-, rfl⟩, rfl⟩ := of_scope?_withFound hs
    · rw [Searched, hregion]
      exact (h.searched hold hlog :)
    · exact absurd rfl hlog
  case entered =>
    intro j s l hs hl
    obtain ⟨old, children, hold | ⟨-, rfl⟩, rfl⟩ := of_scope?_withFound hs
    · exact (h.entered hold hl :)
    · cases hl
  case repeated =>
    intro c x hx hc hopened
    obtain ⟨j, s, l, hs, hnested, hl, hkind⟩ := h.repeated hx hc hopened
    obtain ⟨children, hs'⟩ := scope?_withFound i scope selector nodes hs
    exact ⟨j, _, l, hs', hnested, hl, hkind⟩

theorem resolve (h : d.FromViews opened) (hd : d.WellFormed) (hplaced : d.Placed) (i : ScopeId)
    (selector : String) :
    (d.resolve i selector).2.FromViews opened ∧ d.Grows (d.resolve i selector).2 := by
  have hextends : d.Extends _ := .of_step hd (d.step_resolve i selector)
  refine ⟨?_, hextends.grows hd hplaced h.entered⟩
  rcases d.resolve_snd i selector with heq | ⟨scope, parsed, -, -, -, heq⟩
  · rwa [heq]
  · rw [heq]
    exact h.withFound hplaced selector _

/-! ## Logging -/

theorem withLogged (h : d.FromViews opened) (hplaced : d.Placed) (hid : d.scope? i = some scope)
    (hsearched : d.Searched scope) (hstandard : mutation.IsStandard)
    (hentered : mutation.kind = Mutation.repeatEach → scope.nested ≠ none) :
    (d.withLogged i scope mutation).FromViews opened := by
  have hregion := hplaced.regionNodes_withLogged i scope mutation
  constructor
  case standard =>
    intro j s l hs hl
    obtain ⟨old, hold, -, -, hl | ⟨-, -, rfl⟩⟩ := of_mem_log_withLogged hid hs hl
    · exact h.standard hold hl
    · exact hstandard
  case searched =>
    intro j s hs hlog
    obtain ⟨old, hold, rfl⟩ := of_scope?_withLogged hs
    rw [Searched, hregion]
    by_cases hj : j = i
    · subst hj
      obtain rfl := Option.some.inj (hold.symm.trans hid)
      exact hsearched
    · exact (h.searched hold ((if_neg hj).symm.trans_ne hlog) :)
  case entered =>
    intro j s l hs hl hkind
    obtain ⟨old, hold, -, hnested, hl⟩ := of_mem_log_withLogged hid hs hl
    rw [hnested]
    rcases hl with hl | ⟨-, rfl, rfl⟩
    · exact h.entered hold hl hkind
    · exact hentered hkind
  case repeated =>
    intro c x hx hc hopened
    rw [context?_withLogged, Option.map_eq_some_iff] at hx
    obtain ⟨old, hold, -⟩ := hx
    obtain ⟨j, s, l, hs, hnested, hl, hkind⟩ := h.repeated hold hc hopened
    refine ⟨j, _, l, scope?_withLogged i scope mutation hs, hnested, ?_, hkind⟩
    dsimp only
    split
    · exact List.mem_append_left _ hl
    · exact hl

theorem log (h : d.FromViews opened) (hd : d.WellFormed) (hplaced : d.Placed)
    (hid : d.scope? i = some scope) (hsearched : d.Searched scope) (hstandard : mutation.IsStandard)
    (hentered : mutation.kind = Mutation.repeatEach → scope.nested ≠ none) :
    (d.log i mutation).2.FromViews opened ∧ d.Grows (d.log i mutation).2 := by
  have hextends : d.Extends _ := .of_step hd (d.step_log i mutation)
  refine ⟨?_, hextends.grows hd hplaced h.entered⟩
  rcases d.log_snd i mutation with heq | ⟨scope', hid', -, heq⟩
  · rwa [heq]
  · obtain rfl := Option.some.inj (hid.symm.trans hid')
    rw [heq]
    exact h.withLogged hplaced hid hsearched hstandard hentered

/-! ## Entering regions -/

theorem withRegion (h : d.FromViews opened) (hd : d.WellFormed) (hplaced : d.Placed)
    (hid : d.scope? i = some scope) (hnew : scope.nested = none) :
    (d.withRegion i scope).FromViews (⟨d.contexts.size⟩ :: opened) := by
  have hregion := hplaced.regionNodes_withRegion hid
  constructor
  case standard =>
    intro j s l hs hl
    obtain ⟨old, hold | ⟨-, rfl⟩, rfl⟩ := of_scope?_withRegion hs
    · exact (h.standard hold hl :)
    · cases hl
  case searched =>
    intro j s hs hlog
    obtain ⟨old, hold | ⟨-, rfl⟩, rfl⟩ := of_scope?_withRegion hs
    · obtain ⟨x, hx⟩ := hd.context_of hold
      rw [Searched, hregion, if_neg (Nat.ne_of_lt (lt_of_context? hx))]
      exact (h.searched hold hlog :)
    · exact absurd rfl hlog
  case entered =>
    intro j s l hs hl hkind
    obtain ⟨old, hold | ⟨-, rfl⟩, rfl⟩ := of_scope?_withRegion hs
    · dsimp only
      split
      · nofun
      · exact h.entered hold hl hkind
    · cases hl
  case repeated =>
    intro c x hx hc hopened
    rw [List.mem_cons, not_or] at hopened
    rw [context?_withRegion, if_neg fun hsize => hopened.1 (ContextId.index_inj.mp hsize)] at hx
    obtain ⟨j, s, l, hs, hnested, hl, hkind⟩ := h.repeated hx hc hopened.2
    have hs' := scope?_withRegion_of_nested hid hnew hs hnested
    exact ⟨j, s, l, hs', hnested, hl, hkind⟩

theorem nest (h : d.FromViews opened) (hd : d.WellFormed) (hplaced : d.Placed)
    (hnest : (d.nest i).1 = .ok c) :
    (d.nest i).2.FromViews (c :: opened) ∧ d.Grows (d.nest i).2 := by
  have hextends : d.Extends _ := .of_step hd (d.step_nest i)
  refine ⟨?_, hextends.grows hd hplaced h.entered⟩
  unfold Declarations.nest at hnest ⊢
  split at hnest
  · cases hnest
  next scope hid =>
    split at hnest
    next hnested =>
      cases hnest
      exact h.cons c
    next hnew =>
      cases hnest
      exact h.withRegion hd hplaced hid hnew

/-! ## Compiling -/

theorem clean (h : d.FromViews opened) (dirty : Bool) :
    { d with isDirty := dirty : Declarations }.FromViews opened ∧
      d.Grows { d with isDirty := dirty } := by
  refine ⟨⟨h.standard, h.searched, h.entered, h.repeated⟩, ?_⟩
  refine ⟨fun hs => ⟨_, hs, rfl, fun _ => id, id⟩, fun hframe => ?_⟩
  exact hframe.of_slots (fun _ => Nat.le_refl _) fun i s l hs hl =>
    .inl ⟨s, hs, rfl, hl, fun _ => rfl⟩

end FromViews

end Declarations

/-! ## Documents that can be compiled -/

/-- A document whose regions are all repeated can be compiled. -/
theorem Document.compilable_of_fromViews {tree : Tree} (hbuilt : tree.Built) {optimizing : Bool}
    {operations : List Operation}
    (hnodes : ∀ id node, tree.Within Tree.root id → tree.get? id = some node →
      node.content.category ≠ .comment ∧ node.content.category ≠ .instruction)
    (h : ((ofTree tree {} optimizing).run operations).declarations.FromViews []) :
    (ofTree tree {} optimizing).Compilable operations := by
  have hd := wellFormed_run tree {} optimizing operations
  have hplaced := placed_run hbuilt {} optimizing operations
  have htree : ((ofTree tree {} optimizing).run operations).declarations.tree = tree :=
    tree_run _ operations
  have hbelow {id mutation}
      (hmutates : ((ofTree tree {} optimizing).run operations).declarations.Mutates id mutation) :
      ∃ top ∈ ((ofTree tree {} optimizing).run operations).declarations.regionNodes
        mutation.1.context, tree.Below top id := by
    obtain ⟨⟨i, hs⟩, hnode, hlogged⟩ := hmutates
    have hbelow := h.searched hs (List.ne_nil_of_mem hlogged) id hnode
    rwa [htree] at hbelow
  constructor
  case nodes =>
    rintro id node ⟨above, htrail⟩
    exact hnodes id node htrail.path.within
  case container =>
    rintro mutation ⟨⟨i, hs⟩, hroot, hlogged⟩
    have hsearched := h.searched hs (List.ne_nil_of_mem hlogged)
    exact hplaced.root_not_mem hd (htree.symm ▸ hbuilt) hs hsearched hroot
  case standard =>
    rintro id mutation - ⟨⟨i, hs⟩, -, hlogged⟩
    exact Mutation.isStandard_iff.mp (h.standard hs hlogged)
  case bound =>
    intro id mutation _ hmutates hcontext _
    obtain ⟨top, htop, hbelow⟩ := hbelow hmutates
    obtain ⟨⟨i, hs⟩, -, -⟩ := hmutates
    obtain ⟨x, hx⟩ := hd.context_of hs
    obtain ⟨j, scope, logged, hscope, hnested, hlogged, hkind⟩ :=
      h.repeated hx hcontext List.not_mem_nil
    rw [hplaced.regionNodes_nested hscope hnested] at htop
    rw [← htree] at hbelow
    exact ⟨scope, logged, ⟨j, hscope⟩, hnested, hlogged, hkind, .inl ⟨top, htop, hbelow⟩⟩

end HtmlTemplate
