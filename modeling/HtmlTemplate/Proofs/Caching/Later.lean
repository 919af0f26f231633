-- SUMMARY: What entering repeated regions changes in the edits of nodes and in their template.
import HtmlTemplate.Proofs.Bound
import HtmlTemplate.Proofs.Declarations.Edits
import HtmlTemplate.Proofs.Neutral
import HtmlTemplate.Proofs.Sessions
import Mathlib.Data.List.Forall2

/-!
# Regions that are entered later

When nothing is logged, the edits of a node change in one way only: a repetition
over a scope that had no region gets the parameters of the region that was entered.
This module follows the change from the edits to the template. A template that was
compiled before can still be compiled, because more contexts are bound in it.
-/

namespace HtmlTemplate

/-- `edit` is `edit₀`, or it is a repetition that has got the parameters of a
    context without slots, numbered from `size` on. -/
def Edit.Later (size : Nat) (edit₀ edit : Edit) : Prop :=
  edit = edit₀ ∨ edit₀.change = .repetition none ∧
    ∃ c : ContextId, size ≤ c.index ∧ edit = ⟨.repetition (some ⟨c, 0, false⟩), edit₀.var⟩

namespace Declarations

variable {d₀ d : Declarations} {id : NodeId}

theorem nextSlot_of_size_le {c : ContextId} (h : d.contexts.size ≤ c.index) : d.nextSlot c = 0 := by
  have hnone : d.context? c = none := Array.getElem?_eq_none h
  simp [nextSlot, hnone]

namespace LogsKept

/-! ## Edits -/

theorem loopParameters (h : d₀.LogsKept d) : d.loopParameters = d₀.loopParameters := by
  funext c
  simp only [Declarations.loopParameters, h.slots]

theorem isMutated (h : d₀.LogsKept d) (id : NodeId) : d.isMutated id = d₀.isMutated id := by
  simp only [Declarations.isMutated, h.index]

/-- The scopes that mutate a node are at the same numbers. -/
theorem touching (h : d₀.LogsKept d) (hd₀ : d₀.WellFormed) (id : NodeId) :
    List.Forall₂ (fun s t => ∃ i, d₀.scope? i = some s ∧ d.scope? i = some t)
      (d₀.touching id) (d.touching id) := by
  have hsame : List.Forall₂ (fun i j => i = j ∧ i ∈ d₀.index.scopes id)
      (d₀.index.scopes id) (d₀.index.scopes id) :=
    List.forall₂_same.mpr fun i hi => ⟨rfl, hi⟩
  unfold Declarations.touching
  rw [h.index]
  refine List.rel_filterMap ?_ hsame
  rintro i j ⟨rfl, hi⟩
  obtain ⟨s, hs, -⟩ := hd₀.mem_index.mp hi
  obtain ⟨t, ht, -⟩ := h.scope hs
  rw [hs, ht]
  exact .some ⟨i, hs, ht⟩

theorem edit? (h : d₀.LogsKept d) (hd₀ : d₀.WellFormed) (hd : d.WellFormed) {i : ScopeId}
    {s t : Scope} (hs : d₀.scope? i = some s) (ht : d.scope? i = some t) (logged : LoggedMutation) :
    Option.Rel (Edit.Later d₀.contexts.size) (d₀.edit? s logged) (d.edit? t logged) := by
  obtain ⟨t', ht', -, hcontext, -, hnested⟩ := h.scope hs
  obtain rfl := Option.some.inj (ht'.symm.trans ht)
  rw [hd₀.edit?_eq hs, hd.edit?_eq ht, h.loopParameters]
  have hvar : t'.var logged = s.var logged := by simp only [Scope.var, hcontext]
  rw [hvar]
  have hsame : ∀ edit? : Option Edit, Option.Rel (Edit.Later d₀.contexts.size) edit? edit? := by
    intro edit?
    cases edit? with
    | none => exact .none
    | some edit => exact .some (.inl rfl)
  rcases hnested with hnested | ⟨hnone, c, hc, hsize⟩
  · rw [hnested]
    exact hsame _
  -- The scope has got a region, which only its repetition can tell.
  by_cases hrepeat : logged.mutation = { kind := Mutation.repeatEach }
  · rw [Mutation.change?_eq_repetition.mpr ⟨hrepeat, rfl⟩,
      Mutation.change?_eq_repetition.mpr ⟨hrepeat, rfl⟩, hnone, hc]
    refine .some (.inr ⟨rfl, c, hsize, ?_⟩)
    simp [Declarations.loopParameters, nextSlot_of_size_le hsize]
  · rw [Mutation.change?_congr hrepeat (t'.nested.map d₀.loopParameters)
      (s.nested.map d₀.loopParameters)]
    exact hsame _

theorem edits (h : d₀.LogsKept d) (hd₀ : d₀.WellFormed) (hd : d.WellFormed) (id : NodeId) :
    List.Forall₂ (Edit.Later d₀.contexts.size) (d₀.edits id) (d.edits id) := by
  rw [edits_eq_flatMap, edits_eq_flatMap]
  refine List.rel_flatMap (h.touching hd₀ id) ?_
  rintro s t ⟨i, hs, ht⟩
  obtain ⟨t', ht', -, -, hlog, -⟩ := h.scope hs
  obtain rfl := Option.some.inj (ht'.symm.trans ht)
  simp only [hlog]
  refine List.rel_filterMap ?_ (List.forall₂_same.mpr fun logged _ => (rfl : logged = logged))
  rintro logged _ rfl
  exact h.edit? hd₀ hd hs ht logged

theorem exists_later (h : d₀.LogsKept d) (hd₀ : d₀.WellFormed) (hd : d.WellFormed) {edit₀ : Edit}
    (hedit₀ : edit₀ ∈ d₀.edits id) :
    ∃ edit ∈ d.edits id, edit₀.Later d₀.contexts.size edit := by
  have hexists {edits₀ edits : List Edit}
      (hall : List.Forall₂ (Edit.Later d₀.contexts.size) edits₀ edits) :
      ∀ edit₀ ∈ edits₀, ∃ edit ∈ edits, edit₀.Later d₀.contexts.size edit := by
    induction hall with
    | nil => nofun
    | cons hedit _ ih =>
      rw [List.forall_mem_cons]
      refine ⟨⟨_, List.mem_cons_self, hedit⟩, fun edit₀ hedit₀ => ?_⟩
      obtain ⟨edit, hmem, hlater⟩ := ih edit₀ hedit₀
      exact ⟨edit, List.mem_cons_of_mem _ hmem, hlater⟩
  exact hexists (h.edits hd₀ hd id) edit₀ hedit₀

theorem of_mem_touching (h : d₀.LogsKept d) (hd₀ : d₀.WellFormed) {t : Scope}
    (ht : t ∈ d.touching id) :
    ∃ i s, d₀.scope? i = some s ∧ d.scope? i = some t ∧ s ∈ d₀.touching id := by
  obtain ⟨i, hi, ht⟩ := List.mem_filterMap.mp ht
  rw [h.index] at hi
  obtain ⟨s, hs, -⟩ := hd₀.mem_index.mp hi
  exact ⟨i, s, hs, ht, List.mem_filterMap.mpr ⟨i, hi, hs⟩⟩

end LogsKept

end Declarations

/-! ## Attributes -/

/-- The plans differ in nothing but what their wrappers do. -/
structure Plan.Alike (plan₀ plan : Plan) : Prop where
  node : plan.node = plan₀.node
  inner : plan.inner.length = plan₀.inner.length
  outer : plan.outer.length = plan₀.outer.length
  content : plan.content = plan₀.content
  overrides : plan.overrides = plan₀.overrides

/-- The pass looks at the wrappers of a plan no further than to count them. -/
def AttributePass.IgnoresWrappers (pass : AttributePass) : Prop :=
  ∀ {plan₀ plan : Plan} (tree : Tree), plan₀.Alike plan → pass plan tree = pass plan₀ tree

theorem AttributePass.IsStandard.ignoresWrappers {pass : AttributePass} (h : pass.IsStandard) :
    pass.IgnoresWrappers := by
  intro plan₀ plan tree halike
  cases h with
  | withoutOverrides => simp only [AttributePass.withoutOverrides, halike.node]
  | withOverrides =>
    have hoverride (name : String) : plan.override? name = plan₀.override? name := by
      simp only [Plan.override?, halike.overrides]
    simp only [AttributePass.withOverrides, halike.node, overridden, hoverride, added,
      halike.overrides]

theorem Plan.Alike.edit {plan₀ plan : Plan} (h : plan₀.Alike plan) {size : Nat}
    {edit₀ edit : Edit} (hedit : edit₀.Later size edit) :
    (plan₀.edit edit₀).Alike (plan.edit edit) := by
  have hlengths {plan₀ plan : Plan} {wrap wrap' : Template → Template} (h : plan₀.Alike plan) :
      (plan₀.wrapInner wrap).Alike (plan.wrapInner wrap') ∧
        (plan₀.wrapOuter wrap).Alike (plan.wrapOuter wrap') :=
    ⟨⟨h.node, by simp [wrapInner, h.inner], h.outer, h.content, h.overrides⟩,
      ⟨h.node, h.inner, by simp [wrapOuter, h.outer], h.content, h.overrides⟩⟩
  rcases hedit with rfl | ⟨hchange, c, -, rfl⟩
  · unfold Plan.edit
    split
    · exact (hlengths h).1
    · exact (hlengths h).1
    · exact ⟨h.node, h.inner, h.outer, h.content, by simp only [Plan.override, h.overrides]⟩
    · exact (hlengths h).2
    · exact (hlengths h).2
  · simp only [Plan.edit, hchange]
    exact (hlengths h).2

theorem Plan.alike_ofEdits {size : Nat} {edits₀ edits : List Edit}
    (h : List.Forall₂ (Edit.Later size) edits₀ edits) (node : NodeId) :
    (ofEdits node edits₀).Alike (ofEdits node edits) :=
  List.rel_foldl (fun _ _ halike _ _ hedit => halike.edit hedit) ⟨rfl, rfl, rfl, rfl, rfl⟩ h

namespace Declarations.LogsKept

variable {d₀ d : Declarations} {pass : AttributePass}

theorem attributes (h : d₀.LogsKept d) (hd₀ : d₀.WellFormed) (hd : d.WellFormed)
    (hpass : pass.IgnoresWrappers) (id : NodeId) (element : Element) :
    d.attributes pass id element = d₀.attributes pass id element := by
  simp only [Declarations.attributes, h.isMutated, h.tree,
    hpass d₀.tree (Plan.alike_ofEdits (h.edits hd₀ hd id) id)]

end Declarations.LogsKept

/-! ## Compilation -/

/-- No variable of `template` is unbound where none of `template₀` is. -/
def Template.Opens (template₀ template : Template) : Prop :=
  ∀ bound, template₀.unbound? bound = none → template.unbound? bound = none

namespace Edit.Later

variable {size : Nat} {edit₀ edit : Edit}

theorem var (h : edit₀.Later size edit) : edit.var = edit₀.var := by
  rcases h with rfl | ⟨-, c, -, rfl⟩ <;> rfl

theorem wrapsContent (h : edit₀.Later size edit) (hwraps : edit.WrapsContent) :
    edit₀.WrapsContent := by
  rcases h with rfl | ⟨-, c, -, rfl⟩
  · exact hwraps
  · rcases hwraps with hchange | hchange <;> cases hchange

theorem wrapsElement (h : edit₀.Later size edit) (hwraps : edit.WrapsElement) :
    edit₀.WrapsElement := by
  rcases h with rfl | ⟨hchange, -⟩
  · exact hwraps
  · exact .inr ⟨none, hchange⟩

theorem boundInside_subset (h : edit₀.Later size edit) (bound : List ContextId) :
    edit₀.boundInside bound ⊆ edit.boundInside bound := by
  rcases h with rfl | ⟨hchange, c, -, rfl⟩
  · exact List.Subset.refl _
  · simp only [boundInside, hchange]
    exact List.subset_cons_self _ _

theorem opens_wrapContent (h : edit₀.Later size edit) {content₀ content : Template}
    (hcontent : content₀.Opens content) :
    (wrapContent content₀ edit₀).Opens (wrapContent content edit) := by
  intro bound hbound
  rw [unbound?_wrapContent_eq_none] at hbound ⊢
  exact ⟨hcontent bound hbound.1, fun hwraps => h.var ▸ hbound.2 (h.wrapsContent hwraps)⟩

theorem opens_wrapElement (h : edit₀.Later size edit) {element₀ element : Template}
    (helement : element₀.Opens element) :
    (wrapElement element₀ edit₀).Opens (wrapElement element edit) := by
  intro bound hbound
  rw [unbound?_wrapElement_eq_none] at hbound ⊢
  constructor
  · apply element.unbound?_mono (h.boundInside_subset bound)
    exact helement _ hbound.1
  · intro hwraps
    rw [h.var]
    exact hbound.2 (h.wrapsElement hwraps)

end Edit.Later

/-- The template of an element opens with its edits and with what is inside it. -/
theorem Edit.opens_weave {size : Nat} {edits₀ edits : List Edit}
    (h : List.Forall₂ (Edit.Later size) edits₀ edits) (tag : String) (attributes : Template)
    {inside₀ inside : Template} (hinside : inside₀.Opens inside) :
    (weave edits₀ tag attributes inside₀).Opens (weave edits tag attributes inside) := by
  have hcontent : (edits₀.foldl wrapContent inside₀).Opens (edits.foldl wrapContent inside) :=
    List.rel_foldl (fun _ _ hcontent _ _ hedit => hedit.opens_wrapContent hcontent) hinside h
  refine List.rel_foldl (fun _ _ helement _ _ hedit => hedit.opens_wrapElement helement) ?_ h
  intro bound hbound
  rw [Template.unbound?_element_eq_none] at hbound ⊢
  exact ⟨hbound.1, hcontent bound hbound.2⟩

namespace Declarations.LogsKept

variable {d₀ d : Declarations} {pass : AttributePass}

mutual

theorem opens_weave (h : d₀.LogsKept d) (hd₀ : d₀.WellFormed) (hd : d.WellFormed)
    (hpass : pass.IgnoresWrappers) (raw : Bool) (branch : Branch) :
    (d₀.weave pass raw branch).Opens (d.weave pass raw branch) := by
  obtain ⟨id, content, children⟩ := branch
  rw [weave, weave, h.tree]
  cases content with
  | container =>
    intro bound hbound
    rw [weaveNode, Template.unbound?_sequence_eq_none] at hbound ⊢
    exact opens_weaveAll h hd₀ hd hpass _ children bound hbound
  | element element =>
    simp only [weaveNode, h.tree, h.attributes hd₀ hd hpass]
    refine Edit.opens_weave (h.edits hd₀ hd id) _ _ fun bound hbound => ?_
    rw [Template.unbound?_sequence_eq_none] at hbound ⊢
    exact opens_weaveAll h hd₀ hd hpass _ children bound hbound
  | _ => exact fun _ _ => rfl

theorem opens_weaveAll (h : d₀.LogsKept d) (hd₀ : d₀.WellFormed) (hd : d.WellFormed)
    (hpass : pass.IgnoresWrappers) (raw : Bool) (branches : List Branch) (bound : List ContextId)
    (hbound : ∀ item ∈ d₀.weaveAll pass raw branches, item.unbound? bound = none) :
    ∀ item ∈ d.weaveAll pass raw branches, item.unbound? bound = none := by
  cases branches with
  | nil => nofun
  | cons branch rest =>
    rw [weaveAll, List.forall_mem_cons] at hbound ⊢
    constructor
    · exact opens_weave h hd₀ hd hpass raw branch bound hbound.1
    · exact opens_weaveAll h hd₀ hd hpass raw rest bound hbound.2

end

/-- What was compiled before can be compiled after regions were entered. -/
theorem compile (h : d₀.LogsKept d) (hd₀ : d₀.WellFormed) (hd : d.WellFormed)
    (hpass : pass.IgnoresWrappers) {template : Template}
    (hcompile : (Compiler.mk .standard pass).compile d₀ = .ok template) :
    (Compiler.mk .standard pass).compile d = .ok (d.woven pass) := by
  obtain ⟨hadmits, hbound, -⟩ := Compiler.compile_eq_ok.mp hcompile
  refine Compiler.compile_eq_ok.mpr ⟨?_, ?_, rfl⟩
  · rintro ⟨id, content⟩ hnode
    have hadmits := hadmits (id, content) (by
      unfold visited at hnode ⊢
      rwa [← h.tree])
    cases content with
    | element element =>
      intro pair hpair
      obtain ⟨t, ht, hpair⟩ := List.mem_flatMap.mp hpair
      obtain ⟨logged, hlogged, rfl⟩ := List.mem_map.mp hpair
      obtain ⟨i, s, hs, ht, hmem⟩ := h.of_mem_touching hd₀ ht
      obtain ⟨t', ht', -, -, hlog, -⟩ := h.scope hs
      obtain rfl := Option.some.inj (ht'.symm.trans ht)
      apply hadmits (s, logged)
      refine List.mem_flatMap.mpr ⟨s, hmem, ?_⟩
      exact List.mem_map.mpr ⟨logged, hlog ▸ hlogged, rfl⟩
    | comment text => exact hadmits
    | instruction target text => exact hadmits
    | _ => exact (h.isMutated id).trans hadmits
  · unfold woven at hbound ⊢
    rw [h.tree]
    cases hbranch : d₀.tree.branch? Tree.root with
    | none => rfl
    | some branch =>
      rw [hbranch] at hbound
      exact h.opens_weave hd₀ hd hpass false branch _ hbound

end Declarations.LogsKept

end HtmlTemplate
