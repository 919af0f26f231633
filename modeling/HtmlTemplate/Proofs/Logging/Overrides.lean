-- SUMMARY: Attributes of an element in later declarations, where overrides may have come in or been replaced.
import HtmlTemplate.Proofs.Logging.Refinement
import HtmlTemplate.Proofs.Neutral

/-!
# Overrides in later declarations

An override takes the place of an earlier one of the same name, and of that one alone.
So in later declarations the overrides of an element are some of those of before, in
their order, and new ones between them. The attributes are written as before if every
override that is gone had no value.
-/

namespace HtmlTemplate

/-- A variable that comes with a new edit. -/
def Growth.IsNewVar (growth : Growth) (var : Var) : Prop :=
  ∃ edit, growth.IsNew edit ∧ edit.var = var

/-! ## Lists of overrides -/

namespace Edit

theorem filter_filter_comm (p q : String × Var → Bool) (overrides : List (String × Var)) :
    (overrides.filter p).filter q = (overrides.filter q).filter p := by
  simp only [List.filter_filter, Bool.and_comm]

/-- The overrides have names in lower case, and no two have one name. -/
structure Distinct (overrides : List (String × Var)) : Prop where
  nodup : overrides.Nodup
  eq_of_name : ∀ {pair pair'}, pair ∈ overrides → pair' ∈ overrides → pair.1 = pair'.1 →
    pair = pair'
  lower : ∀ {pair}, pair ∈ overrides → asciiLower pair.1 = pair.1

theorem Distinct.nil : Distinct [] :=
  ⟨.nil, fun h => absurd h List.not_mem_nil, fun h => absurd h List.not_mem_nil⟩

theorem Distinct.override {overrides : List (String × Var)} (h : Distinct overrides) (edit : Edit) :
    Distinct (edit.override overrides) := by
  unfold Edit.override
  split
  next name _ =>
    have hmem {pair : String × Var} :
        pair ∈ overrides.filter (·.1 != asciiLower name) ++ [(asciiLower name, edit.var)] ↔
          pair ∈ overrides ∧ pair.1 ≠ asciiLower name ∨ pair = (asciiLower name, edit.var) := by
      simp
    constructor
    case nodup =>
      refine List.nodup_append.mpr ⟨h.nodup.filter _, List.nodup_singleton _, ?_⟩
      rintro pair hpair _ hnew rfl
      obtain rfl := List.mem_singleton.mp hnew
      simp at hpair
    case eq_of_name =>
      intro pair pair' hpair hpair' hname
      rcases hmem.mp hpair with ⟨hpair, hne⟩ | rfl <;>
        rcases hmem.mp hpair' with ⟨hpair', hne'⟩ | rfl
      · exact h.eq_of_name hpair hpair' hname
      · exact absurd hname hne
      · exact absurd hname.symm hne'
      · rfl
    case lower =>
      intro pair hpair
      rcases hmem.mp hpair with ⟨hpair, -⟩ | rfl
      · exact h.lower hpair
      · exact asciiLower_asciiLower name
  next => exact h

theorem distinct_foldl {overrides : List (String × Var)} (h : Distinct overrides)
    (edits : List Edit) : Distinct (edits.foldl Edit.override overrides) := by
  induction edits generalizing overrides with
  | nil => exact h
  | cons edit rest ih => exact ih (h.override edit)

/-- An override is found by its name alone. -/
theorem Distinct.override?_eq_some {plan : Plan} (h : Distinct plan.overrides) {name : String}
    {var : Var} : plan.override? name = some var ↔ (asciiLower name, var) ∈ plan.overrides := by
  unfold Plan.override?
  rw [Option.map_eq_some_iff]
  constructor
  · rintro ⟨pair, hpair, rfl⟩
    have hname : asciiLower pair.1 = asciiLower name := by
      simpa [eqIgnoringAsciiCase] using List.find?_some hpair
    have hmem := List.mem_of_find?_eq_some hpair
    rw [← hname, h.lower hmem]
    exact hmem
  · intro hmem
    cases hfind : plan.overrides.find? fun pair => eqIgnoringAsciiCase pair.1 name with
    | none =>
      have hnone := List.find?_eq_none.mp hfind _ hmem
      simp [eqIgnoringAsciiCase, asciiLower_asciiLower] at hnone
    | some pair =>
      have hname : asciiLower pair.1 = asciiLower name := by
        simpa [eqIgnoringAsciiCase] using List.find?_some hfind
      have hpair := List.mem_of_find?_eq_some hfind
      rw [h.lower hpair] at hname
      exact ⟨pair, rfl, congrArg (·.2) (h.eq_of_name hpair hmem hname)⟩

/-- Some of the overrides are kept, in their order, and new ones may have come in. -/
def Supersedes (growth : Growth) (overrides overrides' : List (String × Var)) : Prop :=
  ∃ kept : List (String × Var), kept.Sublist overrides ∧ kept.Sublist overrides' ∧
    ∀ pair ∈ overrides', pair ∈ kept ∨ growth.IsNewVar pair.2

namespace Supersedes

variable {growth : Growth} {edit : Edit} {overrides overrides' : List (String × Var)}

theorem nil : Supersedes growth [] [] := ⟨[], .slnil, .slnil, nofun⟩

theorem keep (h : Supersedes growth overrides overrides') :
    Supersedes growth (edit.override overrides) (edit.override overrides') := by
  unfold Edit.override
  split
  next name _ =>
    obtain ⟨kept, hkept, hkept', hnew⟩ := h
    refine ⟨kept.filter (·.1 != asciiLower name) ++ [(asciiLower name, edit.var)],
      (hkept.filter _).append_right _, (hkept'.filter _).append_right _, fun pair hpair => ?_⟩
    rw [List.mem_append] at hpair ⊢
    rcases hpair with hpair | hpair
    · obtain ⟨hpair, hname⟩ := List.mem_filter.mp hpair
      exact (hnew pair hpair).imp (fun hmem => .inl (List.mem_filter.mpr ⟨hmem, hname⟩)) id
    · exact .inl (.inr hpair)
  next => exact h

theorem add (h : Supersedes growth overrides overrides') (hedit : growth.IsNew edit) :
    Supersedes growth overrides (edit.override overrides') := by
  unfold Edit.override
  split
  next name _ =>
    obtain ⟨kept, hkept, hkept', hnew⟩ := h
    refine ⟨kept.filter (·.1 != asciiLower name), (List.filter_sublist ..).trans hkept,
      (hkept'.filter _).trans (List.sublist_append_left _ _), fun pair hpair => ?_⟩
    rcases List.mem_append.mp hpair with hpair | hpair
    · obtain ⟨hpair, hname⟩ := List.mem_filter.mp hpair
      exact (hnew pair hpair).imp (fun hmem => List.mem_filter.mpr ⟨hmem, hname⟩) id
    · obtain rfl := List.mem_singleton.mp hpair
      exact .inr ⟨edit, hedit, rfl⟩
  next => exact h

end Supersedes

theorem Grown.supersedes {growth : Growth} {edits edits' : List Edit} (h : Grown growth edits edits')
    {overrides overrides' : List (String × Var)} (hover : Supersedes growth overrides overrides') :
    Supersedes growth (edits.foldl Edit.override overrides)
      (edits'.foldl Edit.override overrides') := by
  induction h generalizing overrides overrides' with
  | nil => exact hover
  | @keep first second _ _ hedit _ ih =>
    have hsame : second.override overrides' = first.override overrides' := by
      cases hedit <;> rfl
    rw [List.foldl_cons, List.foldl_cons, hsame]
    exact ih hover.keep
  | add hnew _ ih => exact ih (hover.add hnew)

/-- Only an attribute takes the place of an override. -/
theorem Grown.foldl_override {growth : Growth} {edits edits' : List Edit}
    (h : Grown growth edits edits')
    (hnew : ∀ edit, growth.IsNew edit → ∀ name, edit.change ≠ .attribute name)
    (overrides : List (String × Var)) :
    edits'.foldl Edit.override overrides = edits.foldl Edit.override overrides := by
  induction h generalizing overrides with
  | nil => rfl
  | @keep first second _ _ hedit _ ih =>
    have hsame : second.override overrides = first.override overrides := by
      cases hedit <;> rfl
    rw [List.foldl_cons, List.foldl_cons, hsame, ih]
  | @add new _ _ hedit _ ih =>
    have hsame : new.override overrides = overrides := by
      unfold Edit.override
      split
      next name hchange => exact absurd hchange (hnew new hedit name)
      next => rfl
    rw [List.foldl_cons, hsame, ih]

end Edit

/-! ## Attributes -/

variable {growth : Growth}

namespace Template.Refines

theorem attr (name : String) {value value' : Template} (h : Refines growth value value') :
    Refines growth (.attr name value) (.attr name value') := by
  intro bound bindings bindings' hagree hbound markup hrender
  rw [unbound?_attr] at hbound
  simp only [render, Rendered.append_eq_ok] at hrender ⊢
  obtain ⟨a, b, ⟨a', b', ha, hb, hab⟩, hquote, rfl⟩ := hrender
  exact ⟨a, b, ⟨a', b', ha, h bound bindings bindings' hagree hbound b' hb, hab⟩, hquote, rfl⟩

theorem sequence_map {α : Type} {items : List α} {f g : α → Template}
    (h : ∀ item ∈ items, Refines growth (f item) (g item)) :
    Refines growth (.sequence (items.map f)) (.sequence (items.map g)) := by
  induction items with
  | nil => exact sequence_nil
  | cons item rest ih =>
    rw [List.forall_mem_cons] at h
    exact sequence_cons h.1 (ih h.2)

theorem sequence_append {first first' second second' : List Template}
    (h : Refines growth (.sequence first) (.sequence first'))
    (h' : Refines growth (.sequence second) (.sequence second')) :
    Refines growth (.sequence (first ++ second)) (.sequence (first' ++ second')) := by
  intro bound bindings bindings' hagree hbound markup hrender
  rw [unbound?_sequence_eq_none, List.forall_mem_append] at hbound
  obtain ⟨hbound, hbound'⟩ := hbound
  rw [← unbound?_sequence_eq_none] at hbound hbound'
  rw [render, renderAll_append, Rendered.append_eq_ok] at hrender ⊢
  obtain ⟨a, b, ha, hb, rfl⟩ := hrender
  refine ⟨a, b, ?_, ?_, rfl⟩
  · exact h bound bindings bindings' hagree hbound a ha
  · exact h' bound bindings bindings' hagree hbound' b hb

end Template.Refines

namespace AttributePass

theorem refines_fixed (name value : String) :
    (fixed name value).Refines growth (fixed name value) := .attr name (.static _)

theorem refines_given (name : String) (var : Var) {otherwise otherwise' : Option Template}
    (h : Option.Rel (Template.Refines growth) otherwise otherwise') :
    (given name var otherwise).Refines growth (given name var otherwise') :=
  .choice _ (.attr name (.dynamic var)) h

/-- The variable has no given value in any frame. -/
def NotGiven (growth : Growth) (var : Var) : Prop :=
  ∀ frame, growth.IsFrame var.context frame → (frame.get var.slot).isTruthy = false

theorem NotGiven.isTruthy {var : Var} (h : NotGiven growth var) {bound : List ContextId}
    {bindings bindings' : Bindings} (hagree : bindings.Agree growth bound bindings')
    (hvar : var.context ∈ bound) : (bindings.value var).isTruthy = false := by
  obtain ⟨frame, hframe, -, hG⟩ := hagree.frame _ hvar
  rw [Bindings.value_of_frame? hframe]
  exact h frame hG

/-- Bindings that agree give a new variable no value. -/
theorem isTruthy_of_isNewVar {var : Var} (h : growth.IsNewVar var) {bound : List ContextId}
    {bindings bindings' : Bindings} (hagree : bindings.Agree growth bound bindings') :
    (bindings'.value var).isTruthy = false := by
  obtain ⟨edit, hnew, rfl⟩ := h
  rw [hagree.absent hnew]
  rfl

/-- A source attribute is written as the source has it when its override has no value. -/
theorem render_overridden_of_not_isTruthy {plan : Plan} {name : String} {bindings : Bindings}
    (h : ∀ var, plan.override? name = some var → (bindings.value var).isTruthy = false)
    (value : String) :
    (overridden plan name value).render bindings =
      .ok (Markup.attr name (Markup.escapedValue value)) := by
  unfold overridden
  split
  next var hvar =>
    exact (render_given_of_not_isTruthy (h var hvar) _ _).trans (render_fixed name value bindings)
  next => exact render_fixed name value bindings

/-- A source attribute, where its override is the same, or the one of before had no value
    and the one of later is new. -/
theorem refines_overridden {plan plan' : Plan} {name value : String}
    (h : plan'.override? name = plan.override? name ∨
      (∀ var, plan.override? name = some var → NotGiven growth var) ∧
        ∀ var, plan'.override? name = some var → growth.IsNewVar var) :
    (overridden plan name value).Refines growth (overridden plan' name value) := by
  rcases h with hsame | ⟨hfalsy, hnew⟩
  · unfold overridden
    rw [hsame]
    split
    · exact refines_given name _ (.some (refines_fixed name value))
    · exact refines_fixed name value
  · intro bound bindings bindings' hagree hbound markup hrender
    have hbefore (var : Var) (hvar : plan.override? name = some var) :
        (bindings.value var).isTruthy = false := by
      simp only [overridden, hvar, given, Template.unbound?_choice_eq_none] at hbound
      exact (hfalsy var hvar).isTruthy hagree hbound.1
    have hafter (var : Var) (hvar : plan'.override? name = some var) :
        (bindings'.value var).isTruthy = false :=
      isTruthy_of_isNewVar (hnew var hvar) hagree
    rw [render_overridden_of_not_isTruthy hbefore] at hrender
    rw [render_overridden_of_not_isTruthy hafter, hrender]

theorem filter_mem_of_sublist {kept overrides : List (String × Var)}
    (hkept : kept.Sublist overrides) (hnodup : overrides.Nodup) :
    overrides.filter (· ∈ kept) = kept := by
  have hsublist : (kept.filter (· ∈ kept)).Sublist (overrides.filter (· ∈ kept)) := hkept.filter _
  have hself : kept.filter (· ∈ kept) = kept := List.filter_eq_self.mpr (by simp)
  rw [hself] at hsublist
  refine (hsublist.eq_of_length_le ?_).symm
  refine ((hnodup.filter _).subperm fun pair hpair => ?_).length_le
  simpa using (List.mem_filter.mp hpair).2

/-- Overrides without values can be left out from those that the source does not have. -/
theorem renderAll_added_of_sublist {plan : Plan} {kept : List (String × Var)}
    (hkept : kept.Sublist plan.overrides) (hnodup : plan.overrides.Nodup) {names : List String}
    {bindings : Bindings}
    (h : ∀ pair ∈ plan.overrides, given pair.1 pair.2 none ∈ added plan names → pair ∉ kept →
      (bindings.value pair.2).isTruthy = false) :
    Template.renderAll (added { plan with overrides := kept } names) bindings =
      Template.renderAll (added plan names) bindings := by
  conv_lhs => rw [added, ← filter_mem_of_sublist hkept hnodup, Edit.filter_filter_comm]
  refine Template.renderAll_map_filter fun pair hpair hgone => ?_
  have hmem : pair ∈ plan.overrides := (List.mem_filter.mp hpair).1
  have hitem : given pair.1 pair.2 none ∈ added plan names := List.mem_map.mpr ⟨pair, hpair, rfl⟩
  exact render_given_of_not_isTruthy (h pair hmem hitem (by simpa using hgone)) pair.1 none

section Superseded

variable {plan plan' : Plan} (hdistinct : Edit.Distinct plan.overrides)
  (hdistinct' : Edit.Distinct plan'.overrides)
  (h : Edit.Supersedes growth plan.overrides plan'.overrides)
  (hfalsy : ∀ {name var}, plan.override? name = some var → plan'.override? name ≠ some var →
    NotGiven growth var)

include hdistinct hdistinct' h hfalsy

/-- An override is the same, or the one of before had no value and the one of later is new. -/
theorem override?_of_supersedes (name : String) : plan'.override? name = plan.override? name ∨
    (∀ var, plan.override? name = some var → NotGiven growth var) ∧
      ∀ var, plan'.override? name = some var → growth.IsNewVar var := by
  obtain ⟨kept, hkept, hkept', hnew⟩ := h
  by_cases hsame : plan'.override? name = plan.override? name
  · exact .inl hsame
  refine .inr ⟨fun var hvar => hfalsy hvar fun hvar' => hsame (hvar'.trans hvar.symm),
    fun var hvar => ?_⟩
  refine (hnew _ (hdistinct'.override?_eq_some.mp hvar)).resolve_left fun hmem => hsame ?_
  rw [hvar, hdistinct.override?_eq_some.mpr (hkept.subset hmem)]

/-- Overrides of attributes that the source does not have. What both sides write are those
    that are kept. -/
theorem refines_added (names : List String) :
    (Template.sequence (added plan names)).Refines growth (.sequence (added plan' names)) := by
  obtain ⟨kept, hkept, hkept', hnew⟩ := h
  intro bound bindings bindings' hagree hbound markup hrender
  rw [Template.unbound?_sequence_eq_none] at hbound
  have hread {pair : String × Var} (hitem : given pair.1 pair.2 none ∈ added plan names) :
      pair.2.context ∈ bound := by
    have hitem := hbound _ hitem
    rw [given, Template.unbound?_choice_eq_none] at hitem
    exact hitem.1
  have hbefore : Template.renderAll (added { plan with overrides := kept } names) bindings =
      Template.renderAll (added plan names) bindings := by
    refine renderAll_added_of_sublist hkept hdistinct.nodup fun pair hpair hitem hgone => ?_
    by_cases hpair' : pair ∈ plan'.overrides
    · rw [← hagree.value (hread hitem)]
      exact isTruthy_of_isNewVar ((hnew pair hpair').resolve_left hgone) hagree
    · have hname : asciiLower pair.1 = pair.1 := hdistinct.lower hpair
      have hvar : plan.override? pair.1 = some pair.2 := by
        rwa [hdistinct.override?_eq_some, hname]
      have hvar' : plan'.override? pair.1 ≠ some pair.2 := by
        rwa [Ne, hdistinct'.override?_eq_some, hname]
      exact (hfalsy hvar hvar').isTruthy hagree (hread hitem)
  have hafter : Template.renderAll (added { plan' with overrides := kept } names) bindings' =
      Template.renderAll (added plan' names) bindings' := by
    refine renderAll_added_of_sublist hkept' hdistinct'.nodup fun pair hpair _ hgone => ?_
    exact isTruthy_of_isNewVar ((hnew pair hpair).resolve_left hgone) hagree
  have hsame : (Template.sequence (added { plan with overrides := kept } names)).Refines growth
      (.sequence (added { plan' with overrides := kept } names)) :=
    .sequence_map fun pair _ => refines_given pair.1 pair.2 .none
  rw [Template.render, ← hafter]
  refine hsame bound bindings bindings' hagree ?_ markup (hbefore.trans hrender)
  refine Template.unbound?_sequence_eq_none.mpr fun item hitem => ?_
  obtain ⟨pair, hpair, rfl⟩ := List.mem_map.mp hitem
  obtain ⟨hpair, hlacks⟩ := List.mem_filter.mp hpair
  exact hbound _ (List.mem_map.mpr ⟨pair, List.mem_filter.mpr ⟨hkept.subset hpair, hlacks⟩, rfl⟩)

theorem refines_of_supersedes {pass : AttributePass} (hpass : pass.IsStandard) {tree : Tree}
    (hnode : plan'.node = plan.node) : (pass plan tree).Refines growth (pass plan' tree) := by
  cases hpass with
  | withoutOverrides =>
    simp only [AttributePass.withoutOverrides, hnode]
    split
    · exact .sequence_map fun _ _ => refines_fixed _ _
    · exact .sequence_nil
  | withOverrides =>
    simp only [AttributePass.withOverrides, hnode]
    split
    · refine .sequence_append (.sequence_map fun pair _ => refines_overridden ?_) ?_
      · exact override?_of_supersedes hdistinct hdistinct' h hfalsy pair.1
      · exact refines_added hdistinct hdistinct' h hfalsy _
    · exact .sequence_nil

end Superseded

end AttributePass

end HtmlTemplate
