-- SUMMARY: Later declarations can be compiled if what is new in them is bound.
import HtmlTemplate.Proofs.Binding
import HtmlTemplate.Proofs.Logging.Woven

/-!
# Compiling later declarations

When declarations grow, more contexts are bound at each node, and each variable that was
read there is still read inside the same repetitions. So declarations that could be
compiled still can, if only standard mutations of elements have come in, and these read
what is bound around their nodes.
-/

namespace HtmlTemplate

/-! ## Edits -/

namespace Edit

variable {growth : Growth} {edit edit' : Edit} {edits edits' later' : List Edit} {c : ContextId}

namespace Widens

theorem var (h : edit.Widens growth edit') : edit'.var = edit.var := by
  cases h <;> rfl

theorem binds (h : edit.Widens growth edit') (hbinds : edit.Binds c) : edit'.Binds c := by
  obtain ⟨parameters, hchange, rfl⟩ := hbinds
  cases h with
  | same => exact ⟨parameters, hchange, rfl⟩
  | region var hcontext harity =>
    cases hchange
    exact ⟨_, rfl, hcontext⟩
  | opened => cases hchange

theorem setsAttribute (h : edit.Widens growth edit') {name : String} :
    edit'.change = .attribute name ↔ edit.change = .attribute name := by
  cases h <;> simp

theorem wrapsContent (h : edit.Widens growth edit') (hwraps : edit'.WrapsContent) :
    edit.WrapsContent := by
  cases h with
  | same => exact hwraps
  | region => rcases hwraps with hchange | hchange <;> cases hchange
  | opened => rcases hwraps with hchange | hchange <;> cases hchange

theorem wrapsElement (h : edit.Widens growth edit') (hwraps : edit'.WrapsElement) :
    edit.WrapsElement := by
  cases h with
  | same => exact hwraps
  | region => exact .inr ⟨_, rfl⟩
  | opened => exact .inr ⟨_, rfl⟩

end Widens

namespace Grown

theorem exists_widens (h : Grown growth edits edits') (hedit : edit ∈ edits) :
    ∃ edit' ∈ edits', edit.Widens growth edit' := by
  induction h with
  | nil => cases hedit
  | keep hfirst _ ih =>
    rcases List.mem_cons.mp hedit with rfl | hedit
    · exact ⟨_, List.mem_cons_self, hfirst⟩
    · obtain ⟨edit', hmem, hwidens⟩ := ih hedit
      exact ⟨edit', List.mem_cons_of_mem _ hmem, hwidens⟩
  | add _ _ ih =>
    obtain ⟨edit', hmem, hwidens⟩ := ih hedit
    exact ⟨edit', List.mem_cons_of_mem _ hmem, hwidens⟩

theorem exists_binds (h : Grown growth edits edits') (hbinds : ∃ edit ∈ edits, edit.Binds c) :
    ∃ edit ∈ edits', edit.Binds c := by
  obtain ⟨edit, hedit, hbinds⟩ := hbinds
  obtain ⟨edit', hedit', hwidens⟩ := h.exists_widens hedit
  exact ⟨edit', hedit', hwidens.binds hbinds⟩

/-- An edit of later is new, or it is one of before, with as many after it or more. -/
theorem of_suffix (h : Grown growth edits edits') (hsuffix : edit' :: later' <:+ edits') :
    growth.IsNew edit' ∨ ∃ edit later, edit :: later <:+ edits ∧ edit.Widens growth edit' ∧
      Grown growth later later' := by
  induction h with
  | nil => cases List.suffix_nil.mp hsuffix
  | keep hedit hrest ih =>
    rcases List.suffix_cons_iff.mp hsuffix with heq | hsuffix
    · obtain ⟨rfl, rfl⟩ := List.cons.inj heq
      exact .inr ⟨_, _, List.suffix_refl _, hedit, hrest⟩
    · refine (ih hsuffix).imp id ?_
      rintro ⟨edit, later, hlater, hwidens, hgrown⟩
      exact ⟨edit, later, hlater.trans (List.suffix_cons _ _), hwidens, hgrown⟩
  | add hnew _ ih =>
    rcases List.suffix_cons_iff.mp hsuffix with heq | hsuffix
    · obtain ⟨rfl, rfl⟩ := List.cons.inj heq
      exact .inl hnew
    · exact ih hsuffix

theorem allInside_subset (h : Grown growth edits edits') {bound bound' : List ContextId}
    (hbound : bound ⊆ bound') : allInside edits bound ⊆ allInside edits' bound' := by
  intro c hc
  rw [mem_allInside] at hc ⊢
  exact hc.imp h.exists_binds (hbound ·)

/-- The edits around an element read what is bound, if the new ones do. -/
theorem around (h : Grown growth edits edits') {bound bound' : List ContextId}
    (hbound : bound ⊆ bound')
    (hnew : ∀ edit ∈ edits', growth.IsNew edit → edit.var.context ∈ bound')
    (haround : ∀ edit later, edit :: later <:+ edits → edit.WrapsElement →
      edit.var.context ∈ allInside later bound) :
    ∀ edit later, edit :: later <:+ edits' → edit.WrapsElement →
      edit.var.context ∈ allInside later bound' := by
  intro edit' later' hsuffix hwraps
  rcases h.of_suffix hsuffix with hedit | ⟨edit, later, hlater, hwidens, hgrown⟩
  · exact mem_allInside.mpr (.inr (hnew edit' (hsuffix.subset List.mem_cons_self) hedit))
  · rw [hwidens.var]
    exact hgrown.allInside_subset hbound (haround edit later hlater (hwidens.wrapsElement hwraps))

/-- The edits of the content read what is bound, if the new ones do. -/
theorem inside (h : Grown growth edits edits') {bound bound' : List ContextId}
    (hbound : bound ⊆ bound')
    (hnew : ∀ edit ∈ edits', growth.IsNew edit → edit.var.context ∈ bound')
    (hinside : ∀ edit ∈ edits, edit.WrapsContent → edit.var.context ∈ allInside edits bound) :
    ∀ edit ∈ edits', edit.WrapsContent → edit.var.context ∈ allInside edits' bound' := by
  intro edit' hedit' hwraps
  obtain ⟨before, later', heq⟩ := List.append_of_mem hedit'
  rcases h.of_suffix ⟨before, heq.symm⟩ with hedit | ⟨edit, later, hlater, hwidens, -⟩
  · exact mem_allInside.mpr (.inr (hnew edit' hedit' hedit))
  · rw [hwidens.var]
    exact h.allInside_subset hbound
      (hinside edit (hlater.subset List.mem_cons_self) (hwidens.wrapsContent hwraps))

/-- The overrides of attributes read what is bound, if the new ones do. -/
theorem override (h : Grown growth edits edits') {bound bound' : List ContextId}
    (hbound : bound ⊆ bound')
    (hnew : ∀ edit ∈ edits', growth.IsNew edit → edit.var.context ∈ bound')
    (hoverride : ∀ edit later, edit :: later <:+ edits → edit.OverridesBefore later →
      edit.var.context ∈ bound) :
    ∀ edit later, edit :: later <:+ edits' → edit.OverridesBefore later →
      edit.var.context ∈ bound' := by
  rintro edit' later' hsuffix ⟨name, hname, hlast⟩
  rcases h.of_suffix hsuffix with hedit | ⟨edit, later, hlater, hwidens, hgrown⟩
  · exact hnew edit' (hsuffix.subset List.mem_cons_self) hedit
  · rw [hwidens.var]
    refine hbound (hoverride edit later hlater ⟨name, hwidens.setsAttribute.mp hname, ?_⟩)
    intro other hother name' hname'
    obtain ⟨other', hother', hwidens'⟩ := hgrown.exists_widens hother
    exact hlast other' hother' name' (hwidens'.setsAttribute.mpr hname')

end Grown

end Edit

/-! ## The whole tree -/

namespace Declarations.Extends

variable {d d' : Declarations} {pass : AttributePass}
  {bound : List ContextId}

theorem boundInside_subset (h : d.Extends d') (hd : d.WellFormed) (hd' : d'.WellFormed)
    (above : List NodeId) (bound : List ContextId) :
    d.boundInside above bound ⊆ d'.boundInside above bound := by
  intro c hc
  rw [mem_boundInside] at hc ⊢
  refine hc.imp (fun ⟨id, hid, hbinds⟩ => ⟨id, hid, ?_⟩) id
  exact (h.grown_edits hd hd' (fun _ _ => True) id).exists_binds hbinds

theorem unbound?_attributes (h : d.Extends d') (hd : d.WellFormed) (hd' : d'.WellFormed)
    (hpass : pass.IsStandard) {id : NodeId} {element : Element}
    (helement : d.tree.element? id = some element) {bound bound' : List ContextId}
    (hbound : bound ⊆ bound')
    (hnew : ∀ edit ∈ d'.edits id, d.nextSlot edit.var.context ≤ edit.var.slot →
        edit.var.context ∈ bound')
    (hattributes : (d.attributes pass id element).unbound? bound = none) :
    (d'.attributes pass id element).unbound? bound' = none := by
  have helement' : d'.tree.element? id = some element := h.tree ▸ helement
  cases hpass with
  | withoutOverrides =>
    rw [attributes_eq .withoutOverrides helement']
    simp [AttributePass.withoutOverrides, helement', AttributePass.sourceAttributes,
      AttributePass.unbound?_fixed]
  | withOverrides =>
    rw [unbound?_attributes_eq_none helement] at hattributes
    rw [unbound?_attributes_eq_none helement']
    exact (h.grown_edits hd hd' (fun _ _ => True) id).override hbound
      (fun edit hedit hslot => hnew edit hedit hslot.2) hattributes

mutual

/-- The variables of a branch are bound as before, if the new edits of each of its places
    read what is bound there. -/
theorem unbound?_weave (h : d.Extends d') (hd : d.WellFormed) (hd' : d'.WellFormed)
    (hpass : pass.IsStandard) (raw : Bool) (above : List NodeId) (branch : Branch)
    (hplaces : ∀ place ∈ branch.places above, d'.AdmitsPlace place)
    (hnew : ∀ place ∈ branch.places above, ∀ edit ∈ d'.edits place.id,
      d.nextSlot edit.var.context ≤ edit.var.slot →
        edit.var.context ∈ d'.boundInside place.above bound)
    (hbound : (d.weave pass raw branch).unbound? (d.boundInside above bound) = none) :
    (d'.weave pass raw branch).unbound? (d'.boundInside above bound) = none := by
  obtain ⟨id, content, children⟩ := branch
  rw [Branch.places, List.forall_mem_cons] at hplaces hnew
  obtain ⟨⟨hadmits, node, hnode, hcontent⟩, hchildren⟩ := hplaces
  obtain ⟨hnew, hnew_children⟩ := hnew
  have hgrown := h.grown_edits hd hd' (fun _ _ => True) id
  have hnew' : ∀ edit ∈ d'.edits id, (d.growth d' fun _ _ => True).IsNew edit →
      edit.var.context ∈ d'.boundInside above bound :=
    fun edit hedit hslot => hnew edit hedit hslot.2
  have hsubset := h.boundInside_subset hd hd' above bound
  rw [weave, h.tree]
  rw [weave] at hbound
  cases content with
  | container =>
    -- A container has no edits, so that the same is bound inside it as around it.
    have hnone' : d'.edits id = [] := Compiler.edits_of_admits hadmits nofun
    have hnone : d.edits id = [] := by
      refine List.eq_nil_iff_forall_not_mem.mpr fun edit hedit => ?_
      obtain ⟨edit', hedit', -⟩ := hgrown.exists_widens hedit
      rw [hnone'] at hedit'
      cases hedit'
    have hinside : d.boundInside (id :: above) bound = d.boundInside above bound :=
      congrArg (Edit.allInside · (d.boundInside above bound)) hnone
    have hinside' : d'.boundInside (id :: above) bound = d'.boundInside above bound :=
      congrArg (Edit.allInside · (d'.boundInside above bound)) hnone'
    rw [weaveNode, Template.unbound?_sequence_eq_none] at hbound ⊢
    rw [← hinside] at hbound
    rw [← hinside']
    exact unbound?_weaveAll h hd hd' hpass _ _ children hchildren hnew_children hbound
  | element element =>
    have helement : d.tree.element? id = some element := by
      rw [h.tree] at hnode
      simp [Tree.element?, hnode, hcontent, Content.element?]
    simp only [weaveNode, Edit.unbound?_weave_eq_none, Tree.name, h.tree] at hbound ⊢
    obtain ⟨hitems, hattributes, haround, hinside⟩ := hbound
    rw [Template.unbound?_sequence_eq_none] at hitems ⊢
    refine ⟨?_, ?_, hgrown.around hsubset hnew' haround, hgrown.inside hsubset hnew' hinside⟩
    · exact unbound?_weaveAll h hd hd' hpass _ (id :: above) children hchildren hnew_children hitems
    · refine h.unbound?_attributes hd hd' hpass helement (hgrown.allInside_subset hsubset)
        (fun edit hedit hslot => ?_) hattributes
      exact Edit.mem_allInside.mpr (.inr (hnew edit hedit hslot))
  | _ => rfl

theorem unbound?_weaveAll (h : d.Extends d') (hd : d.WellFormed) (hd' : d'.WellFormed)
    (hpass : pass.IsStandard) (raw : Bool) (above : List NodeId) (branches : List Branch)
    (hplaces : ∀ place ∈ Branch.placesAll above branches, d'.AdmitsPlace place)
    (hnew : ∀ place ∈ Branch.placesAll above branches, ∀ edit ∈ d'.edits place.id,
      d.nextSlot edit.var.context ≤ edit.var.slot →
        edit.var.context ∈ d'.boundInside place.above bound)
    (hbound : ∀ item ∈ d.weaveAll pass raw branches,
      item.unbound? (d.boundInside above bound) = none) :
    ∀ item ∈ d'.weaveAll pass raw branches,
      item.unbound? (d'.boundInside above bound) = none := by
  cases branches with
  | nil => nofun
  | cons branch rest =>
    rw [Branch.placesAll, List.forall_mem_append] at hplaces hnew
    rw [weaveAll, List.forall_mem_cons] at hbound ⊢
    constructor
    · exact unbound?_weave h hd hd' hpass raw above branch hplaces.1 hnew.1 hbound.1
    · exact unbound?_weaveAll h hd hd' hpass raw above rest hplaces.2 hnew.2 hbound.2

end

/-- What was compiled before declarations have grown can be compiled after it, where all
    nodes are admitted and the new edits read what is bound around them. -/
theorem compile (h : d.Extends d') (hd : d.WellFormed) (hd' : d'.WellFormed)
    (hpass : pass.IsStandard) (hbuilt : d.tree.Built)
    (hadmits : ∀ node ∈ d'.visited, d'.Admits node.1 node.2)
    (hnew : ∀ above id, d'.tree.Trail Tree.root above id → ∀ edit ∈ d'.edits id,
      d.nextSlot edit.var.context ≤ edit.var.slot →
        edit.var.context ∈ d'.boundInside above [rootContext])
    (hbound : (d.woven pass).unbound? [rootContext] = none) :
    (Compiler.mk .standard pass).compile d' = .ok (d'.woven pass) := by
  refine Compiler.compile_eq_ok.mpr ⟨hadmits, ?_, rfl⟩
  have hbuilt' : d'.tree.Built := h.tree.symm ▸ hbuilt
  obtain ⟨branch, hbranch, hplaces⟩ := exists_branch hbuilt'
  have hbranch₀ : d.tree.branch? Tree.root = some branch := h.tree ▸ hbranch
  rw [woven, hbranch₀] at hbound
  rw [woven, hbranch]
  refine h.unbound?_weave hd hd' hpass false [] branch ?_ ?_ hbound
  · intro place hplace
    obtain ⟨htrail, hnode⟩ := (hplaces place).mp hplace
    exact ⟨hadmits _ ((mem_visited hbuilt').mpr ⟨⟨place.above, htrail⟩, hnode⟩), hnode⟩
  · intro place hplace
    exact hnew place.above place.id ((hplaces place).mp hplace).1

end Declarations.Extends

end HtmlTemplate
