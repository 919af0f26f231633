-- SUMMARY: A document of later declarations is rendered as before, when what is new is given no value.
import HtmlTemplate.Proofs.Logging.Overrides

/-!
# Rendering later declarations

The templates of the whole tree, before and after declarations have grown, are compared
under the frames that a rendering binds. Slots that are new are beyond the end of these
frames, so that new edits have no value. What the later template writes is the same
then, apart from two places where a value that was given may be lost or be read anew:
an override whose place another one has taken, and a repetition without a region that
has got one. `Declarations.LosesNoValue` and `Declarations.BindsNoValue` exclude them.
-/

namespace HtmlTemplate

namespace Declarations

variable {d d' : Declarations} {growth : Growth}

/-! ## The whole tree -/

mutual

theorem refines_weave (hd : d.Supplies growth) {pass : AttributePass} (htree : d'.tree = d.tree)
    (hgrown : ∀ id, Edit.Grown growth (d.edits id) (d'.edits id))
    (hattributes : ∀ {id element}, d.tree.element? id = some element →
      (d.attributes pass id element).Refines growth (d'.attributes pass id element))
    (raw : Bool) (branch : Branch)
    (hnodes : ∀ node ∈ branch.visit Content.holdsNodes,
      ∃ found, d.tree.get? node.1 = some found ∧ found.content = node.2) :
    (d.weave pass raw branch).Refines growth (d'.weave pass raw branch) := by
  obtain ⟨id, content, children⟩ := branch
  rw [Branch.visit, List.forall_mem_cons] at hnodes
  obtain ⟨⟨found, hfound, hcontent⟩, hchildren⟩ := hnodes
  rw [weave, weave, htree]
  cases content with
  | container => exact refines_weaveAll hd htree hgrown hattributes _ children hchildren
  | element element =>
    have helement : d.tree.element? id = some element := by
      simp [Tree.element?, hfound, hcontent, Content.element?]
    simp only [weaveNode, htree]
    refine Edit.refines_weave hd (hgrown id) _ (hattributes helement) ?_
    exact refines_weaveAll hd htree hgrown hattributes _ children hchildren
  | doctype name publicId systemId =>
    simp only [weaveNode, Tree.name, htree]
    exact .static _
  | text text => exact .static _
  | comment text => exact .sequence_nil
  | instruction target text => exact .sequence_nil

theorem refines_weaveAll (hd : d.Supplies growth) {pass : AttributePass} (htree : d'.tree = d.tree)
    (hgrown : ∀ id, Edit.Grown growth (d.edits id) (d'.edits id))
    (hattributes : ∀ {id element}, d.tree.element? id = some element →
      (d.attributes pass id element).Refines growth (d'.attributes pass id element))
    (raw : Bool) (branches : List Branch)
    (hnodes : ∀ node ∈ Branch.visitAll Content.holdsNodes branches,
      ∃ found, d.tree.get? node.1 = some found ∧ found.content = node.2) :
    (Template.sequence (d.weaveAll pass raw branches)).Refines growth
      (.sequence (d'.weaveAll pass raw branches)) := by
  cases branches with
  | nil => exact .sequence_nil
  | cons branch rest =>
    rw [Branch.visitAll, List.forall_mem_append] at hnodes
    apply Template.Refines.sequence_cons
    · exact refines_weave hd htree hgrown hattributes raw branch hnodes.1
    · exact refines_weaveAll hd htree hgrown hattributes raw rest hnodes.2

end

theorem refines_woven (hd : d.Supplies growth) {pass : AttributePass} (htree : d'.tree = d.tree)
    (hgrown : ∀ id, Edit.Grown growth (d.edits id) (d'.edits id))
    (hattributes : ∀ {id element}, d.tree.element? id = some element →
      (d.attributes pass id element).Refines growth (d'.attributes pass id element)) :
    (d.woven pass).Refines growth (d'.woven pass) := by
  unfold woven
  rw [htree]
  cases hbranch : d.tree.branch? Tree.root with
  | none => exact .sequence_nil
  | some branch =>
    apply refines_weave hd htree hgrown hattributes false branch
    intro node hnode
    exact (Branch.of_mem_visit hbranch .top hnode).2

/-! ## The frames of a rendering -/

/-- The variable that overrides an attribute of a node. -/
def override? (d : Declarations) (node : NodeId) (name : String) : Option Var :=
  (Plan.ofEdits node (d.edits node)).override? name

/-- The frames that a rendering with `arguments` can bind to a context. -/
inductive Given (d : Declarations) (arguments : Frame) : ContextId → Frame → Prop where
  | root : Given d arguments rootContext arguments
  | region {i : ScopeId} {scope : Scope} {logged : LoggedMutation} {c : ContextId} {frame : Frame}
      {frames : List Frame} {values : Frame} (hs : d.scope? i = some scope)
      (hlogged : logged ∈ scope.log) (hrepeat : logged.mutation = { kind := Mutation.repeatEach })
      (hnested : scope.nested = some c) (hframe : Given d arguments scope.context frame)
      (hvalue : frame.get logged.slot = .list frames) (hvalues : values ∈ frames) :
      Given d arguments c values

/-- A frame that a rendering with `arguments` binds: one that is given, with no more
    values than its context has slots, or an empty one. -/
def Bound (d : Declarations) (arguments : Frame) (c : ContextId) (frame : Frame) : Prop :=
  frame = [] ∨ d.Given arguments c frame ∧ frame.length ≤ d.nextSlot c

/-- Every override that `d'` does not have any more was given no value. -/
def LosesNoValue (d d' : Declarations) (arguments : Frame) : Prop :=
  ∀ node name var, d.override? node name = some var → d'.override? node name ≠ some var →
    ∀ frame, d.Given arguments var.context frame → (frame.get var.slot).isTruthy = false

/-- No frame of a repetition without a region has a value that the region would bind which
    it has in `d'`, and none has more slots than that region. -/
def BindsNoValue (d d' : Declarations) (arguments : Frame) : Prop :=
  ∀ i scope later logged c, d.scope? i = some scope → d'.scope? i = some later →
    scope.nested = none → later.nested = some c → logged ∈ scope.log →
    logged.mutation = { kind := Mutation.repeatEach } →
    ∀ frame frames, d.Given arguments scope.context frame → frame.get logged.slot = .list frames →
      ∀ values ∈ frames, values.length ≤ d'.nextSlot c ∧ ∀ slot, Frame.get values slot = .absent

namespace Extends

section Rendered

variable (h : d.Extends d') (hd : d.WellFormed) (hd' : d'.WellFormed) {arguments : Frame}

include h hd hd'

/-- A region that is entered anew is no region that was repeated over before. -/
theorem not_repeated_of_enters {IsFrame : ContextId → Frame → Prop} {c : ContextId}
    (henters : (d.growth d' IsFrame).Enters c) {i : ScopeId} {s : Scope}
    {logged : LoggedMutation} (hs : d.scope? i = some s) (hnested : s.nested = some c)
    (hlogged : logged ∈ s.log) : logged.mutation ≠ { kind := Mutation.repeatEach } := by
  intro hrepeat
  obtain ⟨t, more, ht, -, hcontext, hnested', hlog, -⟩ := h.scope hs
  rcases henters with ⟨edit, parameters, ⟨⟨node, hedit⟩, hslot⟩, hchange, rfl⟩ |
    ⟨var, parameters, ⟨j, s', t', -, c', hs', ht', hnone, hnested'', -, -, -, rfl⟩, rfl⟩
  · -- A scope logs a repetition once, so that the slot would be an old one.
    obtain ⟨j, t', logged', ht', -, hlogged', hvar, hchange'⟩ := hd'.mem_edits.mp hedit
    rw [hchange, Mutation.change?_eq_repetition] at hchange'
    obtain ⟨c', hnested'', hparameters⟩ := Option.map_eq_some_iff.mp hchange'.2.symm
    have hsame : t'.nested = some parameters.context := by rw [hnested'', ← hparameters]; rfl
    obtain rfl := hd'.nested_inj ht ht' (hnested' _ hnested) hsame
    obtain rfl := Option.some.inj (ht.symm.trans ht')
    have hmem : logged ∈ t.log := hlog ▸ List.mem_append_left _ hlogged
    have hslot₁ := (hd'.slot_iff ht).mpr hmem
    have hslot₂ := (hd'.slot_iff ht).mpr hlogged'
    rw [hrepeat] at hslot₁
    rw [hchange'.1, hslot₁] at hslot₂
    have hlt := hd.slot_lt hs hlogged
    rw [hvar] at hslot
    simp only [Scope.var, hcontext, ← Option.some.inj hslot₂] at hslot
    omega
  · obtain rfl := hd'.nested_inj ht ht' (hnested' _ hnested) hnested''
    obtain rfl := Option.some.inj (hs.symm.trans hs')
    cases hnone.symm.trans hnested

theorem supplies (hbinds : d.BindsNoValue d' arguments) :
    d.Supplies (d.growth d' (d.Bound arguments)) := by
  constructor
  case empty => exact fun c => .inl rfl
  case region =>
    intro node edit parameters frame frames values hedit hregion hframe hlist hvalues hlength
    obtain ⟨i, owner, logged, hs, -, hlogged, hvar, hchange⟩ := hd.mem_edits.mp hedit
    rw [hregion, Mutation.change?_eq_repetition] at hchange
    obtain ⟨hrepeat, hframe'⟩ := hchange
    obtain ⟨c, hnested, rfl⟩ := Option.map_eq_some_iff.mp hframe'.symm
    rcases hframe with rfl | ⟨hframe, -⟩
    · cases hlist
    · rw [hvar] at hframe hlist
      exact .inr ⟨.region hs hlogged hrepeat hnested hframe hlist hvalues, hlength⟩
  case absent =>
    rintro edit frame ⟨-, hslot⟩ (rfl | ⟨-, hlength⟩)
    · rfl
    · exact Frame.get_of_length_le (Nat.le_trans hlength hslot)
  case opened =>
    rintro var parameters frame frames values ⟨i, s, t, logged, c, hs, ht, hnone, hnested, hlogged,
      hrepeat, rfl, rfl⟩ (rfl | ⟨hframe, -⟩) hlist hvalues
    · cases hlist
    · exact hbinds i s t logged c hs ht hnone hnested hlogged hrepeat frame frames hframe hlist
        values hvalues
  case fresh =>
    intro node edit parameters hedit hregion henters
    obtain ⟨i, owner, logged, hs, -, hlogged, -, hchange⟩ := hd.mem_edits.mp hedit
    rw [hregion, Mutation.change?_eq_repetition] at hchange
    obtain ⟨c, hnested, rfl⟩ := Option.map_eq_some_iff.mp hchange.2.symm
    exact h.not_repeated_of_enters hd hd' henters hs hnested hlogged hchange.1

/-- Only an override takes the place of an override. -/
theorem losesNoValue (hnew : ∀ node, ∀ edit ∈ d'.edits node,
    d.nextSlot edit.var.context ≤ edit.var.slot → ∀ name, edit.change ≠ .attribute name)
    (arguments : Frame) : d.LosesNoValue d' arguments := by
  intro node name var hvar hvar'
  have hsame := (h.grown_edits hd hd' (d.Bound arguments) node).foldl_override
    (fun edit hedit => ?_) []
  · refine absurd ?_ hvar'
    simp only [override?, Plan.override?, Plan.overrides_ofEdits] at hvar ⊢
    rw [hsame, hvar]
  · obtain ⟨⟨node, hedit⟩, hslot⟩ := hedit
    exact hnew node edit hedit hslot

/-- The whole tree, before and after declarations have grown. -/
theorem refines_woven {pass : AttributePass} (hpass : pass.IsStandard)
    (hloses : d.LosesNoValue d' arguments) (hbinds : d.BindsNoValue d' arguments) :
    (d.woven pass).Refines (d.growth d' (d.Bound arguments)) (d'.woven pass) := by
  have hgrown := h.grown_edits hd hd' (d.Bound arguments)
  refine Declarations.refines_woven (h.supplies hd hd' hbinds) h.tree hgrown ?_
  intro node element helement
  have hdistinct (edits : List Edit) : Edit.Distinct (Plan.ofEdits node edits).overrides := by
    rw [Plan.overrides_ofEdits]
    exact Edit.distinct_foldl .nil edits
  rw [attributes_eq hpass helement, attributes_eq hpass (h.tree ▸ helement), h.tree]
  refine AttributePass.refines_of_supersedes (hdistinct _) (hdistinct _) ?_ ?_ hpass (by simp)
  · rw [Plan.overrides_ofEdits, Plan.overrides_ofEdits]
    exact (hgrown node).supersedes .nil
  · rintro name var hvar hvar' frame (rfl | ⟨hframe, -⟩)
    · rfl
    · exact hloses node name var hvar hvar' frame hframe

/-- A rendering of later declarations starts from the bindings of before. -/
theorem agree_root (hbinds : d.BindsNoValue d' arguments)
    (hlength : arguments.length ≤ d.nextSlot rootContext) :
    Bindings.Agree (d.growth d' (d.Bound arguments)) [rootContext] [(rootContext, arguments)]
      [(rootContext, arguments)] := by
  have hbound : d.Bound arguments rootContext arguments := .inr ⟨.root, hlength⟩
  refine ⟨fun c hc => ?_, fun hnew => ?_, fun {c} henters hmem => ?_⟩
  · obtain rfl := List.mem_singleton.mp hc
    exact ⟨arguments, by simp [Bindings.frame?_cons], by simp [Bindings.frame?_cons], hbound⟩
  · rw [Bindings.value_cons]
    split
    next hroot => exact (h.supplies hd hd' hbinds).absent hnew (hroot ▸ hbound)
    next => rfl
  · -- The root context is nested in no scope.
    obtain rfl : c = rootContext := List.mem_singleton.mp hmem
    have hroot {i : ScopeId} {t : Scope} (ht : d'.scope? i = some t) :
        t.nested ≠ some rootContext := fun hnested =>
      Nat.not_lt_zero _ (hd'.nested_of ht hnested).1
    rcases henters with ⟨edit, parameters, ⟨⟨node, hedit⟩, -⟩, hchange, hcontext⟩ |
      ⟨var, parameters, ⟨i, s, t, logged, c, -, ht, -, hnested, -, -, -, rfl⟩, rfl⟩
    · obtain ⟨i, t, logged, ht, -, -, -, hchange'⟩ := hd'.mem_edits.mp hedit
      rw [hchange, Mutation.change?_eq_repetition] at hchange'
      obtain ⟨c, hnested, rfl⟩ := Option.map_eq_some_iff.mp hchange'.2.symm
      exact hroot ht (hcontext ▸ hnested)
    · exact hroot ht hnested

/-- What was rendered before declarations have grown is rendered after it. -/
theorem render_woven {pass : AttributePass} (hpass : pass.IsStandard)
    (hloses : d.LosesNoValue d' arguments) (hbinds : d.BindsNoValue d' arguments)
    (hbound : (d.woven pass).unbound? [rootContext] = none) {markup : String}
    (hrender : (Program.mk (d.woven pass) ⟨rootContext, d.nextSlot rootContext, true⟩).render
      arguments = .ok markup) :
    (Program.mk (d'.woven pass) ⟨rootContext, d'.nextSlot rootContext, true⟩).render arguments =
      .ok markup := by
  rw [Program.render] at hrender ⊢
  split at hrender
  · cases hrender
  next hlength =>
    have hlength := Nat.le_of_not_lt hlength
    rw [if_neg (Nat.not_lt.mpr (Nat.le_trans hlength (h.slots rootContext)))]
    exact h.refines_woven hd hd' hpass hloses hbinds _ _ _
      (h.agree_root hd hd' hbinds hlength) hbound markup hrender

end Rendered

end Extends

end Declarations

end HtmlTemplate
