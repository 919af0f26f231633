-- SUMMARY: Templates that render alike under related bindings, and trees of which one node is written in another way.
import HtmlTemplate.Proofs.Neutral
import Mathlib.Data.List.Forall2

/-!
# Rendering alike

Two templates are compared under bindings that a relation pairs: they render to the same,
or fail alike. When the values that edits go by are the same on both sides, and frames can
be bound on both, an element with edits renders alike if what is inside it does. So a node
of a tree may be written in any way that renders alike, and the whole tree will.

`Branch.write` is the walk of the compiler with the way of writing a node left open.
-/

namespace HtmlTemplate

variable {R : Bindings → Bindings → Prop}

/-- The variable has one value under bindings that are related. -/
def Var.Shared (R : Bindings → Bindings → Prop) (var : Var) : Prop :=
  ∀ ⦃bindings bindings'⦄, R bindings bindings' → bindings.value var = bindings'.value var

/-- Bindings that are related stay so when a frame of the context is bound. -/
def ContextId.Bindable (R : Bindings → Bindings → Prop) (context : ContextId) : Prop :=
  ∀ ⦃bindings bindings'⦄ frame, R bindings bindings' →
    R ((context, frame) :: bindings) ((context, frame) :: bindings')

/-- What a repetition writes for one frame. -/
def Repetition.once (repetition : Repetition) (body : Template) (bindings : Bindings)
    (frame : Frame) : Rendered :=
  match repetition.bind bindings frame with
  | .error e => .error e
  | .ok inside => body.render inside

/-! ## Templates -/

namespace Template

theorem render_block (repetition : Repetition) (body : Template) (bindings : Bindings) :
    (block repetition body).render bindings =
      match repetition.frames bindings with
      | .error e => .error e
      | .ok frames => Rendered.concat (frames.map (repetition.once body bindings)) := by
  rw [render]
  rfl

/-- The templates render alike under bindings that are related. -/
def Alike (R : Bindings → Bindings → Prop) (first second : Template) : Prop :=
  ∀ bindings bindings', R bindings bindings' → first.render bindings = second.render bindings'

namespace Alike

variable {first second : Template}

theorem static (markup : String) : Alike R (.static markup) (.static markup) := fun _ _ _ => rfl

theorem renderAll {items items' : List Template} (h : List.Forall₂ (Alike R) items items')
    {bindings bindings' : Bindings} (hR : R bindings bindings') :
    Template.renderAll items bindings = Template.renderAll items' bindings' := by
  induction h with
  | nil => rfl
  | cons hitem _ ih => rw [Template.renderAll, Template.renderAll, hitem _ _ hR, ih]

theorem sequence {items items' : List Template} (h : List.Forall₂ (Alike R) items items') :
    Alike R (.sequence items) (.sequence items') :=
  fun _ _ hR => renderAll h hR

theorem dynamic {var : Var} (h : var.Shared R) : Alike R (.dynamic var) (.dynamic var) := by
  intro bindings bindings' hR
  rw [render, render, h hR]

theorem attr (h : Alike R first second) (name : String) :
    Alike R (.attr name first) (.attr name second) := by
  intro bindings bindings' hR
  rw [render, render, h _ _ hR]

/-- What is inside an element counts only where it is written. -/
theorem element {tag : String} {attributes attributes' : Template}
    (hattributes : Alike R attributes attributes')
    (h : Markup.isVoid tag = false → Alike R first second) :
    Alike R (.element tag attributes first) (.element tag attributes' second) := by
  intro bindings bindings' hR
  rw [render, render, hattributes _ _ hR]
  cases hvoid : Markup.isVoid tag with
  | true => rfl
  | false => rw [if_neg Bool.false_ne_true, if_neg Bool.false_ne_true, h hvoid _ _ hR]

theorem choice {condition : Condition} {no no' : Option Template}
    (hvalue : condition.var.Shared R) (h : Alike R first second)
    (hno : Option.Rel (Alike R) no no') :
    Alike R (.choice condition first no) (.choice condition second no') := by
  intro bindings bindings' hR
  have hholds : bindings.holds condition = bindings'.holds condition := by
    have hsame := hvalue hR
    cases condition <;> simp only [Bindings.holds, Condition.var] at hsame ⊢ <;> rw [hsame]
  have hother : renderOption no bindings = renderOption no' bindings' := by
    cases hno with
    | none => rfl
    | some hitem => exact hitem _ _ hR
  rw [render, render, hholds, h _ _ hR, hother]

/-- What is written for a frame is alike when the frame can be bound on both sides. -/
theorem once {repetition : Repetition}
    (hregion : ∀ parameters, repetition.frame = some parameters → parameters.context.Bindable R)
    (h : Alike R first second) {bindings bindings' : Bindings} (hR : R bindings bindings')
    (frame : Frame) :
    repetition.once first bindings frame = repetition.once second bindings' frame := by
  unfold Repetition.once Repetition.bind
  cases hframe : repetition.frame with
  | none => exact h _ _ hR
  | some parameters =>
    by_cases hlength : frame.length > parameters.arity
    · simp only [if_pos hlength]
    · simp only [if_neg hlength]
      exact h _ _ (hregion parameters hframe frame hR)

theorem block {var : Var} {frame frame' : Option Parameters} (hvalue : var.Shared R)
    (honce : ∀ ⦃bindings bindings'⦄, R bindings bindings' → ∀ frames,
      Repetition.frames ⟨var, frame⟩ bindings = .ok frames → ∀ values ∈ frames,
        Repetition.once ⟨var, frame⟩ first bindings values =
          Repetition.once ⟨var, frame'⟩ second bindings' values) :
    Alike R (.block ⟨var, frame⟩ first) (.block ⟨var, frame'⟩ second) := by
  intro bindings bindings' hR
  have hframes : Repetition.frames ⟨var, frame⟩ bindings =
      Repetition.frames ⟨var, frame'⟩ bindings' := by
    simp only [Repetition.frames, hvalue hR]
  rw [render_block, render_block, ← hframes]
  cases hlist : Repetition.frames ⟨var, frame⟩ bindings with
  | error e => rfl
  | ok frames => exact congrArg Rendered.concat (List.map_congr_left (honce hR frames hlist))

end Alike

end Template

/-! ## Edits -/

namespace Edit

/-- The edits do the same, and go by one variable that has the same value under related
    bindings. What they repeat is written alike for each frame if the element is. -/
inductive Agree (R : Bindings → Bindings → Prop) : Edit → Edit → Prop
  | plain {change : Change} {var : Var} (hchange : ∀ frame, change ≠ .repetition frame)
      (hvalue : var.Shared R) : Agree R ⟨change, var⟩ ⟨change, var⟩
  | repetition {frame frame' : Option Parameters} {var : Var} (hvalue : var.Shared R)
      (honce : ∀ ⦃first second : Template⦄, first.Alike R second →
        ∀ ⦃bindings bindings'⦄, R bindings bindings' → ∀ frames,
          Repetition.frames ⟨var, frame⟩ bindings = .ok frames → ∀ values ∈ frames,
            Repetition.once ⟨var, frame⟩ first bindings values =
              Repetition.once ⟨var, frame'⟩ second bindings' values) :
      Agree R ⟨.repetition frame, var⟩ ⟨.repetition frame', var⟩

variable {edit edit' : Edit} {first second : Template}

namespace Agree

/-- An edit agrees with itself where it has one value, and frames can be bound. -/
theorem of_shared (hvalue : edit.var.Shared R)
    (hregion : ∀ parameters, edit.change = .repetition (some parameters) →
      parameters.context.Bindable R) :
    edit.Agree R edit := by
  obtain ⟨change, var⟩ := edit
  cases change with
  | repetition frame =>
    refine .repetition hvalue fun first second h bindings bindings' hR _ _ values _ => ?_
    refine h.once (fun parameters hframe => hregion parameters ?_) hR values
    obtain rfl : frame = some parameters := hframe
    rfl
  | _ => exact .plain nofun hvalue

theorem shared (h : edit.Agree R edit') : edit.var.Shared R := by
  cases h with
  | plain _ hvalue => exact hvalue
  | repetition hvalue => exact hvalue

theorem wrapContent (h : edit.Agree R edit') (hcontent : first.Alike R second) :
    (Edit.wrapContent first edit).Alike R (Edit.wrapContent second edit') := by
  cases h with
  | @plain change var hchange hvalue =>
    cases change with
    | replacement => exact .choice hvalue (.dynamic hvalue) (.some hcontent)
    | addition => exact .sequence (.cons hcontent (.cons (.dynamic hvalue) .nil))
    | _ => exact hcontent
  | repetition => exact hcontent

theorem wrapElement (h : edit.Agree R edit') (helement : first.Alike R second) :
    (Edit.wrapElement first edit).Alike R (Edit.wrapElement second edit') := by
  cases h with
  | @plain change var hchange hvalue =>
    cases change with
    | removal => exact .choice hvalue helement .none
    | repetition frame => exact absurd rfl (hchange frame)
    | _ => exact helement
  | repetition hvalue honce => exact .block hvalue (honce helement)

end Agree

theorem alike_foldl_wrapContent {edits edits' : List Edit}
    (hedits : List.Forall₂ (Agree R) edits edits') (hcontent : first.Alike R second) :
    (edits.foldl wrapContent first).Alike R (edits'.foldl wrapContent second) :=
  List.rel_foldl (fun _ _ hcontent _ _ hedit => hedit.wrapContent hcontent) hcontent hedits

theorem alike_foldl_wrapElement {edits edits' : List Edit}
    (hedits : List.Forall₂ (Agree R) edits edits') (helement : first.Alike R second) :
    (edits.foldl wrapElement first).Alike R (edits'.foldl wrapElement second) :=
  List.rel_foldl (fun _ _ helement _ _ hedit => hedit.wrapElement helement) helement hedits

/-- Elements with edits that agree render alike if what is inside them does. -/
theorem alike_weave {edits edits' : List Edit} (hedits : List.Forall₂ (Agree R) edits edits')
    {tag : String} {attributes attributes' : Template}
    (hattributes : attributes.Alike R attributes') (hinside : first.Alike R second) :
    (weave edits tag attributes first).Alike R (weave edits' tag attributes' second) :=
  alike_foldl_wrapElement hedits
    (.element hattributes fun _ => alike_foldl_wrapContent hedits hinside)

end Edit

/-! ## Attributes -/

namespace Declarations

variable {d : Declarations} {pass : AttributePass} {id : NodeId}

/-- The attributes of an element read no variables but those of its attribute edits. -/
theorem alike_attributes (hpass : pass.IsStandard) (element : Element)
    (hedits : ∀ edit ∈ d.edits id, ∀ name, edit.change = .attribute name → edit.var.Shared R) :
    (d.attributes pass id element).Alike R (d.attributes pass id element) := by
  have hfixed (name value : String) :
      (AttributePass.fixed name value).Alike R (AttributePass.fixed name value) :=
    (Template.Alike.static _).attr name
  have hsequence (items : List Template) (h : ∀ item ∈ items, item.Alike R item) :
      (Template.sequence items).Alike R (.sequence items) :=
    .sequence (List.forall₂_same.mpr h)
  refine attributes_induction hpass (P := fun item => item.Alike R item) hsequence hfixed
    fun edit hedit overridden hchange name otherwise hotherwise => ?_
  have hvalue := hedits edit hedit overridden hchange
  refine .choice hvalue ((Template.Alike.dynamic hvalue).attr name) ?_
  cases otherwise with
  | none => exact .none
  | some item => exact .some (hotherwise item rfl)

theorem alike_weaveNode {d' : Declarations} (htree : d.tree = d'.tree)
    (hattributes : ∀ element,
      (d.attributes pass id element).Alike R (d'.attributes pass id element))
    (hedits : List.Forall₂ (Edit.Agree R) (d.edits id) (d'.edits id)) (raw : Bool)
    (content : Content) {items items' : List Template}
    (hitems : List.Forall₂ (Template.Alike R) items items') :
    (d.weaveNode pass id raw content items).Alike R (d'.weaveNode pass id raw content items') := by
  unfold weaveNode Tree.name
  rw [htree]
  cases content with
  | container => exact .sequence hitems
  | element element => exact Edit.alike_weave hedits (hattributes element) (.sequence hitems)
  | text text => exact .static _
  | doctype name publicId systemId => exact .static _
  | comment text => exact .sequence .nil
  | instruction target text => exact .sequence .nil

end Declarations

/-! ## Branches -/

/-- How a node is written, given the templates of its children. -/
abbrev Writing := NodeId → Bool → Content → List Template → Template

namespace Branch

mutual

/-- A branch with its nodes written one by one. -/
def write (names : Names) (writing : Writing) (raw : Bool) : Branch → Template
  | .node id content children =>
    writing id raw content
      (if content.holdsNodes then
        writeAll names writing (Compiler.holdsRawText names content) children
      else [])

def writeAll (names : Names) (writing : Writing) (raw : Bool) : List Branch → List Template
  | [] => []
  | branch :: rest => write names writing raw branch :: writeAll names writing raw rest

end

variable {names : Names} {writing writing' : Writing}

mutual

/-- Nodes that are written alike make branches that are. -/
theorem alike_write (raw : Bool) (branch : Branch)
    (h : ∀ node ∈ branch.visit Content.holdsNodes, ∀ raw {items items'},
      List.Forall₂ (Template.Alike R) items items' →
        (writing node.1 raw node.2 items).Alike R (writing' node.1 raw node.2 items')) :
    (branch.write names writing raw).Alike R (branch.write names writing' raw) := by
  obtain ⟨id, content, children⟩ := branch
  rw [visit, List.forall_mem_cons] at h
  refine h.1 raw ?_
  split
  next hholds =>
    rw [if_pos hholds] at h
    exact alike_writeAll _ children h.2
  next => exact .nil

theorem alike_writeAll (raw : Bool) (branches : List Branch)
    (h : ∀ node ∈ visitAll Content.holdsNodes branches, ∀ raw {items items'},
      List.Forall₂ (Template.Alike R) items items' →
        (writing node.1 raw node.2 items).Alike R (writing' node.1 raw node.2 items')) :
    List.Forall₂ (Template.Alike R) (writeAll names writing raw branches)
      (writeAll names writing' raw branches) := by
  cases branches with
  | nil => exact .nil
  | cons branch rest =>
    rw [visitAll, List.forall_mem_append] at h
    exact .cons (alike_write raw branch h.1) (alike_writeAll raw rest h.2)

end

end Branch

namespace Declarations

variable {d : Declarations} {pass : AttributePass}

mutual

theorem weave_eq_write (raw : Bool) (branch : Branch) :
    d.weave pass raw branch = branch.write d.tree.names (d.weaveNode pass) raw := by
  obtain ⟨id, content, children⟩ := branch
  rw [weave, Branch.write]
  cases hholds : content.holdsNodes with
  | true => rw [if_pos rfl, weaveAll_eq_writeAll]
  | false => exact Compiler.weaveNode_of_not_holdsNodes hholds _ _

theorem weaveAll_eq_writeAll (raw : Bool) (branches : List Branch) :
    d.weaveAll pass raw branches =
      Branch.writeAll d.tree.names (d.weaveNode pass) raw branches := by
  cases branches with
  | nil => rfl
  | cons branch rest =>
    rw [weaveAll, Branch.writeAll, weave_eq_write raw branch, weaveAll_eq_writeAll raw rest]

end

/-- A branch renders alike under bindings that all its edits agree on. -/
theorem alike_weave (hpass : pass.IsStandard) (raw : Bool) (branch : Branch)
    (h : ∀ node ∈ branch.visit Content.holdsNodes, ∀ edit ∈ d.edits node.1, edit.Agree R edit) :
    (d.weave pass raw branch).Alike R (d.weave pass raw branch) := by
  rw [weave_eq_write]
  refine branch.alike_write raw fun node hnode raw _ _ hitems => ?_
  refine alike_weaveNode rfl (fun element => alike_attributes hpass element ?_)
    (List.forall₂_same.mpr (h node hnode)) raw node.2 hitems
  exact fun edit hedit _ _ => (h node hnode edit hedit).shared

end Declarations

end HtmlTemplate
