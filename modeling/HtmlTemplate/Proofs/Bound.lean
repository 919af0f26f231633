-- SUMMARY: When every variable of a template is read where its context is bound.
import HtmlTemplate.Proofs.Edits

/-!
# Bound variables

`Template.unbound?` looks for a variable that is read where its context is not
bound. For each kind of template this module says when it finds none: when it finds
none in the parts, and the context of every variable in place is bound.
-/

namespace HtmlTemplate

/-- The contexts that are bound inside a repetition. -/
def Repetition.boundInside (repetition : Repetition) (bound : List ContextId) : List ContextId :=
  match repetition.frame with
  | some parameters => parameters.context :: bound
  | none => bound

namespace Template

variable {bound : List ContextId}

theorem checkBound_eq_none {var : Var} : checkBound bound var = none ↔ var.context ∈ bound := by
  simp [checkBound]

theorem unboundAmong?_eq_none {items : List Template} :
    unboundAmong? items bound = none ↔ ∀ item ∈ items, item.unbound? bound = none := by
  induction items with
  | nil => simp [unboundAmong?]
  | cons item rest ih => simp [unboundAmong?, ih]

@[simp] theorem unbound?_static (markup : String) : (static markup).unbound? bound = none := rfl

@[simp] theorem unbound?_dynamic_eq_none {var : Var} :
    (dynamic var).unbound? bound = none ↔ var.context ∈ bound := checkBound_eq_none

@[simp] theorem unbound?_sequence_eq_none {items : List Template} :
    (sequence items).unbound? bound = none ↔ ∀ item ∈ items, item.unbound? bound = none :=
  unboundAmong?_eq_none

@[simp] theorem unbound?_choice_eq_none {condition : Condition} {yes : Template}
    {no : Option Template} :
    (choice condition yes no).unbound? bound = none ↔
      condition.var.context ∈ bound ∧ yes.unbound? bound = none ∧
        ∀ item ∈ no, item.unbound? bound = none := by
  cases no <;> simp [unbound?, checkBound, unboundOption?]

@[simp] theorem unbound?_block_eq_none {repetition : Repetition} {body : Template} :
    (block repetition body).unbound? bound = none ↔
      repetition.source.context ∈ bound ∧
        body.unbound? (repetition.boundInside bound) = none := by
  simp only [unbound?, Repetition.boundInside]
  cases repetition.frame <;> simp [checkBound]

@[simp] theorem unbound?_element_eq_none {name : String} {attributes content : Template} :
    (element name attributes content).unbound? bound = none ↔
      attributes.unbound? bound = none ∧ content.unbound? bound = none := by
  simp [unbound?]

@[simp] theorem unbound?_attr (name : String) (value : Template) :
    (attr name value).unbound? bound = value.unbound? bound := rfl

/-! ## More contexts -/

theorem boundInside_subset {first second : Repetition} {bound' : List ContextId}
    (hframe : first.frame = second.frame) (hsub : bound ⊆ bound') :
    first.boundInside bound ⊆ second.boundInside bound' := by
  unfold Repetition.boundInside
  rw [hframe]
  cases second.frame with
  | none => exact hsub
  | some parameters => exact List.cons_subset_cons _ hsub

mutual

/-- With more contexts bound, no more variables are unbound. -/
theorem unbound?_mono (template : Template) {bound bound' : List ContextId}
    (hsub : bound ⊆ bound') (h : template.unbound? bound = none) :
    template.unbound? bound' = none := by
  cases template with
  | static markup => rfl
  | dynamic var => exact unbound?_dynamic_eq_none.mpr (hsub (unbound?_dynamic_eq_none.mp h))
  | sequence items => exact unboundAmong?_mono items hsub h
  | choice condition yes no =>
    rw [unbound?_choice_eq_none] at h ⊢
    exact ⟨hsub h.1, unbound?_mono yes hsub h.2.1, unboundOption?_mono no hsub h.2.2⟩
  | block repetition body =>
    rw [unbound?_block_eq_none] at h ⊢
    exact ⟨hsub h.1, unbound?_mono body (boundInside_subset rfl hsub) h.2⟩
  | element name attributes content =>
    rw [unbound?_element_eq_none] at h ⊢
    exact ⟨unbound?_mono attributes hsub h.1, unbound?_mono content hsub h.2⟩
  | attr name value => exact unbound?_mono value hsub h

theorem unboundAmong?_mono (items : List Template) {bound bound' : List ContextId}
    (hsub : bound ⊆ bound') (h : unboundAmong? items bound = none) :
    unboundAmong? items bound' = none := by
  cases items with
  | nil => rfl
  | cons item rest =>
    rw [unboundAmong?_eq_none, List.forall_mem_cons] at h ⊢
    obtain ⟨hitem, hrest⟩ := h
    refine ⟨unbound?_mono item hsub hitem, ?_⟩
    rw [← unboundAmong?_eq_none] at hrest ⊢
    exact unboundAmong?_mono rest hsub hrest

theorem unboundOption?_mono (item : Option Template) {bound bound' : List ContextId}
    (hsub : bound ⊆ bound') (h : ∀ template ∈ item, template.unbound? bound = none) :
    ∀ template ∈ item, template.unbound? bound' = none := by
  cases item with
  | none => nofun
  | some template =>
    intro other hother
    cases hother
    exact unbound?_mono template hsub (h template rfl)

end

end Template

/-! ## Edits -/

namespace Edit

variable {bound : List ContextId}

/-- The edit is about what is inside the element. -/
def WrapsContent (edit : Edit) : Prop := edit.change = .replacement ∨ edit.change = .addition

/-- The edit is about the element as a whole. -/
def WrapsElement (edit : Edit) : Prop :=
  edit.change = .removal ∨ ∃ frame, edit.change = .repetition frame

/-- The contexts that are bound inside an edit. -/
def boundInside (edit : Edit) (bound : List ContextId) : List ContextId :=
  match edit.change with
  | .repetition (some parameters) => parameters.context :: bound
  | _ => bound

theorem unbound?_wrapContent_eq_none {edit : Edit} {content : Template} :
    (wrapContent content edit).unbound? bound = none ↔
      content.unbound? bound = none ∧ (edit.WrapsContent → edit.var.context ∈ bound) := by
  obtain ⟨change, var⟩ := edit
  cases change with
  | replacement => simp [wrapContent, WrapsContent, Condition.var, and_comm]
  | addition => simp [wrapContent, WrapsContent]
  | _ => simp [wrapContent, WrapsContent]

theorem unbound?_wrapElement_eq_none {edit : Edit} {element : Template} :
    (wrapElement element edit).unbound? bound = none ↔
      element.unbound? (edit.boundInside bound) = none ∧
        (edit.WrapsElement → edit.var.context ∈ bound) := by
  obtain ⟨change, var⟩ := edit
  cases change with
  | repetition frame =>
    cases frame <;>
      simp [wrapElement, WrapsElement, boundInside, Repetition.boundInside, and_comm]
  | _ => simp [wrapElement, WrapsElement, boundInside, Condition.var, and_comm]

end Edit

end HtmlTemplate
