-- SUMMARY: Laws of rendered markup: writing one piece after another, and when it succeeds.
import HtmlTemplate.Template.Rendering

/-!
# Rendered markup

`Rendered.append` writes one piece after another and stops at the first failure,
so rendered pieces form a monoid. Later modules compare templates piece by piece:
they use the laws of this module and do not look into `append` again.
-/

namespace HtmlTemplate

namespace Rendered

/-! ## The monoid of rendered markup -/

@[simp] theorem append_error (e : RenderError) (second : Rendered) :
    append (.error e) second = .error e := rfl

@[simp] theorem append_ok_ok (first second : String) :
    append (.ok first) (.ok second) = .ok (first ++ second) := rfl

@[simp] theorem append_ok_error (first : String) (e : RenderError) :
    append (.ok first) (.error e) = .error e := rfl

@[simp] theorem append_empty (first : Rendered) : first.append (.ok "") = first := by
  cases first with
  | error e => rfl
  | ok markup => simp

@[simp] theorem empty_append (second : Rendered) : append (.ok "") second = second := by
  cases second with
  | error e => rfl
  | ok markup => simp

theorem append_assoc (first second third : Rendered) :
    (first.append second).append third = first.append (second.append third) := by
  cases first with
  | error e => rfl
  | ok a =>
    cases second with
    | error e => rfl
    | ok b =>
      cases third with
      | error e => rfl
      | ok c => simp [String.append_assoc]

/-! ## Success -/

/-- Two pieces are written when each of them is. -/
theorem append_eq_ok {first second : Rendered} {markup : String} :
    first.append second = .ok markup ↔
      ∃ a b, first = .ok a ∧ second = .ok b ∧ a ++ b = markup := by
  cases first with
  | error e => simp
  | ok a =>
    cases second with
    | error e => simp
    | ok b => simp

/-- A piece that is repeated is written when each of its copies is. -/
theorem concat_eq_ok_of_forall {α : Type} {pieces : List α} {f g : α → Rendered}
    (h : ∀ piece ∈ pieces, ∀ markup, f piece = .ok markup → g piece = .ok markup) :
    ∀ {markup : String}, concat (pieces.map f) = .ok markup →
      concat (pieces.map g) = .ok markup := by
  induction pieces with
  | nil => exact fun hf => hf
  | cons piece rest ih =>
    intro markup hf
    rw [List.forall_mem_cons] at h
    simp only [List.map_cons, concat, append_eq_ok] at hf ⊢
    obtain ⟨a, b, ha, hb, rfl⟩ := hf
    exact ⟨a, b, h.1 a ha, ih h.2 hb, rfl⟩

end Rendered

/-! ## Templates side by side -/

namespace Template

theorem renderAll_append (first second : List Template) (bindings : Bindings) :
    renderAll (first ++ second) bindings =
      (renderAll first bindings).append (renderAll second bindings) := by
  induction first with
  | nil => simp [renderAll]
  | cons item rest ih => simp only [List.cons_append, renderAll, ih, Rendered.append_assoc]

theorem renderAll_eq_empty {items : List Template} {bindings : Bindings}
    (h : ∀ item ∈ items, item.render bindings = .ok "") : renderAll items bindings = .ok "" := by
  induction items with
  | nil => rfl
  | cons item rest ih =>
    rw [List.forall_mem_cons] at h
    rw [renderAll, h.1, ih h.2, Rendered.empty_append]

/-- Pieces that write nothing can be left out. -/
theorem renderAll_map_filter {α : Type} {pieces : List α} {f : α → Template} {keep : α → Bool}
    {bindings : Bindings}
    (h : ∀ piece ∈ pieces, keep piece = false → (f piece).render bindings = .ok "") :
    renderAll ((pieces.filter keep).map f) bindings = renderAll (pieces.map f) bindings := by
  induction pieces with
  | nil => rfl
  | cons piece rest ih =>
    rw [List.forall_mem_cons] at h
    cases hkeep : keep piece with
    | true => simp only [List.filter_cons, hkeep, if_true, List.map_cons, renderAll, ih h.2]
    | false => simp [hkeep, renderAll, ih h.2, h.1 hkeep]

theorem renderAll_map_congr {α : Type} {pieces : List α} {f g : α → Template}
    {first second : Bindings}
    (h : ∀ piece ∈ pieces, (f piece).render first = (g piece).render second) :
    renderAll (pieces.map f) first = renderAll (pieces.map g) second := by
  induction pieces with
  | nil => rfl
  | cons piece rest ih =>
    rw [List.forall_mem_cons] at h
    simp only [List.map_cons, renderAll, h.1, ih h.2]

end Template

/-! ## Frames -/

theorem Frame.get_of_length_le {frame : Frame} {slot : Nat} (h : frame.length ≤ slot) :
    frame.get slot = .absent := by
  simp [get, h]

namespace Bindings

theorem frame?_cons (context : ContextId) (frame : Frame) (bindings : Bindings) (c : ContextId) :
    frame? ((context, frame) :: bindings) c =
      if c = context then some frame else bindings.frame? c := by
  unfold frame?
  by_cases h : c = context
  · simp [h]
  · have hne : (context == c) = false := by simpa using fun he => h he.symm
    simp [h, hne]

theorem value_cons (context : ContextId) (frame : Frame) (bindings : Bindings) (var : Var) :
    value ((context, frame) :: bindings) var =
      if var.context = context then frame.get var.slot else bindings.value var := by
  by_cases h : var.context = context <;> simp [value, frame?_cons, h]

theorem value_of_frame? {bindings : Bindings} {var : Var} {frame : Frame}
    (h : bindings.frame? var.context = some frame) : bindings.value var = frame.get var.slot := by
  simp only [value, h]

end Bindings

end HtmlTemplate
