-- SUMMARY: What a template shows of a few characters depends only on what its values show of them.
import HtmlTemplate.Document
import HtmlTemplate.Proofs.Rendered

/-!
# Marks

Of markup, only some characters may matter: those that open and close tags, say. This
module leaves all others out, of finished markup and of the markup among values. A
template is rendered with such values just as with the full ones, as far as these
characters go: no choice, no repetition and no error depends on what a text reads.
-/

namespace HtmlTemplate

/-! ## Reduced markup and values -/

/-- The markup without all characters but the given ones. -/
def Markup.only (characters : List Char) (markup : String) : String :=
  String.ofList (markup.toList.filter characters.contains)

namespace Value

mutual

/-- The value without all characters but the given ones in its texts. -/
def only (characters : List Char) : Value → Value
  | .absent => .absent
  | .bool b => .bool b
  | .int n => .int n
  | .text markup => .text (Markup.only characters markup)
  | .list frames => .list (onlyFrames characters frames)

def onlyFrame (characters : List Char) : List Value → List Value
  | [] => []
  | value :: rest => only characters value :: onlyFrame characters rest

def onlyFrames (characters : List Char) : List (List Value) → List (List Value)
  | [] => []
  | frame :: rest => onlyFrame characters frame :: onlyFrames characters rest

end

end Value

/-- The frame without all characters but the given ones in its texts. -/
def Frame.only (characters : List Char) (frame : Frame) : Frame :=
  frame.map (Value.only characters)

/-- The bindings without all characters but the given ones in their texts. -/
def Bindings.only (characters : List Char) (bindings : Bindings) : Bindings :=
  bindings.map fun (context, frame) => (context, frame.only characters)

/-- What is rendered, without all characters but the given ones. -/
def Rendered.only (characters : List Char) (rendered : Rendered) : Rendered :=
  rendered.map (Markup.only characters)

variable {characters : List Char}

/-! ## Values -/

namespace Markup

@[simp] theorem only_append (first second : String) :
    only characters (first ++ second) = only characters first ++ only characters second := by
  simp [only]

@[simp] theorem only_only (markup : String) :
    only characters (only characters markup) = only characters markup := by
  simp only [only, String.toList_ofList, List.filter_filter, Bool.and_self]

end Markup

namespace Value

theorem onlyFrame_eq_map (frame : List Value) :
    onlyFrame characters frame = frame.map (only characters) := by
  induction frame with
  | nil => rfl
  | cons value rest ih => rw [onlyFrame, ih, List.map_cons]

theorem onlyFrames_eq_map (frames : List Frame) :
    onlyFrames characters frames = frames.map (Frame.only characters) := by
  induction frames with
  | nil => rfl
  | cons frame rest ih => rw [onlyFrames, ih, onlyFrame_eq_map, List.map_cons, Frame.only]

@[simp] theorem only_absent : only characters .absent = .absent := rfl

@[simp] theorem only_text (markup : String) :
    only characters (.text markup) = .text (Markup.only characters markup) := rfl

@[simp] theorem only_list (frames : List Frame) :
    only characters (.list frames) = .list (frames.map (Frame.only characters)) := by
  rw [only, onlyFrames_eq_map]

@[simp] theorem kind_only (value : Value) : (value.only characters).kind = value.kind := by
  cases value <;> rfl

@[simp] theorem isTruthy_only (value : Value) :
    (value.only characters).isTruthy = value.isTruthy := by
  cases value <;> rfl

theorem markup?_only (characters : List Char) (value : Value) :
    (value.only characters).markup?.map (Markup.only characters) =
      value.markup?.map (Markup.only characters) := by
  cases value <;> simp [only, markup?]

end Value

@[simp] theorem Frame.length_only (frame : Frame) :
    (frame.only characters).length = frame.length := List.length_map _

@[simp] theorem Frame.get_only (frame : Frame) (slot : Nat) :
    (frame.only characters).get slot = (frame.get slot).only characters := by
  simp only [get, only, List.getD_eq_getElem?_getD, List.getElem?_map]
  cases frame[slot]? <;> simp

namespace Bindings

@[simp] theorem value_only (bindings : Bindings) (var : Var) :
    (bindings.only characters).value var = (bindings.value var).only characters := by
  induction bindings with
  | nil => exact Value.only_absent.symm
  | cons pair rest ih =>
    obtain ⟨context, frame⟩ := pair
    change value ((context, frame.only characters) :: only characters rest) var = _
    rw [value_cons, value_cons, ih]
    split
    next => exact frame.get_only var.slot
    next => rfl

@[simp] theorem holds_only (bindings : Bindings) (condition : Condition) :
    (bindings.only characters).holds condition = bindings.holds condition := by
  cases condition <;> simp [holds]

end Bindings

namespace Repetition

theorem frames_only (repetition : Repetition) (bindings : Bindings) :
    repetition.frames (bindings.only characters) =
      (repetition.frames bindings).map (List.map (Frame.only characters)) := by
  unfold frames
  rw [Bindings.value_only]
  cases bindings.value repetition.source <;> simp [Value.only, Value.kind, Except.map]
  · rfl
  · exact Value.onlyFrames_eq_map _

theorem bind_only (repetition : Repetition) (bindings : Bindings) (frame : Frame) :
    repetition.bind (bindings.only characters) (frame.only characters) =
      (repetition.bind bindings frame).map (Bindings.only characters) := by
  unfold bind
  cases repetition.frame with
  | none => rfl
  | some parameters =>
    simp only [Frame.length_only]
    split <;> rfl

end Repetition

/-! ## Templates -/

namespace Rendered

@[simp] theorem only_ok (markup : String) :
    only characters (.ok markup) = .ok (Markup.only characters markup) := rfl

@[simp] theorem only_error (e : RenderError) : only characters (.error e) = .error e := rfl

@[simp] theorem only_append (first second : Rendered) :
    (first.append second).only characters =
      (first.only characters).append (second.only characters) := by
  cases first with
  | error e => rfl
  | ok a => cases second <;> simp

theorem only_concat_congr {α : Type} {pieces : List α} {f g : α → Rendered}
    (h : ∀ piece ∈ pieces, (f piece).only characters = (g piece).only characters) :
    (concat (pieces.map f)).only characters = (concat (pieces.map g)).only characters := by
  induction pieces with
  | nil => rfl
  | cons piece rest ih =>
    rw [List.forall_mem_cons] at h
    simp only [List.map_cons, concat, only_append, h.1, ih h.2]

end Rendered

namespace Template

mutual

/-- What a template shows of the characters depends only on what the values show of them. -/
theorem render_only (template : Template) (bindings : Bindings) :
    (template.render (bindings.only characters)).only characters =
      (template.render bindings).only characters := by
  cases template with
  | static markup => rfl
  | dynamic var =>
    have hmarkup := (bindings.value var).markup?_only characters
    simp only [render, Bindings.value_only, Value.kind_only]
    cases hreduced : ((bindings.value var).only characters).markup? <;>
      cases hfull : (bindings.value var).markup? <;>
      simp_all
  | sequence items => exact renderAll_only items bindings
  | choice condition yes no =>
    simp only [render, Bindings.holds_only]
    split
    next => exact render_only yes bindings
    next => exact renderOption_only no bindings
  | block repetition body =>
    simp only [render, repetition.frames_only]
    cases repetition.frames bindings with
    | error e => rfl
    | ok frames =>
      simp only [Except.map, List.map_map]
      apply Rendered.only_concat_congr
      intro frame _
      simp only [Function.comp_apply, repetition.bind_only]
      cases repetition.bind bindings frame with
      | error e => rfl
      | ok inner => exact render_only body inner
  | element name attributes content =>
    simp only [render, Rendered.only_append, render_only attributes bindings]
    split
    next => rfl
    next => simp only [Rendered.only_append, render_only content bindings]
  | attr name value => simp only [render, Rendered.only_append, render_only value bindings]

theorem renderAll_only (items : List Template) (bindings : Bindings) :
    (renderAll items (bindings.only characters)).only characters =
      (renderAll items bindings).only characters := by
  cases items with
  | nil => rfl
  | cons item rest =>
    simp only [renderAll, Rendered.only_append, render_only item bindings,
      renderAll_only rest bindings]

theorem renderOption_only (item : Option Template) (bindings : Bindings) :
    (renderOption item (bindings.only characters)).only characters =
      (renderOption item bindings).only characters := by
  cases item with
  | none => rfl
  | some template => exact render_only template bindings

end

end Template

/-! ## Documents -/

theorem Program.render_only (characters : List Char) (program : Program) (arguments : Frame) :
    (program.render (arguments.only characters)).only characters =
      (program.render arguments).only characters := by
  simp only [render, Frame.length_only]
  split
  next => rfl
  next => exact program.template.render_only [(program.parameters.context, arguments)]

/-- Arguments that agree on the characters are rendered to markup that agrees on them, or
    with the same error. -/
theorem Document.render_congr_only (doc : Document) {arguments arguments' : Frame}
    (h : arguments.only characters = arguments'.only characters) :
    (doc.render arguments).1.map (Markup.only characters) =
      (doc.render arguments').1.map (Markup.only characters) := by
  unfold render
  split
  next => rfl
  next renderer _ _ =>
    have hprogram := renderer.program.render_only characters
    have hrendered : (renderer.program.render arguments).only characters =
        (renderer.program.render arguments').only characters := by
      rw [← hprogram arguments, h, hprogram arguments']
    have hmap (rendered : Rendered) :
        (rendered.mapError Error.render).map (Markup.only characters) =
          (rendered.only characters).mapError Error.render := by
      cases rendered <;> rfl
    simp only [hmap, hrendered]

end HtmlTemplate
