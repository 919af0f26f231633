-- SUMMARY: Values that are left out at the end of a frame count as absent ones, at every depth.
import HtmlTemplate.Proofs.Alike
import HtmlTemplate.Proofs.Passes

/-!
# Missing values

A frame may end before the slots of its context do, and so may the frames inside of lists. What
is rendered goes by the values of the slots alone: two frames that have the same values, those
beyond the end taken as absent, render to the same, or fail alike. The lengths of frames count
in one place only, where a frame is bound that is too long; so renderings are compared up to
that error.
-/

namespace HtmlTemplate

/-! ## Related values -/

/-- Two values are the same up to values that are missing at the end of frames. -/
inductive Value.Related : Value → Value → Prop where
  | same {value : Value} (h : value.kind ≠ .list) : Related value value
  | list {frames frames' : List Frame}
      (h : List.Forall₂ (fun frame frame' => ∀ slot, Related (frame.get slot) (frame'.get slot))
        frames frames') :
      Related (.list frames) (.list frames')

/-- Two frames have related values in every slot. -/
def Frame.Related (frame frame' : Frame) : Prop :=
  ∀ slot, (frame.get slot).Related (frame'.get slot)

namespace Value

variable {value value' : Value}

theorem Related.kind_eq (h : value.Related value') : value.kind = value'.kind := by
  cases h <;> rfl

theorem Related.isTruthy_eq (h : value.Related value') : value.isTruthy = value'.isTruthy := by
  cases h <;> rfl

theorem Related.markup?_eq (h : value.Related value') : value.markup? = value'.markup? := by
  cases h <;> rfl

mutual

theorem Related.refl (value : Value) : value.Related value := by
  cases value with
  | list frames => exact .list (related_frames frames)
  | _ => exact .same nofun

theorem related_frames (frames : List Frame) : List.Forall₂ Frame.Related frames frames := by
  cases frames with
  | nil => exact .nil
  | cons frame rest => exact .cons (related_frame frame) (related_frames rest)

theorem related_frame (frame : Frame) : frame.Related frame := by
  cases frame with
  | nil => exact fun _ => .same nofun
  | cons value rest =>
    intro slot
    cases slot with
    | zero => exact Related.refl value
    | succ slot => exact related_frame rest slot

end

end Value

namespace Frame

theorem get_append_absent (frame : Frame) (count slot : Nat) :
    get (frame ++ List.replicate count .absent) slot = frame.get slot := by
  unfold get
  rw [List.getD_eq_getElem?_getD, List.getD_eq_getElem?_getD, List.getElem?_append]
  split
  next => rfl
  next hle =>
    rw [List.getElem?_eq_none (Nat.not_lt.mp hle), List.getElem?_replicate]
    split <;> rfl

/-- Absent values at the end make no difference. -/
theorem related_append_absent (frame : Frame) (count : Nat) :
    frame.Related (frame ++ List.replicate count .absent) := by
  intro slot
  rw [get_append_absent]
  exact .refl _

end Frame

/-! ## Related bindings -/

/-- Every variable has related values under the two bindings. -/
def Bindings.Related (bindings bindings' : Bindings) : Prop :=
  ∀ var, (bindings.value var).Related (bindings'.value var)

namespace Bindings.Related

variable {bindings bindings' : Bindings}

theorem empty : Bindings.Related [] [] := fun _ => .same nofun

theorem cons (h : bindings.Related bindings') (context : ContextId) {frame frame' : Frame}
    (hframe : frame.Related frame') :
    Bindings.Related ((context, frame) :: bindings) ((context, frame') :: bindings') := by
  intro var
  rw [value_cons, value_cons]
  split
  · exact hframe var.slot
  · exact h var

theorem holds_eq (h : bindings.Related bindings') (condition : Condition) :
    bindings.holds condition = bindings'.holds condition := by
  cases condition with
  | truthy var => exact (h var).isTruthy_eq
  | falsy var => exact congrArg (!·) (h var).isTruthy_eq

/-- A repetition fails alike under related bindings, or goes over related frames. -/
theorem frames (h : bindings.Related bindings') (repetition : Repetition) :
    (∃ e, repetition.frames bindings = .error e ∧ repetition.frames bindings' = .error e) ∨
      ∃ frames frames', repetition.frames bindings = .ok frames ∧
        repetition.frames bindings' = .ok frames' ∧
          List.Forall₂ Frame.Related frames frames' := by
  have hsource := h repetition.source
  unfold Repetition.frames
  generalize bindings.value repetition.source = value at hsource
  generalize bindings'.value repetition.source = value' at hsource
  cases hsource with
  | list hframes => exact .inr ⟨_, _, rfl, rfl, hframes⟩
  | same hkind =>
    cases value with
    | absent => exact .inr ⟨_, _, rfl, rfl, Value.related_frames _⟩
    | list frames => exact absurd rfl hkind
    | _ => exact .inl ⟨_, rfl, rfl⟩

end Bindings.Related

/-! ## Renderings that agree -/

namespace Rendered

/-- The rendering failed on a frame that is too long. -/
def TooMany (rendered : Rendered) : Prop :=
  ∃ expected found, rendered = .error (.tooManyArguments expected found)

/-- The renderings are the same, up to frames that are too long. -/
def Agree (first second : Rendered) : Prop :=
  first.TooMany ∨ second.TooMany ∨ first = second

variable {first first' second second' : Rendered}

theorem Agree.refl (rendered : Rendered) : rendered.Agree rendered := .inr (.inr rfl)

theorem not_tooMany_ok (markup : String) : ¬ TooMany (.ok markup) := nofun

theorem TooMany.append (h : first.TooMany) (second : Rendered) :
    (first.append second).TooMany := by
  obtain ⟨expected, found, rfl⟩ := h
  exact ⟨expected, found, rfl⟩

theorem TooMany.append_ok (h : second.TooMany) (markup : String) :
    (Rendered.append (.ok markup) second).TooMany := by
  obtain ⟨expected, found, rfl⟩ := h
  exact ⟨expected, found, rfl⟩

theorem Agree.append (h : first.Agree first') (h' : second.Agree second') :
    (first.append second).Agree (first'.append second') := by
  obtain htoo | htoo | rfl := h
  · exact .inl (htoo.append second)
  · exact .inr (.inl (htoo.append second'))
  · cases first with
    | error e => exact .refl _
    | ok markup =>
      obtain htoo | htoo | rfl := h'
      · exact .inl (htoo.append_ok markup)
      · exact .inr (.inl (htoo.append_ok markup))
      · exact .refl _

theorem Agree.concat {pieces pieces' : List Rendered} (h : List.Forall₂ Agree pieces pieces') :
    (Rendered.concat pieces).Agree (Rendered.concat pieces') := by
  induction h with
  | nil => exact .refl _
  | cons hpiece _ ih => exact hpiece.append ih

end Rendered

/-! ## Templates -/

/-- What is written for related frames agrees if what the body writes does. -/
theorem Repetition.agree_once (repetition : Repetition) {body : Template}
    (hbody : ∀ ⦃bindings bindings'⦄, bindings.Related bindings' →
      (body.render bindings).Agree (body.render bindings'))
    {bindings bindings' : Bindings} (h : bindings.Related bindings') {frame frame' : Frame}
    (hframe : frame.Related frame') :
    (repetition.once body bindings frame).Agree (repetition.once body bindings' frame') := by
  unfold Repetition.once Repetition.bind
  cases repetition.frame with
  | none => exact hbody h
  | some parameters =>
    -- The lengths of the two frames may lie on different sides of the bound.
    by_cases hlength : frame.length > parameters.arity
    · simp only [if_pos hlength]
      exact .inl ⟨_, _, rfl⟩
    by_cases hlength' : frame'.length > parameters.arity
    · simp only [if_pos hlength']
      exact .inr (.inl ⟨_, _, rfl⟩)
    simp only [if_neg hlength, if_neg hlength']
    exact hbody (h.cons parameters.context hframe)

namespace Template

mutual

/-- Under related bindings a template renders to the same, up to frames that are too long. -/
theorem agree_render (template : Template) {bindings bindings' : Bindings}
    (h : bindings.Related bindings') :
    (template.render bindings).Agree (template.render bindings') := by
  cases template with
  | static markup => exact .refl _
  | dynamic var =>
    rw [render, render, (h var).markup?_eq, (h var).kind_eq]
    exact .refl _
  | sequence items => exact agree_renderAll items h
  | choice condition yes no =>
    rw [render, render, h.holds_eq]
    split
    · exact agree_render yes h
    · exact agree_renderOption no h
  | block repetition body =>
    rw [render_block, render_block]
    obtain ⟨e, hframes, hframes'⟩ | ⟨frames, frames', hframes, hframes', hrelated⟩ :=
      h.frames repetition
    · rw [hframes, hframes']
      exact .refl _
    · rw [hframes, hframes']
      refine .concat (List.forall₂_map_left_iff.mpr (List.forall₂_map_right_iff.mpr ?_))
      exact hrelated.imp fun _ _ hframe =>
        repetition.agree_once (fun _ _ hinside => agree_render body hinside) h hframe
  | element name attributes content =>
    rw [render, render]
    refine (((Rendered.Agree.refl _).append (agree_render attributes h)).append (.refl _)).append ?_
    split
    · exact .refl _
    · exact (agree_render content h).append (.refl _)
  | attr name value =>
    rw [render, render]
    exact ((Rendered.Agree.refl _).append (agree_render value h)).append (.refl _)

theorem agree_renderAll (items : List Template) {bindings bindings' : Bindings}
    (h : bindings.Related bindings') :
    (renderAll items bindings).Agree (renderAll items bindings') := by
  cases items with
  | nil => exact .refl _
  | cons item rest => exact (agree_render item h).append (agree_renderAll rest h)

theorem agree_renderOption (item : Option Template) {bindings bindings' : Bindings}
    (h : bindings.Related bindings') :
    (renderOption item bindings).Agree (renderOption item bindings') := by
  cases item with
  | none => exact .refl _
  | some item => exact agree_render item h

end

end Template

/-! ## Programs -/

namespace Program

/-- Related arguments agree, up to frames that are too long. -/
theorem agree_render (program : Program) {first second : Frame} (h : first.Related second) :
    (program.render first).Agree (program.render second) := by
  unfold render
  split
  · exact .inl ⟨_, _, rfl⟩
  split
  · exact .inr (.inl ⟨_, _, rfl⟩)
  exact program.template.agree_render (Bindings.Related.empty.cons _ h)

/-- Rendering goes by the values in slots, not by where frames end: related arguments render
    to the same markup, or fail with the same error, whether or not the template is put into
    its normal form. Only frames that are too long make a difference. -/
theorem render_eq_of_related (optimizing optimizing' : Bool) (template : Template)
    (parameters : Parameters) {first second : Frame} (h : first.Related second)
    (hfirst : ¬ ((build optimizing template parameters).render first).TooMany)
    (hsecond : ¬ ((build optimizing' template parameters).render second).TooMany) :
    (build optimizing template parameters).render first =
      (build optimizing' template parameters).render second := by
  rw [render_build] at hfirst hsecond ⊢
  rw [render_build]
  obtain htoo | htoo | heq := agree_render ⟨template, parameters⟩ h
  · exact absurd htoo hfirst
  · exact absurd htoo hsecond
  · exact heq

/-- A list item for each frame, with the value of its one slot, or a dash. -/
def itemsTemplate : Template :=
  .block ⟨⟨⟨0⟩, 0⟩, some ⟨⟨1⟩, 1, false⟩⟩
    (.element "li" .empty
      (.choice (.truthy ⟨⟨1⟩, 0⟩) (.dynamic ⟨⟨1⟩, 0⟩) (some (.static "-"))))

/-- An empty frame inside of the list reads as one with an absent value, and so does a second
    argument that is missing. -/
theorem render_eq_of_related_items :
    Frame.Related [.list [[.text "a"], []]] [.list [[.text "a"], [.absent]], .absent] ∧
      (build true itemsTemplate ⟨⟨0⟩, 2, true⟩).render [.list [[.text "a"], []]] =
        (build false itemsTemplate ⟨⟨0⟩, 2, true⟩).render
          [.list [[.text "a"], [.absent]], .absent] ∧
      (build false itemsTemplate ⟨⟨0⟩, 2, true⟩).render
          [.list [[.text "a"], [.absent]], .absent] = .ok "<li>a</li><li>-</li>" := by
  have hframes : List.Forall₂ Frame.Related [[.text "a"], []] [[.text "a"], [.absent]] :=
    .cons (Value.related_frame _) (.cons (Frame.related_append_absent [] 1) .nil)
  have hrelated : Frame.Related [.list [[.text "a"], []]]
      [.list [[.text "a"], [.absent]], .absent] := by
    rintro (_ | slot)
    · exact .list hframes
    · exact Frame.related_append_absent [] 1 slot
  have hfirst : (build true itemsTemplate ⟨⟨0⟩, 2, true⟩).render [.list [[.text "a"], []]] =
      .ok "<li>a</li><li>-</li>" := by
    decide +kernel
  have hsecond : (build false itemsTemplate ⟨⟨0⟩, 2, true⟩).render
      [.list [[.text "a"], [.absent]], .absent] = .ok "<li>a</li><li>-</li>" := by
    decide +kernel
  refine ⟨hrelated, render_eq_of_related true false _ _ hrelated ?_ ?_, hsecond⟩
  · rw [hfirst]
    exact Rendered.not_tooMany_ok _
  · rw [hsecond]
    exact Rendered.not_tooMany_ok _

end Program

end HtmlTemplate
