-- SUMMARY: Templates with other slots for their variables render alike when the values are moved along.
import HtmlTemplate.Proofs.Bound
import HtmlTemplate.Proofs.Neutral
import HtmlTemplate.Proofs.Rendered
import Mathlib.Logic.Equiv.Basic

/-!
# Renumbering

The slots of a context are only numbers. When every variable of a template is given
another slot, and each value is moved to the slot of its variable, the same is
rendered, and the same is unbound. This holds as long as no repetition binds frames
to a context that is renumbered: the frames of a repetition come with its value, and
stay as they are.
-/

namespace HtmlTemplate

/-- Other slots for the variables of each context. -/
abbrev Renumbering := ContextId → Nat → Nat

namespace Renumbering

/-- The slots of the context stay as they are. -/
def Keeps (f : Renumbering) (c : ContextId) : Prop := ∀ slot, f c slot = slot

/-- Two slots of one context change places. -/
def exchange (c : ContextId) (a b : Nat) : Renumbering :=
  fun context => if context = c then Equiv.swap a b else id

variable {c : ContextId} {a b : Nat}

theorem exchange_left : exchange c a b c a = b := by simp [exchange]

theorem exchange_right : exchange c a b c b = a := by simp [exchange]

theorem exchange_of_ne {slot : Nat} (ha : slot ≠ a) (hb : slot ≠ b) :
    exchange c a b c slot = slot := by
  simp [exchange, Equiv.swap_apply_of_ne_of_ne ha hb]

theorem keeps_exchange {context : ContextId} (h : context ≠ c) :
    (exchange c a b).Keeps context := by
  intro slot
  simp [exchange, h]

end Renumbering

/-! ## Templates -/

def Var.renumber (f : Renumbering) (var : Var) : Var := ⟨var.context, f var.context var.slot⟩

def Condition.renumber (f : Renumbering) : Condition → Condition
  | .truthy var => .truthy (var.renumber f)
  | .falsy var => .falsy (var.renumber f)

namespace Repetition

def renumber (f : Renumbering) (repetition : Repetition) : Repetition :=
  { repetition with source := repetition.source.renumber f }

/-- If the repetition binds its frames, then to a context that is not renumbered. -/
def BindsKept (f : Renumbering) (repetition : Repetition) : Prop :=
  ∀ parameters ∈ repetition.frame, f.Keeps parameters.context

end Repetition

namespace Template

mutual

/-- The template with other slots for its variables. -/
def renumber (f : Renumbering) : Template → Template
  | .static markup => .static markup
  | .dynamic var => .dynamic (var.renumber f)
  | .sequence items => .sequence (renumberAll f items)
  | .choice condition yes no =>
    .choice (condition.renumber f) (renumber f yes) (renumberOption f no)
  | .block repetition body => .block (repetition.renumber f) (renumber f body)
  | .element name attributes content => .element name (renumber f attributes) (renumber f content)
  | .attr name value => .attr name (renumber f value)

def renumberAll (f : Renumbering) : List Template → List Template
  | [] => []
  | item :: rest => renumber f item :: renumberAll f rest

def renumberOption (f : Renumbering) : Option Template → Option Template
  | some item => some (renumber f item)
  | none => none

end

mutual

/-- Every repetition binds its frames to a context that is not renumbered. -/
def BindsKept (f : Renumbering) : Template → Prop
  | .static _ | .dynamic _ => True
  | .sequence items => BindsKeptAll f items
  | .choice _ yes no => BindsKept f yes ∧ BindsKeptOption f no
  | .block repetition body => repetition.BindsKept f ∧ BindsKept f body
  | .element _ attributes content => BindsKept f attributes ∧ BindsKept f content
  | .attr _ value => BindsKept f value

def BindsKeptAll (f : Renumbering) : List Template → Prop
  | [] => True
  | item :: rest => BindsKept f item ∧ BindsKeptAll f rest

def BindsKeptOption (f : Renumbering) : Option Template → Prop
  | some item => BindsKept f item
  | none => True

end

variable {f : Renumbering}

theorem renumberAll_eq_map (items : List Template) :
    renumberAll f items = items.map (renumber f) := by
  induction items with
  | nil => rfl
  | cons item rest ih => rw [renumberAll, ih, List.map_cons]

theorem bindsKeptAll_iff {items : List Template} :
    BindsKeptAll f items ↔ ∀ item ∈ items, item.BindsKept f := by
  induction items with
  | nil => simp [BindsKeptAll]
  | cons item rest ih => simp [BindsKeptAll, ih]

end Template

variable {f : Renumbering}

@[simp] theorem Var.context_renumber (var : Var) : (var.renumber f).context = var.context := rfl

@[simp] theorem Condition.var_renumber (condition : Condition) :
    (condition.renumber f).var = condition.var.renumber f := by
  cases condition <;> rfl

theorem Var.renumber_of_keeps {var : Var} (h : f.Keeps var.context) : var.renumber f = var := by
  rw [renumber, h]

/-! ## What is unbound -/

namespace Template

theorem checkBound_renumber (bound : List ContextId) (var : Var) :
    checkBound bound (var.renumber f) = (checkBound bound var).map (Var.renumber f) := by
  by_cases h : var.context ∈ bound <;> simp [checkBound, Var.renumber, h]

theorem map_orElse {α β : Type} (g : α → β) (first second : Option α) :
    (first <|> second).map g = (first.map g <|> second.map g) := by
  simp only [Option.orElse_eq_orElse, Option.orElse_eq_or, Option.map_or]

mutual

/-- The same variables are unbound, under their new slots. -/
theorem unbound?_renumber (template : Template) (bound : List ContextId) :
    (template.renumber f).unbound? bound = (template.unbound? bound).map (Var.renumber f) := by
  cases template with
  | static markup => rfl
  | dynamic var => exact checkBound_renumber bound var
  | sequence items => exact unboundAmong?_renumberAll items bound
  | choice condition yes no =>
    simp only [renumber, unbound?, map_orElse, Condition.var_renumber, checkBound_renumber,
      unbound?_renumber yes bound, unboundOption?_renumberOption no bound]
  | block repetition body =>
    simp only [renumber, unbound?, map_orElse, Repetition.renumber, checkBound_renumber]
    cases repetition.frame with
    | none => simp only [unbound?_renumber body bound]
    | some parameters => simp only [unbound?_renumber body (parameters.context :: bound)]
  | element name attributes content =>
    simp only [renumber, unbound?, map_orElse, unbound?_renumber attributes bound,
      unbound?_renumber content bound]
  | attr name value => exact unbound?_renumber value bound

theorem unboundAmong?_renumberAll (items : List Template) (bound : List ContextId) :
    unboundAmong? (renumberAll f items) bound =
      (unboundAmong? items bound).map (Var.renumber f) := by
  cases items with
  | nil => rfl
  | cons item rest =>
    simp only [renumberAll, unboundAmong?, map_orElse, unbound?_renumber item bound,
      unboundAmong?_renumberAll rest bound]

theorem unboundOption?_renumberOption (item : Option Template) (bound : List ContextId) :
    unboundOption? (renumberOption f item) bound =
      (unboundOption? item bound).map (Var.renumber f) := by
  cases item with
  | none => rfl
  | some item => exact unbound?_renumber item bound

end

end Template

/-! ## What is rendered -/

/-- The error with other slots for its variable. -/
def RenderError.renumber (f : Renumbering) : RenderError → RenderError
  | .tooManyArguments expected found => .tooManyArguments expected found
  | .notIterable var kind => .notIterable (var.renumber f) kind
  | .notRenderable var kind => .notRenderable (var.renumber f) kind

namespace Rendered

/-- The same markup, or the same error with other slots. -/
def renumber (f : Renumbering) (rendered : Rendered) : Rendered :=
  rendered.mapError (RenderError.renumber f)

@[simp] theorem renumber_ok (markup : String) : renumber f (.ok markup) = .ok markup := rfl

@[simp] theorem renumber_error (e : RenderError) :
    renumber f (.error e) = .error (e.renumber f) := rfl

@[simp] theorem renumber_append (first second : Rendered) :
    (first.append second).renumber f = (first.renumber f).append (second.renumber f) := by
  cases first with
  | error e => rfl
  | ok a => cases second <;> rfl

theorem renumber_concat {α : Type} {pieces : List α} {first second : α → Rendered}
    (h : ∀ piece ∈ pieces, second piece = (first piece).renumber f) :
    concat (pieces.map second) = (concat (pieces.map first)).renumber f := by
  induction pieces with
  | nil => rfl
  | cons piece rest ih =>
    rw [List.forall_mem_cons] at h
    simp only [List.map_cons, concat, renumber_append, h.1, ih h.2]

end Rendered

namespace Bindings

/-- The second bindings have the value of each variable under its new slot. -/
def Renumbered (f : Renumbering) (first second : Bindings) : Prop :=
  ∀ var, second.value (var.renumber f) = first.value var

namespace Renumbered

variable {first second : Bindings}

/-- A frame may be bound to a context whose slots are kept. -/
theorem cons (h : Renumbered f first second) {context : ContextId} (hkeeps : f.Keeps context)
    (frame : Frame) : Renumbered f ((context, frame) :: first) ((context, frame) :: second) := by
  intro var
  rw [value_cons, value_cons, Var.context_renumber]
  split
  next hcontext =>
    subst hcontext
    rw [Var.renumber_of_keeps hkeeps]
  next => exact h var

theorem holds (h : Renumbered f first second) (condition : Condition) :
    second.holds (condition.renumber f) = first.holds condition := by
  cases condition with
  | truthy var => simp only [Condition.renumber, Bindings.holds, h var]
  | falsy var => simp only [Condition.renumber, Bindings.holds, h var]

theorem frames (h : Renumbered f first second) (repetition : Repetition) :
    (repetition.renumber f).frames second =
      (repetition.frames first).mapError (RenderError.renumber f) := by
  simp only [Repetition.frames, Repetition.renumber, h repetition.source]
  cases first.value repetition.source <;> rfl

end Renumbered

end Bindings

namespace Template

mutual

/-- A renumbered template renders alike where the values have been moved along. -/
theorem render_renumber (template : Template) (hkept : template.BindsKept f)
    {first second : Bindings} (h : first.Renumbered f second) :
    (template.renumber f).render second = (template.render first).renumber f := by
  cases template with
  | static markup => rfl
  | dynamic var =>
    simp only [renumber, render, h var]
    cases (first.value var).markup? <;> rfl
  | sequence items => exact renderAll_renumberAll items hkept h
  | choice condition yes no =>
    obtain ⟨hyes, hno⟩ := hkept
    simp only [renumber, render, h.holds]
    split
    · exact render_renumber yes hyes h
    · exact renderOption_renumberOption no hno h
  | block repetition body =>
    obtain ⟨hrepetition, hbody⟩ := hkept
    simp only [renumber, render, h.frames]
    cases repetition.frames first with
    | error e => rfl
    | ok frames =>
      refine Rendered.renumber_concat fun frame _ => ?_
      simp only [Repetition.bind, Repetition.renumber]
      cases hframe : repetition.frame with
      | none => exact render_renumber body hbody h
      | some parameters =>
        by_cases hlength : frame.length > parameters.arity
        · simp only [hlength, if_true]
          rfl
        · simp only [hlength, if_false]
          exact render_renumber body hbody (h.cons (hrepetition parameters hframe) frame)
  | element name attributes content =>
    obtain ⟨hattributes, hcontent⟩ := hkept
    simp only [renumber, render, Rendered.renumber_append, Rendered.renumber_ok,
      render_renumber attributes hattributes h]
    split
    · rfl
    · simp only [Rendered.renumber_append, Rendered.renumber_ok,
        render_renumber content hcontent h]
  | attr name value =>
    simp only [renumber, render, Rendered.renumber_append, Rendered.renumber_ok,
      render_renumber value hkept h]

theorem renderAll_renumberAll (items : List Template) (hkept : BindsKeptAll f items)
    {first second : Bindings} (h : first.Renumbered f second) :
    renderAll (renumberAll f items) second = (renderAll items first).renumber f := by
  cases items with
  | nil => rfl
  | cons item rest =>
    simp only [renumberAll, renderAll, Rendered.renumber_append, render_renumber item hkept.1 h,
      renderAll_renumberAll rest hkept.2 h]

theorem renderOption_renumberOption (item : Option Template) (hkept : BindsKeptOption f item)
    {first second : Bindings} (h : first.Renumbered f second) :
    renderOption (renumberOption f item) second = (renderOption item first).renumber f := by
  cases item with
  | none => rfl
  | some item => exact render_renumber item hkept h

end

end Template

theorem Program.render_renumber {template : Template} (hkept : template.BindsKept f)
    (parameters : Parameters) {first second : Frame} (hlength : second.length = first.length)
    (h : Bindings.Renumbered f [(parameters.context, first)] [(parameters.context, second)]) :
    (Program.mk (template.renumber f) parameters).render second =
      ((Program.mk template parameters).render first).renumber f := by
  unfold Program.render
  rw [hlength]
  split
  · rfl
  · exact Template.render_renumber template hkept h

/-! ## Edits -/

namespace Edit

/-- The edit with another slot for its variable. -/
def renumber (f : Renumbering) (edit : Edit) : Edit := { edit with var := edit.var.renumber f }

/-- If the edit repeats over a region, then over one that is not renumbered. -/
def BindsKept (f : Renumbering) (edit : Edit) : Prop :=
  ∀ parameters, edit.change = .repetition (some parameters) → f.Keeps parameters.context

theorem wrapContent_renumber (content : Template) (edit : Edit) :
    wrapContent (content.renumber f) (edit.renumber f) =
      (wrapContent content edit).renumber f := by
  obtain ⟨change, var⟩ := edit
  cases change <;> rfl

theorem wrapElement_renumber (element : Template) (edit : Edit) :
    wrapElement (element.renumber f) (edit.renumber f) =
      (wrapElement element edit).renumber f := by
  obtain ⟨change, var⟩ := edit
  cases change <;> rfl

/-- What each edit does to something that is renumbered all edits do. -/
theorem foldl_renumber {α : Type} {change : α → Edit → α} {moved : α → α}
    (h : ∀ a edit, change (moved a) (edit.renumber f) = moved (change a edit))
    (edits : List Edit) (a : α) :
    (edits.map (renumber f)).foldl change (moved a) = moved (edits.foldl change a) := by
  induction edits generalizing a with
  | nil => rfl
  | cons edit rest ih => rw [List.map_cons, List.foldl_cons, h, ih, List.foldl_cons]

theorem weave_renumber (edits : List Edit) (tag : String) (attributes inside : Template) :
    weave (edits.map (renumber f)) tag (attributes.renumber f) (inside.renumber f) =
      (weave edits tag attributes inside).renumber f := by
  have hinside := foldl_renumber (f := f) wrapContent_renumber edits inside
  have helement := foldl_renumber (f := f) wrapElement_renumber edits
    (.element tag attributes (edits.foldl wrapContent inside))
  rw [weave, hinside, weave, ← helement, Template.renumber]

theorem bindsKept_weave {edits : List Edit} (h : ∀ edit ∈ edits, edit.BindsKept f) {tag : String}
    {attributes inside : Template} (hattributes : attributes.BindsKept f)
    (hinside : inside.BindsKept f) : (weave edits tag attributes inside).BindsKept f := by
  refine weave_induction hinside ?_ ?_ ?_
  · intro edit _ content hcontent
    unfold wrapContent
    split
    · exact ⟨trivial, hcontent⟩
    · exact ⟨hcontent, trivial, trivial⟩
    · exact hcontent
  · exact fun content hcontent => ⟨hattributes, hcontent⟩
  · intro edit hedit element helement
    unfold wrapElement
    split
    · exact ⟨helement, trivial⟩
    next frame hchange =>
      refine ⟨?_, helement⟩
      rintro parameters rfl
      exact h edit hedit parameters hchange
    · exact helement

/-- The overrides with other slots for their variables. -/
def renumberOverrides (f : Renumbering) (overrides : List (String × Var)) : List (String × Var) :=
  overrides.map fun pair => (pair.1, pair.2.renumber f)

theorem override_renumber (overrides : List (String × Var)) (edit : Edit) :
    (edit.renumber f).override (renumberOverrides f overrides) =
      renumberOverrides f (edit.override overrides) := by
  simp only [override, renumber, renumberOverrides]
  split
  next name _ => simp [List.filter_map, Function.comp_def]
  next => rfl

theorem overrides_renumber (id : NodeId) (edits : List Edit) :
    (Plan.ofEdits id (edits.map (renumber f))).overrides =
      renumberOverrides f (Plan.ofEdits id edits).overrides := by
  rw [Plan.overrides_ofEdits, Plan.overrides_ofEdits]
  exact foldl_renumber (fun overrides edit => override_renumber overrides edit) edits []

end Edit

/-! ## Attributes -/

namespace AttributePass

variable {tree : Tree}

theorem renumber_sourceAttributes (element : Element) :
    (sourceAttributes tree element).renumber f = sourceAttributes tree element := by
  simp [sourceAttributes, fixed, Template.renumber, Template.renumberAll_eq_map]

theorem renumber_given (name : String) (var : Var) (otherwise : Option Template) :
    (given name var otherwise).renumber f =
      given name (var.renumber f) (Template.renumberOption f otherwise) := rfl

theorem renumber_overridden {plan plan' : Plan}
    (h : plan'.overrides = Edit.renumberOverrides f plan.overrides) (name value : String) :
    overridden plan' name value = (overridden plan name value).renumber f := by
  have hoverride : plan'.override? name = (plan.override? name).map (Var.renumber f) := by
    simp [Plan.override?, h, Edit.renumberOverrides, List.find?_map, Function.comp_def]
  unfold overridden
  rw [hoverride]
  cases plan.override? name <;> rfl

theorem renumber_added {plan plan' : Plan}
    (h : plan'.overrides = Edit.renumberOverrides f plan.overrides) (names : List String) :
    added plan' names = (added plan names).map (Template.renumber f) := by
  simp only [added, h, Edit.renumberOverrides, List.filter_map, List.map_map, Function.comp_def,
    renumber_given, Template.renumberOption]

namespace IsStandard

variable {pass : AttributePass}

/-- A standard pass does not look at the slots of overrides. -/
theorem renumber (hpass : pass.IsStandard) (id : NodeId) (edits : List Edit) (tree : Tree) :
    pass (.ofEdits id (edits.map (Edit.renumber f))) tree =
      (pass (.ofEdits id edits) tree).renumber f := by
  have hoverrides := Edit.overrides_renumber (f := f) id edits
  cases hpass with
  | withOverrides =>
    simp only [AttributePass.withOverrides, Plan.node_ofEdits]
    cases tree.element? id with
    | none => rfl
    | some element =>
      simp only [Template.renumber, Template.renumberAll_eq_map, List.map_append, List.map_map,
        renumber_added hoverrides, renumber_overridden hoverrides, Function.comp_def]
  | withoutOverrides =>
    simp only [AttributePass.withoutOverrides, Plan.node_ofEdits]
    cases tree.element? id with
    | none => rfl
    | some element => exact (renumber_sourceAttributes element).symm

end IsStandard

end AttributePass

end HtmlTemplate
