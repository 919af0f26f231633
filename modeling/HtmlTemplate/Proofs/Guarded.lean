-- SUMMARY: Rendering that fails on a variable without a frame, and that compiled templates never do.
import HtmlTemplate.Proofs.Bound
import HtmlTemplate.Proofs.Declarations.Edits
import HtmlTemplate.Proofs.Neutral
import HtmlTemplate.Proofs.Operations
import HtmlTemplate.Proofs.Passes

/-!
# Guarded rendering

Rendering takes a variable for absent when there is no frame of its context. This
would hide an error of the compiler. A guarded rendering fails instead, and with
`strict` also on a slot that the parameters of the frame do not have. On a template
that was compiled, or on its normal form, both renderings agree on all arguments.
-/

namespace HtmlTemplate

/-! ## The guarded evaluator -/

/-- Why a guarded rendering stops. -/
inductive Fault where
  /-- There is no frame of the context. -/
  | unbound (var : Var)
  /-- The frame is bound to fewer parameters. -/
  | beyond (var : Var) (arity : Nat)
  /-- An error of unguarded rendering. -/
  | failed (error : RenderError)
deriving DecidableEq

/-- The frames that are bound with their parameters, the innermost first. -/
abbrev Stack := List (Parameters × Frame)

namespace Stack

/-- The frames without what the guard needs. -/
def bindings (stack : Stack) : Bindings := stack.map fun entry => (entry.1.context, entry.2)

/-- Read a variable in the innermost frame of its context. -/
def read (strict : Bool) (stack : Stack) (var : Var) : Except Fault Value :=
  match stack.find? (·.1.context == var.context) with
  | none => .error (.unbound var)
  | some (parameters, frame) =>
    if strict && parameters.arity ≤ var.slot then .error (.beyond var parameters.arity)
    else .ok (frame.get var.slot)

/-- Read the frames to repeat over. -/
def frames (strict : Bool) (stack : Stack) (source : Var) : Except Fault (List Frame) :=
  match stack.read strict source with
  | .error fault => .error fault
  | .ok .absent => .ok [[]]
  | .ok (.list frames) => .ok frames
  | .ok value => .error (.failed (.notIterable source value.kind))

end Stack

/-- Markup, or why there is none. -/
abbrev Guarded := Except Fault String

namespace Guarded

/-- One after the other; the first fault counts. -/
def append (first second : Guarded) : Guarded :=
  match first with
  | .error fault => .error fault
  | .ok markup => second.map (markup ++ ·)

def concat : List Guarded → Guarded
  | [] => .ok ""
  | first :: rest => append first (concat rest)

end Guarded

namespace Template

mutual

/-- Render a template, where every variable that is read has to be bound. -/
def renderGuarded (strict : Bool) : Template → Stack → Guarded
  | .static markup, _ => .ok markup
  | .dynamic var, stack =>
    match stack.read strict var with
    | .error fault => .error fault
    | .ok value =>
      match value.markup? with
      | some markup => .ok markup
      | none => .error (.failed (.notRenderable var value.kind))
  | .sequence items, stack => renderAllGuarded strict items stack
  | .choice condition yes no, stack =>
    match stack.read strict condition.var with
    | .error fault => .error fault
    | .ok value =>
      if (match condition with
        | .truthy _ => value.isTruthy
        | .falsy _ => !value.isTruthy) then renderGuarded strict yes stack
      else renderOptionGuarded strict no stack
  | .block repetition body, stack =>
    match stack.frames strict repetition.source with
    | .error fault => .error fault
    | .ok frames =>
      Guarded.concat (frames.map fun frame =>
        match repetition.frame with
        | none => renderGuarded strict body stack
        | some parameters =>
          if frame.length > parameters.arity then
            .error (.failed (.tooManyArguments parameters.arity frame.length))
          else renderGuarded strict body ((parameters, frame) :: stack))
  | .element name attributes content, stack =>
    ((Guarded.append (.ok ("<" ++ name)) (renderGuarded strict attributes stack)).append
      (.ok ">")).append
      (if Markup.isVoid name then .ok ""
       else Guarded.append (renderGuarded strict content stack) (.ok ("</" ++ name ++ ">")))
  | .attr name value, stack =>
    (Guarded.append (.ok (" " ++ name ++ "=\"")) (renderGuarded strict value stack)).append
      (.ok "\"")

def renderAllGuarded (strict : Bool) : List Template → Stack → Guarded
  | [], _ => .ok ""
  | item :: rest, stack =>
    (renderGuarded strict item stack).append (renderAllGuarded strict rest stack)

def renderOptionGuarded (strict : Bool) : Option Template → Stack → Guarded
  | some item, stack => renderGuarded strict item stack
  | none, _ => .ok ""

end

end Template

/-- A variable without a frame is absent otherwise. -/
example : (Template.dynamic ⟨⟨1⟩, 0⟩).renderGuarded false [(⟨⟨0⟩, 0, true⟩, [])] =
    .error (.unbound ⟨⟨1⟩, 0⟩) := rfl

/-- Render a program under guard. -/
def Program.renderGuarded (strict : Bool) (program : Program) (arguments : Frame) : Guarded :=
  if arguments.length > program.parameters.arity then
    .error (.failed (.tooManyArguments program.parameters.arity arguments.length))
  else program.template.renderGuarded strict [(program.parameters, arguments)]

/-! ## Templates that are guarded -/

/-- The variable is answered by the innermost of the parameters of its context. -/
def Parameters.Answer (strict : Bool) (bound : List Parameters) (var : Var) : Prop :=
  ∃ parameters, bound.find? (·.context == var.context) = some parameters ∧
    (strict = true → var.slot < parameters.arity)

namespace Template

mutual

/-- Every variable of the template is answered where it is read. -/
def Reads (strict : Bool) : Template → List Parameters → Prop
  | .static _, _ => True
  | .dynamic var, bound => Parameters.Answer strict bound var
  | .sequence items, bound => ReadsAll strict items bound
  | .choice condition yes no, bound =>
    Parameters.Answer strict bound condition.var ∧ Reads strict yes bound ∧
      ReadsOption strict no bound
  | .block repetition body, bound =>
    Parameters.Answer strict bound repetition.source ∧
      match repetition.frame with
      | some parameters => Reads strict body (parameters :: bound)
      | none => Reads strict body bound
  | .element _ attributes content, bound =>
    Reads strict attributes bound ∧ Reads strict content bound
  | .attr _ value, bound => Reads strict value bound

def ReadsAll (strict : Bool) : List Template → List Parameters → Prop
  | [], _ => True
  | item :: rest, bound => Reads strict item bound ∧ ReadsAll strict rest bound

def ReadsOption (strict : Bool) : Option Template → List Parameters → Prop
  | some item, bound => Reads strict item bound
  | none, _ => True

end

end Template

/-! ## Guarded rendering of such templates -/

variable {strict : Bool}

namespace Guarded

theorem mapError_append (first second : Rendered) :
    (first.append second).mapError Fault.failed =
      append (first.mapError Fault.failed) (second.mapError Fault.failed) := by
  cases first with
  | error e => rfl
  | ok a => cases second <;> rfl

theorem mapError_concat {α : Type} {pieces : List α} {f : α → Rendered} {g : α → Guarded}
    (h : ∀ piece ∈ pieces, g piece = (f piece).mapError Fault.failed) :
    concat (pieces.map g) = (Rendered.concat (pieces.map f)).mapError Fault.failed := by
  induction pieces with
  | nil => rfl
  | cons piece rest ih =>
    rw [List.forall_mem_cons] at h
    simp only [List.map_cons, concat, Rendered.concat, mapError_append, h.1, ih h.2]

end Guarded

namespace Stack

theorem read_eq {stack : Stack} {var : Var}
    (h : Parameters.Answer strict (stack.map (·.1)) var) :
    stack.read strict var = .ok (stack.bindings.value var) := by
  obtain ⟨parameters, hfind, hslot⟩ := h
  rw [List.find?_map, Option.map_eq_some_iff] at hfind
  obtain ⟨⟨parameters, frame⟩, hentry, rfl⟩ := hfind
  have hentry : stack.find? (·.1.context == var.context) = some (parameters, frame) := hentry
  have hframe : stack.bindings.frame? var.context = some frame := by
    simp only [Bindings.frame?, bindings, List.find?_map, Function.comp_def, hentry,
      Option.map_some]
  have hguard : (strict && decide (parameters.arity ≤ var.slot)) = false := by
    cases strict with
    | false => rfl
    | true => simpa using hslot rfl
  simp only [read, hentry, hguard, Bool.false_eq_true, if_false, Bindings.value_of_frame? hframe]

theorem frames_eq {stack : Stack} {repetition : Repetition}
    (h : Parameters.Answer strict (stack.map (·.1)) repetition.source) :
    stack.frames strict repetition.source =
      (repetition.frames stack.bindings).mapError Fault.failed := by
  simp only [frames, read_eq h, Repetition.frames]
  cases stack.bindings.value repetition.source <;> rfl

end Stack

namespace Template

mutual

/-- Where every variable is answered, the guard changes nothing. -/
theorem renderGuarded_eq (template : Template) (stack : Stack)
    (h : template.Reads strict (stack.map (·.1))) :
    template.renderGuarded strict stack =
      (template.render stack.bindings).mapError Fault.failed := by
  cases template with
  | static markup => rfl
  | dynamic var =>
    simp only [renderGuarded, render, Stack.read_eq h]
    cases (stack.bindings.value var).markup? <;> rfl
  | sequence items => exact renderAllGuarded_eq items stack h
  | choice condition yes no =>
    obtain ⟨hcondition, hyes, hno⟩ := h
    have hyes := renderGuarded_eq yes stack hyes
    have hno := renderOptionGuarded_eq no stack hno
    simp only [renderGuarded, render, Stack.read_eq hcondition, hyes, hno]
    cases condition <;> exact (apply_ite (Except.mapError Fault.failed) _ _ _).symm
  | block repetition body =>
    obtain ⟨hsource, hbody⟩ := h
    simp only [renderGuarded, render, Stack.frames_eq hsource]
    cases repetition.frames stack.bindings with
    | error e => rfl
    | ok frames =>
      refine Guarded.mapError_concat fun frame _ => ?_
      unfold Repetition.bind
      cases hframe : repetition.frame with
      | none =>
        rw [hframe] at hbody
        exact renderGuarded_eq body stack hbody
      | some parameters =>
        rw [hframe] at hbody
        dsimp only
        split
        · rfl
        · exact renderGuarded_eq body ((parameters, frame) :: stack) hbody
  | element name attributes content =>
    obtain ⟨hattributes, hcontent⟩ := h
    simp only [renderGuarded, render, Guarded.mapError_append,
      renderGuarded_eq attributes stack hattributes]
    split
    · rfl
    · simp only [Guarded.mapError_append, renderGuarded_eq content stack hcontent]
      rfl
  | attr name value =>
    simp only [renderGuarded, render, Guarded.mapError_append, renderGuarded_eq value stack h]
    rfl

theorem renderAllGuarded_eq (items : List Template) (stack : Stack)
    (h : ReadsAll strict items (stack.map (·.1))) :
    renderAllGuarded strict items stack =
      (renderAll items stack.bindings).mapError Fault.failed := by
  cases items with
  | nil => rfl
  | cons item rest =>
    simp only [renderAllGuarded, renderAll, Guarded.mapError_append,
      renderGuarded_eq item stack h.1, renderAllGuarded_eq rest stack h.2]

theorem renderOptionGuarded_eq (item : Option Template) (stack : Stack)
    (h : ReadsOption strict item (stack.map (·.1))) :
    renderOptionGuarded strict item stack =
      (renderOption item stack.bindings).mapError Fault.failed := by
  cases item with
  | none => rfl
  | some item => exact renderGuarded_eq item stack h

end

end Template

/-! ## The passes to the normal form -/

namespace Template

variable {bound : List Parameters}

theorem readsAll_iff {items : List Template} :
    ReadsAll strict items bound ↔ ∀ item ∈ items, item.Reads strict bound := by
  induction items with
  | nil => simp [ReadsAll]
  | cons item rest ih => simp [ReadsAll, ih]

theorem readsAll_append {first second : List Template} :
    ReadsAll strict (first ++ second) bound ↔
      ReadsAll strict first bound ∧ ReadsAll strict second bound := by
  simp only [readsAll_iff, List.forall_mem_append]

theorem reads_block {repetition : Repetition} {body body' : Template}
    (hbody : ∀ bound, body.Reads strict bound → body'.Reads strict bound)
    (h : (block repetition body).Reads strict bound) :
    (block repetition body').Reads strict bound := by
  obtain ⟨hsource, hreads⟩ := h
  refine ⟨hsource, ?_⟩
  split at hreads <;> exact hbody _ hreads

mutual

theorem reads_lower (template : Template) (bound : List Parameters)
    (h : template.Reads strict bound) : template.lower.Reads strict bound := by
  cases template with
  | static markup => exact h
  | dynamic var => exact h
  | sequence items => exact readsAll_lowerAll items bound h
  | choice condition yes no =>
    exact ⟨h.1, reads_lower yes bound h.2.1, readsOption_lowerOption no bound h.2.2⟩
  | block repetition body => exact reads_block (reads_lower body) h
  | element name attributes content =>
    have hattributes := reads_lower attributes bound h.1
    have hcontent := reads_lower content bound h.2
    refine readsAll_append.mpr ⟨⟨trivial, hattributes, trivial, trivial⟩, ?_⟩
    split
    · trivial
    · exact ⟨hcontent, trivial, trivial⟩
  | attr name value => exact ⟨trivial, reads_lower value bound h, trivial, trivial⟩

theorem readsAll_lowerAll (items : List Template) (bound : List Parameters)
    (h : ReadsAll strict items bound) : ReadsAll strict (lowerAll items) bound := by
  cases items with
  | nil => trivial
  | cons item rest => exact ⟨reads_lower item bound h.1, readsAll_lowerAll rest bound h.2⟩

theorem readsOption_lowerOption (item : Option Template) (bound : List Parameters)
    (h : ReadsOption strict item bound) : ReadsOption strict (lowerOption item) bound := by
  cases item with
  | none => trivial
  | some item => exact reads_lower item bound h

end

theorem reads_ofItems {items : List Template} (h : ReadsAll strict items bound) :
    (ofItems items).Reads strict bound := by
  unfold ofItems
  split
  · exact h.1
  · exact h

theorem readsAll_items {template : Template} (h : template.Reads strict bound) :
    ReadsAll strict template.items bound := by
  cases template with
  | sequence items => exact h
  | _ => exact ⟨h, trivial⟩

mutual

theorem reads_flatten (template : Template) (bound : List Parameters)
    (h : template.Reads strict bound) : template.flatten.Reads strict bound := by
  cases template with
  | static markup => exact h
  | dynamic var => exact h
  | sequence parts => exact reads_ofItems (readsAll_flattenAll parts bound h)
  | choice condition yes no =>
    exact ⟨h.1, reads_flatten yes bound h.2.1, readsOption_flattenOption no bound h.2.2⟩
  | block repetition body => exact reads_block (reads_flatten body) h
  | element name attributes content =>
    exact ⟨reads_flatten attributes bound h.1, reads_flatten content bound h.2⟩
  | attr name value => exact reads_flatten value bound h

theorem readsAll_flattenAll (parts : List Template) (bound : List Parameters)
    (h : ReadsAll strict parts bound) : ReadsAll strict (flattenAll parts) bound := by
  cases parts with
  | nil => trivial
  | cons part rest =>
    exact readsAll_append.mpr
      ⟨readsAll_items (reads_flatten part bound h.1), readsAll_flattenAll rest bound h.2⟩

theorem readsOption_flattenOption (item : Option Template) (bound : List Parameters)
    (h : ReadsOption strict item bound) : ReadsOption strict (flattenOption item) bound := by
  cases item with
  | none => trivial
  | some item => exact reads_flatten item bound h

end

theorem readsAll_consMerged {item : Template} {rest : List Template}
    (hitem : item.Reads strict bound) (hrest : ReadsAll strict rest bound) :
    ReadsAll strict (consMerged item rest) bound := by
  unfold consMerged
  split
  · split
    · exact hrest
    · split
      · exact ⟨trivial, hrest.2⟩
      · exact ⟨trivial, hrest⟩
  · exact ⟨hitem, hrest⟩

mutual

theorem reads_merge (template : Template) (bound : List Parameters)
    (h : template.Reads strict bound) : template.merge.Reads strict bound := by
  cases template with
  | static markup => exact h
  | dynamic var => exact h
  | sequence parts => exact reads_ofItems (readsAll_mergeAll parts bound h)
  | choice condition yes no =>
    exact ⟨h.1, reads_merge yes bound h.2.1, readsOption_mergeOption no bound h.2.2⟩
  | block repetition body => exact reads_block (reads_merge body) h
  | element name attributes content =>
    exact ⟨reads_merge attributes bound h.1, reads_merge content bound h.2⟩
  | attr name value => exact reads_merge value bound h

theorem readsAll_mergeAll (parts : List Template) (bound : List Parameters)
    (h : ReadsAll strict parts bound) : ReadsAll strict (mergeAll parts) bound := by
  cases parts with
  | nil => trivial
  | cons part rest =>
    exact readsAll_consMerged (reads_merge part bound h.1) (readsAll_mergeAll rest bound h.2)

theorem readsOption_mergeOption (item : Option Template) (bound : List Parameters)
    (h : ReadsOption strict item bound) : ReadsOption strict (mergeOption item) bound := by
  cases item with
  | none => trivial
  | some item => exact reads_merge item bound h

end

theorem reads_optimize {template : Template} (h : template.Reads strict bound) :
    template.optimize.Reads strict bound :=
  reads_merge _ bound (reads_flatten _ bound (reads_lower template bound h))

end Template

/-! ## Slots -/

namespace Template

mutual

/-- Every variable is one of the slots that are counted, and every repetition binds all
    slots of its context. -/
def Counted (count : ContextId → Nat) : Template → Prop
  | .static _ => True
  | .dynamic var => var.slot < count var.context
  | .sequence items => CountedAll count items
  | .choice condition yes no =>
    condition.var.slot < count condition.var.context ∧ Counted count yes ∧ CountedOption count no
  | .block repetition body =>
    repetition.source.slot < count repetition.source.context ∧
      (∀ parameters ∈ repetition.frame, parameters.arity = count parameters.context) ∧
      Counted count body
  | .element _ attributes content => Counted count attributes ∧ Counted count content
  | .attr _ value => Counted count value

def CountedAll (count : ContextId → Nat) : List Template → Prop
  | [] => True
  | item :: rest => Counted count item ∧ CountedAll count rest

def CountedOption (count : ContextId → Nat) : Option Template → Prop
  | some item => Counted count item
  | none => True

end

variable {count : ContextId → Nat}

theorem countedAll_iff {items : List Template} :
    CountedAll count items ↔ ∀ item ∈ items, item.Counted count := by
  induction items with
  | nil => simp [CountedAll]
  | cons item rest ih => simp [CountedAll, ih]

/-- A bound context answers the variables that are counted. -/
theorem answer_of_bound {bound : List Parameters} {var : Var}
    (hbound : var.context ∈ bound.map (·.context))
    (hslot : strict = true → var.slot < count var.context)
    (hcount : strict = true → ∀ parameters ∈ bound, parameters.arity = count parameters.context) :
    Parameters.Answer strict bound var := by
  obtain ⟨outer, houter, heq⟩ := List.mem_map.mp hbound
  cases hfind : bound.find? (·.context == var.context) with
  | none =>
    have hnone := List.find?_eq_none.mp hfind outer houter
    simp [heq] at hnone
  | some parameters =>
    have hcontext : parameters.context = var.context := by simpa using List.find?_some hfind
    refine ⟨parameters, hfind, fun hstrict => ?_⟩
    rw [hcount hstrict parameters (List.mem_of_find?_eq_some hfind), hcontext]
    exact hslot hstrict

mutual

/-- Where no variable is unbound, every variable is answered; if slots are counted, by
    parameters that have its slot. -/
theorem reads_of_unbound? (count : ContextId → Nat) (template : Template) (bound : List Parameters)
    (hbound : template.unbound? (bound.map (·.context)) = none)
    (hcounted : strict = true → template.Counted count)
    (hcount : strict = true → ∀ parameters ∈ bound, parameters.arity = count parameters.context) :
    template.Reads strict bound := by
  cases template with
  | static markup => trivial
  | dynamic var => exact answer_of_bound (unbound?_dynamic_eq_none.mp hbound) hcounted hcount
  | sequence items => exact readsAll_of_unboundAmong? count items bound hbound hcounted hcount
  | choice condition yes no =>
    rw [unbound?_choice_eq_none] at hbound
    refine ⟨answer_of_bound hbound.1 (fun h => (hcounted h).1) hcount, ?_, ?_⟩
    · exact reads_of_unbound? count yes bound hbound.2.1 (fun h => (hcounted h).2.1) hcount
    · exact readsOption_of_unboundOption? count no bound hbound.2.2 (fun h => (hcounted h).2.2)
        hcount
  | block repetition body =>
    rw [unbound?_block_eq_none] at hbound
    refine ⟨answer_of_bound hbound.1 (fun h => (hcounted h).1) hcount, ?_⟩
    have hinside := hbound.2
    unfold Repetition.boundInside at hinside
    split
    next parameters hframe =>
      rw [hframe] at hinside
      refine reads_of_unbound? count body (parameters :: bound) hinside
        (fun h => (hcounted h).2.2) ?_
      intro h
      exact List.forall_mem_cons.mpr ⟨(hcounted h).2.1 parameters hframe, hcount h⟩
    next hframe =>
      rw [hframe] at hinside
      exact reads_of_unbound? count body bound hinside (fun h => (hcounted h).2.2) hcount
  | element name attributes content =>
    rw [unbound?_element_eq_none] at hbound
    constructor
    · exact reads_of_unbound? count attributes bound hbound.1 (fun h => (hcounted h).1) hcount
    · exact reads_of_unbound? count content bound hbound.2 (fun h => (hcounted h).2) hcount
  | attr name value => exact reads_of_unbound? count value bound hbound hcounted hcount

theorem readsAll_of_unboundAmong? (count : ContextId → Nat) (items : List Template)
    (bound : List Parameters)
    (hbound : unboundAmong? items (bound.map (·.context)) = none)
    (hcounted : strict = true → CountedAll count items)
    (hcount : strict = true → ∀ parameters ∈ bound, parameters.arity = count parameters.context) :
    ReadsAll strict items bound := by
  cases items with
  | nil => trivial
  | cons item rest =>
    rw [unboundAmong?_eq_none, List.forall_mem_cons, ← unboundAmong?_eq_none] at hbound
    constructor
    · exact reads_of_unbound? count item bound hbound.1 (fun h => (hcounted h).1) hcount
    · exact readsAll_of_unboundAmong? count rest bound hbound.2 (fun h => (hcounted h).2) hcount

theorem readsOption_of_unboundOption? (count : ContextId → Nat) (item : Option Template)
    (bound : List Parameters)
    (hbound : ∀ template ∈ item, template.unbound? (bound.map (·.context)) = none)
    (hcounted : strict = true → CountedOption count item)
    (hcount : strict = true → ∀ parameters ∈ bound, parameters.arity = count parameters.context) :
    ReadsOption strict item bound := by
  cases item with
  | none => trivial
  | some item => exact reads_of_unbound? count item bound (hbound item rfl) hcounted hcount

end

end Template

/-! ## Templates of declarations -/

variable {count : ContextId → Nat}

namespace Edit

/-- The variable of the edit is one of the slots that are counted, and a region is
    repeated with all slots of its context. -/
def Counted (edit : Edit) (count : ContextId → Nat) : Prop :=
  edit.var.slot < count edit.var.context ∧
    ∀ parameters, edit.change = .repetition (some parameters) →
      parameters.arity = count parameters.context

theorem counted_wrapContent {edit : Edit} (h : edit.Counted count) {content : Template}
    (hcontent : content.Counted count) : (wrapContent content edit).Counted count := by
  unfold wrapContent
  split
  · exact ⟨h.1, h.1, hcontent⟩
  · exact ⟨hcontent, h.1, trivial⟩
  · exact hcontent

theorem counted_wrapElement {edit : Edit} (h : edit.Counted count) {element : Template}
    (helement : element.Counted count) : (wrapElement element edit).Counted count := by
  unfold wrapElement
  split
  · exact ⟨h.1, helement, trivial⟩
  next frame hchange =>
    refine ⟨h.1, ?_, helement⟩
    rintro parameters rfl
    exact h.2 parameters hchange
  · exact helement

theorem counted_weave {edits : List Edit} (h : ∀ edit ∈ edits, edit.Counted count) {tag : String}
    {attributes inside : Template} (hattributes : attributes.Counted count)
    (hinside : inside.Counted count) : (weave edits tag attributes inside).Counted count := by
  refine weave_induction hinside ?_ ?_ ?_
  · exact fun edit hedit content => counted_wrapContent (h edit hedit)
  · exact fun content hcontent => ⟨hattributes, hcontent⟩
  · exact fun edit hedit element => counted_wrapElement (h edit hedit)

end Edit

namespace Declarations

variable {d : Declarations}

/-- Slots are below the counts of their contexts. -/
theorem WellFormed.counted (hd : d.WellFormed) {id : NodeId} {edit : Edit}
    (hedit : edit ∈ d.edits id) : edit.Counted d.nextSlot := by
  obtain ⟨i, scope, logged, hs, -, hlogged, hvar, hchange⟩ := hd.mem_edits.mp hedit
  constructor
  · rw [hvar]
    exact hd.slot_lt hs hlogged
  · intro parameters hrepetition
    rw [hrepetition] at hchange
    obtain ⟨inner, -, rfl⟩ := Option.map_eq_some_iff.mp
      (Mutation.change?_eq_repetition.mp hchange).2.symm
    rfl

theorem counted_attributes (hd : d.WellFormed) (id : NodeId) (element : Element) :
    (d.attributes .withOverrides id element).Counted d.nextSlot := by
  refine attributes_induction .withOverrides (fun _ => Template.countedAll_iff.mpr)
    (fun _ _ => trivial) fun edit hedit _ _ name otherwise hotherwise => ?_
  have hslot := (hd.counted hedit).1
  refine ⟨hslot, hslot, ?_⟩
  cases otherwise with
  | none => trivial
  | some item => exact hotherwise item rfl

mutual

theorem counted_weave (hd : d.WellFormed) (raw : Bool) (branch : Branch) :
    (d.weave .withOverrides raw branch).Counted d.nextSlot := by
  obtain ⟨id, content, children⟩ := branch
  cases content with
  | container => exact counted_weaveAll hd false children
  | element element =>
    refine Edit.counted_weave (fun edit hedit => hd.counted hedit) (counted_attributes hd id _) ?_
    exact counted_weaveAll hd _ children
  | _ => trivial

theorem counted_weaveAll (hd : d.WellFormed) (raw : Bool) (branches : List Branch) :
    Template.CountedAll d.nextSlot (d.weaveAll .withOverrides raw branches) := by
  cases branches with
  | nil => trivial
  | cons branch rest => exact ⟨counted_weave hd raw branch, counted_weaveAll hd raw rest⟩

end

theorem counted_woven (hd : d.WellFormed) :
    (d.woven .withOverrides).Counted d.nextSlot := by
  unfold woven
  split
  · exact counted_weave hd false _
  · trivial

end Declarations

/-! ## Programs -/

namespace Program

/-- A program of a template that is guarded renders alike under guard. -/
theorem renderGuarded_build {template : Template} {parameters : Parameters}
    (h : template.Reads strict [parameters]) (optimizing : Bool) (arguments : Frame) :
    (build optimizing template parameters).renderGuarded strict arguments =
      ((build optimizing template parameters).render arguments).mapError Fault.failed := by
  have hreads : (build optimizing template parameters).template.Reads strict [parameters] := by
    cases optimizing with
    | false => exact h
    | true => exact Template.reads_optimize h
  unfold renderGuarded render
  split
  · rfl
  · exact Template.renderGuarded_eq _ [(parameters, arguments)] hreads

end Program

namespace Compiler

/-- What the compiler answers has no unbound variable, whatever the handlers do. -/
theorem unbound?_of_compile {compiler : Compiler} {d : Declarations} {template : Template}
    (h : compiler.compile d = .ok template) :
    template.unbound? [Declarations.rootContext] = none := by
  unfold compile at h
  dsimp only at h
  split at h
  · cases h
  · split at h
    · cases h
    next hnone =>
      cases h
      exact hnone

end Compiler

namespace Document

/-- A template that was compiled, in normal form or not, reads no variable without a
    frame of its context. With the standard handlers it reads no slot either that the
    parameters of the frame do not have. -/
theorem renderGuarded_template :
    (∀ (doc : Document) template, doc.template = .ok template →
      ∀ optimizing arguments,
        (Program.build optimizing template doc.parameters).renderGuarded false arguments =
          ((Program.build optimizing template doc.parameters).render arguments).mapError
            Fault.failed) ∧
    ∀ (tree : Tree) (isOptimizing : Bool) (operations : List Operation) template,
      let doc := (ofTree tree {} isOptimizing).run operations
      doc.template = .ok template → ∀ optimizing arguments,
        (Program.build optimizing template doc.parameters).renderGuarded true arguments =
          ((Program.build optimizing template doc.parameters).render arguments).mapError
            Fault.failed := by
  constructor
  · intro doc template htemplate
    have hbound := Compiler.unbound?_of_compile htemplate
    have hreads : template.Reads false [doc.parameters] :=
      Template.reads_of_unbound? (fun _ => 0) template [doc.parameters] hbound nofun nofun
    exact Program.renderGuarded_build hreads
  · intro tree isOptimizing operations template doc htemplate
    have hd : doc.declarations.WellFormed := wellFormed_run tree {} isOptimizing operations
    have hcompiler : doc.compiler = {} := compiler_run _ operations
    have hbound := Compiler.unbound?_of_compile htemplate
    rw [Document.template, hcompiler, Compiler.compile_eq_ok] at htemplate
    obtain ⟨-, -, rfl⟩ := htemplate
    refine Program.renderGuarded_build (Template.reads_of_unbound? _ _ [doc.parameters] hbound
      (fun _ => Declarations.counted_woven hd) fun _ parameters hmem => ?_)
    obtain rfl := List.mem_singleton.mp hmem
    rfl

/-- A handler that is not standard: the value comes before the content. -/
def prepending : Handler :=
  fun plan _ var _ => .ok (plan.wrapInner fun content => .sequence [.dynamic var, content])

/-- A paragraph is mutated by the one handler of a table, and repeated by a standard one. -/
theorem renderGuarded_template_section :
    let other := (ofTree sectionTree ⟨⟨[("prepend", prepending)]⟩, .withOverrides⟩).run
      [.find "p", .log ⟨1⟩ { kind := "prepend" }]
    let doc := (ofTree sectionTree).run
      [.find "p", .log ⟨1⟩ { kind := Mutation.repeatEach }, .nest ⟨1⟩,
        .log ⟨2⟩ { kind := Mutation.replaceInnerHtml }]
    (∃ template, other.template = .ok template ∧
      (Program.build true template other.parameters).renderGuarded false [.text "x"] =
        .ok "<section><p>xa &lt; b</p></section>") ∧
    ∃ template, doc.template = .ok template ∧
      (Program.build false template doc.parameters).renderGuarded true [.list [[.text "x"], []]] =
        .ok "<section><p>x</p><p>a &lt; b</p></section>" := by
  intro other doc
  constructor
  · refine ⟨_, rfl, ?_⟩
    rw [renderGuarded_template.1 other _ rfl]
    rfl
  · refine ⟨_, rfl, ?_⟩
    rw [renderGuarded_template.2 sectionTree true _ _ rfl]
    rfl

end Document

end HtmlTemplate
