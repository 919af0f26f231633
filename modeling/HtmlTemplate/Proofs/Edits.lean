-- SUMMARY: The standard mutations of an element as edits, and the plan that they add up to.
import HtmlTemplate.Compiler

/-!
# Edits

A handler is a function, and a plan gathers functions, so little can be said about
them in general. The standard handlers do one of five things each: a `Change`. A
change and the variable that it goes by are an `Edit`, and an element with standard
mutations has a list of edits. What the compiler does with the mutations of an
element is told here once in terms of edits; later modules do not look into
handlers again.
-/

namespace HtmlTemplate

/-- What a standard mutation asks for. -/
inductive Change where
  | replacement
  | addition
  | attribute (name : String)
  | removal
  /-- The parameters are those of the repeated region, if it was entered. -/
  | repetition (frame : Option Parameters)
deriving DecidableEq

/-- A change with the variable that it goes by. -/
structure Edit where
  change : Change
  var : Var
deriving DecidableEq

namespace Mutation

/-- A change that is asked for without arguments. -/
def bare? (mutation : Mutation) (change : Change) : Option Change :=
  if mutation.arguments = [] then some change else none

/-- What a mutation asks for, if it is standard and has the arguments that it takes. -/
def change? (mutation : Mutation) (frame : Option Parameters) : Option Change :=
  if mutation.kind = replaceInnerHtml then mutation.bare? .replacement
  else if mutation.kind = append then mutation.bare? .addition
  else if mutation.kind = setAttribute then
    match mutation.arguments with
    | [name] => some (.attribute name)
    | _ => none
  else if mutation.kind = remove then mutation.bare? .removal
  else if mutation.kind = repeatEach then mutation.bare? (.repetition frame)
  else none

theorem bare?_eq_some {mutation : Mutation} {change change' : Change} :
    mutation.bare? change = some change' ↔ mutation.arguments = [] ∧ change = change' := by
  simp [bare?]

/-- Only the repetition asks for the parameters of the region. -/
theorem change?_eq_repetition {mutation : Mutation} {frame frame' : Option Parameters} :
    mutation.change? frame = some (.repetition frame') ↔
      mutation = { kind := repeatEach } ∧ frame' = frame := by
  obtain ⟨kind, arguments⟩ := mutation
  unfold change?
  constructor
  · intro h
    split at h
    · cases (bare?_eq_some.mp h).2
    split at h
    · cases (bare?_eq_some.mp h).2
    split at h
    · split at h <;> cases h
    split at h
    · cases (bare?_eq_some.mp h).2
    split at h
    next hkind =>
      obtain ⟨harguments, hchange⟩ := bare?_eq_some.mp h
      cases hchange
      simp only at hkind harguments
      exact ⟨by rw [hkind, harguments], rfl⟩
    · cases h
  · rintro ⟨hmutation, rfl⟩
    cases hmutation
    rfl

theorem change?_congr {mutation : Mutation} (h : mutation ≠ { kind := repeatEach })
    (frame frame' : Option Parameters) : mutation.change? frame = mutation.change? frame' := by
  unfold change?
  by_cases hrepeat : mutation.kind = repeatEach
  · have harguments : mutation.arguments ≠ [] := fun harguments => h (by
      obtain ⟨kind, arguments⟩ := mutation
      simp only at hrepeat harguments
      rw [hrepeat, harguments])
    simp [bare?, harguments]
  · simp [hrepeat]

/-- Whether it is one of the five mutations with handlers, with the arguments that it
    takes. -/
def IsStandard (mutation : Mutation) : Prop := (mutation.change? none).isSome

theorem isSome_change? (mutation : Mutation) (frame : Option Parameters) :
    (mutation.change? frame).isSome ↔ mutation.IsStandard := by
  unfold IsStandard
  by_cases h : mutation = { kind := repeatEach }
  · rw [change?_eq_repetition.mpr ⟨h, rfl⟩, change?_eq_repetition.mpr ⟨h, rfl⟩]
    simp
  · rw [change?_congr h frame none]

end Mutation

/-- The mutation that asks for a change. -/
def Change.mutation : Change → Mutation
  | .replacement => { kind := Mutation.replaceInnerHtml }
  | .addition => { kind := Mutation.append }
  | .attribute name => { kind := Mutation.setAttribute, arguments := [name] }
  | .removal => { kind := Mutation.remove }
  | .repetition _ => { kind := Mutation.repeatEach }

namespace Mutation

/-- A mutation asks for one change alone, a repetition with the parameters given. -/
theorem change?_eq_some {mutation : Mutation} {frame : Option Parameters} {change : Change} :
    mutation.change? frame = some change ↔
      mutation = change.mutation ∧ ∀ frame', change = .repetition frame' → frame' = frame := by
  obtain ⟨kind, arguments⟩ := mutation
  constructor
  · intro h
    unfold change? at h
    split at h
    next hkind =>
      obtain ⟨harguments, rfl⟩ := bare?_eq_some.mp h
      exact ⟨(mk.injEq ..).mpr ⟨hkind, harguments⟩, nofun⟩
    split at h
    next hkind =>
      obtain ⟨harguments, rfl⟩ := bare?_eq_some.mp h
      exact ⟨(mk.injEq ..).mpr ⟨hkind, harguments⟩, nofun⟩
    split at h
    next hkind =>
      split at h
      next name harguments =>
        obtain rfl := Option.some.inj h
        exact ⟨(mk.injEq ..).mpr ⟨hkind, harguments⟩, nofun⟩
      · cases h
    split at h
    next hkind =>
      obtain ⟨harguments, rfl⟩ := bare?_eq_some.mp h
      exact ⟨(mk.injEq ..).mpr ⟨hkind, harguments⟩, nofun⟩
    split at h
    next hkind =>
      obtain ⟨harguments, rfl⟩ := bare?_eq_some.mp h
      exact ⟨(mk.injEq ..).mpr ⟨hkind, harguments⟩, fun frame' h => by cases h; rfl⟩
    · cases h
  · rintro ⟨hmutation, hframe⟩
    rw [hmutation]
    cases change with
    | repetition frame' =>
      obtain rfl := hframe frame' rfl
      rfl
    | _ => rfl

/-- A standard mutation has one of five kinds, and an argument only if it sets an
    attribute. -/
theorem isStandard_iff {mutation : Mutation} : mutation.IsStandard ↔
    mutation.kind ∈ [replaceInnerHtml, append, setAttribute, remove, repeatEach] ∧
      mutation.arguments.length = if mutation.kind = setAttribute then 1 else 0 := by
  unfold IsStandard
  rw [Option.isSome_iff_exists]
  simp only [change?_eq_some]
  constructor
  · rintro ⟨change, rfl, -⟩
    cases change <;>
      simp [Change.mutation, replaceInnerHtml, append, setAttribute, remove, repeatEach]
  · rintro ⟨hkind, harguments⟩
    obtain ⟨kind, arguments⟩ := mutation
    simp only [List.mem_cons, List.not_mem_nil, or_false] at hkind
    rcases hkind with rfl | rfl | rfl | rfl | rfl
    · exact ⟨.replacement,
        by simpa [Change.mutation, replaceInnerHtml, setAttribute] using harguments, nofun⟩
    · exact ⟨.addition, by simpa [Change.mutation, append, setAttribute] using harguments, nofun⟩
    · obtain ⟨name, rfl⟩ := List.length_eq_one_iff.mp ((if_pos rfl).symm ▸ harguments)
      exact ⟨.attribute name, rfl, nofun⟩
    · exact ⟨.removal, by simpa [Change.mutation, remove, setAttribute] using harguments, nofun⟩
    · exact ⟨.repetition none,
        by simpa [Change.mutation, repeatEach, setAttribute] using harguments, by simp⟩

theorem IsStandard.eq_of_kind {mutation : Mutation} (h : mutation.IsStandard)
    (hkind : mutation.kind = repeatEach) : mutation = { kind := repeatEach } := by
  obtain ⟨-, harguments⟩ := isStandard_iff.mp h
  rw [hkind, if_neg (by decide), List.length_eq_zero_iff] at harguments
  exact (mk.injEq ..).mpr ⟨hkind, harguments⟩

end Mutation

/-! ## Edits and handlers -/

namespace Edit

/-- The content of an element under an edit. -/
def wrapContent (content : Template) (edit : Edit) : Template :=
  match edit.change with
  | .replacement => .choice (.truthy edit.var) (.dynamic edit.var) (some content)
  | .addition => .sequence [content, .dynamic edit.var]
  | _ => content

/-- An element under an edit. -/
def wrapElement (element : Template) (edit : Edit) : Template :=
  match edit.change with
  | .removal => .choice (.falsy edit.var) element none
  | .repetition frame => .block ⟨edit.var, frame⟩ element
  | _ => element

end Edit

/-- A plan with one edit more. -/
def Plan.edit (plan : Plan) (edit : Edit) : Plan :=
  match edit.change with
  | .replacement | .addition => plan.wrapInner fun content => edit.wrapContent content
  | .attribute name => plan.override name edit.var
  | .removal | .repetition _ => plan.wrapOuter fun element => edit.wrapElement element

theorem Handlers.get?_standard (kind : String) :
    standard.get? kind =
      if kind = Mutation.replaceInnerHtml then some .replaceInnerHtml
      else if kind = Mutation.append then some .append
      else if kind = Mutation.setAttribute then some .setAttribute
      else if kind = Mutation.remove then some .remove
      else if kind = Mutation.repeatEach then some .repeatEach
      else none := by
  have hlookup (first : String) (handler : Handler) (rest : List (String × Handler)) :
      List.lookup kind ((first, handler) :: rest) =
        if kind = first then some handler else List.lookup kind rest := by
    rw [List.lookup_cons]
    by_cases h : kind = first
    · simp [h]
    · have hne : (kind == first) = false := by simpa using h
      simp [h, hne]
  simp only [get?, standard, hlookup, List.lookup_nil]

theorem Handler.expecting_eq_ok {kind : String} {count : Nat} {handler : Handler}
    {plan plan' : Plan} {site : Site} {var : Var} {arguments : List String} :
    expecting kind count handler plan site var arguments = .ok plan' ↔
      arguments.length = count ∧ handler plan site var arguments = .ok plan' := by
  unfold expecting
  split <;> simp [*]

/-- The standard handlers perform the edits of their mutations, and fail on all
    other mutations. -/
theorem Handlers.standard_eq_ok {mutation : Mutation} {plan' : Plan} (plan : Plan) (site : Site)
    (var : Var) :
    (∃ handler, standard.get? mutation.kind = some handler ∧
        handler plan site var mutation.arguments = .ok plan') ↔
      ∃ change, mutation.change? site.loopParameters? = some change ∧
        plan.edit ⟨change, var⟩ = plan' := by
  have hbare {change : Change} :
      (∃ change', mutation.bare? change = some change' ∧ plan.edit ⟨change', var⟩ = plan') ↔
        mutation.arguments = [] ∧ plan.edit ⟨change, var⟩ = plan' := by
    simp only [Mutation.bare?_eq_some, and_assoc, exists_and_left, exists_eq_left']
  rw [get?_standard]
  unfold Mutation.change?
  split
  · rw [hbare]
    simp only [Option.some.injEq, exists_eq_left', Handler.replaceInnerHtml,
      Handler.expecting_eq_ok, List.length_eq_zero_iff, Except.ok.injEq]
    rfl
  split
  · rw [hbare]
    simp only [Option.some.injEq, exists_eq_left', Handler.append, Handler.expecting_eq_ok,
      List.length_eq_zero_iff, Except.ok.injEq]
    rfl
  split
  · simp only [Option.some.injEq, exists_eq_left', Handler.setAttribute,
      Handler.expecting_eq_ok, List.length_eq_one_iff, Except.ok.injEq]
    constructor
    · rintro ⟨⟨name, hname⟩, h⟩
      simp only [hname] at h ⊢
      exact ⟨_, rfl, h⟩
    · rintro ⟨change, hchange, h⟩
      split at hchange
      next name hname =>
        cases hchange
        simp only [hname]
        exact ⟨⟨name, rfl⟩, h⟩
      next => cases hchange
  split
  · rw [hbare]
    simp only [Option.some.injEq, exists_eq_left', Handler.remove, Handler.expecting_eq_ok,
      List.length_eq_zero_iff, Except.ok.injEq]
    rfl
  split
  · rw [hbare]
    simp only [Option.some.injEq, exists_eq_left', Handler.repeatEach, Handler.expecting_eq_ok,
      List.length_eq_zero_iff, Except.ok.injEq]
    rfl
  · simp

/-! ## The edits of a node -/

namespace Declarations

/-- The edit that a mutation logged on a scope asks for. -/
def edit? (d : Declarations) (scope : Scope) (logged : LoggedMutation) : Option Edit :=
  (logged.mutation.change? (Site.mk d scope).loopParameters?).map fun change =>
    ⟨change, ⟨scope.context, logged.slot⟩⟩

/-- The edits of a node, in the order in which they are applied. -/
def edits (d : Declarations) (node : NodeId) : List Edit :=
  (d.mutationsOf node).filterMap fun pair => d.edit? pair.1 pair.2

end Declarations

/-- Mutations are applied without error when all of them are standard, and then add
    their edits to the plan. -/
theorem Compiler.applyMutations_eq_ok {pass : AttributePass} {d : Declarations} {tag : String}
    {mutations : List (Scope × LoggedMutation)} {plan plan' : Plan} :
    (Compiler.mk .standard pass).applyMutations d tag mutations plan = .ok plan' ↔
      (∀ pair ∈ mutations, pair.2.mutation.IsStandard) ∧
        (mutations.filterMap fun pair => d.edit? pair.1 pair.2).foldl Plan.edit plan = plan' := by
  induction mutations generalizing plan with
  | nil => simp [applyMutations]
  | cons first rest ih =>
    obtain ⟨scope, logged⟩ := first
    unfold applyMutations
    cases hchange : logged.mutation.change? (Site.mk d scope).loopParameters? with
    | none =>
      constructor
      · intro h
        split at h
        · cases h
        next handler hget =>
          split at h
          next plan'' hrun =>
            obtain ⟨change, hsome, -⟩ := (Handlers.standard_eq_ok plan ⟨d, scope⟩ _).mp
              ⟨handler, hget, hrun⟩
            rw [hchange] at hsome
            cases hsome
          · cases h
      · rintro ⟨hall, -⟩
        have hfirst : (logged.mutation.change? (Site.mk d scope).loopParameters?).isSome :=
          (logged.mutation.isSome_change? _).mpr (hall _ List.mem_cons_self)
        rw [hchange] at hfirst
        cases hfirst
    | some change =>
      have hedit : d.edit? scope logged = some ⟨change, ⟨scope.context, logged.slot⟩⟩ :=
        congrArg (Option.map _) hchange
      obtain ⟨handler, hget, hrun⟩ := (Handlers.standard_eq_ok plan ⟨d, scope⟩
        ⟨scope.context, logged.slot⟩).mpr ⟨change, hchange, rfl⟩
      have hfirst : logged.mutation.IsStandard :=
        (logged.mutation.isSome_change? _).mp (Option.isSome_of_eq_some hchange)
      simp only [hget, hrun, ih, List.forall_mem_cons, hfirst, true_and, List.filterMap_cons, hedit,
        List.foldl_cons]

/-! ## The plan of a list of edits -/

/-- Override an attribute among those that are overridden. -/
def Edit.override (overrides : List (String × Var)) (edit : Edit) : List (String × Var) :=
  match edit.change with
  | .attribute name => overrides.filter (·.1 != asciiLower name) ++ [(asciiLower name, edit.var)]
  | _ => overrides

namespace Plan

/-- The plan of an element with edits. -/
def ofEdits (node : NodeId) (edits : List Edit) : Plan := edits.foldl Plan.edit { node }

theorem node_edit (plan : Plan) (edit : Edit) : (plan.edit edit).node = plan.node := by
  unfold Plan.edit
  split <;> rfl

theorem content_edit (plan : Plan) (edit : Edit) : (plan.edit edit).content = plan.content := by
  unfold Plan.edit
  split <;> rfl

theorem overrides_edit (plan : Plan) (edit : Edit) :
    (plan.edit edit).overrides = edit.override plan.overrides := by
  unfold Plan.edit Edit.override
  split <;> simp [*, wrapInner, wrapOuter, Plan.override]

theorem applyInner_edit (plan : Plan) (edit : Edit) (content : Template) :
    (plan.edit edit).applyInner content = edit.wrapContent (plan.applyInner content) := by
  unfold Plan.edit
  split <;> simp [*, applyInner, wrapInner, wrapOuter, Plan.override, Edit.wrapContent]

theorem applyOuter_edit (plan : Plan) (edit : Edit) (element : Template) :
    (plan.edit edit).applyOuter element = edit.wrapElement (plan.applyOuter element) := by
  unfold Plan.edit
  split <;> simp [*, applyOuter, wrapInner, wrapOuter, Plan.override, Edit.wrapElement]

/-- What every edit keeps or extends by one is kept or extended by all. -/
theorem foldl_edit {α : Type} (read : Plan → α) (change : α → Edit → α)
    (h : ∀ plan edit, read (plan.edit edit) = change (read plan) edit) (plan : Plan)
    (edits : List Edit) : read (edits.foldl Plan.edit plan) = edits.foldl change (read plan) := by
  induction edits generalizing plan with
  | nil => rfl
  | cons edit rest ih => rw [List.foldl_cons, ih, h, List.foldl_cons]

section OfEdits

variable (node : NodeId) (edits : List Edit)

@[simp] theorem node_ofEdits : (ofEdits node edits).node = node :=
  (foldl_edit Plan.node (fun node _ => node) node_edit _ edits).trans
    (by induction edits <;> simp_all)

@[simp] theorem content_ofEdits : (ofEdits node edits).content = none :=
  (foldl_edit Plan.content (fun content _ => content) content_edit _ edits).trans
    (by induction edits <;> simp_all)

@[simp] theorem overrides_ofEdits :
    (ofEdits node edits).overrides = edits.foldl Edit.override [] :=
  foldl_edit Plan.overrides Edit.override overrides_edit _ edits

theorem applyInner_ofEdits (content : Template) :
    (ofEdits node edits).applyInner content = edits.foldl Edit.wrapContent content :=
  foldl_edit (fun plan => plan.applyInner content) Edit.wrapContent
    (fun plan edit => applyInner_edit plan edit content) _ edits

theorem applyOuter_ofEdits (element : Template) :
    (ofEdits node edits).applyOuter element = edits.foldl Edit.wrapElement element :=
  foldl_edit (fun plan => plan.applyOuter element) Edit.wrapElement
    (fun plan edit => applyOuter_edit plan edit element) _ edits

end OfEdits

end Plan

end HtmlTemplate
