-- SUMMARY: The attributes that an element is written with, told by what each name was set to last.
import Mathlib.Data.List.Dedup
import HtmlTemplate.Proofs.Logging.Overrides
import HtmlTemplate.Proofs.Tree.Outlines

/-!
# Attributes

Mutations set attributes one after the other, and a plan keeps what is set as its
overrides. Here the overrides are told by the settings alone: each name in lower case,
in the order in which the names were set last, with the variable that it was set by
last. Then so are the attributes that an element is written with: those of the source
with the value that each was set to, and behind them the others that were set.
-/

namespace HtmlTemplate

/-- The attribute that a mutation sets, and the variable that gives its value. -/
def LoggedMutation.setting? (logged : LoggedMutation) (scope : Scope) : Option (String × Var) :=
  match logged.mutation.arguments with
  | [name] =>
    if logged.mutation.kind = Mutation.setAttribute then some (name, ⟨scope.context, logged.slot⟩)
    else none
  | _ => none

/-- What the value of a variable is written as, if it is given and not a list. -/
def Bindings.given? (bindings : Bindings) (var : Var) : Option String :=
  if (bindings.value var).isTruthy then (bindings.value var).markup? else none

/-- The attributes that are set, with the variables that give their values, in order. -/
abbrev Settings := List (String × Var)

namespace Settings

def ofMutations (mutations : List (Scope × LoggedMutation)) : Settings :=
  mutations.filterMap fun pair => pair.2.setting? pair.1

/-- The variable that a name is set by last. The case of the name does not matter. -/
def last? (settings : Settings) (name : String) : Option Var :=
  (settings.reverse.find? fun setting => eqIgnoringAsciiCase setting.1 name).map (·.2)

/-- The names that are set, in lower case, each at the place where it is set last. -/
def names (settings : Settings) : List String :=
  (settings.map fun setting => asciiLower setting.1).dedup

/-- What the last setting of a name gives it. -/
def markup? (settings : Settings) (bindings : Bindings) (name : String) : Option String :=
  (settings.last? name).bind bindings.given?

/-- The attributes of the source, each with what it is set to, or else with its value in
    the source. -/
def ownAttributes (settings : Settings) (bindings : Bindings) (labels : List (String × String)) :
    List (String × String) :=
  labels.map fun label =>
    (label.1, (settings.markup? bindings label.1).getD (Markup.escapedValue label.2))

/-- The attributes that the source lacks, as far as they are given a value. -/
def furtherAttributes (settings : Settings) (bindings : Bindings)
    (labels : List (String × String)) : List (String × String) :=
  (settings.names.filter fun name => !labels.any fun label =>
      eqIgnoringAsciiCase label.1 name).filterMap fun name =>
    (settings.markup? bindings name).map (name, ·)

/-- The attributes that an element is written with, given those that it has in the source. -/
def attributes (settings : Settings) (bindings : Bindings) (labels : List (String × String)) :
    List (String × String) :=
  settings.ownAttributes bindings labels ++ settings.furtherAttributes bindings labels

variable {settings : Settings} {bindings : Bindings} {labels : List (String × String)}

/-! ## Names -/

theorem asciiLower_of_mem_names {name : String} (h : name ∈ settings.names) :
    asciiLower name = name := by
  obtain ⟨setting, -, rfl⟩ := List.mem_map.mp (List.mem_dedup.mp h)
  exact asciiLower_asciiLower setting.1

theorem last?_concat (settings : Settings) (setting : String × Var) (name : String) :
    last? (settings ++ [setting]) name =
      if eqIgnoringAsciiCase setting.1 name then some setting.2 else settings.last? name := by
  unfold last?
  rw [List.reverse_append, List.reverse_singleton, List.singleton_append, List.find?_cons]
  cases eqIgnoringAsciiCase setting.1 name <;> rfl

theorem last?_asciiLower (settings : Settings) (name : String) :
    settings.last? (asciiLower name) = settings.last? name := by
  simp only [last?, eqIgnoringAsciiCase, asciiLower_asciiLower]

/-- The last setting of a name is one of the settings. -/
theorem exists_mem_of_last? {name : String} {var : Var} (h : settings.last? name = some var) :
    ∃ set, (set, var) ∈ settings ∧ asciiLower set = asciiLower name := by
  obtain ⟨⟨set, var'⟩, hfind, rfl⟩ := Option.map_eq_some_iff.mp h
  refine ⟨set, List.mem_reverse.mp (List.mem_of_find?_eq_some hfind), ?_⟩
  simpa [eqIgnoringAsciiCase] using List.find?_some hfind

/-- The names of settings with one more: the new name moves to the end. -/
theorem dedup_concat {α : Type} [DecidableEq α] (items : List α) (item : α) :
    (items ++ [item]).dedup = items.dedup.filter (· != item) ++ [item] := by
  induction items with
  | nil => rfl
  | cons first rest ih =>
    rw [List.cons_append]
    by_cases hrest : first ∈ rest
    · rw [List.dedup_cons_of_mem (List.mem_append_left _ hrest), List.dedup_cons_of_mem hrest, ih]
    by_cases hitem : first = item
    · rw [List.dedup_cons_of_mem (by simp [hitem]), List.dedup_cons_of_notMem hrest, ih,
        List.filter_cons_of_neg (by simp [hitem])]
    · rw [List.dedup_cons_of_notMem (by simp [hrest, hitem]), List.dedup_cons_of_notMem hrest, ih,
        List.filter_cons_of_pos (by simp [hitem]), List.cons_append]

theorem names_concat (settings : Settings) (setting : String × Var) :
    names (settings ++ [setting]) =
      settings.names.filter (· != asciiLower setting.1) ++ [asciiLower setting.1] := by
  rw [names, List.map_append, List.map_singleton, dedup_concat, names]

/-! ## Overrides -/

/-- The overrides that settings add up to. -/
def overrides (settings : Settings) : List (String × Var) :=
  settings.names.filterMap fun name => (settings.last? name).map (name, ·)

theorem overrides_concat (settings : Settings) (setting : String × Var) :
    overrides (settings ++ [setting]) =
      settings.overrides.filter (·.1 != asciiLower setting.1) ++
        [(asciiLower setting.1, setting.2)] := by
  have hkept : (settings.names.filter (· != asciiLower setting.1)).filterMap
        (fun name => (last? (settings ++ [setting]) name).map (name, ·)) =
      settings.overrides.filter (·.1 != asciiLower setting.1) := by
    rw [overrides, List.filter_filterMap, List.filterMap_filter]
    refine List.filterMap_congr fun name hname => ?_
    have hlower := asciiLower_of_mem_names hname
    rw [last?_concat, eqIgnoringAsciiCase, hlower]
    by_cases hsame : name = asciiLower setting.1
    · cases settings.last? name <;> simp [hsame, Option.filter]
    · cases settings.last? name <;> simp [hsame, Ne.symm hsame, Option.filter]
  have hlast : last? (settings ++ [setting]) (asciiLower setting.1) = some setting.2 := by
    rw [last?_asciiLower, last?_concat, eqIgnoringAsciiCase]
    simp
  rw [overrides, names_concat, List.filterMap_append, hkept, List.filterMap_cons, hlast]
  rfl

/-- A mutation overrides the attribute that it sets, and no other one. -/
theorem override_of_edit? {d : Declarations} {scope : Scope} {logged : LoggedMutation}
    {edit : Edit} (h : d.edit? scope logged = some edit) (overrides : List (String × Var)) :
    edit.override overrides =
      ((logged.setting? scope).map fun setting =>
        overrides.filter (·.1 != asciiLower setting.1) ++
          [(asciiLower setting.1, setting.2)]).getD overrides := by
  obtain ⟨change, hchange, rfl⟩ := Option.map_eq_some_iff.mp h
  obtain ⟨hmutation, -⟩ := Mutation.change?_eq_some.mp hchange
  unfold LoggedMutation.setting?
  rw [hmutation]
  cases change <;> rfl

theorem setting?_of_edit?_eq_none {d : Declarations} {scope : Scope} {logged : LoggedMutation}
    (h : d.edit? scope logged = none) : logged.setting? scope = none := by
  have hchange : logged.mutation.change? (Site.mk d scope).loopParameters? = none :=
    Option.map_eq_none_iff.mp h
  unfold LoggedMutation.setting?
  split
  next name harguments =>
    refine if_neg fun hkind => ?_
    have hmutation : logged.mutation = (Change.attribute name).mutation := by
      rw [Change.mutation, ← hkind, ← harguments]
    have hattribute : logged.mutation.change? (Site.mk d scope).loopParameters? =
        some (.attribute name) :=
      Mutation.change?_eq_some.mpr ⟨hmutation, fun _ hrepetition => by cases hrepetition⟩
    cases hchange.symm.trans hattribute
  next => rfl

/-- The overrides of a plan are those of the settings that its edits come from. -/
theorem foldl_override (d : Declarations) (mutations : List (Scope × LoggedMutation)) :
    (mutations.filterMap fun pair => d.edit? pair.1 pair.2).foldl Edit.override [] =
      (ofMutations mutations).overrides := by
  induction mutations using List.reverseRecOn with
  | nil => rfl
  | append_singleton mutations last ih =>
    rw [List.filterMap_append, List.foldl_append, ih]
    cases hedit : d.edit? last.1 last.2 with
    | none => simp [ofMutations, hedit, setting?_of_edit?_eq_none hedit]
    | some edit =>
      cases hsetting : last.2.setting? last.1 with
      | none => simp [ofMutations, hedit, hsetting, override_of_edit? hedit]
      | some setting =>
        simp [ofMutations, hedit, hsetting, override_of_edit? hedit, overrides_concat]

/-- A plan overrides a name by the variable that it is set by last. -/
theorem override?_eq_last? {plan : Plan} (h : plan.overrides = settings.overrides)
    (hdistinct : Edit.Distinct plan.overrides) (name : String) :
    plan.override? name = settings.last? name := by
  refine Option.ext fun var => ?_
  rw [hdistinct.override?_eq_some, h, overrides, List.mem_filterMap]
  constructor
  · rintro ⟨name', -, hlast⟩
    obtain ⟨var', hvar, hpair⟩ := Option.map_eq_some_iff.mp hlast
    obtain ⟨rfl, rfl⟩ := Prod.mk.inj hpair
    exact (last?_asciiLower settings name).symm.trans hvar
  · intro hlast
    obtain ⟨set, hset, hname⟩ := exists_mem_of_last? hlast
    refine ⟨asciiLower name, ?_, by rw [last?_asciiLower, hlast]; rfl⟩
    exact List.mem_dedup.mpr (List.mem_map.mpr ⟨_, hset, hname⟩)

/-! ## What is written -/

/-- Markup of attributes side by side. -/
def written (attributes : List (String × String)) : String :=
  String.join (attributes.map fun attr => Markup.attr attr.1 attr.2)

theorem renderAll_map_eq_written {α : Type} {items : List α} {f : α → Template}
    {g : α → Option (String × String)}
    (h : ∀ item ∈ items, (f item).render bindings = .ok (written (g item).toList)) :
    Template.renderAll (items.map f) bindings = .ok (written (items.filterMap g)) := by
  induction items with
  | nil => rfl
  | cons item rest ih =>
    rw [List.forall_mem_cons] at h
    rw [List.map_cons, Template.renderAll, h.1, ih h.2, Rendered.append_ok_ok]
    cases hitem : g item with
    | none => simp [written, hitem]
    | some attr => simp [written, hitem, String.join_cons]

theorem render_given {var : Var} (h : (bindings.value var).kind ≠ .list) (name : String)
    (otherwise : Option Template) :
    (AttributePass.given name var otherwise).render bindings =
      ((bindings.given? var).map fun markup => .ok (Markup.attr name markup)).getD
        (Template.renderOption otherwise bindings) := by
  unfold Bindings.given?
  cases htruthy : (bindings.value var).isTruthy with
  | false => exact AttributePass.render_given_of_not_isTruthy htruthy name otherwise
  | true =>
    cases hvalue : bindings.value var with
    | list frames => exact absurd (by rw [hvalue]; rfl) h
    | _ =>
      rw [hvalue] at htruthy
      simp [AttributePass.given, Template.render, Bindings.holds, hvalue, htruthy, Value.markup?,
        Markup.attr]

section Plans

variable {plan : Plan} (hoverrides : plan.overrides = settings.overrides)
  (hvalues : ∀ setting ∈ settings, (bindings.value setting.2).kind ≠ .list)

include hvalues

theorem kind_ne_list_of_last? {name : String} {var : Var} (h : settings.last? name = some var) :
    (bindings.value var).kind ≠ .list := by
  obtain ⟨set, hset, -⟩ := exists_mem_of_last? h
  exact hvalues _ hset

include hoverrides

theorem render_overridden (hdistinct : Edit.Distinct plan.overrides) (name value : String) :
    (AttributePass.overridden plan name value).render bindings =
      .ok (Markup.attr name
        ((settings.markup? bindings name).getD (Markup.escapedValue value))) := by
  unfold AttributePass.overridden markup?
  rw [override?_eq_last? hoverrides hdistinct]
  cases hlast : settings.last? name with
  | none => exact AttributePass.render_fixed name value bindings
  | some var =>
    simp only [render_given (kind_ne_list_of_last? hvalues hlast), Option.bind_some,
      Template.renderOption, AttributePass.render_fixed]
    cases bindings.given? var <;> rfl

theorem renderAll_overridden (hdistinct : Edit.Distinct plan.overrides)
    (labels : List (String × String)) :
    Template.renderAll
        (labels.map fun label => AttributePass.overridden plan label.1 label.2) bindings =
      .ok (written (settings.ownAttributes bindings labels)) := by
  conv_rhs => rw [ownAttributes, ← List.filterMap_eq_map]
  refine renderAll_map_eq_written fun label _ => ?_
  rw [render_overridden hoverrides hvalues hdistinct]
  simp [written, String.join_cons]

theorem renderAll_added (labels : List (String × String)) :
    Template.renderAll (AttributePass.added plan (labels.map (·.1))) bindings =
      .ok (written (settings.furtherAttributes bindings labels)) := by
  unfold AttributePass.added
  rw [hoverrides, renderAll_map_eq_written
    (g := fun pair => (bindings.given? pair.2).map (pair.1, ·))]
  · congr 2
    rw [overrides, furtherAttributes, List.filter_filterMap, List.filterMap_filterMap,
      List.filterMap_filter]
    refine List.filterMap_congr fun name _ => ?_
    have hlacks : ((labels.map (·.1)).any fun label => eqIgnoringAsciiCase label name) =
        labels.any fun label => eqIgnoringAsciiCase label.1 name := List.any_map
    cases hlast : settings.last? name with
    | none => simp [markup?, hlast]
    | some var =>
      rw [Option.map_some, Option.filter_some, hlacks, markup?, hlast, Option.bind_some]
      split <;> rfl
  · intro pair hpair
    obtain ⟨name, -, hlast⟩ := List.mem_filterMap.mp (List.mem_filter.mp hpair).1
    obtain ⟨var, hvar, rfl⟩ := Option.map_eq_some_iff.mp hlast
    rw [render_given (kind_ne_list_of_last? hvalues hvar)]
    cases bindings.given? var with
    | none => simp [written, Template.renderOption]
    | some markup => simp [written, String.join_cons]

end Plans

/-- A further attribute has a name in lower case that the source lacks. -/
theorem of_mem_furtherAttributes {attr : String × String}
    (h : attr ∈ settings.furtherAttributes bindings labels) :
    asciiLower attr.1 = attr.1 ∧ ∀ label ∈ labels, asciiLower label.1 ≠ attr.1 := by
  obtain ⟨name, hname, hmarkup⟩ := List.mem_filterMap.mp h
  obtain ⟨markup, -, rfl⟩ := Option.map_eq_some_iff.mp hmarkup
  obtain ⟨hname, hlacks⟩ := List.mem_filter.mp hname
  have hlower := asciiLower_of_mem_names hname
  exact ⟨hlower, by simpa [eqIgnoringAsciiCase, hlower] using hlacks⟩

theorem nodup_furtherAttributes (settings : Settings) (bindings : Bindings)
    (labels : List (String × String)) :
    ((settings.furtherAttributes bindings labels).map (·.1)).Nodup := by
  rw [furtherAttributes, List.map_filterMap]
  refine ((List.nodup_dedup _).filter _).filterMap fun name name' found hfound hfound' => ?_
  simp only [Option.map_map, Option.mem_def, Option.map_eq_some_iff] at hfound hfound'
  obtain ⟨_, _, hname⟩ := hfound
  obtain ⟨_, _, hname'⟩ := hfound'
  exact hname.trans hname'.symm

/-- No two attributes of an element have one name, if this holds in the source. -/
theorem nodup_attributes (h : (labels.map fun label => asciiLower label.1).Nodup)
    (settings : Settings) (bindings : Bindings) :
    ((settings.attributes bindings labels).map fun attr => asciiLower attr.1).Nodup := by
  have hown : (settings.ownAttributes bindings labels).map (fun attr => asciiLower attr.1) =
      labels.map fun label => asciiLower label.1 := by
    rw [ownAttributes, List.map_map]
    rfl
  have hfurther : (settings.furtherAttributes bindings labels).map
        (fun attr => asciiLower attr.1) =
      (settings.furtherAttributes bindings labels).map (·.1) :=
    List.map_congr_left fun attr hattr => (of_mem_furtherAttributes hattr).1
  rw [attributes, List.map_append, hown, hfurther]
  refine List.nodup_append.mpr ⟨h, nodup_furtherAttributes settings bindings labels, ?_⟩
  rintro _ hlabel _ hattr rfl
  obtain ⟨label, hlabel, hname⟩ := List.mem_map.mp hlabel
  obtain ⟨attr, hattr, hname'⟩ := List.mem_map.mp hattr
  exact (of_mem_furtherAttributes hattr).2 label hlabel (hname.trans hname'.symm)

end Settings

/-- An element whose mutations are standard is written with the attributes of the source,
    each with what it is set to last, and behind them the others that are set. No name is
    written twice, if none stands twice in the source. -/
theorem AttributePass.render_withOverrides {tree : Tree} {id : NodeId} {element : Element}
    (helement : tree.element? id = some element)
    (hnames : ((element.labels tree.names).map fun label => asciiLower label.1).Nodup)
    (d : Declarations) (tag : String) {mutations : List (Scope × LoggedMutation)}
    (hstandard : ∀ pair ∈ mutations, pair.2.mutation.IsStandard) :
    ∃ plan, (Compiler.mk .standard .withOverrides).applyMutations d tag mutations { node := id } =
        .ok plan ∧
      ∀ bindings : Bindings,
        (∀ setting ∈ Settings.ofMutations mutations, (bindings.value setting.2).kind ≠ .list) →
        let attributes :=
          (Settings.ofMutations mutations).attributes bindings (element.labels tree.names)
        (AttributePass.withOverrides plan tree).render bindings =
            .ok (String.join (attributes.map fun attr => Markup.attr attr.1 attr.2)) ∧
          (attributes.map fun attr => asciiLower attr.1).Nodup := by
  let settings := Settings.ofMutations mutations
  let edits := mutations.filterMap fun pair => d.edit? pair.1 pair.2
  have hoverrides : (Plan.ofEdits id edits).overrides = settings.overrides := by
    rw [Plan.overrides_ofEdits, Settings.foldl_override]
  have hdistinct : Edit.Distinct (Plan.ofEdits id edits).overrides := by
    rw [Plan.overrides_ofEdits]
    exact Edit.distinct_foldl .nil edits
  refine ⟨.ofEdits id edits, Compiler.applyMutations_eq_ok.mpr ⟨hstandard, rfl⟩,
    fun bindings hvalues => ⟨?_, Settings.nodup_attributes hnames settings bindings⟩⟩
  have hlabels : (element.attributes.map fun attr => (tree.name attr.name.localName, attr.value)) =
      element.labels tree.names := rfl
  simp only [withOverrides, Plan.node_ofEdits, helement, hlabels, Template.render,
    Template.renderAll_append]
  rw [Settings.renderAll_overridden hoverrides hvalues hdistinct,
    Settings.renderAll_added hoverrides hvalues, Rendered.append_ok_ok, Settings.written,
    Settings.written, ← String.join_append, ← List.map_append]
  rfl

/-- A paragraph whose title and language are set twice and whose identifier is set once. The
    title that was set last is not given, so the one of the source stands. -/
theorem AttributePass.render_withOverrides_paragraph :
    let title := Tree.empty.intern "Title"
    let identifier := title.1.intern "id"
    let paragraph := identifier.1.createElement "p"
    let tree := (paragraph.1.setAttribute paragraph.2 ⟨Names.emptyId, title.2⟩ "a < b").setAttribute
      paragraph.2 ⟨Names.emptyId, identifier.2⟩ "first"
    let element : Element :=
      { name := ⟨Names.emptyId, (identifier.1.intern "p").2⟩
        attributes := [⟨⟨Names.emptyId, title.2⟩, "a < b"⟩,
          ⟨⟨Names.emptyId, identifier.2⟩, "first"⟩] }
    let scope : Scope := { id := ⟨1⟩, nodes := [paragraph.2], context := ⟨0⟩ }
    let mutations := [("title", 0), ("LANG", 1), ("ID", 2), ("lang", 3), ("TITLE", 4)].map
      fun setting : String × Nat =>
        (scope, LoggedMutation.mk ⟨Mutation.setAttribute, [setting.1]⟩ setting.2)
    let bindings : Bindings := [(⟨0⟩, [.text "c", .text "fr", .int 2, .text "en", .absent])]
    tree.element? paragraph.2 = some element ∧
      ((element.labels tree.names).map fun label => asciiLower label.1).Nodup ∧
      (∀ pair ∈ mutations, pair.2.mutation.IsStandard) ∧
      (∀ setting ∈ Settings.ofMutations mutations, (bindings.value setting.2).kind ≠ .list) ∧
      ∃ plan, (Compiler.mk .standard .withOverrides).applyMutations (.start tree) "p" mutations
          { node := paragraph.2 } = .ok plan ∧
        (AttributePass.withOverrides plan tree).render bindings =
          .ok " Title=\"a &lt; b\" id=\"2\" lang=\"en\"" := by
  intro title identifier paragraph tree element scope mutations bindings
  have helement : tree.element? paragraph.2 = some element := by rfl
  have hnames : ((element.labels tree.names).map fun label => asciiLower label.1).Nodup := by
    decide +kernel
  have hstandard : ∀ pair ∈ mutations, pair.2.mutation.IsStandard := by
    simp [mutations, Mutation.isStandard_iff]
  have hvalues : ∀ setting ∈ Settings.ofMutations mutations,
      (bindings.value setting.2).kind ≠ .list := by decide +kernel
  obtain ⟨plan, hplan, hrender⟩ :=
    render_withOverrides helement hnames (.start tree) "p" hstandard
  refine ⟨helement, hnames, hstandard, hvalues, plan, hplan, ?_⟩
  rw [(hrender bindings hvalues).1]
  exact congrArg Except.ok (by decide +kernel)

end HtmlTemplate
