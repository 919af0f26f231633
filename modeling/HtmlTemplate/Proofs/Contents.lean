-- SUMMARY: What an element with mutations of the document contributes to the output, in closed form.
import HtmlTemplate.Proofs.Alike
import HtmlTemplate.Proofs.Compiling
import Mathlib.Data.List.DropRight

/-!
# Contents of elements

The mutations of an element are applied one around the other. When they take their values
from the arguments of the document, and none of these is a list, the outcome can be told
at once. The element is left out if the value of some removal is given. Else it holds the
value of the last replacement that is given, or what its children come to if there is none,
and then the values of the additions after this replacement.
-/

namespace HtmlTemplate

/-! ## The closed form -/

namespace Frame

variable (arguments : Frame)

/-- The mutation is of the kind, and its value is given. -/
def gives (kind : String) (logged : LoggedMutation) : Bool :=
  logged.mutation.kind == kind && (arguments.get logged.slot).isTruthy

/-- The value of a mutation as it is written. -/
def printed (logged : LoggedMutation) : String := (arguments.get logged.slot).markup?.getD ""

/-- The last replacement whose value is given. -/
def replacement? (log : List LoggedMutation) : Option LoggedMutation :=
  (log.filter (arguments.gives Mutation.replaceInnerHtml)).getLast?

/-- The mutations after the last replacement whose value is given. -/
def afterReplacement (log : List LoggedMutation) : List LoggedMutation :=
  log.rtakeWhile fun logged => !arguments.gives Mutation.replaceInnerHtml logged

/-- The values of the additions, one after the other. -/
def additions (log : List LoggedMutation) : String :=
  String.join ((log.filter (·.mutation.kind == Mutation.append)).map arguments.printed)

/-- The content of an element: the value of the last replacement, or what is inside, and
    the values that are added after it. -/
def content (log : List LoggedMutation) (inside : Template) : Template :=
  let base := match arguments.replacement? log with
    | some logged => .static (arguments.printed logged)
    | none => inside
  .sequence [base, .static (arguments.additions (arguments.afterReplacement log))]

/-- An element with its content, or nothing if it is removed. -/
def contribution (log : List LoggedMutation) (tag : String) (attributes inside : Template) :
    Template :=
  if log.any (arguments.gives Mutation.remove) then .empty
  else .element tag attributes (arguments.content log inside)

/-- No value is a list. -/
def HasNoLists : Prop := ∀ value ∈ arguments, ∀ frames, value ≠ .list frames

variable {arguments : Frame} {log : List LoggedMutation} {logged : LoggedMutation}

theorem HasNoLists.get_ne_list (h : arguments.HasNoLists) (slot : Nat) (frames : List Frame) :
    arguments.get slot ≠ .list frames := by
  unfold get
  rw [List.getD_eq_getElem?_getD]
  cases hvalue : arguments[slot]? with
  | none => nofun
  | some value => exact h value (List.mem_of_getElem? hvalue) frames

theorem HasNoLists.markup?_eq (h : arguments.HasNoLists) (logged : LoggedMutation) :
    (arguments.get logged.slot).markup? = some (arguments.printed logged) := by
  unfold printed
  cases hvalue : arguments.get logged.slot with
  | list frames => exact absurd hvalue (h.get_ne_list _ frames)
  | _ => rfl

/-! ### One mutation more -/

theorem replacement?_concat : arguments.replacement? (log ++ [logged]) =
    if arguments.gives Mutation.replaceInnerHtml logged then some logged
    else arguments.replacement? log := by
  unfold replacement?
  rw [List.filter_append]
  cases hgives : arguments.gives Mutation.replaceInnerHtml logged <;> simp [hgives]

theorem afterReplacement_concat : arguments.afterReplacement (log ++ [logged]) =
    if arguments.gives Mutation.replaceInnerHtml logged then []
    else arguments.afterReplacement log ++ [logged] := by
  unfold afterReplacement
  rw [List.rtakeWhile_concat]
  cases arguments.gives Mutation.replaceInnerHtml logged <;> rfl

theorem additions_concat : arguments.additions (log ++ [logged]) =
    arguments.additions log ++
      if logged.mutation.kind = Mutation.append then arguments.printed logged else "" := by
  unfold additions
  rw [List.filter_append, List.map_append, String.join_append]
  by_cases hkind : logged.mutation.kind = Mutation.append <;> simp [hkind, String.join]

theorem render_content (inside : Template) (bindings : Bindings) :
    (arguments.content log inside).render bindings =
      Rendered.append
        (match arguments.replacement? log with
        | some logged => .ok (arguments.printed logged)
        | none => inside.render bindings)
        (.ok (arguments.additions (arguments.afterReplacement log))) := by
  unfold content
  cases arguments.replacement? log <;> simp [Template.render, Template.renderAll]

/-- The contribution in terms of markup: a void element has an open tag alone. -/
theorem render_contribution {tag : String} {attributes inside : Template} {bindings : Bindings}
    {attributesMarkup insideMarkup : String}
    (hattributes : attributes.render bindings = .ok attributesMarkup)
    (hinside : inside.render bindings = .ok insideMarkup) :
    (arguments.contribution log tag attributes inside).render bindings =
      .ok (if log.any (arguments.gives Mutation.remove) then ""
        else Markup.element tag attributesMarkup
          (((arguments.replacement? log).map arguments.printed).getD insideMarkup ++
            arguments.additions (arguments.afterReplacement log))) := by
  unfold contribution
  split
  · rfl
  · rw [Template.render, hattributes, render_content, hinside, Markup.element]
    cases arguments.replacement? log <;> cases Markup.isVoid tag <;> simp [String.append_assoc]

end Frame

/-! ## An element with edits -/

/-- The mutation of an edit, with the slot of its value. -/
def Edit.logged (edit : Edit) : LoggedMutation := ⟨edit.change.mutation, edit.var.slot⟩

/-- Nothing but the arguments of the document has values. -/
def Bindings.GiveOnly (arguments : Frame) (bindings : Bindings) : Prop :=
  ∀ var, bindings.value var =
    if var.context = Declarations.rootContext then arguments.get var.slot else .absent

variable {arguments : Frame} {bindings : Bindings}

namespace Bindings.GiveOnly

theorem top (arguments : Frame) :
    Bindings.GiveOnly arguments [(Declarations.rootContext, arguments)] := by
  intro var
  rw [value_cons]
  rfl

/-- A frame without values gives nothing to the region. -/
theorem cons (h : bindings.GiveOnly arguments) {context : ContextId}
    (hcontext : context ≠ Declarations.rootContext) :
    Bindings.GiveOnly arguments ((context, []) :: bindings) := by
  intro var
  rw [value_cons]
  split
  next heq => rw [if_neg (heq ▸ hcontext)]; rfl
  next => exact h var

theorem value_eq (h : bindings.GiveOnly arguments) {edit : Edit}
    (hcontext : edit.var.context = Declarations.rootContext) :
    bindings.value edit.var = arguments.get edit.logged.slot := by
  rw [h, if_pos hcontext]
  rfl

end Bindings.GiveOnly

namespace Edit

variable {edit : Edit} {edits : List Edit}

/-- The content under one edit more: a replacement that is given takes its place, and an
    addition comes after it. -/
theorem render_wrapContent (hgive : bindings.GiveOnly arguments) (hlists : arguments.HasNoLists)
    (hcontext : edit.var.context = Declarations.rootContext) (content : Template) :
    (wrapContent content edit).render bindings =
      if arguments.gives Mutation.replaceInnerHtml edit.logged then
        .ok (arguments.printed edit.logged)
      else Rendered.append (content.render bindings)
        (.ok (if edit.logged.mutation.kind = Mutation.append then arguments.printed edit.logged
          else "")) := by
  have hvalue := hgive.value_eq hcontext
  have hmarkup := hlists.markup?_eq edit.logged
  obtain ⟨change, var⟩ := edit
  cases change with
  | replacement =>
    have hgives : arguments.gives Mutation.replaceInnerHtml (logged ⟨.replacement, var⟩) =
        (arguments.get var.slot).isTruthy := by
      simp [Frame.gives, logged, Change.mutation]
    have hkind : (logged ⟨.replacement, var⟩).mutation.kind ≠ Mutation.append := by
      simp [logged, Change.mutation, Mutation.replaceInnerHtml, Mutation.append]
    rw [hgives, if_neg hkind, Rendered.append_empty]
    simp only [wrapContent, Template.render, Bindings.holds, hvalue, hmarkup,
      Template.renderOption]
    rfl
  | addition =>
    have hgives : arguments.gives Mutation.replaceInnerHtml (logged ⟨.addition, var⟩) = false := rfl
    have hkind : (logged ⟨.addition, var⟩).mutation.kind = Mutation.append := rfl
    rw [hgives, if_neg Bool.false_ne_true, if_pos hkind]
    simp only [wrapContent, Template.render, Template.renderAll, hvalue, hmarkup,
      Rendered.append_empty]
  | _ => exact (Rendered.append_empty _).symm

/-- The replacements and additions of an element come to its content. -/
theorem render_foldl_wrapContent (hgive : bindings.GiveOnly arguments)
    (hlists : arguments.HasNoLists)
    (hcontext : ∀ edit ∈ edits, edit.var.context = Declarations.rootContext) (inside : Template) :
    (edits.foldl wrapContent inside).render bindings =
      (arguments.content (edits.map logged) inside).render bindings := by
  -- The last edit is around all others, so the induction is from the end of the list.
  induction edits using List.reverseRecOn with
  | nil => simp [Frame.render_content, Frame.replacement?, Frame.additions,
      Frame.afterReplacement, String.join]
  | append_singleton edits edit ih =>
    rw [List.forall_mem_append, List.forall_mem_singleton] at hcontext
    rw [List.foldl_concat, List.map_append, List.map_singleton,
      render_wrapContent hgive hlists hcontext.2, ih hcontext.1, Frame.render_content,
      Frame.render_content, Frame.replacement?_concat, Frame.afterReplacement_concat]
    split
    · exact (Rendered.append_empty _).symm
    · rw [Frame.additions_concat, Rendered.append_assoc, Rendered.append_ok_ok]

/-- The element under one edit more: it is left out by a removal that is given. -/
theorem render_wrapElement (hgive : bindings.GiveOnly arguments)
    (hcontext : edit.var.context = Declarations.rootContext)
    (honce : ∀ frame, edit.change ≠ .repetition frame) (element : Template) :
    (wrapElement element edit).render bindings =
      if arguments.gives Mutation.remove edit.logged then .ok "" else element.render bindings := by
  have hvalue := hgive.value_eq hcontext
  obtain ⟨change, var⟩ := edit
  cases change with
  | repetition frame => exact absurd rfl (honce frame)
  | removal =>
    have hgives : arguments.gives Mutation.remove (logged ⟨.removal, var⟩) =
        (arguments.get var.slot).isTruthy := by
      simp [Frame.gives, logged, Change.mutation]
    rw [hgives]
    simp only [wrapElement, Template.render, Bindings.holds, hvalue, Template.renderOption]
    cases hgiven : (arguments.get var.slot).isTruthy <;> simp [logged, hgiven]
  | _ => rfl

/-- The removals of an element leave it out if one of them is given. -/
theorem render_foldl_wrapElement (hgive : bindings.GiveOnly arguments)
    (hcontext : ∀ edit ∈ edits, edit.var.context = Declarations.rootContext)
    (honce : ∀ edit ∈ edits, ∀ frame, edit.change ≠ .repetition frame) (element : Template) :
    (edits.foldl wrapElement element).render bindings =
      if (edits.map logged).any (arguments.gives Mutation.remove) then .ok ""
      else element.render bindings := by
  induction edits generalizing element with
  | nil => rfl
  | cons edit rest ih =>
    rw [List.forall_mem_cons] at hcontext honce
    rw [List.foldl_cons, ih hcontext.2 honce.2, render_wrapElement hgive hcontext.1 honce.1,
      List.map_cons, List.any_cons]
    cases arguments.gives Mutation.remove edit.logged <;> simp

/-- An element with edits renders to its contribution. -/
theorem render_weave_eq (hgive : bindings.GiveOnly arguments) (hlists : arguments.HasNoLists)
    (hcontext : ∀ edit ∈ edits, edit.var.context = Declarations.rootContext)
    (honce : ∀ edit ∈ edits, ∀ frame, edit.change ≠ .repetition frame) (tag : String)
    (attributes inside : Template) :
    (weave edits tag attributes inside).render bindings =
      (arguments.contribution (edits.map logged) tag attributes inside).render bindings := by
  unfold weave Frame.contribution
  rw [render_foldl_wrapElement hgive hcontext honce]
  split
  · rfl
  · rw [Template.render, Template.render,
      render_foldl_wrapContent hgive hlists hcontext]

end Edit

/-! ## Edits of other nodes -/

/-- Both bindings have values for nothing but the arguments. -/
abbrev Bindings.BothGiveOnly (arguments : Frame) (bindings bindings' : Bindings) : Prop :=
  bindings.GiveOnly arguments ∧ bindings'.GiveOnly arguments

/-- What is repeated over an absent value is written once, with nothing given. -/
theorem Repetition.frames_of_giveOnly (hgive : bindings.GiveOnly arguments)
    (hlists : arguments.HasNoLists) {repetition : Repetition} {frames : List Frame}
    (hframes : repetition.frames bindings = .ok frames) : frames = [[]] := by
  have hvalue := hgive repetition.source
  unfold Repetition.frames at hframes
  split at hframes
  next => exact (Except.ok.inj hframes).symm
  next frames' hlist =>
    rw [hlist] at hvalue
    split at hvalue
    next => exact absurd hvalue.symm (hlists.get_ne_list _ frames')
    next => cases hvalue
  next => cases hframes

theorem Repetition.once_of_giveOnly (hgive : bindings.GiveOnly arguments) (repetition : Repetition)
    (hregion : ∀ parameters ∈ repetition.frame, parameters.context ≠ Declarations.rootContext)
    (body : Template) : ∃ inside : Bindings, inside.GiveOnly arguments ∧
      repetition.once body bindings [] = body.render inside := by
  unfold Repetition.once Repetition.bind
  cases hframe : repetition.frame with
  | none => exact ⟨bindings, hgive, rfl⟩
  | some parameters => exact ⟨_, hgive.cons (hregion parameters hframe), rfl⟩

namespace Edit

theorem shared_giveOnly (arguments : Frame) (var : Var) :
    var.Shared (Bindings.BothGiveOnly arguments) :=
  fun _ _ hboth => (hboth.1 var).trans (hboth.2 var).symm

/-- Repetitions agree whatever regions they have, since no region is given any values. -/
theorem agree_repetition (hlists : arguments.HasNoLists) (var : Var)
    {frame frame' : Option Parameters}
    (hframe : ∀ parameters ∈ frame, parameters.context ≠ Declarations.rootContext)
    (hframe' : ∀ parameters ∈ frame', parameters.context ≠ Declarations.rootContext) :
    Agree (Bindings.BothGiveOnly arguments) ⟨.repetition frame, var⟩ ⟨.repetition frame', var⟩ := by
  refine .repetition (shared_giveOnly arguments var) ?_
  intro first second halike bindings bindings' hboth frames hframes
  obtain rfl := Repetition.frames_of_giveOnly hboth.1 hlists hframes
  rw [List.forall_mem_singleton]
  obtain ⟨inside, hinside, heq⟩ :=
    Repetition.once_of_giveOnly hboth.1 ⟨var, frame⟩ hframe first
  obtain ⟨inside', hinside', heq'⟩ :=
    Repetition.once_of_giveOnly hboth.2 ⟨var, frame'⟩ hframe' second
  rw [heq, heq']
  exact halike inside inside' ⟨hinside, hinside'⟩

/-- An edit agrees with what becomes of it when a region is entered. -/
theorem Later.agree (hlists : arguments.HasNoLists) {size : Nat} {edit₀ edit : Edit}
    (h : edit₀.Later size edit) (hsize : 0 < size)
    (hregion : ∀ frame, edit₀.change = .repetition frame → ∀ parameters ∈ frame,
      parameters.context ≠ Declarations.rootContext) :
    edit₀.Agree (Bindings.BothGiveOnly arguments) edit := by
  rcases h with rfl | ⟨hchange, c, hc, rfl⟩
  · obtain ⟨change, var⟩ := edit
    cases change with
    | repetition frame =>
      exact agree_repetition hlists var (hregion frame rfl) (hregion frame rfl)
    | _ => exact .plain nofun (shared_giveOnly arguments var)
  · obtain ⟨change, var⟩ := edit₀
    obtain rfl : change = .repetition none := hchange
    refine agree_repetition hlists var nofun ?_
    rintro parameters ⟨⟩ hroot
    have hindex : c.index = 0 := congrArg ContextId.index hroot
    exact absurd (hindex ▸ hc) (Nat.not_le.mpr hsize)

end Edit

namespace Declarations

variable {d d₀ : Declarations} {pass : AttributePass} {id : NodeId}

/-- Regions that were entered later make no difference to the edits of a node. -/
theorem LogsKept.agree_edits (h : d₀.LogsKept d) (hd₀ : d₀.WellFormed) (hd : d.WellFormed)
    (hlists : arguments.HasNoLists) (id : NodeId) :
    List.Forall₂ (Edit.Agree (Bindings.BothGiveOnly arguments)) (d₀.edits id) (d.edits id) := by
  have hlater := (List.forall₂_and_left _ _).mpr
    ⟨fun edit₀ (hedit : edit₀ ∈ d₀.edits id) => hedit, h.edits hd₀ hd id⟩
  refine hlater.imp fun edit₀ edit hpair => hpair.2.agree hlists ?_ ?_
  · obtain ⟨i, scope, -, hs, -⟩ := hd₀.mem_edits.mp hpair.1
    obtain ⟨x, hx⟩ := hd₀.context_of hs
    exact Nat.zero_lt_of_lt (lt_of_context? hx)
  · intro frame hchange parameters hparameters hroot
    obtain ⟨i, scope, logged, hs, -, -, -, hmutation⟩ := hd₀.mem_edits.mp hpair.1
    rw [hchange] at hmutation
    obtain ⟨-, rfl⟩ := Mutation.change?_eq_repetition.mp hmutation
    obtain ⟨context, hnested, rfl⟩ := Option.map_eq_some_iff.mp hparameters
    obtain rfl : context = rootContext := hroot
    exact absurd (hd₀.nested_of hs hnested).1 (Nat.not_lt_zero _)

/-- The edits of an element are its mutations, when all of them are standard. -/
theorem map_logged_edits (h : ∀ pair ∈ d.mutationsOf id, pair.2.mutation.IsStandard) :
    (d.edits id).map Edit.logged = (d.mutationsOf id).map (·.2) := by
  unfold edits
  rw [List.map_filterMap, List.filterMap_eq_map_iff_forall_eq_some]
  intro pair hpair
  obtain ⟨change, hchange⟩ := Option.isSome_iff_exists.mp
    ((pair.2.mutation.isSome_change? (Site.mk d pair.1).loopParameters?).mpr (h pair hpair))
  have hedit : d.edit? pair.1 pair.2 = some ⟨change, ⟨pair.1.context, pair.2.slot⟩⟩ :=
    congrArg (Option.map _) hchange
  have hmutation := (Mutation.change?_eq_some.mp hchange).1
  rw [hedit, Option.map_some, Edit.logged, ← hmutation]

/-! ## The whole tree -/

/-- The element with the identifier is written as its contribution, all other nodes as
    they are. -/
def contributing (d : Declarations) (pass : AttributePass) (arguments : Frame) (id : NodeId) :
    Writing := fun node raw content items =>
  match content with
  | .element element =>
    if node = id then
      arguments.contribution ((d.mutationsOf id).map (·.2)) (d.tree.name element.name.localName)
        (d.attributes pass id element) (.sequence items)
    else d.weaveNode pass node raw content items
  | _ => d.weaveNode pass node raw content items

/-- The template of the whole tree with its nodes written one by one. -/
def wovenWith (d : Declarations) (writing : Writing) : Template :=
  match d.tree.branch? Tree.root with
  | some branch => branch.write d.tree.names writing false
  | none => .empty

/-- The mutations of the node are logged in the context of the document, and none of them
    repeats it. -/
def IsContributing (d : Declarations) (id : NodeId) : Prop :=
  ∀ pair ∈ d.mutationsOf id,
    pair.1.context = rootContext ∧ pair.2.mutation.kind ≠ Mutation.repeatEach

/-- An element whose mutations are such renders to its contribution. -/
theorem render_weaveNode_eq (hlists : arguments.HasNoLists)
    (hid : d.IsContributing id) {node : NodeId} {content : Content}
    (hadmits : d.Admits node content) (hgive : bindings.GiveOnly arguments) (raw : Bool)
    (items : List Template) :
    (d.weaveNode pass node raw content items).render bindings =
      (d.contributing pass arguments id node raw content items).render bindings := by
  unfold contributing
  split
  next element =>
    split
    next heq =>
      subst heq
      have hedit : ∀ edit ∈ d.edits node, edit.var.context = rootContext ∧
          ∀ frame, edit.change ≠ .repetition frame := by
        intro edit hedit
        obtain ⟨pair, hpair, hsome⟩ := List.mem_filterMap.mp hedit
        obtain ⟨hcontext, hkind⟩ := hid pair hpair
        obtain ⟨hmutation, hvar⟩ := of_edit? hsome
        refine ⟨(congrArg Var.context hvar).trans hcontext, fun frame hchange => hkind ?_⟩
        rw [hmutation, hchange]
        rfl
      rw [← map_logged_edits hadmits]
      exact Edit.render_weave_eq hgive hlists (fun edit hmem => (hedit edit hmem).1)
        (fun edit hmem => (hedit edit hmem).2) _ _ _
    next => rfl
  next => rfl

/-- The template of a tree renders as that in which one element is written as its
    contribution, also when regions were entered in between. -/
theorem LogsKept.render_wovenWith (h : d₀.LogsKept d) (hd₀ : d₀.WellFormed) (hd : d.WellFormed)
    (hpass : pass.IsStandard) (hadmits : ∀ node ∈ d.visited, d.Admits node.1 node.2)
    (hlists : arguments.HasNoLists) (hid : d.IsContributing id)
    (hgive : bindings.GiveOnly arguments) :
    (d₀.woven pass).render bindings =
      (d.wovenWith (d.contributing pass arguments id)).render bindings := by
  unfold visited at hadmits
  unfold woven wovenWith
  rw [h.tree] at hadmits ⊢
  cases hbranch : d₀.tree.branch? Tree.root with
  | none => rfl
  | some branch =>
    rw [hbranch] at hadmits
    dsimp only
    rw [weave_eq_write]
    refine branch.alike_write (R := Bindings.BothGiveOnly arguments) false ?_ _ _ ⟨hgive, hgive⟩
    intro node hnode raw items items' hitems bindings bindings' hboth
    have hattributes (element : Element) : (d₀.attributes pass node.1 element).Alike
        (Bindings.BothGiveOnly arguments) (d.attributes pass node.1 element) := by
      rw [h.attributes hd₀ hd hpass.ignoresWrappers]
      exact alike_attributes hpass element fun edit _ _ _ =>
        Edit.shared_giveOnly arguments edit.var
    -- First from the earlier declarations to the later ones, then on to the contribution.
    have halike := alike_weaveNode h.tree.symm hattributes (h.agree_edits hd₀ hd hlists node.1)
      raw node.2 hitems
    rw [halike _ _ hboth]
    exact render_weaveNode_eq hlists hid (hadmits node hnode) hboth.2 raw items'

end Declarations

/-! ## Documents -/

namespace Document

/-- A document renders arguments without lists as if any one element whose mutations are
    logged in the context of the document, and do not repeat it, were written as its
    contribution: nothing if some removal is given; else the element with the value of the
    last replacement that is given, or its children if there is none, and then the values of
    the additions after this replacement. A void element has its open tag alone. -/
theorem render_contributing (tree : Tree) {pass : AttributePass} (hpass : pass.IsStandard)
    (optimizing : Bool) (operations : List Operation) :
    let doc := (ofTree tree ⟨.standard, pass⟩ optimizing).run operations
    ∀ renderer arguments id, doc.compile.1 = .ok renderer → doc.declarations.IsContributing id →
      Frame.HasNoLists arguments →
      let template := doc.declarations.wovenWith (doc.declarations.contributing pass arguments id)
      let log := (doc.declarations.mutationsOf id).map (·.2)
      (doc.render arguments).1 =
          ((Program.mk template doc.parameters).render arguments).mapError .render ∧
        ∀ tag attributes inside bindings attributesMarkup insideMarkup,
          attributes.render bindings = .ok attributesMarkup →
            inside.render bindings = .ok insideMarkup →
              (arguments.contribution log tag attributes inside).render bindings =
                .ok (if log.any (arguments.gives Mutation.remove) then ""
                  else Markup.element tag attributesMarkup
                    (((arguments.replacement? log).map arguments.printed).getD insideMarkup ++
                      arguments.additions (arguments.afterReplacement log))) := by
  intro doc renderer arguments id hrenderer hid hlists template log
  have hd : doc.declarations.WellFormed := wellFormed_run tree _ optimizing operations
  obtain ⟨d₀, hd₀, hkept, -, hadmits, hrender⟩ := exists_woven_of_compile hpass hrenderer
  have htemplate := hkept.render_wovenWith hd₀ hd hpass hadmits hlists hid (.top arguments)
  refine ⟨?_, fun _ _ _ _ _ _ => Frame.render_contribution⟩
  rw [hrender, Program.render, Program.render]
  exact congrArg _ (ite_congr rfl (fun _ => rfl) fun _ => htemplate)

/-- A paragraph that two scopes mutate: an addition that a later replacement discards, one
    that comes after it, and a removal that is not given. -/
theorem render_contributing_section :
    let doc := (ofTree sectionTree).run [.find "p", .find "section > p",
      .log ⟨1⟩ { kind := Mutation.append }, .log ⟨2⟩ { kind := Mutation.replaceInnerHtml },
      .log ⟨2⟩ { kind := Mutation.append }, .log ⟨1⟩ { kind := Mutation.remove }]
    let arguments : Frame := [.text "x", .text "y", .int 3, .bool false]
    let template := doc.declarations.wovenWith
      (doc.declarations.contributing .withOverrides arguments ⟨2⟩)
    (∃ renderer, doc.compile.1 = .ok renderer) ∧ doc.declarations.IsContributing ⟨2⟩ ∧
      arguments.HasNoLists ∧
      (doc.render arguments).1 =
        ((Program.mk template doc.parameters).render arguments).mapError .render ∧
      (doc.render arguments).1.toOption = some "<section><p>y3</p></section>" := by
  intro doc arguments template
  have hcompile : ∃ renderer, doc.compile.1 = .ok renderer :=
    exists_renderer_of_isOk (by decide +kernel)
  have hid : doc.declarations.IsContributing ⟨2⟩ := by
    unfold Declarations.IsContributing
    decide +kernel
  have hlists : arguments.HasNoLists := by
    simp [arguments, Frame.HasNoLists]
  obtain ⟨renderer, hrenderer⟩ := hcompile
  refine ⟨⟨renderer, hrenderer⟩, hid, hlists, ?_, by decide +kernel⟩
  exact (render_contributing sectionTree .withOverrides true _ renderer arguments ⟨2⟩ hrenderer hid
    hlists).1

end Document

end HtmlTemplate
