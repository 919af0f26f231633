-- SUMMARY: What a repetition writes: one piece of markup for each frame, between two pieces that do not depend on them.
import HtmlTemplate.Proofs.Alike
import HtmlTemplate.Proofs.Covering

/-!
# Iterations

A repetition of the document over a single element reads a variable that nothing else
reads. When the element is not inside another repetition, and is not repeated twice, the
output is what is before the repetition, then one piece for each frame, and then what is
after it. Neither the pieces nor what is around them depend on the other frames.
-/

namespace HtmlTemplate

/-! ## Bindings that differ in one variable -/

/-- The bindings have the same values for all other variables. -/
def Bindings.AgreeOff (var : Var) (bindings bindings' : Bindings) : Prop :=
  ∀ other, other ≠ var → bindings.value other = bindings'.value other

theorem ContextId.bindable_agreeOff (context : ContextId) (var : Var) :
    context.Bindable (Bindings.AgreeOff var) := by
  intro bindings bindings' frame h other hother
  rw [Bindings.value_cons, Bindings.value_cons, h other hother]

/-- An edit of another variable makes no difference between the bindings. -/
theorem Edit.agree_of_ne {edit : Edit} {var : Var} (h : edit.var ≠ var) :
    edit.Agree (Bindings.AgreeOff var) edit :=
  .of_shared (fun _ _ hagree => hagree edit.var h) fun parameters _ =>
    parameters.context.bindable_agreeOff var

/-! ## Around one place -/

/-- Under all bindings of the set the same is written. -/
def Constant (P : Bindings → Prop) (write : Bindings → Rendered) : Prop :=
  ∃ rendered, ∀ bindings, P bindings → write bindings = rendered

/-- Under all bindings of the set the same is written around what `hole` writes, or the same
    without it. -/
def Around (P : Bindings → Prop) (hole write : Bindings → Rendered) : Prop :=
  Constant P write ∨ ∃ before after : Rendered, ∀ bindings, P bindings →
    write bindings = (before.append (hole bindings)).append after

section Around

variable {P : Bindings → Prop} {hole : Bindings → Rendered} {first second : Bindings → Rendered}

theorem Constant.congr (h : Constant P first)
    (heq : ∀ bindings, P bindings → second bindings = first bindings) : Constant P second := by
  obtain ⟨rendered, h⟩ := h
  exact ⟨rendered, fun bindings hP => (heq bindings hP).trans (h bindings hP)⟩

theorem Constant.append (hfirst : Constant P first) (hsecond : Constant P second) :
    Constant P fun bindings => (first bindings).append (second bindings) := by
  obtain ⟨a, ha⟩ := hfirst
  obtain ⟨b, hb⟩ := hsecond
  refine ⟨a.append b, fun bindings hP => ?_⟩
  dsimp only
  rw [ha bindings hP, hb bindings hP]

theorem Around.self : Around P hole hole :=
  .inr ⟨.ok "", .ok "", fun _ _ => by rw [Rendered.empty_append, Rendered.append_empty]⟩

theorem Around.append (h : Around P hole first) (hsecond : Constant P second) :
    Around P hole fun bindings => (first bindings).append (second bindings) := by
  rcases h with hfirst | ⟨before, after, h⟩
  · exact .inl (hfirst.append hsecond)
  · obtain ⟨rendered, hrendered⟩ := hsecond
    refine .inr ⟨before, after.append rendered, fun bindings hP => ?_⟩
    dsimp only
    rw [h bindings hP, hrendered bindings hP, Rendered.append_assoc]

theorem Around.prepend (h : Around P hole second) (hfirst : Constant P first) :
    Around P hole fun bindings => (first bindings).append (second bindings) := by
  rcases h with hsecond | ⟨before, after, h⟩
  · exact .inl (hfirst.append hsecond)
  · obtain ⟨rendered, hrendered⟩ := hfirst
    refine .inr ⟨rendered.append before, after, fun bindings hP => ?_⟩
    dsimp only
    rw [h bindings hP, hrendered bindings hP, ← Rendered.append_assoc, ← Rendered.append_assoc]

theorem Around.congr (h : Around P hole first)
    (heq : ∀ bindings, P bindings → second bindings = first bindings) : Around P hole second := by
  rcases h with h | ⟨before, after, h⟩
  · exact .inl (h.congr heq)
  · exact .inr ⟨before, after, fun bindings hP => (heq bindings hP).trans (h bindings hP)⟩

end Around

namespace Template

variable {P : Bindings → Prop} {hole : Bindings → Rendered}

theorem Alike.constant {R : Bindings → Bindings → Prop} {template : Template}
    (h : template.Alike R template) (base : Bindings) : Constant (R base) template.render :=
  ⟨template.render base, fun bindings hR => (h base bindings hR).symm⟩

theorem constant_renderAll {items : List Template}
    (h : ∀ item ∈ items, Constant P item.render) : Constant P (renderAll items) := by
  induction items with
  | nil => exact ⟨.ok "", fun _ _ => rfl⟩
  | cons item rest ih =>
    rw [List.forall_mem_cons] at h
    exact h.1.append (ih h.2)

/-- A choice that always falls the same way. -/
theorem around_choice {condition : Condition} {yes : Template} {no : Option Template}
    (hholds : ∃ decision, ∀ bindings, P bindings → bindings.holds condition = decision)
    (hyes : Around P hole yes.render) (hno : Around P hole (renderOption no)) :
    Around P hole (choice condition yes no).render := by
  obtain ⟨decision, hholds⟩ := hholds
  cases decision with
  | true =>
    refine hyes.congr fun bindings hP => ?_
    rw [render, if_pos (hholds bindings hP)]
  | false =>
    refine hno.congr fun bindings hP => ?_
    rw [render, hholds bindings hP, if_neg Bool.false_ne_true]

theorem around_sequence (before after : List Template) {item : Template}
    (hitem : Around P hole item.render)
    (hothers : ∀ other ∈ before ++ after, Constant P other.render) :
    Around P hole (sequence (before ++ item :: after)).render := by
  rw [List.forall_mem_append] at hothers
  have h := (hitem.append (constant_renderAll hothers.2)).prepend (constant_renderAll hothers.1)
  refine h.congr fun bindings _ => ?_
  rw [render, renderAll_append, renderAll]

theorem around_element {tag : String} {attributes content : Template}
    (hattributes : Constant P attributes.render) (hcontent : Around P hole content.render) :
    Around P hole (element tag attributes content).render := by
  have hfixed (markup : String) : Constant P fun _ => .ok markup := ⟨.ok markup, fun _ _ => rfl⟩
  have hopen := ((hfixed ("<" ++ tag)).append hattributes).append (hfixed ">")
  cases hvoid : Markup.isVoid tag with
  | true =>
    refine .inl ((hopen.append (hfixed "")).congr fun bindings _ => ?_)
    rw [render, hvoid, if_pos rfl]
  | false =>
    have hclosed := (hcontent.append (hfixed ("</" ++ tag ++ ">"))).prepend hopen
    refine hclosed.congr fun bindings _ => ?_
    rw [render, hvoid, if_neg Bool.false_ne_true]

end Template

/-! ## Edits around the place -/

namespace Edit

variable {base : Bindings} {target : Var} {hole : Bindings → Rendered} {edit : Edit}

theorem constant_dynamic {var : Var} (h : var ≠ target) :
    Constant (base.AgreeOff target) (Template.dynamic var).render :=
  Template.Alike.constant (.dynamic fun _ _ hagree => hagree var h) base

theorem around_wrapContent (hvar : edit.var ≠ target) {content : Template}
    (hcontent : Around (base.AgreeOff target) hole content.render) :
    Around (base.AgreeOff target) hole (wrapContent content edit).render := by
  unfold wrapContent
  split
  · refine Template.around_choice ⟨base.holds (.truthy edit.var), fun bindings hagree => ?_⟩
      (.inl (constant_dynamic hvar)) (hcontent.congr fun _ _ => rfl)
    exact congrArg Value.isTruthy (hagree edit.var hvar).symm
  · refine Template.around_sequence [] [.dynamic edit.var] hcontent ?_
    rw [List.nil_append, List.forall_mem_singleton]
    exact constant_dynamic hvar
  · exact hcontent

theorem around_wrapElement (hvar : edit.var ≠ target)
    (hchange : ¬ ∃ frame, edit.change = .repetition frame) {element : Template}
    (helement : Around (base.AgreeOff target) hole element.render) :
    Around (base.AgreeOff target) hole (wrapElement element edit).render := by
  unfold wrapElement
  split
  · refine Template.around_choice ⟨base.holds (.falsy edit.var), fun bindings hagree => ?_⟩
      helement (.inl ⟨.ok "", fun _ _ => rfl⟩)
    exact congrArg (fun value => !Value.isTruthy value) (hagree edit.var hvar).symm
  next frame heq => exact absurd ⟨frame, heq⟩ hchange
  · exact helement

end Edit

namespace Branch

theorem map_visitAll (enters : Content → Bool) (branches : List Branch) :
    (visitAll enters branches).map (·.1) =
      branches.flatMap fun branch => (branch.visit enters).map (·.1) := by
  rw [visitAll_eq_flatMap, List.map_flatMap]

/-- A node that is visited is in one branch alone, when no node is visited twice. -/
theorem exists_split {enters : Content → Bool} {branches : List Branch} {node : NodeId}
    (hnodup : ((visitAll enters branches).map (·.1)).Nodup)
    (hnode : node ∈ (visitAll enters branches).map (·.1)) :
    ∃ before branch after, branches = before ++ branch :: after ∧
      node ∈ (branch.visit enters).map (·.1) ∧ ((branch.visit enters).map (·.1)).Nodup ∧
      ∀ other ∈ before ++ after, node ∉ (other.visit enters).map (·.1) := by
  rw [map_visitAll] at hnodup hnode
  obtain ⟨branch, hmem, hin⟩ := List.mem_flatMap.mp hnode
  obtain ⟨before, after, rfl⟩ := List.append_of_mem hmem
  obtain ⟨hnodups, hdisjoint⟩ := List.nodup_flatMap.mp hnodup
  rw [List.pairwise_append, List.pairwise_cons] at hdisjoint
  obtain ⟨-, ⟨hafter, -⟩, hbefore⟩ := hdisjoint
  refine ⟨before, branch, after, rfl, hin, hnodups branch hmem, ?_⟩
  rw [List.forall_mem_append]
  constructor
  · exact fun other hother hin' => hbefore other hother branch List.mem_cons_self hin' hin
  · exact fun other hother => hafter other hother hin

end Branch

namespace Declarations

variable {d : Declarations} {pass : AttributePass} {target : Var} {node : NodeId}

theorem weaveAll_eq_map (raw : Bool) (branches : List Branch) :
    d.weaveAll pass raw branches = branches.map (d.weave pass raw) := by
  induction branches with
  | nil => rfl
  | cons branch rest ih => rw [weaveAll, List.map_cons, ih]

/-- Where the node is not written, nothing reads a variable that its edits alone read. -/
theorem alike_weave_of_not_mem (hpass : pass.IsStandard) (raw : Bool)
    (honly : ∀ {id edit}, edit ∈ d.edits id → edit.var = target → id = node) {branch : Branch}
    (hnode : node ∉ (branch.visit Content.holdsNodes).map (·.1)) :
    (d.weave pass raw branch).Alike (Bindings.AgreeOff target) (d.weave pass raw branch) := by
  refine alike_weave hpass raw branch fun place hplace edit hedit => ?_
  refine Edit.agree_of_ne fun hvar => hnode ?_
  exact List.mem_map.mpr ⟨place, hplace, honly hedit hvar⟩

/-- The variable is read by one repetition of the node and by nothing else, and this is the
    only repetition of the node and of all nodes above it. -/
structure LoopsAt (d : Declarations) (target : Var) (node : NodeId) : Prop where
  elsewhere : ∀ {id edit}, edit ∈ d.edits id → edit.var = target → id = node
  above : ∀ {id edit}, d.tree.Below id node → edit ∈ d.edits id →
    ¬ ∃ frame, edit.change = .repetition frame
  mem : target ∈ (d.edits node).map Edit.var
  nodup : ((d.edits node).map Edit.var).Nodup
  repeats : ∀ {edit}, edit ∈ d.edits node →
    (edit.var = target ↔ ∃ frame, edit.change = .repetition frame)

namespace LoopsAt

/-- The repetition among the edits of the node. -/
theorem split (h : d.LoopsAt target node) :
    ∃ before frame after, d.edits node = before ++ ⟨.repetition frame, target⟩ :: after ∧
      (∀ edit ∈ before, edit.var ≠ target) ∧ (∀ edit ∈ after, edit.var ≠ target) ∧
      ∀ edit ∈ after, ¬ ∃ frame, edit.change = .repetition frame := by
  obtain ⟨edit, hedit, hvar⟩ := List.mem_map.mp h.mem
  obtain ⟨frame, hchange⟩ := (h.repeats hedit).mp hvar
  obtain ⟨before, after, hedits⟩ := List.append_of_mem hedit
  have hnodup := h.nodup
  rw [hedits, List.map_append, List.map_cons, List.nodup_append, List.nodup_cons] at hnodup
  obtain ⟨-, ⟨hafter, -⟩, hbefore⟩ := hnodup
  rw [hvar] at hafter
  have hother : ∀ other ∈ after, other.var ≠ target := fun other hmem heq =>
    hafter (List.mem_map.mpr ⟨other, hmem, heq⟩)
  refine ⟨before, frame, after, ?_, fun other hmem => ?_, hother, fun other hmem hrepeats => ?_⟩
  · rw [hedits, ← hvar, ← hchange]
  · rw [← hvar]
    exact hbefore _ (List.mem_map_of_mem hmem) _ List.mem_cons_self
  · refine hother other hmem ((h.repeats ?_).mpr hrepeats)
    rw [hedits]
    exact List.mem_append_right _ (List.mem_cons_of_mem _ hmem)

/-- The element that is repeated: its repetition stands in one place, and what is repeated
    does not read the variable. -/
theorem around_weaveNode (h : d.LoopsAt target node) (hpass : pass.IsStandard)
    (base : Bindings) (raw : Bool) (element : Element) {items : List Template}
    (hitems : ∀ item ∈ items, item.Alike (Bindings.AgreeOff target) item) :
    ∃ frame body, Template.Alike (Bindings.AgreeOff target) body body ∧
      Around (base.AgreeOff target) (Template.block ⟨target, frame⟩ body).render
        (d.weaveNode pass node raw (.element element) items).render := by
  obtain ⟨before, frame, after, hedits, hbefore, hafter, hplain⟩ := h.split
  have hagree {edits : List Edit} (hedits : ∀ edit ∈ edits, edit.var ≠ target) :
      List.Forall₂ (Edit.Agree (Bindings.AgreeOff target)) edits edits :=
    List.forall₂_same.mpr fun edit hedit => Edit.agree_of_ne (hedits edit hedit)
  have hattributes : (d.attributes pass node element).Alike (Bindings.AgreeOff target)
      (d.attributes pass node element) := by
    refine alike_attributes hpass element fun edit hedit name hchange => ?_
    rw [hedits, List.mem_append, List.mem_cons] at hedit
    rcases hedit with hedit | rfl | hedit
    · exact (Edit.agree_of_ne (hbefore edit hedit)).shared
    · cases hchange
    · exact (Edit.agree_of_ne (hafter edit hedit)).shared
  -- All edits come to the content, but only those before the repetition are repeated with it.
  let content := after.foldl Edit.wrapContent (before.foldl Edit.wrapContent (.sequence items))
  have hcontent : content.Alike (Bindings.AgreeOff target) content :=
    Edit.alike_foldl_wrapContent (hagree hafter) (Edit.alike_foldl_wrapContent (hagree hbefore)
      (.sequence (List.forall₂_same.mpr hitems)))
  let body := before.foldl Edit.wrapElement
    (.element (d.tree.name element.name.localName) (d.attributes pass node element) content)
  have hbody : body.Alike (Bindings.AgreeOff target) body :=
    Edit.alike_foldl_wrapElement (hagree hbefore) (.element hattributes fun _ => hcontent)
  have hweave : d.weaveNode pass node raw (.element element) items =
      after.foldl Edit.wrapElement (.block ⟨target, frame⟩ body) := by
    simp only [weaveNode, Edit.weave, hedits, List.foldl_append, List.foldl_cons]
    rfl
  refine ⟨frame, body, hbody, ?_⟩
  rw [hweave]
  refine List.foldlRecOn (motive := fun whole : Template => Around _ _ whole.render) after _ .self
    ?_
  intro whole hwhole edit hedit
  exact Edit.around_wrapElement (hafter edit hedit) (hplain edit hedit) hwhole

/-- An element above the one that is repeated writes the same around the repetition. -/
theorem around_weaveNode_above (h : d.LoopsAt target node) (hpass : pass.IsStandard)
    {base : Bindings} {hole : Bindings → Rendered} {id : NodeId} (hid : id ≠ node)
    (habove : d.tree.Below id node) (raw : Bool) {content : Content}
    (hcontent : content.holdsNodes = true) {items : List Template}
    (hitems : Around (base.AgreeOff target) hole (Template.sequence items).render) :
    Around (base.AgreeOff target) hole (d.weaveNode pass id raw content items).render := by
  have hvar : ∀ edit ∈ d.edits id, edit.var ≠ target :=
    fun edit hedit heq => hid (h.elsewhere hedit heq)
  cases content with
  | container => exact hitems
  | element element =>
    have hattributes := alike_attributes (d := d) (R := Bindings.AgreeOff target) hpass element
      fun edit hedit _ _ => (Edit.agree_of_ne (hvar edit hedit)).shared
    refine Edit.weave_induction (P := fun whole => Around _ hole whole.render) hitems ?_ ?_ ?_
    · exact fun edit hedit content => Edit.around_wrapContent (hvar edit hedit)
    · exact fun content => Template.around_element (hattributes.constant base)
    · exact fun edit hedit element =>
        Edit.around_wrapElement (hvar edit hedit) (h.above habove hedit)
  | _ => cases hcontent

/-- The branch of the element itself, which is not below itself. -/
theorem around_weave_here (h : d.LoopsAt target node) (hpass : pass.IsStandard)
    (base : Bindings) (raw : Bool) {content : Content} (hadmits : d.Admits node content)
    {children : List Branch}
    (hchildren : content.holdsNodes = true →
      node ∉ (Branch.visitAll Content.holdsNodes children).map (·.1)) :
    ∃ frame body, Template.Alike (Bindings.AgreeOff target) body body ∧
      Around (base.AgreeOff target) (Template.block ⟨target, frame⟩ body).render
        (d.weave pass raw (.node node content children)).render := by
  have helement : ∃ element, content = .element element := by
    by_contra hnone
    have hedits := Compiler.edits_of_admits hadmits fun element heq => hnone ⟨element, heq⟩
    have hmem := h.mem
    rw [hedits] at hmem
    cases hmem
  obtain ⟨element, rfl⟩ := helement
  rw [weave, weaveAll_eq_map]
  refine h.around_weaveNode hpass base raw element fun item hitem => ?_
  obtain ⟨branch, hbranch, rfl⟩ := List.mem_map.mp hitem
  refine alike_weave_of_not_mem hpass _ h.elsewhere fun hin => hchildren rfl ?_
  rw [Branch.map_visitAll]
  exact List.mem_flatMap.mpr ⟨branch, hbranch, hin⟩

/-- A branch with the element writes the same around its repetition, whatever its list is. -/
theorem around_weave (h : d.LoopsAt target node) (hpass : pass.IsStandard)
    (base : Bindings) {depth : Nat} {id : NodeId} {branch : Branch}
    (hbranch : d.tree.branchWithin depth id = some branch)
    (hadmits : ∀ place ∈ branch.visit Content.holdsNodes, d.Admits place.1 place.2)
    (hnodup : ((branch.visit Content.holdsNodes).map (·.1)).Nodup)
    (hnode : node ∈ (branch.visit Content.holdsNodes).map (·.1)) (raw : Bool) :
    ∃ frame body, Template.Alike (Bindings.AgreeOff target) body body ∧
      Around (base.AgreeOff target) (Template.block ⟨target, frame⟩ body).render
        (d.weave pass raw branch).render := by
  induction depth generalizing id branch raw with
  | zero => cases hbranch
  | succ depth ih =>
    obtain ⟨found, -, rfl⟩ := Option.map_eq_some_iff.mp hbranch
    rw [Branch.visit, List.forall_mem_cons] at hadmits
    rw [Branch.visit, List.map_cons, List.nodup_cons] at hnodup
    rw [Branch.visit, List.map_cons, List.mem_cons] at hnode
    by_cases hid : id = node
    · subst hid
      refine h.around_weave_here hpass base raw hadmits.1 fun hholds => ?_
      rw [if_pos hholds] at hnodup
      exact hnodup.1
    -- The element is below, in the branch of one child.
    replace hnode := hnode.resolve_left fun heq => hid heq.symm
    cases hholds : found.content.holdsNodes with
    | false =>
      rw [hholds] at hnode
      cases hnode
    | true =>
      rw [hholds, if_pos rfl] at hnode hnodup hadmits
      obtain ⟨before, branch, after, hbranches, hin, hnodup, hothers⟩ :=
        Branch.exists_split hnodup.2 hnode
      have hmem : branch ∈ before ++ branch :: after :=
        List.mem_append_right before List.mem_cons_self
      rw [← hbranches] at hmem
      obtain ⟨childId, hchild, hwithin⟩ := List.mem_filterMap.mp hmem
      have hbelow : d.tree.Below id node := by
        obtain ⟨place, hplace, rfl⟩ := List.mem_map.mp hin
        exact Tree.Below.trans_within (.single hchild) (Branch.of_mem_visit hwithin .top hplace).1
      obtain ⟨frame, body, hbody, haround⟩ := ih hwithin
        (fun place hplace => hadmits.2 place (Branch.mem_visitAll.mpr ⟨branch, hmem, hplace⟩))
        hnodup hin (Compiler.holdsRawText d.tree.names found.content)
      refine ⟨frame, body, hbody, ?_⟩
      rw [weave, weaveAll_eq_map, hbranches, List.map_append, List.map_cons]
      refine h.around_weaveNode_above hpass hid hbelow raw hholds
        (Template.around_sequence _ _ haround ?_)
      intro item hitem
      rw [← List.map_append] at hitem
      obtain ⟨other, hother, rfl⟩ := List.mem_map.mp hitem
      exact (alike_weave_of_not_mem hpass _ h.elsewhere (hothers other hother)).constant base

end LoopsAt

/-- The template of a tree writes the same around the repetition, or has no place for it. -/
theorem around_woven (hpass : pass.IsStandard)
    (hadmits : ∀ place ∈ d.visited, d.Admits place.1 place.2) (hnodup : (d.visited.map (·.1)).Nodup)
    (honly : ∀ {id edit}, edit ∈ d.edits id → edit.var = target → id = node)
    (hloops : node ∈ d.visited.map (·.1) → d.LoopsAt target node) (base : Bindings) :
    ∃ frame body, Template.Alike (Bindings.AgreeOff target) body body ∧
      Around (base.AgreeOff target) (Template.block ⟨target, frame⟩ body).render
        (d.woven pass).render := by
  have hempty : Template.empty.Alike (Bindings.AgreeOff target) .empty := .sequence .nil
  unfold visited at hadmits hnodup hloops
  unfold woven
  cases hbranch : d.tree.branch? Tree.root with
  | none => exact ⟨none, .empty, hempty, .inl (hempty.constant base)⟩
  | some branch =>
    rw [hbranch] at hadmits hnodup hloops
    by_cases hnode : node ∈ (branch.visit Content.holdsNodes).map (·.1)
    · exact (hloops hnode).around_weave hpass base hbranch hadmits hnodup hnode false
    · have halike := alike_weave_of_not_mem hpass false honly hnode
      exact ⟨none, .empty, hempty, .inl (halike.constant base)⟩

end Declarations

/-! ## Pieces of markup -/

/-- The markup that is rendered, or none. -/
def Rendered.markup (rendered : Rendered) : String := rendered.toOption.getD ""

theorem Rendered.concat_eq_join {pieces : List Rendered} {markup : String}
    (h : concat pieces = .ok markup) : markup = String.join (pieces.map Rendered.markup) := by
  induction pieces generalizing markup with
  | nil => exact (Except.ok.inj h).symm
  | cons piece rest ih =>
    rw [concat, append_eq_ok] at h
    obtain ⟨a, b, rfl, hrest, rfl⟩ := h
    rw [List.map_cons, String.join_cons, ← ih hrest]
    rfl

/-- A program that writes something has written its template. -/
theorem Program.of_render_eq_ok {template : Template} {parameters : Parameters} {arguments : Frame}
    {markup : String}
    (h : ((Program.mk template parameters).render arguments).mapError Error.render = .ok markup) :
    template.render [(parameters.context, arguments)] = .ok markup := by
  unfold Program.render at h
  split at h
  · cases h
  · cases hrendered : template.render [(parameters.context, arguments)] with
    | error e =>
      rw [hrendered] at h
      cases h
    | ok rendered =>
      rw [hrendered] at h
      exact congrArg Except.ok (Except.ok.inj h)

section Pieces

variable {base bindings bindings' : Bindings} {target : Var} {frame : Option Parameters}
  {body : Template} {write : Bindings → Rendered}

/-- What is written for a frame does not depend on the other frames. -/
theorem once_agreeOff (hbody : body.Alike (Bindings.AgreeOff target) body)
    (hagree : base.AgreeOff target bindings) :
    Repetition.once ⟨target, frame⟩ body bindings = Repetition.once ⟨target, frame⟩ body base :=
  funext fun values => (hbody.once (fun parameters _ =>
    parameters.context.bindable_agreeOff target) hagree values).symm

/-- The output is one piece for each frame, between two that do not depend on the frames. -/
theorem Around.exists_pieces (hbody : body.Alike (Bindings.AgreeOff target) body)
    (h : Around (base.AgreeOff target) (Template.block ⟨target, frame⟩ body).render write) :
    ∃ (pre post : String) (piece : Frame → String), ∀ bindings, base.AgreeOff target bindings →
      ∀ frames, Repetition.frames ⟨target, frame⟩ bindings = .ok frames →
        ∀ markup, write bindings = .ok markup →
          markup = pre ++ String.join (frames.map piece) ++ post := by
  rcases h with ⟨rendered, h⟩ | ⟨before, after, h⟩
  · refine ⟨rendered.markup, "", fun _ => "", fun bindings hagree frames _ markup hmarkup => ?_⟩
    have hnothing (frames : List Frame) : String.join (frames.map fun _ => "") = "" := by
      induction frames with
      | nil => rfl
      | cons first rest ih => rw [List.map_cons, String.join_cons, ih, String.append_empty]
    rw [h bindings hagree] at hmarkup
    rw [hnothing, hmarkup, String.append_empty, String.append_empty]
    rfl
  · refine ⟨before.markup, after.markup,
      fun values => (Repetition.once ⟨target, frame⟩ body base values).markup,
      fun bindings hagree frames hframes markup hmarkup => ?_⟩
    rw [h bindings hagree, Template.render_block, hframes, once_agreeOff hbody hagree,
      Rendered.append_eq_ok] at hmarkup
    obtain ⟨first, last, hfirst, rfl, rfl⟩ := hmarkup
    obtain ⟨a, b, rfl, hconcat, rfl⟩ := Rendered.append_eq_ok.mp hfirst
    rw [Rendered.concat_eq_join hconcat, List.map_map]
    rfl

/-- The output depends on the frames alone, and not on the value that they come from. -/
theorem Around.eq_of_frames (hbody : body.Alike (Bindings.AgreeOff target) body)
    (h : Around (base.AgreeOff target) (Template.block ⟨target, frame⟩ body).render write)
    (hagree : base.AgreeOff target bindings) (hagree' : base.AgreeOff target bindings')
    {frames : List Frame} (hframes : Repetition.frames ⟨target, frame⟩ bindings = .ok frames)
    (hframes' : Repetition.frames ⟨target, frame⟩ bindings' = .ok frames) :
    write bindings = write bindings' := by
  rcases h with ⟨rendered, h⟩ | ⟨before, after, h⟩
  · rw [h bindings hagree, h bindings' hagree']
  · rw [h bindings hagree, h bindings' hagree', Template.render_block, Template.render_block,
      hframes, hframes', once_agreeOff hbody hagree, once_agreeOff hbody hagree']

end Pieces

/-! ## Where a repetition of the document stands -/

theorem Edit.Later.repeats_iff {size : Nat} {edit₀ edit : Edit} (h : edit₀.Later size edit) :
    (∃ frame, edit₀.change = .repetition frame) ↔ ∃ frame, edit.change = .repetition frame := by
  rcases h with rfl | ⟨hchange, c, -, rfl⟩
  · exact Iff.rfl
  · exact ⟨fun _ => ⟨_, rfl⟩, fun _ => ⟨none, hchange⟩⟩

namespace Declarations

variable {d d₀ : Declarations} {target : Var} {node : NodeId} {i : ScopeId} {scope : Scope}
  {logged : LoggedMutation}

theorem LogsKept.map_var_edits (h : d₀.LogsKept d) (hd₀ : d₀.WellFormed) (hd : d.WellFormed)
    (id : NodeId) : (d.edits id).map Edit.var = (d₀.edits id).map Edit.var := by
  have hvars : List.Forall₂ Eq ((d₀.edits id).map Edit.var) ((d.edits id).map Edit.var) :=
    List.forall₂_map_left_iff.mpr (List.forall₂_map_right_iff.mpr
      ((h.edits hd₀ hd id).imp fun _ _ hlater => hlater.var.symm))
  rw [List.forall₂_eq_eq_eq] at hvars
  exact hvars.symm

/-- Regions that are entered later do not change where the repetition stands. -/
theorem LoopsAt.of_logsKept (h : d.LoopsAt target node) (hkept : d₀.LogsKept d)
    (hd₀ : d₀.WellFormed) (hd : d.WellFormed) : d₀.LoopsAt target node := by
  constructor
  case elsewhere =>
    intro id edit₀ hedit₀ hvar
    obtain ⟨edit, hedit, hlater⟩ := hkept.exists_later hd₀ hd hedit₀
    exact h.elsewhere hedit (hlater.var.trans hvar)
  case above =>
    intro id edit₀ hbelow hedit₀ hrepeats
    obtain ⟨edit, hedit, hlater⟩ := hkept.exists_later hd₀ hd hedit₀
    exact h.above (hkept.tree ▸ hbelow) hedit (hlater.repeats_iff.mp hrepeats)
  case mem => exact hkept.map_var_edits hd₀ hd node ▸ h.mem
  case nodup => exact hkept.map_var_edits hd₀ hd node ▸ h.nodup
  case repeats =>
    intro edit₀ hedit₀
    obtain ⟨edit, hedit, hlater⟩ := hkept.exists_later hd₀ hd hedit₀
    rw [← hlater.var, h.repeats hedit, hlater.repeats_iff]

namespace WellFormed

/-- Mutations with one variable are the same. -/
theorem eq_of_var_eq (hd : d.WellFormed) {first second : Scope × LoggedMutation} {id id' : NodeId}
    (hfirst : d.Mutates id first) (hsecond : d.Mutates id' second)
    (hvar : first.1.var first.2 = second.1.var second.2) : first = second := by
  obtain ⟨⟨i, hs⟩, -, hlogged⟩ := hfirst
  obtain ⟨⟨j, ht⟩, -, hlogged'⟩ := hsecond
  have howner := hd.owner?_var hs hlogged
  rw [hvar, hd.owner?_var ht hlogged'] at howner
  exact (Option.some.inj howner).symm

/-- An edit of a node comes from a mutation of it. -/
theorem exists_mutates (hd : d.WellFormed) {id : NodeId} {edit : Edit} (hedit : edit ∈ d.edits id) :
    ∃ mutation, d.Mutates id mutation ∧ mutation.2.mutation = edit.change.mutation ∧
      edit.var = mutation.1.var mutation.2 := by
  obtain ⟨mutation, hmem, hsome⟩ := List.mem_filterMap.mp hedit
  exact ⟨mutation, hd.mem_mutationsOf.mp hmem, of_edit? hsome⟩

/-- The variables of the edits of a node are distinct. -/
theorem nodup_map_var (hd : d.WellFormed) (h : (d.mutationsOf node).Nodup) :
    ((d.edits node).map Edit.var).Nodup := by
  rw [List.Nodup, List.pairwise_map]
  unfold edits
  rw [List.pairwise_filterMap]
  refine h.imp_of_mem fun {first second} hfirst hsecond hne edit hedit edit' hedit' hvar => hne ?_
  refine hd.eq_of_var_eq (hd.mem_mutationsOf.mp hfirst) (hd.mem_mutationsOf.mp hsecond) ?_
  rw [← (of_edit? hedit).2, ← (of_edit? hedit').2, hvar]

/-- A mutation of a single node is read by nothing else. -/
theorem eq_of_var_edit (hd : d.WellFormed) (hs : d.scope? i = some scope)
    (hlogged : logged ∈ scope.log) (hnode : node ∈ scope.nodes)
    (hsingle : ∀ other ∈ scope.nodes, other = node) {id : NodeId} {edit : Edit}
    (hedit : edit ∈ d.edits id) (hvar : edit.var = scope.var logged) : id = node := by
  obtain ⟨mutation, hmutates, -, hvar'⟩ := hd.exists_mutates hedit
  have hsame : mutation = (scope, logged) :=
    hd.eq_of_var_eq hmutates ⟨⟨i, hs⟩, hnode, hlogged⟩ (hvar'.symm.trans hvar)
  rw [hsame] at hmutates
  exact hsingle id hmutates.2.1

/-- Where a repetition of a single node stands, if it is the only one of the node and of all
    nodes above it. -/
theorem loopsAt (hd : d.WellFormed) (hself : ¬ d.tree.Below node node)
    (hnodup : (d.mutationsOf node).Nodup)
    (hstandard : ∀ mutation ∈ d.mutationsOf node, mutation.2.mutation.IsStandard)
    (hs : d.scope? i = some scope) (hlogged : logged ∈ scope.log) (hnode : node ∈ scope.nodes)
    (hsingle : ∀ other ∈ scope.nodes, other = node)
    (hkind : logged.mutation.kind = Mutation.repeatEach)
    (hsole : ∀ id mutation, id = node ∨ d.tree.Below id node → d.Mutates id mutation →
      mutation.2.mutation.kind = Mutation.repeatEach → mutation = (scope, logged)) :
    d.LoopsAt (scope.var logged) node := by
  have hmutates : d.Mutates node (scope, logged) := ⟨⟨i, hs⟩, hnode, hlogged⟩
  have hrepeats {edit : Edit} {mutation : Mutation} (hmutation : mutation = edit.change.mutation) :
      mutation.kind = Mutation.repeatEach ↔ ∃ frame, edit.change = .repetition frame := by
    rw [hmutation]
    cases edit.change <;> simp [Change.mutation, Mutation.repeatEach, Mutation.replaceInnerHtml,
      Mutation.append, Mutation.setAttribute, Mutation.remove]
  constructor
  case elsewhere =>
    exact fun hedit hvar => hd.eq_of_var_edit hs hlogged hnode hsingle hedit hvar
  case above =>
    intro id edit hbelow hedit hchange
    obtain ⟨mutation, hmutates', hmutation, -⟩ := hd.exists_mutates hedit
    have hsame := hsole id mutation (.inr hbelow) hmutates' ((hrepeats hmutation).mpr hchange)
    rw [hsame] at hmutates'
    exact hself (hsingle id hmutates'.2.1 ▸ hbelow)
  case mem =>
    have hmem := hd.mem_mutationsOf.mpr hmutates
    obtain ⟨change, hchange⟩ := Option.isSome_iff_exists.mp
      ((logged.mutation.isSome_change? (Site.mk d scope).loopParameters?).mpr (hstandard _ hmem))
    have hedit : d.edit? scope logged = some ⟨change, scope.var logged⟩ :=
      congrArg (Option.map _) hchange
    exact List.mem_map.mpr ⟨_, List.mem_filterMap.mpr ⟨(scope, logged), hmem, hedit⟩, rfl⟩
  case nodup => exact hd.nodup_map_var hnodup
  case repeats =>
    intro edit hedit
    obtain ⟨mutation, hmutates', hmutation, hvar⟩ := hd.exists_mutates hedit
    rw [← hrepeats hmutation]
    constructor
    · intro heq
      have hsame := hd.eq_of_var_eq hmutates' hmutates (hvar.symm.trans heq)
      rw [hsame]
      exact hkind
    · intro heq
      rw [hvar, hsole node mutation (.inl rfl) hmutates' heq]

end WellFormed

/-- The slot of the document belongs to a repetition over a single node, and no other
    repetition is logged on a scope with the node or with a node above it. -/
def RepeatsAlone (d : Declarations) (slot : Nat) (node : NodeId) : Prop :=
  ∃ scope logged, (∃ i, d.scope? i = some scope) ∧ scope.context = rootContext ∧
    node ∈ scope.nodes ∧ (∀ other ∈ scope.nodes, other = node) ∧
    logged ∈ scope.log ∧ logged.slot = slot ∧ logged.mutation.kind = Mutation.repeatEach ∧
    ∀ id mutation, id = node ∨ d.tree.Below id node → d.Mutates id mutation →
      mutation.2.mutation.kind = Mutation.repeatEach → mutation = (scope, logged)

/-- All mutations of a node that is admitted are standard. -/
theorem isStandard_of_admits {content : Content} (h : d.Admits node content) :
    ∀ mutation ∈ d.mutationsOf node, mutation.2.mutation.IsStandard := by
  cases content with
  | element element => exact h
  | comment text => cases h
  | instruction target text => cases h
  | _ =>
    rw [(Compiler.edits_of_not_isMutated h).1]
    nofun

/-- The template that a document renders writes the same around a repetition that stands
    alone, also when regions were entered in between. -/
theorem LogsKept.around_woven (hkept : d₀.LogsKept d) (hd₀ : d₀.WellFormed) (hd : d.WellFormed)
    (hlinked : d.tree.Linked d.tree.children) {pass : AttributePass} (hpass : pass.IsStandard)
    (hadmits₀ : ∀ place ∈ d₀.visited, d₀.Admits place.1 place.2)
    (hadmits : ∀ place ∈ d.visited, d.Admits place.1 place.2)
    (hnodup : ∀ id, (d.mutationsOf id).Nodup) {slot : Nat} (halone : d.RepeatsAlone slot node)
    (base : Bindings) :
    ∃ frame body, Template.Alike (Bindings.AgreeOff ⟨rootContext, slot⟩) body body ∧
      Around (base.AgreeOff ⟨rootContext, slot⟩)
        (Template.block ⟨⟨rootContext, slot⟩, frame⟩ body).render (d₀.woven pass).render := by
  obtain ⟨scope, logged, ⟨i, hs⟩, hcontext, hnode, hsingle, hlogged, rfl, hkind, hsole⟩ := halone
  have htarget : (⟨rootContext, logged.slot⟩ : Var) = scope.var logged := by
    rw [Scope.var, hcontext]
  rw [htarget]
  have honly : ∀ {id edit}, edit ∈ d₀.edits id → edit.var = scope.var logged → id = node := by
    intro id edit₀ hedit₀ hvar
    obtain ⟨edit, hedit, hlater⟩ := hkept.exists_later hd₀ hd hedit₀
    exact hd.eq_of_var_edit hs hlogged hnode hsingle hedit (hlater.var.trans hvar)
  refine Declarations.around_woven hpass hadmits₀ (nodup_visited (hkept.tree ▸ hlinked)) honly
    (fun hvisited => ?_) base
  obtain ⟨place, hplace, rfl⟩ := List.mem_map.mp hvisited
  have hplace : place ∈ d.visited := by
    unfold visited at hplace ⊢
    rwa [hkept.tree]
  have hloops := hd.loopsAt (hlinked.not_below_self place.1) (hnodup place.1)
    (isStandard_of_admits (hadmits place hplace)) hs hlogged hnode hsingle hkind hsole
  exact hloops.of_logsKept hkept hd₀ hd

end Declarations

/-! ## Documents -/

/-- Arguments that differ in one slot alone. -/
theorem Bindings.agreeOff_arguments {slot : Nat} {first second : Frame}
    (h : ∀ other, other ≠ slot → second.get other = first.get other) :
    Bindings.AgreeOff ⟨Declarations.rootContext, slot⟩ [(Declarations.rootContext, first)]
      [(Declarations.rootContext, second)] := by
  rintro ⟨context, other⟩ hvar
  rw [value_cons, value_cons]
  split
  next hroot =>
    obtain rfl : context = Declarations.rootContext := hroot
    exact (h other fun hslot => hvar (congrArg _ hslot)).symm
  next => rfl

theorem Bindings.value_argument (arguments : Frame) (slot : Nat) :
    Bindings.value [(Declarations.rootContext, arguments)] ⟨Declarations.rootContext, slot⟩ =
      arguments.get slot := by
  rw [value_cons, if_pos rfl]

namespace Document

/-- The output of a document around a repetition that stands alone: for any choice of the
    other arguments there are two pieces of markup, and one for each frame, such that the
    output with a list is the pieces of its frames between the two. With an absent value it
    is the same as with one empty frame. -/
theorem render_iterations (tree : Tree) (hbuilt : tree.Built) {pass : AttributePass}
    (hpass : pass.IsStandard) (optimizing : Bool) (operations : List Operation) :
    let doc := (ofTree tree ⟨.standard, pass⟩ optimizing).run operations
    ∀ renderer slot node, doc.compile.1 = .ok renderer → doc.declarations.RepeatsAlone slot node →
      ∀ others : Frame, ∃ (pre post : String) (piece : Frame → String),
        ∀ arguments : Frame, (∀ other, other ≠ slot → arguments.get other = others.get other) →
          (∀ frames markup, arguments.get slot = .list frames →
            (doc.render arguments).1 = .ok markup →
              markup = pre ++ String.join (frames.map piece) ++ post) ∧
          (∀ markup, arguments.get slot = .absent → (doc.render arguments).1 = .ok markup →
            markup = pre ++ piece [] ++ post) ∧
          ∀ arguments' : Frame, (∀ other, other ≠ slot → arguments'.get other = others.get other) →
            arguments.get slot = .absent → arguments'.get slot = .list [[]] →
              arguments.length ≤ doc.parameters.arity → arguments'.length ≤ doc.parameters.arity →
                (doc.render arguments).1 = (doc.render arguments').1 := by
  intro doc renderer slot node hrenderer halone others
  have hd : doc.declarations.WellFormed := wellFormed_run tree _ optimizing operations
  have hlinked : doc.declarations.tree.Linked doc.declarations.tree.children := by
    rw [show doc.declarations.tree = tree from tree_run _ operations]
    exact hbuilt.linked
  obtain ⟨d₀, hd₀, hkept, hadmits₀, hadmits, hrender⟩ := exists_woven_of_compile hpass hrenderer
  obtain ⟨frame, body, hbody, haround⟩ := hkept.around_woven hd₀ hd hlinked hpass hadmits₀ hadmits
    (nodup_mutationsOf tree _ optimizing operations) halone [(Declarations.rootContext, others)]
  obtain ⟨pre, post, piece, hpieces⟩ := haround.exists_pieces hbody
  have hok {arguments : Frame} {markup : String} (h : (doc.render arguments).1 = .ok markup) :
      (d₀.woven pass).render [(Declarations.rootContext, arguments)] = .ok markup := by
    rw [hrender] at h
    exact Program.of_render_eq_ok h
  have hframes {arguments : Frame} {frames : List Frame}
      (h : arguments.get slot = .list frames ∨ arguments.get slot = .absent ∧ frames = [[]]) :
      Repetition.frames ⟨⟨Declarations.rootContext, slot⟩, frame⟩
        [(Declarations.rootContext, arguments)] = .ok frames := by
    rcases h with h | ⟨h, rfl⟩ <;> simp only [Repetition.frames, Bindings.value_argument, h]
  refine ⟨pre, post, piece, fun arguments hothers => ?_⟩
  have hagree := Bindings.agreeOff_arguments hothers
  refine ⟨fun frames markup h hmarkup => ?_, fun markup h hmarkup => ?_,
    fun arguments' hothers' h h' hlength hlength' => ?_⟩
  · exact hpieces _ hagree _ (hframes (.inl h)) _ (hok hmarkup)
  · have heq := hpieces _ hagree _ (hframes (.inr ⟨h, rfl⟩)) _ (hok hmarkup)
    simpa [String.join] using heq
  · have hwoven := haround.eq_of_frames hbody hagree (Bindings.agreeOff_arguments hothers')
      (hframes (.inr ⟨h, rfl⟩)) (hframes (.inl h'))
    rw [hrender, hrender, Program.render, Program.render, if_neg (Nat.not_lt.mpr hlength),
      if_neg (Nat.not_lt.mpr hlength')]
    exact congrArg _ hwoven

/-- A paragraph that is repeated, with a value inside, before an addition to its section. -/
theorem render_iterations_section :
    let doc := (ofTree sectionTree).run [.find "p", .log ⟨1⟩ { kind := Mutation.repeatEach },
      .nest ⟨1⟩, .log ⟨2⟩ { kind := Mutation.replaceInnerHtml }, .find "section",
      .log ⟨3⟩ { kind := Mutation.append }]
    doc.declarations.RepeatsAlone 0 ⟨2⟩ ∧
      (∃ (pre post : String) (piece : Frame → String), ∀ frames markup,
        (doc.render [.list frames, .text "x"]).1 = .ok markup →
          markup = pre ++ String.join (frames.map piece) ++ post) ∧
      (doc.render [.list [[.text "a"], []], .text "x"]).1.toOption =
        some "<section><p>a</p><p>a &lt; b</p>x</section>" := by
  intro doc
  have hcompile : ∃ renderer, doc.compile.1 = .ok renderer :=
    exists_renderer_of_isOk (by decide +kernel)
  have halone : doc.declarations.RepeatsAlone 0 ⟨2⟩ := by
    have hscopes : ∀ scope ∈ doc.declarations.scopes.toList, ∀ logged ∈ scope.log,
        logged.mutation.kind = Mutation.repeatEach →
          doc.declarations.scope? ⟨1⟩ = some scope ∧
            logged = ⟨{ kind := Mutation.repeatEach }, 0⟩ := by
      decide +kernel
    have hscope : (doc.declarations.scope? ⟨1⟩).isSome = true := by decide +kernel
    obtain ⟨scope, hs⟩ := Option.isSome_iff_exists.mp hscope
    have hfields : (doc.declarations.scope? ⟨1⟩).map (fun s => (s.context, s.nodes, s.log)) =
        some (⟨0⟩, [⟨2⟩], [⟨{ kind := Mutation.repeatEach }, 0⟩]) := by
      decide +kernel
    rw [hs, Option.map_some, Option.some_inj, Prod.mk.injEq, Prod.mk.injEq] at hfields
    obtain ⟨hcontext, hnodes, hlog⟩ := hfields
    refine ⟨scope, ⟨{ kind := Mutation.repeatEach }, 0⟩, ⟨⟨1⟩, hs⟩, hcontext, by simp [hnodes],
      by simp [hnodes], by simp [hlog], rfl, rfl, ?_⟩
    rintro id ⟨other, logged⟩ - ⟨⟨i, hother⟩, -, hlogged⟩ hkind
    obtain ⟨hsame, rfl⟩ := hscopes other (Array.mem_toList_iff.mpr (Array.mem_of_getElem? hother))
      logged hlogged hkind
    rw [Option.some.inj (hsame.symm.trans hs)]
  obtain ⟨renderer, hrenderer⟩ := hcompile
  refine ⟨halone, ?_, by decide +kernel⟩
  obtain ⟨pre, post, piece, hpieces⟩ := render_iterations sectionTree built_sectionTree
    .withOverrides true _ renderer 0 ⟨2⟩ hrenderer halone [.absent, .text "x"]
  refine ⟨pre, post, piece, fun frames markup hmarkup => ?_⟩
  have hothers : ∀ slot, slot ≠ 0 → Frame.get [.list frames, .text "x"] slot =
      Frame.get [.absent, .text "x"] slot := by
    rintro (_ | slot) hslot
    · exact absurd rfl hslot
    · rfl
  exact (hpieces [.list frames, .text "x"] hothers).1 frames markup rfl hmarkup

end Document

end HtmlTemplate
