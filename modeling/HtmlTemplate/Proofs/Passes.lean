-- SUMMARY: The passes to the normal form of a template change nothing that is rendered.
import HtmlTemplate.Proofs.Rendered

/-!
# The passes keep what is rendered

Each of the three passes is compared with the template it starts from under any
frames that are bound, by induction on the template. A pass that takes sequences
apart or joins markup changes the shape of a list of templates; what it keeps is
`Template.renderAll`, the markup of the whole list, and with it the failure that is
met first.
-/

namespace HtmlTemplate.Template

/-! ## Writing elements out -/

mutual

theorem render_lower (template : Template) (bindings : Bindings) :
    template.lower.render bindings = template.render bindings := by
  cases template with
  | static markup => rfl
  | dynamic var => rfl
  | sequence items => simpa only [lower, render] using renderAll_lowerAll items bindings
  | choice condition yes no =>
    simp only [lower, render, render_lower yes, renderOption_lowerOption no]
  | block repetition body =>
    -- The body is rendered under the frames of each repetition.
    have hbody : body.lower.render = body.render := funext (render_lower body)
    simp only [lower, render, hbody]
  | element name attributes content =>
    simp only [lower, render, renderAll_append, renderAll, render_lower attributes]
    split <;> simp [renderAll, render, render_lower content, Rendered.append_assoc]
  | attr name value =>
    simp [lower, render, renderAll, render_lower value, Rendered.append_assoc]

theorem renderAll_lowerAll (items : List Template) (bindings : Bindings) :
    renderAll (lowerAll items) bindings = renderAll items bindings := by
  cases items with
  | nil => rfl
  | cons item rest =>
    simp only [lowerAll, renderAll, render_lower item, renderAll_lowerAll rest]

theorem renderOption_lowerOption (item : Option Template) (bindings : Bindings) :
    renderOption (lowerOption item) bindings = renderOption item bindings := by
  cases item with
  | none => rfl
  | some item => exact render_lower item bindings

end

/-! ## Taking sequences apart -/

theorem render_ofItems (items : List Template) (bindings : Bindings) :
    (ofItems items).render bindings = renderAll items bindings := by
  unfold ofItems
  split
  · simp [renderAll]
  · rfl

theorem renderAll_items (template : Template) (bindings : Bindings) :
    renderAll template.items bindings = template.render bindings := by
  cases template with
  | sequence items => rfl
  | _ => simp [items, renderAll]

mutual

theorem render_flatten (template : Template) (bindings : Bindings) :
    template.flatten.render bindings = template.render bindings := by
  cases template with
  | static markup => rfl
  | dynamic var => rfl
  | sequence parts =>
    simpa only [flatten, render, render_ofItems] using renderAll_flattenAll parts bindings
  | choice condition yes no =>
    simp only [flatten, render, render_flatten yes, renderOption_flattenOption no]
  | block repetition body =>
    have hbody : body.flatten.render = body.render := funext (render_flatten body)
    simp only [flatten, render, hbody]
  | element name attributes content =>
    simp only [flatten, render, render_flatten attributes, render_flatten content]
  | attr name value => simp only [flatten, render, render_flatten value]

theorem renderAll_flattenAll (parts : List Template) (bindings : Bindings) :
    renderAll (flattenAll parts) bindings = renderAll parts bindings := by
  cases parts with
  | nil => rfl
  | cons part rest =>
    simp only [flattenAll, renderAll_append, renderAll_items, renderAll, render_flatten part,
      renderAll_flattenAll rest]

theorem renderOption_flattenOption (item : Option Template) (bindings : Bindings) :
    renderOption (flattenOption item) bindings = renderOption item bindings := by
  cases item with
  | none => rfl
  | some item => exact render_flatten item bindings

end

/-! ## Joining markup -/

theorem renderAll_consMerged (item : Template) (rest : List Template) (bindings : Bindings) :
    renderAll (consMerged item rest) bindings =
      (item.render bindings).append (renderAll rest bindings) := by
  unfold consMerged
  split
  next markup =>
    by_cases hempty : markup.isEmpty
    · have hmarkup : markup = "" := by simpa using hempty
      simp [hmarkup, render]
    · simp only [hempty, Bool.false_eq_true, if_false]
      split
      · simp only [renderAll, render, ← Rendered.append_assoc, Rendered.append_ok_ok]
      · rfl
  next => rfl

mutual

theorem render_merge (template : Template) (bindings : Bindings) :
    template.merge.render bindings = template.render bindings := by
  cases template with
  | static markup => rfl
  | dynamic var => rfl
  | sequence parts =>
    simpa only [merge, render, render_ofItems] using renderAll_mergeAll parts bindings
  | choice condition yes no =>
    simp only [merge, render, render_merge yes, renderOption_mergeOption no]
  | block repetition body =>
    have hbody : body.merge.render = body.render := funext (render_merge body)
    simp only [merge, render, hbody]
  | element name attributes content =>
    simp only [merge, render, render_merge attributes, render_merge content]
  | attr name value => simp only [merge, render, render_merge value]

theorem renderAll_mergeAll (parts : List Template) (bindings : Bindings) :
    renderAll (mergeAll parts) bindings = renderAll parts bindings := by
  cases parts with
  | nil => rfl
  | cons part rest =>
    simp only [mergeAll, renderAll_consMerged, renderAll, render_merge part,
      renderAll_mergeAll rest]

theorem renderOption_mergeOption (item : Option Template) (bindings : Bindings) :
    renderOption (mergeOption item) bindings = renderOption item bindings := by
  cases item with
  | none => rfl
  | some item => exact render_merge item bindings

end

/-! ## Any passes in any order -/

/-- The passes, each on its own. -/
inductive Pass where
  | lower
  | flatten
  | merge

def Pass.apply : Pass → Template → Template
  | .lower, template => template.lower
  | .flatten, template => template.flatten
  | .merge, template => template.merge

/-- Run passes one after the other, the first of the list first. -/
def applyPasses (template : Template) (passes : List Pass) : Template :=
  passes.foldl (fun template pass => pass.apply template) template

theorem render_apply (pass : Pass) (template : Template) (bindings : Bindings) :
    (pass.apply template).render bindings = template.render bindings := by
  cases pass with
  | lower => exact render_lower template bindings
  | flatten => exact render_flatten template bindings
  | merge => exact render_merge template bindings

theorem render_applyPasses (template : Template) (passes : List Pass) (bindings : Bindings) :
    (template.applyPasses passes).render bindings = template.render bindings := by
  induction passes generalizing template with
  | nil => rfl
  | cons pass rest ih =>
    calc ((pass.apply template).applyPasses rest).render bindings
        = (pass.apply template).render bindings := ih (pass.apply template)
      _ = template.render bindings := render_apply pass template bindings

theorem render_optimize (template : Template) (bindings : Bindings) :
    template.optimize.render bindings = template.render bindings :=
  render_applyPasses template [.lower, .flatten, .merge] bindings

end HtmlTemplate.Template

namespace HtmlTemplate.Program

/-- Templates that render alike make programs that render alike. -/
theorem render_congr {first second : Template}
    (h : ∀ bindings, first.render bindings = second.render bindings) (parameters : Parameters)
    (arguments : Frame) :
    (Program.mk first parameters).render arguments =
      (Program.mk second parameters).render arguments := by
  simp only [render, h]

theorem render_build (optimizing : Bool) (template : Template) (parameters : Parameters)
    (arguments : Frame) :
    (build optimizing template parameters).render arguments =
      (Program.mk template parameters).render arguments := by
  cases optimizing with
  | false => rfl
  | true => exact render_congr template.render_optimize parameters arguments

/-- Bringing a template to normal form, after any passes in any order, changes
    neither what a program writes nor how it fails. -/
theorem render_build_applyPasses (optimizing : Bool) (passes : List Template.Pass)
    (template : Template) (parameters : Parameters) (arguments : Frame) :
    (build optimizing (template.applyPasses passes) parameters).render arguments =
      (build false template parameters).render arguments := by
  rw [render_build]
  apply render_congr
  intro bindings
  exact template.render_applyPasses passes bindings

end HtmlTemplate.Program
