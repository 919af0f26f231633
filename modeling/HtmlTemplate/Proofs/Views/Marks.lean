-- SUMMARY: Texts and attribute values that are handed to views cannot change the tags of what is rendered.
import HtmlTemplate.Proofs.Escaping
import HtmlTemplate.Proofs.Marks
import HtmlTemplate.Proofs.Views
import Mathlib.Data.List.Forall2

/-!
# Views that differ in texts

Programs that differ in texts and attribute values alone declare the same things, so that
they leave the same document behind. Only their values differ, and these are escaped:
none of them shows a character that opens or closes a tag, or the quotes of a value. So
the two renderings agree on these characters.
-/

namespace HtmlTemplate

variable {characters : List Char}

/-! ## Escaped values -/

namespace Markup

theorem only_eq_empty {markup : String} (h : ∀ c ∈ markup.toList, c ∉ characters) :
    only characters markup = "" := by
  rw [only, List.filter_eq_nil_iff.mpr fun c hc => by simpa using h c hc]

/-- An escaped text shows no brackets. -/
theorem only_escapedText (text : String) : only ['<', '>'] (escapedText text) = "" := by
  apply only_eq_empty
  intro c hc
  simpa using ne_of_mem_escapedText hc

/-- An escaped value shows neither brackets nor quotes. -/
theorem only_escapedValue (hsub : characters ⊆ ['<', '>', '"']) (value : String) :
    only characters (escapedValue value) = "" := by
  apply only_eq_empty
  intro c hc hmem
  obtain ⟨hlt, hgt, hquote⟩ := ne_of_mem_escapedValue hc
  simpa [hlt, hgt, hquote] using hsub hmem

end Markup

theorem Frame.only_put (frame : Frame) (slot : Nat) (value : Value) :
    (frame.put slot value).only characters =
      (frame.only characters).put slot (value.only characters) := by
  simp only [only, put, List.map_set, List.map_append, List.map_replicate, List.length_map,
    Value.only_absent]

/-! ## Views that agree -/

namespace View

/-- The view without all characters but the given ones in its values. -/
def only (characters : List Char) (view : View) : View :=
  { view with values := view.values.only characters }

theorem only_eq_iff {view view' : View} :
    view.only characters = view'.only characters ↔
      view.document = view'.document ∧ view.scope = view'.scope ∧
        view.values.only characters = view'.values.only characters := by
  simp only [only, View.mk.injEq]

/-- Two bodies answer alike in views that agree on the characters, and leave views behind
    that agree on them. -/
def AgreeOn (characters : List Char) (body body' : View → Outcome) : Prop :=
  ∀ view view', view.only characters = view'.only characters →
    (body view).1 = (body' view').1 ∧
      (body view).2.only characters = (body' view').2.only characters

variable {view view' : View} {value value' : Value} {body body' : View → Outcome}

theorem AgreeOn.symm (h : AgreeOn characters body body') : AgreeOn characters body' body := by
  intro view view' hviews
  obtain ⟨hresult, hlast⟩ := h view' view hviews.symm
  exact ⟨hresult.symm, hlast.symm⟩

theorem AgreeOn.trans {body'' : View → Outcome} (h : AgreeOn characters body body')
    (h' : AgreeOn characters body' body'') : AgreeOn characters body body'' := by
  intro view view' hviews
  obtain ⟨hresult, hlast⟩ := h view view rfl
  obtain ⟨hresult', hlast'⟩ := h' view view' hviews
  exact ⟨hresult.trans hresult', hlast.trans hlast'⟩

theorem give_agree (hviews : view.only characters = view'.only characters)
    (hvalue : value.only characters = value'.only characters) (i : ScopeId) (mutation : Mutation) :
    (view.give i mutation value).1 = (view'.give i mutation value').1 ∧
      (view.give i mutation value).2.only characters =
        (view'.give i mutation value').2.only characters := by
  obtain ⟨hdocument, hscope, hvalues⟩ := only_eq_iff.mp hviews
  unfold give
  rw [hdocument]
  split
  next => exact ⟨rfl, only_eq_iff.mpr ⟨rfl, hscope, hvalues⟩⟩
  next =>
    refine ⟨rfl, only_eq_iff.mpr ⟨rfl, hscope, ?_⟩⟩
    rw [Frame.only_put, Frame.only_put, hvalues, hvalue]

theorem agree_declare (hvalue : value.only characters = value'.only characters)
    (selector : String) (mutation : Mutation) :
    AgreeOn characters (fun view => view.declare selector mutation value)
      (fun view => view.declare selector mutation value') := by
  rintro ⟨document, scope, values⟩ ⟨document', scope', values'⟩ hviews
  obtain ⟨rfl, rfl, hvalues⟩ := only_eq_iff.mp hviews
  have hfound (found : Document) : View.only characters ⟨found, scope, values⟩ =
      View.only characters ⟨found, scope, values'⟩ := only_eq_iff.mpr ⟨rfl, rfl, hvalues⟩
  simp only [declare, resolve]
  cases (document.resolve scope selector).1 with
  | error e => exact ⟨rfl, hfound _⟩
  | ok i => exact give_agree (hfound _) hvalue i mutation

theorem agree_within (selector : String) (hbody : AgreeOn characters body body') :
    AgreeOn characters (fun view => view.within selector body)
      (fun view => view.within selector body') := by
  rintro ⟨document, scope, values⟩ ⟨document', scope', values'⟩ hviews
  obtain ⟨rfl, rfl, hvalues⟩ := only_eq_iff.mp hviews
  simp only [within, resolve]
  cases (document.resolve scope selector).1 with
  | error e => exact ⟨rfl, only_eq_iff.mpr ⟨rfl, rfl, hvalues⟩⟩
  | ok i =>
    obtain ⟨hresult, hlast⟩ := hbody ⟨(document.resolve scope selector).2, i, values⟩
      ⟨(document.resolve scope selector).2, i, values'⟩ (only_eq_iff.mpr ⟨rfl, rfl, hvalues⟩)
    obtain ⟨hdocument, -, hvalues⟩ := only_eq_iff.mp hlast
    exact ⟨hresult, only_eq_iff.mpr ⟨hdocument, rfl, hvalues⟩⟩

/-- The bodies of a repetition answer frames that agree. -/
theorem gather_agree {bodies bodies' : List (View → Outcome)}
    (hbodies : List.Forall₂ (AgreeOn characters) bodies bodies')
    (hviews : view.only characters = view'.only characters) :
    (gather bodies view).1.map (List.map (Frame.only characters)) =
        (gather bodies' view').1.map (List.map (Frame.only characters)) ∧
      (gather bodies view).2.only characters = (gather bodies' view').2.only characters := by
  induction hbodies generalizing view view' with
  | nil => exact ⟨rfl, hviews⟩
  | @cons body body' rest rest' hbody _ ih =>
    obtain ⟨hresult, hinside⟩ := hbody view view' hviews
    obtain ⟨hdocument, hscope, hvalues⟩ := only_eq_iff.mp hinside
    rw [gather_cons, gather_cons]
    generalize body view = outcome at *
    generalize body' view' = outcome' at *
    obtain ⟨result, inside⟩ := outcome
    obtain ⟨result', inside'⟩ := outcome'
    obtain rfl : result = result' := hresult
    cases result with
    | error e => exact ⟨rfl, hinside⟩
    | ok done =>
      obtain ⟨hframes, hlast⟩ := @ih { inside with values := [] } { inside' with values := [] }
        (only_eq_iff.mpr ⟨hdocument, hscope, rfl⟩)
      refine ⟨?_, hlast⟩
      have hcons (values : Frame) (frames : Except Error (List Frame)) :
          (frames.map (values :: ·)).map (List.map (Frame.only characters)) =
            (frames.map (List.map (Frame.only characters))).map
              (values.only characters :: ·) := by
        cases frames <;> rfl
      rw [hcons, hcons, hframes, hvalues]

theorem enterRepeated_agree (hviews : view.only characters = view'.only characters)
    (selector : String) :
    (view.enterRepeated selector).1 = (view'.enterRepeated selector).1 ∧
      (view.enterRepeated selector).2.only characters =
        (view'.enterRepeated selector).2.only characters := by
  obtain ⟨document, scope, values⟩ := view
  obtain ⟨document', scope', values'⟩ := view'
  obtain ⟨rfl, rfl, hvalues⟩ := only_eq_iff.mp hviews
  simp only [enterRepeated, resolve]
  generalize document.resolve scope selector = resolved
  obtain ⟨result, found⟩ := resolved
  cases result with
  | error e => exact ⟨rfl, only_eq_iff.mpr ⟨rfl, rfl, hvalues⟩⟩
  | ok i =>
    dsimp only
    generalize found.nest i = nested
    obtain ⟨result, entered⟩ := nested
    cases result with
    | error e => exact ⟨rfl, only_eq_iff.mpr ⟨rfl, rfl, hvalues⟩⟩
    | ok context => exact ⟨rfl, rfl⟩

theorem agree_each (selector : String) {bodies bodies' : List (View → Outcome)}
    (hbodies : List.Forall₂ (AgreeOn characters) bodies bodies') :
    AgreeOn characters (fun view => view.each selector bodies)
      (fun view => view.each selector bodies') := by
  intro view view' hviews
  obtain ⟨-, hscope, hvalues⟩ := only_eq_iff.mp hviews
  have hleft {inside inside' : View} (h : inside.only characters = inside'.only characters) :
      View.only characters { view with document := inside.document } =
        View.only characters { view' with document := inside'.document } :=
    only_eq_iff.mpr ⟨(only_eq_iff.mp h).1, hscope, hvalues⟩
  obtain ⟨hresult, hinside⟩ := enterRepeated_agree hviews selector
  simp only [each]
  generalize view.enterRepeated selector = entered at *
  generalize view'.enterRepeated selector = entered' at *
  obtain ⟨result, inside⟩ := entered
  obtain ⟨result', inside'⟩ := entered'
  obtain rfl : result = result' := hresult
  cases result with
  | error e => exact ⟨rfl, hleft hinside⟩
  | ok i =>
    dsimp only
    obtain ⟨hframes, hlast⟩ := gather_agree hbodies hinside
    generalize gather bodies inside = gathered at *
    generalize gather bodies' inside' = gathered' at *
    obtain ⟨frames, last⟩ := gathered
    obtain ⟨frames', last'⟩ := gathered'
    cases frames with
    | error e =>
      cases frames' with
      | error e' =>
        obtain rfl : e = e' := Except.error.inj hframes
        exact ⟨rfl, hleft hlast⟩
      | ok frames' => cases hframes
    | ok frames =>
      cases frames' with
      | error e' => cases hframes
      | ok frames' =>
        have hvalue : (Value.list frames).only characters =
            (Value.list frames').only characters := by
          rw [Value.only_list, Value.only_list, Except.ok.inj hframes]
        exact give_agree (hleft hlast) hvalue i _

namespace Call

mutual

/-- The call with its attribute values left empty, and its texts too if `texts` says so. -/
def blank (texts : Bool) : Call → Call
  | .text selector content => .text selector (if texts then "" else content)
  | .html selector value => .html selector value
  | .append selector value => .append selector value
  | .attr selector name _ => .attr selector name ""
  | .remove selector => .remove selector
  | .within selector calls => .within selector (blankAll texts calls)
  | .each selector items => .each selector (blankItems texts items)

def blankAll (texts : Bool) : List Call → List Call
  | [] => []
  | call :: rest => blank texts call :: blankAll texts rest

def blankItems (texts : Bool) : List (List Call) → List (List Call)
  | [] => []
  | calls :: rest => blankAll texts calls :: blankItems texts rest

end

/-- The characters that texts and attribute values cannot show, or attribute values alone. -/
def hidden (texts : Bool) : List Char := if texts then ['<', '>'] else ['<', '>', '"']

theorem hidden_subset (texts : Bool) : hidden texts ⊆ ['<', '>', '"'] := by
  cases texts <;> decide

mutual

/-- A call does the same as the call without its texts, as far as the characters go that
    these cannot show. -/
theorem agree_blank (texts : Bool) (call : Call) :
    AgreeOn (hidden texts) (call.blank texts).run call.run := by
  cases call with
  | text selector content =>
    apply agree_declare
    cases texts with
    | true => simp only [if_true, hidden, Value.only_text, Markup.only_escapedText]
    | false => rfl
  | html selector value => exact agree_declare rfl selector _
  | append selector value => exact agree_declare rfl selector _
  | attr selector name value =>
    apply agree_declare
    simp only [Value.only_text, Markup.only_escapedValue (hidden_subset texts)]
  | remove selector => exact agree_declare rfl selector _
  | within selector calls => exact agree_within selector (agree_blankAll texts calls)
  | each selector items => exact agree_each selector (agree_blankItems texts items)

theorem agree_blankAll (texts : Bool) (calls : List Call) :
    AgreeOn (hidden texts) (runAll (blankAll texts calls)) (runAll calls) := by
  intro view view' hviews
  cases calls with
  | nil => exact ⟨rfl, hviews⟩
  | cons call rest =>
    obtain ⟨hresult, hinside⟩ := agree_blank texts call view view' hviews
    simp only [blankAll, runAll]
    generalize (call.blank texts).run view = outcome at *
    generalize call.run view' = outcome' at *
    obtain ⟨result, inside⟩ := outcome
    obtain ⟨result', inside'⟩ := outcome'
    obtain rfl : result = result' := hresult
    cases result with
    | error e => exact ⟨rfl, hinside⟩
    | ok done => exact agree_blankAll texts rest inside inside' hinside

theorem agree_blankItems (texts : Bool) (items : List (List Call)) :
    List.Forall₂ (AgreeOn (hidden texts)) (bodies (blankItems texts items)) (bodies items) := by
  cases items with
  | nil => exact .nil
  | cons calls rest => exact .cons (agree_blankAll texts calls) (agree_blankItems texts rest)

end

theorem agree_attemptAll (texts : Bool) (calls : List Call) (view view' : View)
    (hviews : view.only (hidden texts) = view'.only (hidden texts)) :
    (attemptAll (blankAll texts calls) view).1 = (attemptAll calls view').1 ∧
      (attemptAll (blankAll texts calls) view).2.only (hidden texts) =
        (attemptAll calls view').2.only (hidden texts) := by
  induction calls generalizing view view' with
  | nil => exact ⟨rfl, hviews⟩
  | cons call rest ih =>
    obtain ⟨hresult, hinside⟩ := agree_blank texts call view view' hviews
    obtain ⟨hresults, hlast⟩ := ih _ _ hinside
    simp only [blankAll, attemptAll]
    exact ⟨congrArg₂ List.cons hresult hresults, hlast⟩

end Call

/-! ## Rendering -/

theorem render_congr_only (hviews : view.only characters = view'.only characters) :
    view.render.1.map (Markup.only characters) = view'.render.1.map (Markup.only characters) := by
  obtain ⟨hdocument, -, hvalues⟩ := only_eq_iff.mp hviews
  have hrendered := view.document.render_congr_only hvalues
  simp only [render]
  rwa [← hdocument]

/-- Two programs that make the same calls with other attribute values, and with other texts
    if `texts` says so, end in the same way, and so does rendering after them: in the same
    error, or in markup with the same brackets in the same order, and with the same quotes
    when the texts are the same. -/
theorem render_congr_blank (view : View) (calls calls' : List Call) (texts : Bool)
    (h : Call.blankAll texts calls = Call.blankAll texts calls') :
    let shown (view : View) : Except Error String :=
      view.render.1.map (Markup.only (if texts then ['<', '>'] else ['<', '>', '"']))
    ((Call.runAll calls view).1 = (Call.runAll calls' view).1 ∧
      shown (Call.runAll calls view).2 = shown (Call.runAll calls' view).2) ∧
    ((Call.attemptAll calls view).1 = (Call.attemptAll calls' view).1 ∧
      shown (Call.attemptAll calls view).2 = shown (Call.attemptAll calls' view).2) := by
  intro shown
  have hrun : AgreeOn (Call.hidden texts) (Call.runAll calls) (Call.runAll calls') := by
    apply (Call.agree_blankAll texts calls).symm.trans
    rw [h]
    exact Call.agree_blankAll texts calls'
  constructor
  · obtain ⟨hresult, hlast⟩ := hrun view view rfl
    exact ⟨hresult, render_congr_only hlast⟩
  · have hfirst := Call.agree_attemptAll texts calls view view rfl
    have hsecond := Call.agree_attemptAll texts calls' view view rfl
    rw [h] at hfirst
    exact ⟨hfirst.1.symm.trans hsecond.1,
      render_congr_only (hfirst.2.symm.trans hsecond.2)⟩

/-- Texts that read like markup and a value that closes its quotes, against plain ones. -/
theorem render_congr_blank_section :
    let view : View := { document := .ofTree Document.sectionTree }
    let calls (text value : String) : List Call :=
      [.each "section" [[.text "p" text], []], .attr "section" "class" value]
    Call.blankAll true (calls "</p><b>" "\">") = Call.blankAll true (calls "x" "y") ∧
      (Call.runAll (calls "</p><b>" "\">") view).2.render.1.map (Markup.only ['<', '>']) =
        (Call.runAll (calls "x" "y") view).2.render.1.map (Markup.only ['<', '>']) ∧
      (Call.runAll (calls "x" "y") view).2.render.1 =
        .ok ("<section class=\"y\"><p>x</p></section>" ++
          "<section class=\"y\"><p>a &lt; b</p></section>") := by
  intro view calls
  have hblank : Call.blankAll true (calls "</p><b>" "\">") = Call.blankAll true (calls "x" "y") :=
    rfl
  exact ⟨hblank, (render_congr_blank view _ _ true hblank).1.2, by decide +kernel⟩

end View

end HtmlTemplate
