-- SUMMARY: Views whose calls have all succeeded can always be rendered.
import HtmlTemplate.Proofs.Views.Declared
import HtmlTemplate.View.Program

/-!
# Views that render

Between two calls a view is such as `View.Fits` says: its document is declared as
views do, and its values are well-shaped for the context of its scope. Every call
that succeeds keeps this, whatever calls it holds. So a view whose calls have all
succeeded can be rendered, also when other views came before it on the document.
-/

namespace HtmlTemplate

/-! ## Operations that succeed -/

namespace Declarations

variable {d : Declarations} {i j : ScopeId} {c : ContextId} {scope : Scope}

/-- What a search answers is a scope of the same context that was searched for. -/
theorem exists_searched (hplaced : d.Placed) (hd : d.WellFormed) {s : Scope}
    (hs : d.scope? i = some s) {selector : String} (hchild : s.child? selector = some j) :
    ∃ t, d.scope? j = some t ∧ t.context = s.context ∧ d.Searched t := by
  obtain ⟨t, ht, hcontext, hbelow⟩ := hplaced.child hs hchild
  refine ⟨t, ht, hcontext, ?_⟩
  obtain ⟨x, hx⟩ := hd.context_of hs
  rw [Searched, hcontext]
  by_cases hi : i = x.scope
  · rw [regionNodes_eq hx (hi ▸ hs)]
    exact hbelow
  · exact (hplaced.below hs hx hi).trans hbelow

theorem exists_logged (hd : d.WellFormed) {mutation : Mutation} {slot : Nat}
    (h : (d.log i mutation).1 = .ok slot) (hs : d.scope? i = some scope) :
    ∃ t, (d.log i mutation).2.scope? i = some t ∧ t.context = scope.context ∧
      t.nested = scope.nested ∧ ⟨mutation, slot⟩ ∈ t.log := by
  unfold log at h ⊢
  simp only [hs] at h ⊢
  split at h
  next slot' hslot =>
    cases h
    exact ⟨scope, hs, rfl, rfl, (hd.slot_iff hs).mp hslot⟩
  next =>
    cases h
    exact ⟨_, scope?_withLogged i scope mutation hs, rfl, rfl, by simp⟩

theorem exists_entered (h : (d.nest i).1 = .ok c) (hs : d.scope? i = some scope) :
    ∃ t, (d.nest i).2.scope? i = some t ∧ t.nested = some c := by
  unfold nest at h ⊢
  simp only [hs] at h ⊢
  split at h
  next hnested =>
    cases h
    exact ⟨scope, hs, hnested⟩
  next =>
    cases h
    exact ⟨_, scope?_withRegion i scope hs, if_pos rfl⟩

theorem Takes.grows {d' : Declarations} {mutation : Mutation} {value : Value}
    (h : d.Takes scope mutation value) (hgrows : d.Grows d') {t : Scope}
    (hnested : t.nested = scope.nested) : d'.Takes t mutation value := by
  refine ⟨fun hkind => ?_, h.written⟩
  obtain ⟨frames, hvalue, hframes⟩ := h.repeated hkind
  refine ⟨frames, hvalue, fun inner hinner values hvalues => ?_⟩
  exact hgrows.wellShaped (hframes inner (hnested ▸ hinner) values hvalues)

end Declarations

namespace View

variable {view view' : View} {selector : String} {mutation : Mutation} {value : Value}

theorem declare_eq_ok (h : view.declare selector mutation value = (.ok (), view')) :
    ∃ scope inside, view.resolve selector = (.ok scope, inside) ∧
      inside.give scope mutation value = (.ok (), view') := by
  unfold declare at h
  split at h
  · cases h
  next scope inside hresolve => exact ⟨scope, inside, hresolve, h⟩

theorem give_eq_ok {scope : ScopeId} (h : view.give scope mutation value = (.ok (), view')) :
    ∃ slot, (view.document.log scope mutation).1 = .ok slot ∧
      view' = { view with
        document := (view.document.log scope mutation).2
        values := view.values.put slot value } := by
  unfold give at h
  split at h
  · cases h
  next slot document hlog =>
    cases h
    rw [hlog]
    exact ⟨slot, rfl, rfl⟩

theorem within_eq_ok {body : View → Outcome} (h : view.within selector body = (.ok (), view')) :
    ∃ scope inside last, view.resolve selector = (.ok scope, inside) ∧
      body { inside with scope } = (.ok (), last) ∧ view' = { last with scope := view.scope } := by
  unfold within at h
  split at h
  · cases h
  next scope inside hresolve =>
    cases hbody : body { inside with scope } with
    | mk result last =>
      rw [hbody] at h
      cases h
      exact ⟨scope, inside, last, hresolve, hbody, rfl⟩

theorem enterRepeated_eq_ok {scope : ScopeId} {inside : View}
    (h : view.enterRepeated selector = (.ok scope, inside)) :
    ∃ found nested, view.resolve selector = (.ok scope, found) ∧
      (found.document.nest scope).1 = .ok nested ∧
      inside = {
        document := (found.document.nest scope).2
        scope := (((found.document.nest scope).2.declarations.context? nested).map
          (·.scope)).getD scope } := by
  unfold enterRepeated at h
  split at h
  · cases h
  next scope' found hresolve =>
    split at h
    · cases h
    next nested document hnest =>
      cases h
      refine ⟨found, nested, hresolve, ?_, ?_⟩ <;> rw [hnest]

theorem each_eq_ok {bodies : List (View → Outcome)}
    (h : view.each selector bodies = (.ok (), view')) :
    ∃ scope inside frames last, view.enterRepeated selector = (.ok scope, inside) ∧
      gather bodies inside = (.ok frames, last) ∧
      { view with document := last.document }.give scope { kind := Mutation.repeatEach }
        (.list frames) = (.ok (), view') := by
  unfold each at h
  split at h
  · cases h
  next scope inside henter =>
    split at h
    · cases h
    next frames last hgather => exact ⟨scope, inside, frames, last, henter, hgather, h⟩

theorem gather_cons (body : View → Outcome) (rest : List (View → Outcome)) (view : View) :
    gather (body :: rest) view =
      match body view with
      | (.error e, inside) => (.error e, inside)
      | (.ok (), inside) =>
        ((gather rest { inside with values := [] }).1.map (inside.values :: ·),
          (gather rest { inside with values := [] }).2) := by
  rw [gather]
  generalize body view = outcome
  obtain ⟨result, inside⟩ := outcome
  cases result with
  | error e => rfl
  | ok done =>
    dsimp only
    generalize gather rest { inside with values := [] } = gathered
    obtain ⟨frames, last⟩ := gathered
    cases frames <;> rfl

theorem gather_cons_eq_ok {body : View → Outcome} {rest : List (View → Outcome)}
    {frames : List Frame} (h : gather (body :: rest) view = (.ok frames, view')) :
    ∃ inside more, body view = (.ok (), inside) ∧
      gather rest { inside with values := [] } = (.ok more, view') ∧
      frames = inside.values :: more := by
  unfold gather at h
  split at h
  · cases h
  next inside hbody =>
    split at h
    · cases h
    next more last hgather =>
      cases h
      exact ⟨inside, more, hbody, hgather, rfl⟩

end View

/-! ## What views keep -/

namespace View

/-- What a view keeps, inside of the regions that are `opened`. -/
structure Fits (tree : Tree) (optimizing : Bool) (opened : List ContextId) (view : View) :
    Prop where
  run : ∃ operations, view.document = (Document.ofTree tree {} optimizing).run operations
  fromViews : view.document.declarations.FromViews opened
  /-- The values are well-shaped for the context of the scope. -/
  values : ∃ scope, view.document.declarations.scope? view.scope = some scope ∧
    view.document.declarations.WellShaped scope.context view.values

/-- What is kept from one view to another one, which calls have led to. -/
structure Proceeds (tree : Tree) (optimizing : Bool) (opened : List ContextId)
    (view view' : View) : Prop where
  fits : view'.Fits tree optimizing opened
  scope : view'.scope = view.scope
  grows : view.document.declarations.Grows view'.document.declarations

/-- Whenever the body succeeds, the view afterwards is such as views are. -/
def Keeps (tree : Tree) (optimizing : Bool) (body : View → Outcome) : Prop :=
  ∀ opened view view', view.Fits tree optimizing opened → body view = (.ok (), view') →
    Proceeds tree optimizing opened view view'

variable {tree : Tree} {optimizing : Bool} {opened : List ContextId} {view view' : View}

namespace Fits

theorem wellFormed (h : view.Fits tree optimizing opened) :
    view.document.declarations.WellFormed := by
  obtain ⟨operations, hrun⟩ := h.run
  rw [hrun]
  exact Document.wellFormed_run tree {} optimizing operations

theorem placed (h : view.Fits tree optimizing opened) (hbuilt : tree.Built) :
    view.document.declarations.Placed := by
  obtain ⟨operations, hrun⟩ := h.run
  rw [hrun]
  exact Document.placed_run hbuilt {} optimizing operations

theorem perform (h : view.Fits tree optimizing opened) (operation : Operation) :
    ∃ operations, view.document.perform operation =
      (Document.ofTree tree {} optimizing).run operations := by
  obtain ⟨operations, hrun⟩ := h.run
  refine ⟨operations ++ [operation], ?_⟩
  rw [Document.run_concat, hrun]

/-- The values of a view stay well-shaped while others declare something. -/
theorem withDocument (h : view.Fits tree optimizing opened) {document : Document}
    {opened' : List ContextId}
    (hrun : ∃ operations, document = (Document.ofTree tree {} optimizing).run operations)
    (hviews : document.declarations.FromViews opened')
    (hgrows : view.document.declarations.Grows document.declarations) :
    Fits tree optimizing opened' { view with document } := by
  refine ⟨hrun, hviews, ?_⟩
  obtain ⟨scope, hscope, hvalues⟩ := h.values
  obtain ⟨scope', hscope', hcontext, -⟩ := hgrows.scope hscope
  exact ⟨scope', hscope', hcontext ▸ hgrows.wellShaped hvalues⟩

/-- Values may be left out. -/
theorem clear (h : view.Fits tree optimizing opened) :
    Fits tree optimizing opened { view with values := [] } := by
  obtain ⟨scope, hscope, -⟩ := h.values
  exact ⟨h.run, h.fromViews, scope, hscope, .nil _ _⟩

/-- What was resolved is a scope of the same context that was searched for. -/
theorem resolve (h : view.Fits tree optimizing opened) (hbuilt : tree.Built) {selector : String}
    {i : ScopeId} (hresolve : view.resolve selector = (.ok i, view')) :
    Proceeds tree optimizing opened view view' ∧ view'.values = view.values ∧
      ∃ s t, view'.document.declarations.scope? view.scope = some s ∧
        view'.document.declarations.scope? i = some t ∧ t.context = s.context ∧
        view'.document.declarations.Searched t := by
  have hanswer : (view.document.declarations.resolve view.scope selector).1 = .ok i :=
    congrArg Prod.fst hresolve
  obtain rfl : { view with document := view.document.perform (.resolve view.scope selector) } =
    view' := congrArg Prod.snd hresolve
  obtain ⟨hviews, hgrows⟩ := h.fromViews.resolve h.wellFormed (h.placed hbuilt) view.scope selector
  have hfits := h.withDocument (h.perform (.resolve view.scope selector)) hviews hgrows
  refine ⟨⟨hfits, rfl, hgrows⟩, rfl, ?_⟩
  obtain ⟨s, hs, hchild⟩ := Declarations.child?_of_resolve hanswer
  obtain ⟨t, ht⟩ := Declarations.exists_searched (hfits.placed hbuilt) hfits.wellFormed hs hchild
  exact ⟨s, t, hs, ht⟩

/-- A mutation is given a value that it takes. -/
theorem give (h : view.Fits tree optimizing opened) (hbuilt : tree.Built) {i : ScopeId}
    {s t : Scope} (hs : view.document.declarations.scope? view.scope = some s)
    (ht : view.document.declarations.scope? i = some t) (hcontext : t.context = s.context)
    (hsearched : view.document.declarations.Searched t) {mutation : Mutation}
    (hstandard : mutation.IsStandard)
    (hentered : mutation.kind = Mutation.repeatEach → t.nested ≠ none) {value : Value}
    (htakes : view.document.declarations.Takes t mutation value)
    (hgive : view.give i mutation value = (.ok (), view')) :
    Proceeds tree optimizing opened view view' ∧
      ∃ t' logged, view'.document.declarations.scope? i = some t' ∧ t'.nested = t.nested ∧
        logged ∈ t'.log ∧ logged.mutation = mutation := by
  obtain ⟨slot, hanswer, rfl⟩ := give_eq_ok hgive
  have hanswer : (view.document.declarations.log i mutation).1 = .ok slot := hanswer
  obtain ⟨hviews, hgrows⟩ := h.fromViews.log h.wellFormed (h.placed hbuilt) ht hsearched hstandard
    hentered
  have hfits := h.withDocument (h.perform (.log i mutation)) hviews hgrows
  obtain ⟨t', ht', hcontext', hnested, hlogged⟩ :=
    Declarations.exists_logged h.wellFormed hanswer ht
  refine ⟨⟨⟨hfits.run, hfits.fromViews, ?_⟩, rfl, hgrows⟩, t', _, ht', hnested, hlogged, rfl⟩
  obtain ⟨s', hs', hvalues⟩ := hfits.values
  have hsame : t'.context = s'.context := by
    rw [hcontext', hcontext, hgrows.context_eq hs hs']
  refine ⟨s', hs', ?_⟩
  rw [← hsame] at hvalues ⊢
  exact hvalues.put hfits.wellFormed ht' hlogged (htakes.grows hgrows hnested)

end Fits

namespace Proceeds

theorem refl (h : view.Fits tree optimizing opened) : Proceeds tree optimizing opened view view :=
  ⟨h, rfl, .refl _⟩

theorem trans {last : View} (h : Proceeds tree optimizing opened view view')
    (h' : Proceeds tree optimizing opened view' last) :
    Proceeds tree optimizing opened view last :=
  ⟨h'.fits, h'.scope.trans h.scope, h.grows.trans h'.grows⟩

end Proceeds

/-! ## Calls -/

/-- A mutation that is no repetition, with a value that it takes. -/
theorem keeps_declare (hbuilt : tree.Built) (selector : String) {mutation : Mutation}
    {value : Value} (hstandard : mutation.IsStandard) (hkind : mutation.kind ≠ Mutation.repeatEach)
    (hwritten : mutation.kind ∈ [Mutation.replaceInnerHtml, Mutation.append,
      Mutation.setAttribute] → value.kind ≠ .list) :
    Keeps tree optimizing fun view => view.declare selector mutation value := by
  intro opened view view' h hdeclare
  obtain ⟨i, inside, hresolve, hgive⟩ := declare_eq_ok hdeclare
  obtain ⟨hproceeds, -, s, t, hs, ht, hcontext, hsearched⟩ := h.resolve hbuilt hresolve
  rw [← hproceeds.scope] at hs
  exact hproceeds.trans (hproceeds.fits.give hbuilt hs ht hcontext hsearched hstandard
    (fun hrepeat => absurd hrepeat hkind) ⟨fun hrepeat => absurd hrepeat hkind, hwritten⟩ hgive).1

theorem keeps_within (hbuilt : tree.Built) (selector : String) {body : View → Outcome}
    (hbody : Keeps tree optimizing body) :
    Keeps tree optimizing fun view => view.within selector body := by
  intro opened view view' h hwithin
  obtain ⟨i, inside, last, hresolve, hlast, rfl⟩ := within_eq_ok hwithin
  obtain ⟨hproceeds, -, s, t, hs, ht, hcontext, -⟩ := h.resolve hbuilt hresolve
  -- The scope of the body has the same context, so that the same values fit.
  have hinside : Fits tree optimizing opened { inside with scope := i } := by
    obtain ⟨s', hs', hvalues⟩ := hproceeds.fits.values
    rw [hproceeds.scope] at hs'
    obtain rfl := Option.some.inj (hs.symm.trans hs')
    exact ⟨hproceeds.fits.run, hproceeds.fits.fromViews, t, ht, hcontext ▸ hvalues⟩
  have hbody := hbody opened _ last hinside hlast
  refine ⟨⟨hbody.fits.run, hbody.fits.fromViews, ?_⟩, rfl, hproceeds.grows.trans hbody.grows⟩
  obtain ⟨s', hs', hcontext', -⟩ := hbody.grows.scope hs
  obtain ⟨t', ht', hvalues⟩ := hbody.fits.values
  rw [hbody.scope] at ht'
  refine ⟨s', hs', ?_⟩
  rwa [hcontext', ← hcontext, ← hbody.grows.context_eq ht ht']

/-- The frames of the bodies are well-shaped for the context of the region. -/
theorem Fits.gather {bodies : List (View → Outcome)}
    (hbodies : ∀ body ∈ bodies, Keeps tree optimizing body) {frames : List Frame}
    (h : view.Fits tree optimizing opened) (hgather : gather bodies view = (.ok frames, view')) :
    Proceeds tree optimizing opened view view' ∧
      ∃ scope, view'.document.declarations.scope? view.scope = some scope ∧
        ∀ frame ∈ frames, view'.document.declarations.WellShaped scope.context frame := by
  induction bodies generalizing view frames with
  | nil =>
    cases hgather
    obtain ⟨scope, hscope, -⟩ := h.values
    exact ⟨.refl h, scope, hscope, nofun⟩
  | cons body rest ih =>
    rw [List.forall_mem_cons] at hbodies
    obtain ⟨inside, more, hbody, hmore, rfl⟩ := gather_cons_eq_ok hgather
    have hinside := hbodies.1 opened view inside h hbody
    obtain ⟨hproceeds, scope, hscope, hframes⟩ := ih hbodies.2 hinside.fits.clear hmore
    have hscope : view'.document.declarations.scope? inside.scope = some scope := hscope
    refine ⟨⟨hproceeds.fits, hproceeds.scope.trans hinside.scope,
      hinside.grows.trans hproceeds.grows⟩, scope, hinside.scope ▸ hscope, ?_⟩
    refine List.forall_mem_cons.mpr ⟨?_, hframes⟩
    obtain ⟨s, hs, hvalues⟩ := hinside.fits.values
    rw [hproceeds.grows.context_eq hs hscope]
    exact hproceeds.grows.wellShaped hvalues

/-- Inside of a region, one more is opened, and there are no values. -/
theorem Fits.enterRepeated (h : view.Fits tree optimizing opened) (hbuilt : tree.Built)
    {selector : String} {i : ScopeId} {inside : View}
    (henter : view.enterRepeated selector = (.ok i, inside)) :
    ∃ c, inside.Fits tree optimizing (c :: opened) ∧
      view.document.declarations.Grows inside.document.declarations ∧
      (∃ s t, inside.document.declarations.scope? view.scope = some s ∧
        inside.document.declarations.scope? i = some t ∧ t.context = s.context ∧
        t.nested = some c ∧ inside.document.declarations.Searched t) ∧
      ∃ r, inside.document.declarations.scope? inside.scope = some r ∧ r.context = c := by
  obtain ⟨found, c, hresolve, hanswer, rfl⟩ := enterRepeated_eq_ok henter
  obtain ⟨hproceeds, -, s, t, hs, ht, hcontext, hsearched⟩ := h.resolve hbuilt hresolve
  have hanswer : (found.document.declarations.nest i).1 = .ok c := hanswer
  obtain ⟨hviews, hgrows⟩ := hproceeds.fits.fromViews.nest hproceeds.fits.wellFormed
    (hproceeds.fits.placed hbuilt) hanswer
  have hfits := hproceeds.fits.withDocument (hproceeds.fits.perform (.nest i)) hviews hgrows
  obtain ⟨s', hs', hcontext', -⟩ := hgrows.scope hs
  obtain ⟨t', ht', hcontext'', -, hsearched'⟩ := hgrows.scope ht
  obtain ⟨t'', ht'', hnested⟩ := Declarations.exists_entered hanswer ht
  obtain rfl := Option.some.inj (ht'.symm.trans ht'')
  obtain ⟨-, x, hx⟩ := hfits.wellFormed.nested_of ht' hnested
  obtain ⟨r, hr, hr_context⟩ := (hfits.placed hbuilt).region hx
  have hscope : ((found.document.nest i).2.declarations.scope?
      ((((found.document.nest i).2.declarations.context? c).map (·.scope)).getD i)) = some r := by
    have hx : (found.document.nest i).2.declarations.context? c = some x := hx
    rw [hx]
    exact hr
  refine ⟨c, ⟨hfits.run, hfits.fromViews, r, hscope, .nil _ _⟩, hproceeds.grows.trans hgrows,
    ⟨s', t', hs', ht', ?_, hnested, hsearched' hsearched⟩, r, hscope, hr_context⟩
  rw [hcontext'', hcontext, hcontext']

/-- When a region is left, its repetition is logged with the frames of the bodies. -/
theorem keeps_each (hbuilt : tree.Built) (selector : String) {bodies : List (View → Outcome)}
    (hbodies : ∀ body ∈ bodies, Keeps tree optimizing body) :
    Keeps tree optimizing fun view => view.each selector bodies := by
  intro opened view view' h heach
  obtain ⟨i, inside, frames, last, henter, hgather, hgive⟩ := each_eq_ok heach
  obtain ⟨c, hinside, hgrows, ⟨s, t, hs, ht, hcontext, hnested, hsearched⟩, r, hr, rfl⟩ :=
    h.enterRepeated hbuilt henter
  obtain ⟨hlast, r', hr', hframes⟩ := hinside.gather hbodies hgather
  rw [hlast.grows.context_eq hr hr'] at hframes
  obtain ⟨s', hs', hs_context, -⟩ := hlast.grows.scope hs
  obtain ⟨t', ht', ht_context, ht_nested, ht_searched⟩ := hlast.grows.scope ht
  have hnested' := ht_nested _ hnested
  have hfits := h.withDocument hlast.fits.run hlast.fits.fromViews (hgrows.trans hlast.grows)
  have htakes : last.document.declarations.Takes t' { kind := Mutation.repeatEach }
      (.list frames) := by
    refine ⟨fun _ => ⟨frames, rfl, fun inner hinner => ?_⟩, fun hkind => absurd hkind (by decide)⟩
    obtain rfl := Option.some.inj (hnested'.symm.trans hinner)
    exact hframes
  have hstandard : Mutation.IsStandard { kind := Mutation.repeatEach } := rfl
  obtain ⟨hgiven, t'', logged, ht'', hnested'', hlogged, hmutation⟩ := hfits.give hbuilt hs' ht'
    (by rw [ht_context, hcontext, hs_context]) (ht_searched hsearched) hstandard
    (fun _ => by simp [hnested']) htakes hgive
  have hrepeated : view'.document.declarations.Repeated r.context :=
    ⟨i, t'', logged, ht'', hnested''.trans hnested', hlogged, congrArg Mutation.kind hmutation⟩
  exact ⟨⟨hgiven.fits.run, hgiven.fits.fromViews.close hrepeated, hgiven.fits.values⟩,
    hgiven.scope, (hgrows.trans hlast.grows).trans hgiven.grows⟩

namespace Call

mutual

/-- No list is handed to `html` or `append`. -/
def WritesMarkup : Call → Prop
  | .html _ value | .append _ value => value.kind ≠ .list
  | .within _ calls => AllWriteMarkup calls
  | .each _ items => BodiesWriteMarkup items
  | _ => True

def AllWriteMarkup : List Call → Prop
  | [] => True
  | call :: rest => WritesMarkup call ∧ AllWriteMarkup rest

def BodiesWriteMarkup : List (List Call) → Prop
  | [] => True
  | calls :: rest => AllWriteMarkup calls ∧ BodiesWriteMarkup rest

end

mutual

/-- A call that succeeds keeps what views keep, with all the calls that it holds. -/
theorem keeps_run (hbuilt : tree.Built) (call : Call) (h : call.WritesMarkup) :
    Keeps tree optimizing call.run := by
  cases call with
  | text selector content =>
    exact keeps_declare hbuilt selector rfl (by decide) (fun _ => by simp [Value.kind])
  | html selector value => exact keeps_declare hbuilt selector rfl (by decide) fun _ => h
  | append selector value => exact keeps_declare hbuilt selector rfl (by decide) fun _ => h
  | attr selector name value =>
    have hkind : Mutation.setAttribute ≠ Mutation.repeatEach := by decide
    exact keeps_declare hbuilt selector rfl hkind (fun _ => by simp [Value.kind])
  | remove selector =>
    exact keeps_declare hbuilt selector rfl (by decide) (fun _ => by simp [Value.kind])
  | within selector calls => exact keeps_within hbuilt selector (keeps_runAll hbuilt calls h)
  | each selector items => exact keeps_each hbuilt selector (keeps_bodies hbuilt items h)

theorem keeps_runAll (hbuilt : tree.Built) (calls : List Call) (h : AllWriteMarkup calls) :
    Keeps tree optimizing (runAll calls) := by
  intro opened view view' hfits hrun
  cases calls with
  | nil =>
    cases hrun
    exact .refl hfits
  | cons call rest =>
    unfold runAll at hrun
    split at hrun
    · cases hrun
    next inside hcall =>
      have hinside := keeps_run hbuilt call h.1 opened view inside hfits hcall
      exact hinside.trans (keeps_runAll hbuilt rest h.2 opened inside view' hinside.fits hrun)

theorem keeps_bodies (hbuilt : tree.Built) (items : List (List Call))
    (h : BodiesWriteMarkup items) : ∀ body ∈ bodies items, Keeps tree optimizing body := by
  cases items with
  | nil => nofun
  | cons calls rest =>
    exact List.forall_mem_cons.mpr ⟨keeps_runAll hbuilt calls h.1, keeps_bodies hbuilt rest h.2⟩

end

end Call

/-! ## Rendering -/

/-- A view outside of all regions, on a document that other views may have come before it
    on: its calls and theirs have all succeeded, and in between they may have been rendered. -/
inductive Reached (document : Document) : View → Prop where
  | first : Reached document { document }
  | call {view view' : View} {call : Call} (h : Reached document view)
      (hmarkup : call.WritesMarkup) (hrun : call.run view = (.ok (), view')) :
      Reached document view'
  | render {view : View} (h : Reached document view) : Reached document view.render.2
  | next {view : View} (h : Reached document view) :
      Reached document { document := view.document }

theorem render_snd (view : View) :
    view.render.2 = { view with document := view.document.compile.2 } := by
  rw [← Document.render_snd view.document view.values]
  rfl

/-- Views that are reached fit, and they are in the context of the document. -/
theorem Reached.fits (hbuilt : tree.Built)
    (h : Reached (Document.ofTree tree {} optimizing) view) :
    view.Fits tree optimizing [] ∧ view.scope = Declarations.rootScope ∧
      (Declarations.start tree).Grows view.document.declarations := by
  induction h with
  | first =>
    exact ⟨⟨⟨[], rfl⟩, .start tree, _, rfl, .nil _ _⟩, rfl, .refl _⟩
  | call _ hmarkup hrun ih =>
    obtain ⟨hfits, hscope, hgrows⟩ := ih
    have hproceeds := Call.keeps_run hbuilt _ hmarkup [] _ _ hfits hrun
    exact ⟨hproceeds.fits, hproceeds.scope.trans hscope, hgrows.trans hproceeds.grows⟩
  | @render view _ ih =>
    obtain ⟨hfits, hscope, hgrows⟩ := ih
    obtain ⟨hviews, hcompiled⟩ : view.document.compile.2.declarations.FromViews [] ∧
        view.document.declarations.Grows view.document.compile.2.declarations := by
      rcases view.document.compile_snd with heq | ⟨template, heq⟩
      · rw [heq]
        exact ⟨hfits.fromViews, .refl _⟩
      · rw [heq]
        exact hfits.fromViews.clean false
    rw [render_snd]
    exact ⟨hfits.withDocument (hfits.perform .compile) hviews hcompiled, hscope,
      hgrows.trans hcompiled⟩
  | next _ ih =>
    obtain ⟨hfits, -, hgrows⟩ := ih
    obtain ⟨root, hroot, -⟩ := hgrows.scope (i := Declarations.rootScope) rfl
    exact ⟨⟨hfits.run, hfits.fromViews, root, hroot, .nil _ _⟩, rfl, hgrows⟩

/-- A view on a document without comments and instructions can be rendered whenever all
    calls have succeeded, its own ones and those of the views before it. -/
theorem render_reached (tree : Tree) (hbuilt : tree.Built) (optimizing : Bool)
    (hnodes : ∀ id node, tree.Within Tree.root id → tree.get? id = some node →
      node.content.category ≠ .comment ∧ node.content.category ≠ .instruction) :
    ∀ view, Reached (Document.ofTree tree {} optimizing) view →
      ∃ markup, view.render.1 = .ok markup := by
  intro view hreached
  obtain ⟨hfits, hscope, hgrows⟩ := hreached.fits hbuilt
  obtain ⟨operations, hrun⟩ := hfits.run
  obtain ⟨scope, hroot, hvalues⟩ := hfits.values
  rw [hscope] at hroot
  have hviews := hfits.fromViews
  rw [hgrows.context_eq rfl hroot] at hvalues
  rw [hrun] at hvalues hviews
  have hcompilable := Document.compilable_of_fromViews hbuilt hnodes hviews
  obtain ⟨renderer, hrenderer⟩ := Document.exists_renderer_iff.mpr
    ((Document.exists_template_iff hbuilt).mpr hcompilable)
  have hmarkup := Document.exists_markup_of_compile_run hrenderer hvalues
  rwa [← hrun] at hmarkup

/-- A view repeats a section, once with a text and once without, and is rendered; the next
    one writes a number after the paragraph. -/
theorem render_reached_section :
    let document := Document.ofTree Document.sectionTree
    let first := ((Call.each "section" [[.text "p" "x"], []]).run { document }).2
    let second := ((Call.append "p" (.int 1)).run { document := first.render.2.document }).2
    Reached document second ∧ ∃ markup, second.render.1 = .ok markup := by
  intro document first second
  have hok {outcome : Outcome} (h : outcome.1.isOk = true) : outcome = (.ok (), outcome.2) := by
    obtain ⟨_ | _, _⟩ := outcome
    · cases h
    · rfl
  have hfirst : Reached document first := by
    refine .call .first ?_ (hok (by decide +kernel))
    simp [Call.WritesMarkup, Call.BodiesWriteMarkup, Call.AllWriteMarkup]
  have hsecond : Reached document second :=
    .call hfirst.render.next (by simp [Call.WritesMarkup, Value.kind]) (hok (by decide +kernel))
  refine ⟨hsecond, render_reached Document.sectionTree Document.built_sectionTree true ?_ second
    hsecond⟩
  intro id node _ hnode
  have hnodes : ∀ node ∈ Document.sectionTree.nodes.toList,
      node.content.category ≠ .comment ∧ node.content.category ≠ .instruction := by decide
  exact hnodes node (Array.mem_toList_iff.mpr (Array.mem_of_getElem? hnode))

end View

end HtmlTemplate
