-- SUMMARY: Reading piece by piece: from one state of the builder to another, over texts and tags.
import HtmlTemplate.Html.Reader
import HtmlTemplate.Proofs.Html.EndTags
import HtmlTemplate.Proofs.Html.Lexing

/-!
# Reading piece by piece

`Reaches` says that reading comes from one state of the builder and the text in front of it
to another state and what is left of the text. The fuel of the reader does not show in it:
each piece takes a character, so there is always enough.

A text puts its characters into the innermost element, without a line feed that is to be left
out. A tag is dealt with by its rule.
-/

namespace HtmlTemplate.Html

-- ---------------------------------------------------------------------------
-- Runs of the reader
-- ---------------------------------------------------------------------------

/-- Reading comes from one state, with the text in front of it, to another. -/
inductive Reaches : Builder → List Char → Builder → List Char → Prop where
  | refl (b : Builder) (text : List Char) : Reaches b text b text
  | step {b later : Builder} {piece rest left : List Char} {lexemes : List Lexeme}
      {textMode : TextMode} (hne : piece ≠ [])
      (hmark : b.skipMark = true → piece.head? ≠ some '\uFEFF')
      (hcut : ∀ foreign, Lexer.step foreign b.textMode (piece ++ rest) = (lexemes, textMode, rest))
      (h : Reaches (lexemes.foldl (·.process ·) { b with textMode, skipMark := false }) rest
        later left) :
      Reaches b (piece ++ rest) later left

theorem dropMark_of_head? {text : List Char} (h : text.head? ≠ some '\uFEFF') :
    dropMark text = text := by
  unfold dropMark
  split
  · exact absurd rfl h
  · rfl

namespace Reaches

variable {b middle later : Builder} {text between left : List Char}

/-- One piece is read. -/
theorem piece {cut rest : List Char} {lexemes : List Lexeme} {textMode : TextMode}
    (hne : cut ≠ []) (hmark : b.skipMark = true → cut.head? ≠ some '\uFEFF')
    (hcut : ∀ foreign, Lexer.step foreign b.textMode (cut ++ rest) = (lexemes, textMode, rest))
    (h : lexemes.foldl (·.process ·) { b with textMode, skipMark := false } = later) :
    Reaches b (cut ++ rest) later rest :=
  .step hne hmark hcut (h ▸ .refl _ rest)

theorem trans (h : Reaches b text middle between) (hmore : Reaches middle between later left) :
    Reaches b text later left := by
  induction h with
  | refl => exact hmore
  | step hne hmark hcut _ ih => exact .step hne hmark hcut (ih hmore)

/-- What the reader makes of the text is what it makes of the rest, from the later state. -/
theorem readWithin_eq (h : Reaches b text later left) {fuel : Nat} (hfuel : text.length < fuel) :
    ∃ fuel', left.length < fuel' ∧ readWithin fuel b text = readWithin fuel' later left := by
  induction h generalizing fuel with
  | refl => exact ⟨fuel, hfuel, rfl⟩
  | @step b later piece rest left lexemes textMode hne hmark hcut _ ih =>
    obtain ⟨fuel, rfl⟩ : ∃ less, fuel = less + 1 := ⟨fuel - 1, by omega⟩
    obtain ⟨c, more, rfl⟩ := List.exists_cons_of_ne_nil hne
    have hfuel' : rest.length < fuel := by
      rw [List.length_append, List.length_cons] at hfuel
      omega
    obtain ⟨fuel', hleft, heq⟩ := ih hfuel'
    have htext : (if b.skipMark then dropMark (c :: more ++ rest) else c :: more ++ rest) =
        c :: (more ++ rest) := by
      split
      · next hskip => exact dropMark_of_head? (by simpa using hmark hskip)
      · rfl
    refine ⟨fuel', hleft, ?_⟩
    rw [readWithin, htext]
    dsimp only
    rw [← List.cons_append, hcut, heq]

end Reaches

-- ---------------------------------------------------------------------------
-- Tokens
-- ---------------------------------------------------------------------------

namespace Builder

/-- A token that is not left out is dealt with by its rule. -/
theorem process_token {b later : Builder} {token : Token}
    (htoken : b.skipLineFeed = false ∨ token ≠ .character '\n')
    (h : ({ b with skipLineFeed := false } : Builder).rule token = .done later) :
    b.process (.token token) = later := by
  have hwithin : processWithin (2 * b.stack.length + 30) { b with skipLineFeed := false } token =
      later := by
    rw [processWithin]
    rw [rule] at h
    rw [h]
  unfold process
  dsimp only
  split
  · next hskip =>
    obtain hnone | hne := htoken
    · rw [hskip] at hnone
      cases hnone
    · exact absurd rfl hne
  · exact hwithin

-- ---------------------------------------------------------------------------
-- Texts
-- ---------------------------------------------------------------------------

/-- Characters are put into the innermost element, whatever has been put there before. -/
def TakesTexts (b : Builder) : Prop :=
  ∀ (draft : Draft) (allowed : Bool) (c : Char), draft.HoldsOpen b.stack →
    Syntax.isPlain c = true →
    ∃ allowed', ({ b with
        draft, framesetAllowed := allowed, skipLineFeed := false } : Builder).rule (.character c) =
      .done { b with
        draft := draft.putCharacter (.lastIn b.innermost) c
        framesetAllowed := allowed'
        skipLineFeed := false }

theorem ne_null_of_isPlain {c : Char} (h : Syntax.isPlain c = true) : (c == '\x00') = false := by
  simp only [Syntax.isPlain, Bool.and_eq_true, bne_iff_ne] at h
  exact beq_eq_false_iff_ne.mpr h.1

theorem putCharacter_eq {b : Builder} {parent : Handle} (hplace : b.place = .lastIn parent)
    (c : Char) :
    b.putCharacter c = { b with draft := b.draft.putCharacter (.lastIn parent) c } := by
  rw [putCharacter, hplace]

/-- A character that may stand where it is, is put there. -/
theorem Ready.rule_character {b : Builder} (h : b.Ready) (htexts : holdsTexts b.stack = true)
    {c : Char} (hc : Syntax.isPlain c = true) :
    ∃ allowed, b.rule (.character c) = .done { b with
      draft := b.draft.putCharacter (.lastIn b.innermost) c
      framesetAllowed := allowed } := by
  have hnull := ne_null_of_isPlain hc
  have hput := putCharacter_eq h.place_eq c
  have hbody : ∃ allowed, b.inBodyRule (.character c) = .done { b with
      draft := b.draft.putCharacter (.lastIn b.innermost) c
      framesetAllowed := allowed } := by
    rw [inBodyRule, hnull, if_neg Bool.false_ne_true, h.reopenFormatting_eq, hput]
    dsimp only
    split
    · exact ⟨b.framesetAllowed, rfl⟩
    · exact ⟨false, rfl⟩
  rw [rule]
  split
  · rw [foreignRule, hnull, if_neg Bool.false_ne_true, hput]
    dsimp only
    split
    · exact ⟨b.framesetAllowed, rfl⟩
    · exact ⟨false, rfl⟩
  have hselect : b.inSelectRule (.character c) = .done { b with
      draft := b.draft.putCharacter (.lastIn b.innermost) c } := by
    show Outcome.done (if c == '\x00' then b else b.putCharacter c) = _
    rw [hnull, if_neg Bool.false_ne_true, hput]
  have hmode := h.mode
  rw [holdsTexts] at htexts
  cases hcontent : contentMode b.stack <;> rw [hcontent] at htexts hmode
  case inBody | inCell | inCaption =>
    have hrule : b.modeRule (.character c) = b.inBodyRule (.character c) := by
      rw [modeRule, Mode.eq_of_plain hmode (by decide)] <;> rfl
    rwa [hrule]
  case inSelect | inSelectInTable =>
    have hrule : b.modeRule (.character c) = b.inSelectRule (.character c) := by
      rw [modeRule]
      cases hm : b.mode <;> rw [hm] at hmode <;> first | rfl | cases hmode
    exact ⟨b.framesetAllowed, hrule.trans hselect⟩
  all_goals cases htexts

theorem Ready.takesTexts {b : Builder} (h : b.Ready) (htexts : holdsTexts b.stack = true) :
    b.TakesTexts := by
  intro draft allowed c hopen hc
  have hready : ({ b with
      draft, framesetAllowed := allowed, skipLineFeed := false } : Builder).Ready :=
    h.stays ⟨⟨rfl, rfl, rfl, rfl, rfl⟩, rfl, rfl, rfl, rfl⟩ hopen
  exact hready.rule_character htexts hc

/-- The content of an element that is text is read, in any of the modes for texts. -/
structure InText (b : Builder) : Prop where
  mode : b.mode = .inText
  fostering : b.fostering = false
  top : ∃ top outer, b.stack = top :: outer ∧ top.ns = .html
  cells : b.draft.HoldsOpen b.stack

theorem InText.nonempty {b : Builder} (h : b.InText) : b.stack ≠ [] := by
  obtain ⟨top, outer, hstack, -⟩ := h.top
  exact hstack ▸ List.cons_ne_nil _ _

theorem InText.rule_eq {b : Builder} (h : b.InText) (token : Token) :
    b.rule token = b.inTextRule token := by
  obtain ⟨top, outer, hstack, hns⟩ := h.top
  have hforeign : b.isForeign token = false := by
    rw [isForeign, hstack]
    simp [hns]
  rw [rule, hforeign, if_neg Bool.false_ne_true, modeRule, h.mode]

theorem InText.takesTexts {b : Builder} (h : b.InText) : b.TakesTexts := by
  intro draft allowed c hopen _
  let now : Builder := { b with draft, framesetAllowed := allowed, skipLineFeed := false }
  have hnow : now.InText := ⟨h.mode, h.fostering, h.top, hopen⟩
  have hplace : now.place = .lastIn b.innermost :=
    place_eq_innermost hopen h.nonempty h.fostering
  refine ⟨allowed, ?_⟩
  show now.rule _ = _
  rw [hnow.rule_eq]
  exact congrArg Outcome.done (putCharacter_eq hplace c)

/-- The cells of open elements take characters. -/
theorem holdsOpen_putCharacter {draft : Draft} {stack : List OpenElement}
    (h : draft.HoldsOpen stack) {parent : Handle} (hparent : parent < draft.size) (c : Char) :
    (draft.putCharacter (.lastIn parent) c).HoldsOpen stack := by
  refine h.mono fun {node cell} hcell => ?_
  have hfresh : ∃ cell', ((draft.add (.text (String.ofList [c]))).1.put (.lastIn parent)
      draft.size).get? node = some cell' ∧ cell'.contents = cell.contents :=
    (Draft.adds_add hparent _).contents hcell
  unfold Draft.putCharacter
  dsimp only
  split
  · next last _ =>
    split
    · next content _ =>
      rw [Draft.get?_update, hcell]
      split
      · exact ⟨_, rfl, rfl⟩
      · exact ⟨_, rfl, rfl⟩
    · exact hfresh
  · exact hfresh

theorem holdsOpen_putText {draft : Draft} {stack : List OpenElement} (h : draft.HoldsOpen stack)
    {top : OpenElement} (htop : top ∈ stack) (text : List Char) :
    (draft.putText top.node text).HoldsOpen stack := by
  induction text generalizing draft with
  | nil => exact h
  | cons c text ih =>
    obtain ⟨cell, hcell, -⟩ := h top htop
    exact ih (holdsOpen_putCharacter h (Draft.lt_of_get? hcell) c)

/-- The characters of a text are put one behind the other. -/
theorem foldl_characters {b : Builder} (h : b.TakesTexts) (hopen : b.draft.HoldsOpen b.stack)
    (hne : b.stack ≠ []) {text : List Char} (hplain : ∀ c ∈ text, Syntax.isPlain c = true) :
    ∃ allowed, (Lexer.characters text).foldl (·.process ·) b = { b with
      draft := b.draft.putText b.innermost (dropLineFeed b.skipLineFeed text)
      framesetAllowed := allowed
      skipLineFeed := b.skipLineFeed && text.isEmpty } := by
  induction text generalizing b with
  | nil =>
    refine ⟨b.framesetAllowed, ?_⟩
    have hempty : dropLineFeed b.skipLineFeed [] = [] := by cases b.skipLineFeed <;> rfl
    rw [hempty, List.isEmpty_nil, Bool.and_true]
    rfl
  | cons c text ih =>
    obtain ⟨hc, hrest⟩ := List.forall_mem_cons.mp hplain
    rw [Lexer.characters, List.map_cons, List.foldl_cons]
    by_cases hskip : b.skipLineFeed = true ∧ c = '\n'
    · obtain ⟨hskip, rfl⟩ := hskip
      have hleft : b.process (.token (.character '\n')) = { b with skipLineFeed := false } := by
        rw [process]
        simp only [hskip]
      obtain ⟨allowed, heq⟩ := @ih { b with skipLineFeed := false }
        (fun draft allowed => h draft allowed) hopen hne hrest
      refine ⟨allowed, ?_⟩
      rw [hleft]
      refine heq.trans ?_
      rw [hskip]
      simp [dropLineFeed, innermost]
    · have htoken : b.skipLineFeed = false ∨ Token.character c ≠ .character '\n' := by
        cases hb : b.skipLineFeed with
        | false => exact .inl rfl
        | true => exact .inr fun heq => hskip ⟨hb, Token.character.inj heq⟩
      obtain ⟨allowed, hrule⟩ := h b.draft b.framesetAllowed c hopen hc
      obtain ⟨allowed', heq⟩ := @ih { b with
        draft := b.draft.putCharacter (.lastIn b.innermost) c
        framesetAllowed := allowed
        skipLineFeed := false } (fun draft allowed => h draft allowed)
        (holdsOpen_putCharacter hopen (innermost_lt hopen hne) c) hne hrest
      refine ⟨allowed', ?_⟩
      rw [process_token htoken hrule]
      refine heq.trans ?_
      have hkept : dropLineFeed b.skipLineFeed (c :: text) = c :: text := by
        refine dropLineFeed_of_ne ?_ text
        exact htoken.imp_right fun hne heq => hne (congrArg _ heq)
      rw [hkept]
      simp [Draft.putText, innermost]

/-! ### Up to an end tag -/

/-- The text of an element is read up to the end tag, which closes the element. -/
theorem InText.reaches {b : Builder} (h : b.InText) (hmark : b.skipMark = false) {name : String}
    {written shown : List Char} (hcuts : Lexer.CutsText name b.textMode written shown)
    (hplain : ∀ c ∈ shown, Syntax.isPlain c = true) (rest : List Char) :
    ∃ allowed, Reaches b (written ++ (Syntax.endTag name ++ rest)) { b with
      draft := b.draft.putText b.innermost (dropLineFeed b.skipLineFeed shown)
      framesetAllowed := allowed
      stack := b.stack.drop 1
      mode := b.returnMode
      textMode := .markup
      skipLineFeed := false
      skipMark := name == "script" } rest := by
  generalize htextMode : b.textMode = textMode at hcuts
  induction hcuts generalizing b with
  | nil hcut =>
    have hempty : dropLineFeed b.skipLineFeed [] = [] := by cases b.skipLineFeed <;> rfl
    let now : Builder := { b with textMode := .markup, skipMark := false }
    let left : Builder := { now with skipLineFeed := false }
    have hleft : left.InText := ⟨h.mode, h.fostering, h.top, h.cells⟩
    have hprocess : now.process (.token (.endTag (.plain name))) =
        { left.pop with mode := left.returnMode, skipMark := name == "script" } :=
      process_token (.inr nofun) (hleft.rule_eq _)
    refine ⟨b.framesetAllowed, ?_⟩
    subst htextMode
    rw [List.nil_append]
    refine .step (List.cons_ne_nil _ _) (fun hskip => ?_) (fun foreign => hcut foreign rest) ?_
    · rw [hmark] at hskip
      cases hskip
    · rw [hempty]
      show Reaches (now.process (.token (.endTag (.plain name)))) rest _ rest
      rw [hprocess]
      exact .refl _ _
  | @cons mode next taken left shown later hne hcut _ ih =>
    have hfirst : ∀ c ∈ shown, Syntax.isPlain c = true := fun c hc =>
      hplain c (List.mem_append_left _ hc)
    have hsecond : ∀ c ∈ later, Syntax.isPlain c = true := fun c hc =>
      hplain c (List.mem_append_right _ hc)
    let now : Builder := { b with textMode := next, skipMark := false }
    have hnow : now.InText := ⟨h.mode, h.fostering, h.top, h.cells⟩
    obtain ⟨allowed, hput⟩ := foldl_characters hnow.takesTexts hnow.cells hnow.nonempty hfirst
    obtain ⟨top, outer, hstack, hns⟩ := h.top
    have htop : b.innermost = top.node := by
      rw [innermost, hstack]
      rfl
    let between : Builder := { now with
      draft := now.draft.putText now.innermost (dropLineFeed now.skipLineFeed shown)
      framesetAllowed := allowed
      skipLineFeed := now.skipLineFeed && shown.isEmpty }
    have hbetween : between.InText := by
      refine ⟨h.mode, h.fostering, h.top, ?_⟩
      have hopen := holdsOpen_putText h.cells (hstack ▸ List.mem_cons_self : top ∈ b.stack)
        (dropLineFeed b.skipLineFeed shown)
      rw [← htop] at hopen
      exact hopen
    obtain ⟨allowed', hrest⟩ := ih hbetween rfl hsecond rfl
    refine ⟨allowed', ?_⟩
    subst htextMode
    rw [List.append_assoc]
    refine .step hne (fun hskip => ?_) (fun foreign => hcut foreign rest) ?_
    · rw [hmark] at hskip
      cases hskip
    · show Reaches ((Lexer.characters shown).foldl (·.process ·) now) _ _ _
      rw [hput, dropLineFeed_append, Draft.putText_append]
      exact hrest

-- ---------------------------------------------------------------------------
-- Tags
-- ---------------------------------------------------------------------------

/-- Nothing is to be left out of what comes next. -/
def settled (b : Builder) : Builder := { b with skipLineFeed := false, skipMark := false }

theorem Ready.settled {b : Builder} (h : b.Ready) : b.settled.Ready :=
  h.stays ⟨⟨rfl, rfl, rfl, rfl, rfl⟩, rfl, rfl, rfl, rfl⟩ h.cells

/-- A tag is a piece of markup, and is dealt with by its rule. -/
theorem reaches_tag {b later : Builder} (h : b.textMode = .markup) {piece : List Char}
    (hpiece : piece.head? = some '<') {token : Token} (htoken : token ≠ .character '\n')
    {rest : List Char}
    (hcut : ∀ foreign, Lexer.markup foreign (piece ++ rest) = ([.token token], rest))
    (hrule : b.settled.rule token = .done later) : Reaches b (piece ++ rest) later rest := by
  have hne : piece ≠ [] := by
    rintro rfl
    cases hpiece
  have hsettled : b.settled = { b with
      textMode := .markup, skipMark := false, skipLineFeed := false } := by
    rw [Builder.settled, ← h]
  have hstep (foreign : Bool) : Lexer.step foreign b.textMode (piece ++ rest) =
      ([.token token], .markup, rest) := by
    rw [h, Lexer.step, hcut]
  refine .piece hne (fun _ => ?_) hstep ?_
  · rw [hpiece]
    decide
  · exact process_token (.inr htoken) (hsettled ▸ hrule)

end Builder

end HtmlTemplate.Html
