-- SUMMARY: A parenthesis that closes more than was opened ends every part of a selector.
import HtmlTemplate.Proofs.Selecting.Rereading

/-!
# In front of a closing parenthesis

What is read from a text is read as well when a parenthesis follows that closes none of
the text, whatever comes behind it: no part of a selector goes on with such a parenthesis.
It does not matter either how many steps a reader is given beyond the length of the text.
-/

namespace HtmlTemplate.Selector

/-- Nothing at all, or a text that starts with a closing parenthesis. -/
def Closing (tail : List Char) : Prop := ∀ c ∈ tail.head?, c = ')'

theorem closing_nil : Closing [] := nofun

theorem closing_cons (rest : List Char) : Closing (')' :: rest) :=
  fun _ hc => (Option.some.inj hc).symm

theorem Closing.stops {tail : List Char} (htail : Closing tail) {p : Char → Bool}
    (hp : p ')' = false) : Stops p tail :=
  fun c hc => htail c hc ▸ hp

section Closing

variable {tail text rest : List Char} (htail : Closing tail)
include htail

/-! ## Attributes -/

theorem skipBlanks_closing (text : List Char) :
    skipBlanks (text ++ tail) = skipBlanks text ++ tail := by
  have hstops : Stops isBlank (skipBlanks text ++ tail) :=
    (stops_dropWhile isBlank text).append fun _ => htail.stops rfl
  have hblanks : ∀ c ∈ text.takeWhile isBlank, isBlank c = true :=
    List.all_eq_true.mp List.all_takeWhile
  have hskip : skipBlanks (text.takeWhile isBlank ++ (skipBlanks text ++ tail)) =
      skipBlanks text ++ tail :=
    dropWhile_append hblanks hstops
  have hsplit : text.takeWhile isBlank ++ skipBlanks text = text := List.takeWhile_append_dropWhile
  rwa [← List.append_assoc, hsplit] at hskip

theorem readName_closing {name : String} (h : readName text = .ok (name, rest)) :
    readName (text ++ tail) = .ok (name, rest ++ tail) := by
  obtain ⟨rfl, hname, hrest⟩ := readName_eq_ok.mp h
  have hstops : Stops isNameChar (rest ++ tail) := hrest.append fun _ => htail.stops rfl
  exact readName_eq_ok.mpr ⟨List.append_assoc .., hname, hstops⟩

omit htail in
theorem readOperator_append {operator : Option Operator}
    (h : readOperator text = .ok (operator, rest)) (tail : List Char) :
    readOperator (text ++ tail) = .ok (operator, rest ++ tail) := by
  unfold readOperator at h
  split at h
  · cases h
    rfl
  · cases h
    rfl
  next sign after hclose hequals =>
    split at h
    next found rest hsign =>
      cases h
      simp [readOperator, hsign]
    · exact absurd h (stopAt_ne_ok _ _)
    · exact absurd h (stopAt_ne_ok _ _)
  · exact absurd h (stopAt_ne_ok _ _)

omit htail in
theorem readQuoted_append {quote : Char} {inside : List Char}
    (h : readQuoted quote text = .ok (inside, rest)) (tail : List Char) :
    readQuoted quote (text ++ tail) = .ok (inside, rest ++ tail) := by
  obtain ⟨rfl, hfree⟩ := readQuoted_eq_ok.mp h
  exact readQuoted_eq_ok.mpr ⟨List.append_assoc .., hfree⟩

theorem readOperand_closing {operand : String} (h : readOperand text = .ok (operand, rest)) :
    readOperand (text ++ tail) = .ok (operand, rest ++ tail) := by
  unfold readOperand at h
  split at h
  · obtain ⟨⟨inside, after⟩, hread, heq⟩ := map_eq_ok.mp h
    cases heq
    exact map_eq_ok.mpr ⟨_, readQuoted_append hread tail, rfl⟩
  · obtain ⟨⟨inside, after⟩, hread, heq⟩ := map_eq_ok.mp h
    cases heq
    exact map_eq_ok.mpr ⟨_, readQuoted_append hread tail, rfl⟩
  next hdouble hsingle =>
    have hread := readName_closing htail h
    obtain ⟨rfl, hname, -⟩ := readName_eq_ok.mp h
    rw [List.append_assoc] at hread ⊢
    unfold readOperand
    split
    next heq => cases hname.isNameChar_head heq
    next heq => cases hname.isNameChar_head heq
    · exact hread

omit htail in
theorem readFlag_stops (h : Stops (fun c => c == 'i' || c == 'I') text) :
    readFlag text = (false, text) := by
  unfold readFlag
  split
  · cases stops_cons.mp h
  · cases stops_cons.mp h
  · rfl

theorem readFlag_closing (text : List Char) :
    readFlag (text ++ tail) = ((readFlag text).1, (readFlag text).2 ++ tail) := by
  cases text with
  | nil => exact readFlag_stops (htail.stops rfl)
  | cons c more =>
    by_cases hsmall : c = 'i'
    · subst hsmall
      exact congrArg (true, ·) (skipBlanks_closing htail more)
    by_cases hcapital : c = 'I'
    · subst hcapital
      exact congrArg (true, ·) (skipBlanks_closing htail more)
    have hstops (rest : List Char) : Stops (fun c => c == 'i' || c == 'I') (c :: rest) :=
      stops_cons.mpr (by simp [hsmall, hcapital])
    rw [List.cons_append, readFlag_stops (hstops _), readFlag_stops (hstops _)]
    rfl

omit htail in
theorem readBracket_append {test test' : AttributeTest}
    (h : readBracket test text = .ok (test', rest)) (tail : List Char) :
    readBracket test (text ++ tail) = .ok (test', rest ++ tail) := by
  obtain ⟨rfl, rfl⟩ := readBracket_eq_ok.mp h
  rfl

theorem readAttribute_closing {test : AttributeTest} (h : readAttribute text = .ok (test, rest)) :
    readAttribute (text ++ tail) = .ok (test, rest ++ tail) := by
  obtain ⟨⟨name, afterName⟩, hname, h⟩ := bind_eq_ok.mp h
  obtain ⟨⟨operator, afterOperator⟩, hoperator, h⟩ := bind_eq_ok.mp h
  have hname' := readName_closing htail hname
  have hoperator' := readOperator_append hoperator tail
  rw [← skipBlanks_closing htail] at hname' hoperator'
  refine bind_eq_ok.mpr ⟨_, hname', bind_eq_ok.mpr ⟨_, hoperator', ?_⟩⟩
  cases operator with
  | none => exact readBracket_append h tail
  | some operator =>
    obtain ⟨⟨operand, afterOperand⟩, hoperand, h⟩ := bind_eq_ok.mp h
    have hoperand' := readOperand_closing htail hoperand
    rw [← skipBlanks_closing htail] at hoperand'
    refine bind_eq_ok.mpr ⟨_, hoperand', ?_⟩
    have hbracket := readBracket_append h tail
    dsimp only
    rw [skipBlanks_closing htail, readFlag_closing htail]
    exact hbracket

/-! ## Pseudo-classes -/

omit htail in
theorem readArgument_append {argument : List Char} (h : readArgument 0 text = .ok (argument, rest))
    (tail : List Char) : readArgument 0 (text ++ tail) = .ok (argument, rest ++ tail) := by
  obtain ⟨rfl, hbalanced⟩ := readArgument_eq_ok.mp h
  exact readArgument_eq_ok.mpr ⟨List.append_assoc .., hbalanced⟩

omit htail in
theorem argumentPseudoClass_imp {readCompound? readCompound?' : List Char → Option Compound}
    {name : String} {argument : List Char} {test : Simple}
    (himp : ∀ {compound}, readCompound? argument = some compound →
      readCompound?' argument = some compound)
    (h : argumentPseudoClass readCompound? name argument = .ok test) :
    argumentPseudoClass readCompound?' name argument = .ok test := by
  rw [argumentPseudoClass_eq_ok] at h ⊢
  refine h.imp_right fun ⟨hname, compound, hcompound, htest⟩ => ?_
  exact ⟨hname, compound, himp hcompound, htest⟩

theorem readPseudoClass_closing {readCompound? readCompound?' : List Char → Option Compound}
    {test : Simple}
    (himp : ∀ {argument compound}, argument.length < text.length →
      readCompound? argument = some compound → readCompound?' argument = some compound)
    (h : readPseudoClass readCompound? text = .ok (test, rest)) :
    readPseudoClass readCompound?' (text ++ tail) = .ok (test, rest ++ tail) := by
  obtain ⟨name, after, hname, h⟩ := readPseudoClass_eq_ok.mp h
  have hname' := readName_closing htail hname
  refine readPseudoClass_eq_ok.mpr ⟨name, _, hname', ?_⟩
  obtain ⟨inside, argument, rfl, hargument, htest⟩ | ⟨hopen, hplain, rfl⟩ := h
  · have hlt : argument.length < text.length := by
      have hlength := (leaves_readName hname).length_le
      rw [(readArgument_eq_ok.mp hargument).1] at hlength
      simp only [List.length_cons, List.length_append] at hlength
      omega
    exact .inl ⟨_, argument, rfl, readArgument_append hargument tail,
      argumentPseudoClass_imp (himp hlt) htest⟩
  · exact .inr ⟨hopen.append fun _ => htail.stops rfl, hplain, rfl⟩

/-! ## Compounds -/

theorem readType_closing (text : List Char) :
    readType (text ++ tail) = ((readType text).1, (readType text).2 ++ tail) := by
  obtain hnone | ⟨after, rfl⟩ | ⟨name, after, hname, hstart⟩ := readType_cases text
  · have hnone' : Stops startsType (text ++ tail) := hnone.append fun _ => htail.stops rfl
    rw [readType_stops hnone, readType_stops hnone']
  · rfl
  · have hstart' : Stops (!isNameStart ·) (text ++ tail) := by
      refine hstart.append fun hnil => ?_
      rw [hnil] at hname
      cases hname
    rw [readType_name hstart hname, readType_name hstart' (readName_closing htail hname)]

end Closing

theorem length_readType_le (text : List Char) : (readType text).2.length ≤ text.length := by
  obtain hnone | ⟨after, rfl⟩ | ⟨name, after, hname, hstart⟩ := readType_cases text
  · exact Nat.le_of_eq (by rw [readType_stops hnone])
  · exact Nat.le_succ _
  · rw [readType_name hstart hname]
    exact (leaves_readName hname).length_le

section Tests

variable {readTests readTests' : List Char → Except Stop (Part Compound)} {tail : List Char}

theorem readCompoundBy_closing {text rest : List Char} {compound : Compound}
    (htail : Closing tail)
    (htests : ∀ {part tests rest}, part.length ≤ text.length →
      readTests part = .ok (tests, rest) → readTests' (part ++ tail) = .ok (tests, rest ++ tail))
    (h : readCompoundBy readTests text = .ok (compound, rest)) :
    readCompoundBy readTests' (text ++ tail) = .ok (compound, rest ++ tail) := by
  obtain ⟨tests, hread, rfl, hne⟩ := readCompoundBy_eq_ok.mp h
  rw [readCompoundBy_eq_ok, readType_closing htail]
  exact ⟨tests, htests (length_readType_le text) hread, rfl, hne⟩

theorem readCompoundBy_imp {text rest : List Char} {compound : Compound}
    (htests : ∀ {part tests rest}, part.length ≤ text.length →
      readTests part = .ok (tests, rest) → readTests' part = .ok (tests, rest))
    (h : readCompoundBy readTests text = .ok (compound, rest)) :
    readCompoundBy readTests' text = .ok (compound, rest) := by
  obtain ⟨tests, hread, hcompound⟩ := readCompoundBy_eq_ok.mp h
  exact readCompoundBy_eq_ok.mpr ⟨tests, htests (length_readType_le text) hread, hcompound⟩

theorem readWholeBy_imp {text : List Char} {compound : Compound}
    (htests : ∀ {part tests rest}, part.length ≤ text.length →
      readTests part = .ok (tests, rest) → readTests' part = .ok (tests, rest))
    (h : readWholeBy readTests text = some compound) :
    readWholeBy readTests' text = some compound := by
  have hskip := (leaves_skipBlanks text).length_le
  obtain ⟨rest, hread, hblank⟩ := readWholeBy_eq_some.mp h
  have hread' : readCompoundBy readTests' (skipBlanks text) = .ok (compound, rest) :=
    readCompoundBy_imp (fun hlength => htests (Nat.le_trans hlength hskip)) hread
  exact readWholeBy_eq_some.mpr ⟨rest, hread', hblank⟩

end Tests

theorem ReadsTest.closing {readCompound? readCompound?' : List Char → Option Compound}
    {sign : Char} {text rest tail : List Char} {test : Simple} (htail : Closing tail)
    (himp : ∀ {argument compound}, argument.length < text.length →
      readCompound? argument = some compound → readCompound?' argument = some compound)
    (h : ReadsTest readCompound? sign text test rest) :
    ReadsTest readCompound?' sign (text ++ tail) test (rest ++ tail) := by
  cases h with
  | id h => exact .id (readName_closing htail h)
  | className h => exact .className (readName_closing htail h)
  | attr h => exact .attr (readAttribute_closing htail h)
  | pseudoClass h => exact .pseudoClass (readPseudoClass_closing htail himp h)

/-- The steps beyond the length of the text do not matter, nor what is behind a parenthesis
    that closes. -/
theorem readTests_closing {steps steps' : Nat} {text rest tail : List Char} {tests : Compound}
    (htail : Closing tail) (hlength : text.length ≤ steps) (hsteps : steps ≤ steps')
    (h : readTests steps text = .ok (tests, rest)) :
    readTests steps' (text ++ tail) = .ok (tests, rest ++ tail) := by
  induction steps generalizing steps' text rest tail tests with
  | zero =>
    obtain rfl := List.length_eq_zero_iff.mp (Nat.le_zero.mp hlength)
    cases h
    exact readTests_stops steps' (htail.stops rfl)
  | succ steps ih =>
    obtain ⟨steps', rfl⟩ : ∃ n, steps' = n + 1 := ⟨steps' - 1, by omega⟩
    have hle : steps ≤ steps' := by omega
    obtain ⟨hstops, rfl, rfl⟩ | ⟨sign, after, test, mid, more, rfl, rfl, htest, hmore⟩ :=
      readTests_cases h
    · exact readTests_stops _ (hstops.append fun _ => htail.stops rfl)
    · rw [List.length_cons] at hlength
      have hwhole : ReadsWhole (readWholeBy (readTests steps)) :=
        readsWhole_readWholeBy readableTests_readTests
      have hmid := (htest.readable hwhole).2.2.length_le
      have himp {argument : List Char} {compound : Compound}
          (hargument : argument.length < after.length)
          (h : readWholeBy (readTests steps) argument = some compound) :
          readWholeBy (readTests steps') argument = some compound := by
        refine readWholeBy_imp (fun hpart htests => ?_) h
        -- an argument is cut out, so that nothing is behind it
        have hclosing := ih closing_nil (by omega) hle htests
        rwa [List.append_nil, List.append_nil] at hclosing
      exact readTests_cons (htest.closing htail himp) (ih htail (by omega) hle hmore)

/-- More steps than the length of the text change nothing. -/
theorem readTests_of_le {steps steps' : Nat} {text rest : List Char} {tests : Compound}
    (hlength : text.length ≤ steps) (hsteps : steps ≤ steps')
    (h : readTests steps text = .ok (tests, rest)) : readTests steps' text = .ok (tests, rest) := by
  have hclosing := readTests_closing closing_nil hlength hsteps h
  rwa [List.append_nil, List.append_nil] at hclosing

end HtmlTemplate.Selector
