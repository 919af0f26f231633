-- SUMMARY: When a compound may be put into `:not()`: if its parentheses are balanced, quoted ones included.
import HtmlTemplate.Proofs.Selecting.Closing
import HtmlTemplate.Proofs.Selecting.RoundTrip

/-!
# Compounds inside of `:not()`

The argument of `:not()` is cut out before it is read, by counting parentheses, and a
parenthesis between quotes counts. So the text of a compound can be an argument exactly
if its parentheses are balanced. Those of further arguments are; what decides are the
operands of the attribute tests of the compound. A compound with an unbalanced operand
cannot be negated: the argument ends inside of the quotes, or not at all.
-/

namespace HtmlTemplate.Selector

/-! ## A single compound -/

/-- Either nothing is combined with an alternative, or there are more compounds. -/
theorem eq_or_length_lt_of_readCombined {steps : Nat} {left complex : Complex}
    {text rest : List Char} (h : readCombined steps left text = .ok (complex, rest)) :
    complex = left ∧ skipBlanks rest = skipBlanks text ∨
      left.compounds.length < complex.compounds.length := by
  induction steps generalizing left text with
  | zero =>
    cases h
    exact .inl ⟨rfl, rfl⟩
  | succ steps ih =>
    obtain heq | ⟨combinator, subject, _, _, -, -, h⟩ := readCombined_cases h
    · exact .inl heq
    · right
      have hlength : (left.combined combinator subject).compounds.length =
          left.compounds.length + 1 := List.length_append
      obtain ⟨rfl, -⟩ | hlt := ih h <;> omega

theorem parse_eq_single {text : String} {compound : Compound} :
    parse text = .ok [.single compound] ↔
      ∃ rest, readCompound (skipBlanks text.toList) = .ok (compound, rest) ∧
        skipBlanks rest = [] := by
  rw [parse_eq_ok]
  constructor
  · intro h
    obtain ⟨⟨complex, afterComplex⟩, hcomplex, h⟩ := bind_eq_ok.mp h
    obtain ⟨⟨subject, afterSubject⟩, hsubject, hcombined⟩ := bind_eq_ok.mp hcomplex
    dsimp only at h
    split at h
    next hend =>
      cases h
      obtain ⟨heq, hskip⟩ | hlt := eq_or_length_lt_of_readCombined hcombined
      · cases heq
        exact ⟨afterSubject, hsubject, hskip.symm.trans hend⟩
      · exact absurd hlt (Nat.lt_irrefl _)
    · split at h
      · obtain ⟨more, hmore, h⟩ := bind_eq_ok.mp h
        cases h
        exact absurd rfl (readable_readAlternatives hmore).1
      · exact absurd h (stopAt_ne_ok _ _)
  · rintro ⟨rest, hread, hend⟩
    have hlength := (readable_readCompound (stops_dropWhile _ _) hread).2.2.length_le
    obtain ⟨after, hcombined, hafter⟩ := readCombined_end (.single compound) hlength (.inl hend)
    refine bind_eq_ok.mpr ⟨_, bind_eq_ok.mpr ⟨_, hread, hcombined⟩, ?_⟩
    simp only [hafter, hend]
    rfl

/-! ## Arguments of negations -/

section Steps

variable {compound : Compound} {text rest : List Char} {steps : Nat}

theorem readCompoundBy_of_readCompound (h : readCompound text = .ok (compound, rest))
    (hsteps : text.length ≤ steps) :
    readCompoundBy (readTests steps) text = .ok (compound, rest) :=
  readCompoundBy_imp (fun hlength htests => readTests_of_le hlength hsteps htests) h

theorem readWholeBy_of_readCompound (h : readCompound (skipBlanks text) = .ok (compound, rest))
    (hend : skipBlanks rest = []) (hsteps : text.length ≤ steps) :
    readWholeBy (readTests steps) text = some compound := by
  have hskip := Nat.le_trans (leaves_skipBlanks text).length_le hsteps
  exact readWholeBy_eq_some.mpr ⟨rest, readCompoundBy_of_readCompound h hskip, hend⟩

/-- A text that is read as a compound does not become one by cutting it at a parenthesis
    that closes. -/
theorem readWholeBy_cut {argument more : List Char} (htext : text = argument ++ ')' :: more)
    (h : readCompound (skipBlanks text) = .ok (compound, rest)) (hend : skipBlanks rest = [])
    (hsteps : text.length ≤ steps) : readWholeBy (readTests steps) argument = none := by
  have htail : Closing (')' :: more) := closing_cons more
  have hskip := Nat.le_trans (leaves_skipBlanks text).length_le hsteps
  have hskipped : skipBlanks text = skipBlanks argument ++ ')' :: more :=
    htext ▸ skipBlanks_closing htail argument
  refine Option.eq_none_iff_forall_ne_some.mpr fun found hfound => ?_
  obtain ⟨gap, hread, -⟩ := readWholeBy_eq_some.mp hfound
  have hlength : (skipBlanks argument).length ≤ steps := by
    rw [hskipped, List.length_append] at hskip
    omega
  have hcut : readCompoundBy (readTests steps) (skipBlanks argument ++ ')' :: more) =
      .ok (found, gap ++ ')' :: more) :=
    readCompoundBy_closing htail (fun hpart htests =>
      readTests_closing htail (Nat.le_trans hpart hlength) (Nat.le_refl _) htests) hread
  -- both read the same compound, but behind the cut the parenthesis is left over
  rw [← hskipped, readCompoundBy_of_readCompound h hskip] at hcut
  cases hcut
  rw [skipBlanks_closing htail] at hend
  cases (List.append_eq_nil_iff.mp hend).2

end Steps

/-- The negation of a text. -/
def negated (text : List Char) : List Char := ':' :: ("not".toList ++ '(' :: (text ++ [')']))

theorem toList_negated (text : String) :
    (":not(" ++ text ++ ")").toList = negated text.toList := by
  simp [negated]

theorem length_negated (text : List Char) : (negated text).length = text.length + 5 + 1 := by
  simp [negated]

section Negated

variable {compound : Compound} {text rest : List Char}

theorem readCompound_negated (h : readCompound (skipBlanks text) = .ok (compound, rest))
    (hend : skipBlanks rest = []) (hbalanced : Balanced text) :
    readCompound (negated text) = .ok ([.not compound], []) := by
  have hname : IsLowerName "not" := isLowerName_of_mem (by decide)
  have hsteps : text.length ≤ text.length + 5 := Nat.le_add_right ..
  have hwhole := readWholeBy_of_readCompound h hend hsteps
  have hnot := argumentPseudoClass_eq_ok.mpr (.inr ⟨rfl, compound, hwhole, rfl⟩)
  have hpseudo := readPseudoClass_argument hname hbalanced hnot []
  have htests := readTests_cons (.pseudoClass hpseudo) (readTests_stops _ (stops_nil startsTest))
  rw [readCompound, length_negated]
  exact bind_eq_ok.mpr ⟨_, htests, rfl⟩

theorem balanced_of_readCompound_negated {part : Part Compound}
    (h : readCompound (skipBlanks text) = .ok (compound, rest)) (hend : skipBlanks rest = [])
    (hnegated : readCompound (negated text) = .ok part) : Balanced text := by
  have hname : IsLowerName "not" := isLowerName_of_mem (by decide)
  have hsteps : text.length ≤ text.length + 5 := Nat.le_add_right ..
  rw [readCompound, length_negated] at hnegated
  obtain ⟨_, htests, -⟩ := bind_eq_ok.mp hnegated
  obtain ⟨⟨test, after⟩, hpseudo, -⟩ := bind_eq_ok.mp htests
  obtain ⟨argument, hargument, hnot⟩ := (readPseudoClass_argument_eq_ok hname).mp hpseudo
  obtain ⟨htext, hbalanced⟩ := readArgument_eq_ok.mp hargument
  -- nothing is left behind the argument, or the text was cut before its end
  obtain rfl | ⟨more, last, rfl⟩ := List.eq_nil_or_concat after
  · have heq : text = argument := List.append_cancel_right htext
    exact heq ▸ hbalanced
  · rw [List.concat_eq_append, ← List.cons_append, ← List.append_assoc] at htext
    have hcut : text = argument ++ ')' :: more := (List.append_inj' htext rfl).1
    obtain ⟨_, _, hnth, -⟩ | ⟨-, found, hwhole, -⟩ := argumentPseudoClass_eq_ok.mp hnot
    · cases hnth
    · cases (readWholeBy_cut hcut h hend hsteps).symm.trans hwhole

end Negated

/-! ## Negations -/

/-- A compound can be negated as it is written exactly if the parentheses of its text are
    balanced, which is up to the operands of its attribute tests. Otherwise the negation
    is refused. -/
theorem parse_not {text : String} {compound : Compound} (h : parse text = .ok [.single compound]) :
    (parse (":not(" ++ text ++ ")") = .ok [.single [.not compound]] ↔ Balanced text.toList) ∧
    (¬ Balanced text.toList → ∃ error, parse (":not(" ++ text ++ ")") = .error error) ∧
    (Balanced text.toList ↔ Balanced (operands compound)) := by
  obtain ⟨rest, hread, hend⟩ := parse_eq_single.mp h
  have hskip : skipBlanks (negated text.toList) = negated text.toList := rfl
  have haccepted {selector : Selector} (h : parse (":not(" ++ text ++ ")") = .ok selector) :
      Balanced text.toList := by
    rw [parse_eq_ok, toList_negated] at h
    obtain ⟨_, hcomplex, -⟩ := bind_eq_ok.mp h
    obtain ⟨part, hnegated, -⟩ := bind_eq_ok.mp hcomplex
    exact balanced_of_readCompound_negated hread hend hnegated
  refine ⟨⟨haccepted, fun hbalanced => ?_⟩, fun hunbalanced => ?_, ?_⟩
  · rw [parse_eq_single, toList_negated, hskip]
    exact ⟨[], readCompound_negated hread hend hbalanced, rfl⟩
  · cases hresult : parse (":not(" ++ text ++ ")") with
    | error error => exact ⟨error, rfl⟩
    | ok selector => exact absurd (haccepted hresult) hunbalanced
  · have hleaves := (readable_readCompound (stops_dropWhile _ _) hread).2.2
    have hwhole := ((leaves_skipBlanks text.toList).trans hleaves).after (leaves_skipBlanks rest)
    have hnesting := hwhole.nesting.balanced_iff
    rwa [hend, List.nil_append, List.append_nil] at hnesting

/-- Parentheses in an operand do not matter as long as they are balanced. -/
theorem parse_not_section :
    let compound : Compound := [.tag "section", .attr ⟨"title", some (.equals, "()"), false⟩]
    parse "section[title='()']" = .ok [.single compound] ∧
      parse ":not(section[title='()'])" = .ok [.single [.not compound]] := by
  intro compound
  have hparse : parse "section[title='()']" = .ok [.single compound] := rfl
  exact ⟨hparse, (parse_not hparse).1.mpr (by decide)⟩

/-- A compound whose operand is a parenthesis cannot be negated: the argument ends inside
    of the quotes. -/
theorem parse_not_parenthesis :
    parse "[a=\")\"]" = .ok [.single [.attr ⟨"a", some (.equals, ")"), false⟩]] ∧
      parse ":not([a=\")\"])" =
        .error ⟨":not([a=\")\"])", .invalidArgument "not" "[a=\""⟩ :=
  ⟨rfl, rfl⟩

end HtmlTemplate.Selector
