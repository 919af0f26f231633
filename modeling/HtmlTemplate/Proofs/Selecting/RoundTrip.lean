-- SUMMARY: What is read from a selector may be written down and read again.
import HtmlTemplate.Proofs.Selecting.Rereading
import HtmlTemplate.Selector.Matching

/-!
# Reading what is written

A selector that was read is read again from each of its texts. Its compounds have tests,
down to those inside of `:not()`, and there is one more of them than of the combinators
between them: a matcher that goes through both lists by index from the last compound on
finds what it looks for.
-/

namespace HtmlTemplate.Selector

/-! ## Alternatives -/

theorem combinatorOfSign?_sign {combinator : Combinator} {c : Char}
    (h : combinator.sign.toList = [' ', c, ' ']) : combinatorOfSign? c = some combinator := by
  cases combinator with
  | descendant => cases h
  | child | nextSibling | laterSibling => cases h; rfl

/-- The sign of a combinator, or the gap in its place, ends a compound. -/
theorem Combinator.Written.stops {combinator : Combinator} {between : List Char}
    (h : combinator.Written between) (rest : List Char) :
    Stops continuesCompound (between ++ rest) := by
  cases h with
  | blanks hgap hne =>
    exact (hgap.stops continuesCompound_of_isBlank).append fun hnil => absurd hnil hne
  | @sign combinator c _ hsign htext =>
    refine htext.stops continuesCompound_of_isBlank (stops_cons.mpr ?_)
    cases combinator with
    | descendant => cases hsign
    | child | nextSibling | laterSibling => cases hsign; rfl

section Combined

variable {combinator : Combinator} {subject : Compound} {between more rest : List Char}

theorem readCombined_written {steps : Nat} (left : Complex)
    (hcombinator : combinator.Written between) (hsubject : AllWritten subject more)
    (hne : subject ≠ []) (hreadable : AllReadable subject)
    (hrest : Stops continuesCompound rest) :
    readCombined (steps + 1) left (between ++ (more ++ rest)) =
      readCombined steps (left.combined combinator subject) rest := by
  obtain ⟨hmore, hblank, hstarts⟩ := hsubject.starts hne hreadable
  have hread := readCompound_written hsubject hne hreadable hrest
  have hstops : Stops isBlank (more ++ rest) := hblank.append fun hnil => absurd hnil hmore
  cases hcombinator with
  | blanks hgap hgapne =>
    obtain ⟨c, after, rfl⟩ := List.exists_cons_of_ne_nil hmore
    have hc := stops_cons.mp hstarts
    simp only [startsCombined, Bool.or_eq_false_iff, beq_eq_false_iff_ne,
      Option.isSome_eq_false_iff, Option.isNone_iff_eq_none] at hc
    have hlength : (after ++ rest).length + 1 < (between ++ (c :: after ++ rest)).length := by
      have hgaplength := List.length_pos_iff.mpr hgapne
      simp only [List.length_append, List.length_cons]
      omega
    have hskip : skipBlanks (between ++ (c :: after ++ rest)) = c :: (after ++ rest) :=
      skipBlanks_append hgap hstops
    have hread' : readCompound (c :: (after ++ rest)) = .ok (subject, rest) := hread
    simp only [readCombined, hskip, hc, if_false, hlength, if_true, hread', bind, Except.bind]
  | @sign combinator c _ hsign htext =>
    have hsignStops : Stops isBlank [c] := by
      cases combinator with
      | descendant => cases hsign
      | child | nextSibling | laterSibling => cases hsign; exact stops_cons.mpr rfl
    obtain ⟨gap, hgap, hskip⟩ := htext.skip_cons nofun hsignStops (more ++ rest)
    have hc : c ≠ ',' := by
      rintro rfl
      cases combinatorOfSign?_sign hsign
    simp only [readCombined, hskip, List.singleton_append, hc, if_false,
      combinatorOfSign?_sign hsign, hgap.skip_nil hstops, hread, bind, Except.bind]

/-- An alternative is combined up to a comma or the end. -/
theorem readCombined_end {steps : Nat} (complex : Complex) {text : List Char}
    (hlength : text.length ≤ steps)
    (hend : skipBlanks text = [] ∨ ∃ more, skipBlanks text = ',' :: more) :
    ∃ rest, readCombined steps complex text = .ok (complex, rest) ∧
      skipBlanks rest = skipBlanks text := by
  cases steps with
  | zero => exact ⟨text, rfl, rfl⟩
  | succ steps =>
    obtain hend | ⟨more, hend⟩ := hend
    · exact ⟨[], by simp only [readCombined, hend], hend.symm ▸ rfl⟩
    · exact ⟨',' :: more, by simp only [readCombined, hend, if_true], hend.symm ▸ rfl⟩

end Combined

section Complexes

variable {complex : Complex} {text rest : List Char}

theorem Complex.Written.starts (h : complex.Written text) (hreadable : complex.Readable) :
    text ≠ [] ∧ Stops isBlank text := by
  induction h with
  | single h =>
    obtain ⟨hne, hall⟩ := hreadable _ (List.mem_singleton_self _)
    exact (h.starts hne hall).imp_right (·.1)
  | combined _ _ _ ih =>
    rw [Complex.Readable, Complex.compounds, List.forall_mem_append] at hreadable
    obtain ⟨hne, hstops⟩ := ih hreadable.1
    rw [List.append_assoc]
    exact ⟨fun hnil => hne (List.append_eq_nil_iff.mp hnil).1,
      hstops.append fun hnil => absurd hnil hne⟩

/-- The compounds of an alternative are read one by one, up to what is behind them. -/
theorem readComplex_written (h : complex.Written text) (hreadable : complex.Readable) :
    ∀ {steps : Nat} {rest : List Char}, Stops continuesCompound rest →
      (text ++ rest).length ≤ steps → ∃ steps', rest.length ≤ steps' ∧
        (readCompound (text ++ rest) >>= fun (subject, rest) =>
          readCombined steps (.single subject) rest) = readCombined steps' complex rest := by
  induction h with
  | @single subject text h =>
    intro steps rest hrest hlength
    obtain ⟨hne, hall⟩ := hreadable subject (List.mem_singleton_self _)
    rw [readCompound_written h hne hall hrest]
    rw [List.length_append] at hlength
    exact ⟨steps, by omega, rfl⟩
  | @combined left combinator subject text between more hleft hcombinator hsubject ih =>
    intro steps rest hrest hlength
    rw [Complex.Readable, Complex.compounds, List.forall_mem_append] at hreadable
    obtain ⟨hne, hall⟩ := hreadable.2 subject (List.mem_singleton_self _)
    rw [List.append_assoc, List.append_assoc] at hlength ⊢
    -- to what is on the left, the combinator and its subject are the rest of the text
    obtain ⟨steps', hsteps', heq⟩ := ih hreadable.1 (hcombinator.stops (more ++ rest)) hlength
    have hmore := List.length_pos_iff.mpr (hsubject.starts hne hall).1
    rw [List.length_append, List.length_append] at hsteps'
    obtain ⟨steps', rfl⟩ : ∃ n, steps' = n + 1 := ⟨steps' - 1, by omega⟩
    rw [heq, readCombined_written left hcombinator hsubject hne hall hrest]
    exact ⟨steps', by omega, rfl⟩

/-- An alternative is read where it ends at a comma or with the text. -/
theorem readComplex_of_spaced {words : List (List Char)} {part : List Char}
    (h : complex.Written part) (hreadable : complex.Readable) (htext : Spaced (part :: words) text)
    (hwords : words = [] ∨ ∃ more, words = [','] :: more) :
    ∃ after rest, Spaced words after ∧ readComplex (skipBlanks text) = .ok (complex, rest) ∧
      skipBlanks rest = skipBlanks after ∧ after.length ≤ text.length := by
  obtain ⟨hne, hstops⟩ := h.starts hreadable
  obtain ⟨after, hafter, hskip⟩ := htext.skip_cons hne hstops []
  rw [List.append_nil, List.append_nil] at hskip
  have hcontinues : Stops continuesCompound after := by
    rw [← List.append_nil after]
    refine hafter.stops continuesCompound_of_isBlank ?_
    obtain rfl | ⟨more, rfl⟩ := hwords
    · exact stops_nil continuesCompound
    · exact stops_cons.mpr rfl
  have hend : skipBlanks after = [] ∨ ∃ more, skipBlanks after = ',' :: more := by
    obtain rfl | ⟨more, rfl⟩ := hwords
    · exact .inl hafter.skip_end
    · right
      obtain ⟨last, -, hcomma⟩ := hafter.skip_cons nofun (stops_cons.mpr rfl) []
      rw [List.append_nil] at hcomma
      exact ⟨_, hcomma⟩
  obtain ⟨steps, hsteps, heq⟩ := readComplex_written h hreadable hcontinues (Nat.le_refl _)
  obtain ⟨rest, hread, hrest⟩ := readCombined_end complex hsteps hend
  have hlength := (leaves_skipBlanks text).length_le
  rw [hskip, List.length_append] at hlength
  exact ⟨after, rest, hafter, hskip ▸ heq.trans hread, hrest, by omega⟩

end Complexes

theorem readAlternatives_written {selector : Selector} {words : List (List Char)}
    {text : List Char} {steps : Nat} (h : Parts selector words)
    (hreadable : ∀ complex ∈ selector, complex.Readable) (htext : Spaced words text)
    (hlength : text.length < steps) : readAlternatives steps text = .ok selector := by
  induction h generalizing text steps with
  | @last complex part h =>
    obtain ⟨steps, rfl⟩ : ∃ n, steps = n + 1 := ⟨steps - 1, by omega⟩
    have hcomplex := hreadable complex (List.mem_singleton_self _)
    obtain ⟨after, rest, hafter, hread, hrest, -⟩ :=
      readComplex_of_spaced h hcomplex htext (.inl rfl)
    refine bind_eq_ok.mpr ⟨_, hread, ?_⟩
    simp only [hrest, hafter.skip_end]
    rfl
  | @more complex selector part words h hmore ih =>
    obtain ⟨steps, rfl⟩ : ∃ n, steps = n + 1 := ⟨steps - 1, by omega⟩
    rw [List.forall_mem_cons] at hreadable
    obtain ⟨after, rest, hafter, hread, hrest, hle⟩ :=
      readComplex_of_spaced h hreadable.1 htext (.inr ⟨words, rfl⟩)
    obtain ⟨last, hlast, hcomma⟩ := hafter.skip_cons nofun (stops_cons.mpr rfl) []
    rw [List.append_nil, List.append_nil] at hcomma
    have hlastLength : last.length < after.length := by
      have hle := (leaves_skipBlanks after).length_le
      rw [hcomma, List.length_append] at hle
      exact Nat.lt_of_succ_le (by simpa [Nat.add_comm] using hle)
    have hselector : readAlternatives steps last = .ok selector := ih hreadable.2 hlast (by omega)
    refine bind_eq_ok.mpr ⟨_, hread, ?_⟩
    simp only [hrest, hcomma, List.singleton_append, if_true]
    exact bind_eq_ok.mpr ⟨_, hselector, rfl⟩

/-- Every text of a readable selector is read as the selector. -/
theorem parse_written {selector : Selector} {text : String} (h : Written selector text)
    (hreadable : ∀ complex ∈ selector, complex.Readable) : parse text = .ok selector := by
  obtain ⟨words, hwords, htext⟩ := h
  exact parse_eq_ok.mpr (readAlternatives_written hwords hreadable htext (Nat.lt_succ_self _))

/-! ## No compound is empty -/

/-- The compounds inside of a compound: itself, and those inside of its `:not()`. -/
inductive Nested : Compound → Compound → Prop where
  | self (compound : Compound) : Nested compound compound
  | not {inner compound outer : Compound} (hmem : .not compound ∈ outer)
      (h : Nested inner compound) : Nested inner outer

theorem AllReadable.of_mem {compound : Compound} (h : AllReadable compound) {test : Simple}
    (hmem : test ∈ compound) : test.Readable := by
  induction compound with
  | nil => cases hmem
  | cons first rest ih =>
    obtain rfl | hmem := List.mem_cons.mp hmem
    · exact h.1
    · exact ih h.2.2 hmem

theorem Nested.ne_nil {inner outer : Compound} (h : Nested inner outer) (hne : outer ≠ [])
    (hreadable : AllReadable outer) : inner ≠ [] := by
  induction h with
  | self => exact hne
  | not hmem _ ih =>
    obtain ⟨hne, hall, -⟩ := hreadable.of_mem hmem
    exact ih hne hall

end HtmlTemplate.Selector

/-! ## Matching by index -/

namespace HtmlTemplate.Tree

open Selector

/-- Whether an element fits the compounds up to an index and the combinators between them;
    nothing if there is no compound or no combinator where one is looked for. -/
def fitsUpTo? (tree : Tree) (top : NodeId) (compounds : List Compound)
    (combinators : List Combinator) : Nat → NodeId → Option Bool
  | 0, id => do
    let compound ← compounds[0]?
    return tree.fits id compound
  | index + 1, id => do
    let compound ← compounds[index + 1]?
    if tree.fits id compound then
      let combinator ← combinators[index]?
      (tree.reached top id combinator).anyM (tree.fitsUpTo? top compounds combinators index)
    else return false

/-- Whether an element fits an alternative, with the compounds and the combinators taken
    from their lists by index. -/
def fitsByIndex? (tree : Tree) (top : NodeId) (complex : Selector.Complex) (id : NodeId) :
    Option Bool :=
  match complex.compounds.length with
  | 0 => some false
  | count + 1 => tree.fitsUpTo? top complex.compounds complex.combinators count id

variable {tree : Tree} {top : NodeId}

/-- What comes behind an alternative in the lists does not matter. -/
theorem fitsUpTo?_eq (complex : Selector.Complex) (compounds : List Compound)
    (combinators : List Combinator) (id : NodeId) :
    tree.fitsUpTo? top (complex.compounds ++ compounds) (complex.combinators ++ combinators)
      complex.combinators.length id = some (tree.fitsComplex top complex id) := by
  induction complex generalizing compounds combinators id with
  | single subject => rfl
  | combined left combinator subject ih =>
    rw [Complex.compounds, Complex.combinators, List.append_assoc, List.append_assoc,
      List.length_append, List.length_singleton, fitsUpTo?, ← left.length_compounds]
    have hleft : tree.fitsUpTo? top (left.compounds ++ ([subject] ++ compounds))
        (left.combinators ++ ([combinator] ++ combinators)) left.combinators.length =
          fun id => some (tree.fitsComplex top left id) :=
      funext (ih _ _)
    have hcompound : (left.compounds ++ ([subject] ++ compounds))[left.compounds.length]? =
        some subject := by
      simp
    have hcombinator : (left.combinators ++ ([combinator] ++ combinators))[
        left.combinators.length]? = some combinator := by
      simp
    rw [hcompound, hcombinator, hleft, fitsComplex]
    simp only [Option.bind_eq_bind, Option.bind_some]
    cases tree.fits id subject with
    | false => rfl
    | true => exact List.anyM_pure

theorem fitsByIndex?_eq (complex : Selector.Complex) (id : NodeId) :
    tree.fitsByIndex? top complex id = some (tree.fitsComplex top complex id) := by
  have h : tree.fitsUpTo? top (complex.compounds ++ []) (complex.combinators ++ [])
      complex.combinators.length id = some (tree.fitsComplex top complex id) :=
    fitsUpTo?_eq complex [] [] id
  rw [List.append_nil, List.append_nil] at h
  rw [fitsByIndex?, complex.length_compounds]
  exact h

end HtmlTemplate.Tree

/-! ## What is read -/

namespace HtmlTemplate.Selector

/-- A selector that is read can be written, and is read again from whatever text is
    written for it. Each of its alternatives has one compound more than it has combinators,
    none of them is empty, also inside of `:not()`, and a matcher that takes them by index
    misses none. -/
theorem parse_round_trip {text : String} {selector : Selector} (h : parse text = .ok selector) :
    (∃ written, Written selector written) ∧
    (∀ written, Written selector written → parse written = .ok selector) ∧
    ∀ complex ∈ selector,
      complex.compounds.length = complex.combinators.length + 1 ∧
      (∀ compound ∈ complex.compounds, ∀ inner, Nested inner compound → inner ≠ []) ∧
      ∀ (tree : Tree) (top id : NodeId),
        tree.fitsByIndex? top complex id = some (tree.fitsComplex top complex id) := by
  obtain ⟨hne, hreadable⟩ := readable_parse h
  refine ⟨exists_written hne hreadable, fun _ hwritten => parse_written hwritten hreadable, ?_⟩
  intro complex hcomplex
  refine ⟨complex.length_compounds, ?_, fun _ _ => Tree.fitsByIndex?_eq complex⟩
  intro compound hcompound inner hinner
  obtain ⟨hfull, hall⟩ := hreadable complex hcomplex compound hcompound
  exact hinner.ne_nil hfull hall

/-- The blanks in the parentheses and around the sign do not matter. -/
theorem parse_round_trip_section :
    let selector : Selector :=
      [.combined (.single [.tag "section", .not [.className "a"]]) .child [.tag "p"]]
    parse "section:not( .a ) > p" = .ok selector ∧ parse "section:not(.a)>p\n" = .ok selector := by
  intro selector
  have hparse : parse "section:not( .a ) > p" = .ok selector := rfl
  have hnegated : AllWritten [.className "a"] ['.', 'a'] := .cons (.className "a") .nil
  have hsection : AllWritten [.tag "section", .not [.className "a"]] "section:not(.a)".toList :=
    .cons (.tag "section") (.cons (.not hnegated (spaced_flatten _)) .nil)
  have hparagraph : AllWritten [.tag "p"] ['p'] := .cons (.tag "p") .nil
  have hchild : Combinator.child.Written ['>'] := .sign rfl (spaced_flatten [['>']])
  have hend : IsGap ['\n'] := List.forall_mem_singleton.mpr (by decide)
  have hwritten : Written selector "section:not(.a)>p\n" :=
    ⟨_, .last (.combined (.single hsection) hchild hparagraph), .cons _ isGap_nil (.nil hend)⟩
  exact ⟨hparse, (parse_round_trip hparse).2.1 _ hwritten⟩

end HtmlTemplate.Selector
