-- SUMMARY: Lower-casing a part of a text depends on what is around it in the final sigmas alone.
import HtmlTemplate.Text.Blank
import HtmlTemplate.Text.LowerCase

/-!
# Lower-casing parts of a text

Lower-casing goes character by character, and only `Σ` looks at its surroundings. So a text
in lower case is made of its parts, each lower-cased between the others: `lowerBetween`.
Two surroundings make the same of a part exactly if every `Σ` of it ends a word in both or
in neither, which is what `finalSigmas` lists.

Blanks of ASCII and the hyphen are boundaries. They stay what they are, nothing else becomes
one of them, and no word goes on behind them.
-/

namespace HtmlTemplate

/-! ## Parts -/

/-- Whether a `Σ` between the two texts ends a word; the nearest character of the text in
    front of it comes first. -/
def endsWord (before rest : List Char) : Bool := startsCased before && !startsCased rest

/-- One character in lower case. -/
def lowerOne (before : List Char) (c : Char) (rest : List Char) : List Char :=
  if c == 'Σ' then if endsWord before rest then ['ς'] else ['σ']
  else if c == 'İ' then ['i', '\u0307']
  else [lowerChar c]

/-- A text in lower case as it becomes between two others. -/
def lowerBetween (before : List Char) : List Char → List Char → List Char
  | [], _ => []
  | c :: rest, after => lowerOne before c (rest ++ after) ++ lowerBetween (c :: before) rest after

/-- For each `Σ` of a text between two others, whether it ends a word. -/
def finalSigmas (before : List Char) : List Char → List Char → List Bool
  | [], _ => []
  | c :: rest, after =>
    (if c = 'Σ' then [endsWord before (rest ++ after)] else []) ++
      finalSigmas (c :: before) rest after

section Parts

variable {before after before' after' rest text : List Char} {c : Char}

theorem lowerAfter_cons (before : List Char) (c : Char) (rest : List Char) :
    lowerAfter before (c :: rest) = lowerOne before c rest ++ lowerAfter (c :: before) rest := rfl

theorem lowerAfter_append (before text after : List Char) :
    lowerAfter before (text ++ after) =
      lowerBetween before text after ++ lowerAfter (text.reverse ++ before) after := by
  induction text generalizing before with
  | nil => rfl
  | cons c rest ih =>
    rw [List.cons_append, lowerAfter_cons, ih, lowerBetween, List.append_assoc,
      List.reverse_cons, List.append_assoc, List.singleton_append]

theorem lowerAfter_eq_lowerBetween (before text : List Char) :
    lowerAfter before text = lowerBetween before text [] := by
  have happend := lowerAfter_append before text []
  rwa [List.append_nil, lowerAfter, List.append_nil] at happend

/-- A text in lower case, part by part. -/
theorem toList_fullLower {value : String} (h : value.toList = before ++ text ++ after) :
    (fullLower value).toList = lowerBetween [] before (text ++ after) ++
      lowerBetween before.reverse text after ++
        lowerBetween (text.reverse ++ before.reverse) after [] := by
  rw [fullLower, String.toList_ofList, h, List.append_assoc, lowerAfter_append,
    lowerAfter_append, List.append_nil, lowerAfter_eq_lowerBetween, List.append_assoc]

theorem toList_fullLower_self (value : String) :
    (fullLower value).toList = lowerBetween [] value.toList [] := by
  rw [fullLower, String.toList_ofList, lowerAfter_eq_lowerBetween]

/-- How long a character becomes does not depend on what is around it. -/
theorem length_lowerOne :
    (lowerOne before c rest).length = (lowerOne before' c after').length := by
  unfold lowerOne
  split
  · cases endsWord before rest <;> cases endsWord before' after' <;> rfl
  · split <;> rfl

theorem length_lowerBetween :
    (lowerBetween before text after).length = (lowerBetween before' text after').length := by
  induction text generalizing before before' with
  | nil => rfl
  | cons c rest ih =>
    rw [lowerBetween, lowerBetween, List.length_append, List.length_append, length_lowerOne, ih]

theorem lowerOne_eq_iff : lowerOne before c rest = lowerOne before' c after' ↔
    (c = 'Σ' → endsWord before rest = endsWord before' after') := by
  unfold lowerOne
  by_cases hsigma : c = 'Σ'
  · simp only [hsigma, beq_self_eq_true, if_true, forall_const]
    cases endsWord before rest <;> cases endsWord before' after' <;> decide
  · simp [hsigma]

/-- A part becomes the same between two pairs of texts if the same sigmas end words there. -/
theorem lowerBetween_eq_iff : lowerBetween before text after = lowerBetween before' text after' ↔
    finalSigmas before text after = finalSigmas before' text after' := by
  induction text generalizing before before' with
  | nil => exact ⟨fun _ => rfl, fun _ => rfl⟩
  | cons c rest ih =>
    have hlower : lowerBetween before (c :: rest) after = lowerBetween before' (c :: rest) after' ↔
        lowerOne before c (rest ++ after) = lowerOne before' c (rest ++ after') ∧
          lowerBetween (c :: before) rest after = lowerBetween (c :: before') rest after' := by
      constructor
      · intro heq
        exact List.append_inj heq length_lowerOne
      · rintro ⟨hone, hrest⟩
        rw [lowerBetween, lowerBetween, hone, hrest]
    rw [hlower, lowerOne_eq_iff, ih, finalSigmas, finalSigmas]
    by_cases hsigma : c = 'Σ'
    · simp [hsigma]
    · simp [hsigma]

theorem finalSigmas_of_not_mem (h : 'Σ' ∉ text) : finalSigmas before text after = [] := by
  induction text generalizing before with
  | nil => rfl
  | cons c rest ih =>
    obtain ⟨hc, hrest⟩ := not_or.mp (mt List.mem_cons.mpr h)
    rw [finalSigmas, if_neg (Ne.symm hc), ih hrest]
    rfl

theorem lowerOne_ne_nil : lowerOne before c rest ≠ [] := by
  unfold lowerOne
  split
  · cases endsWord before rest <;> exact List.cons_ne_nil _ _
  · split <;> exact List.cons_ne_nil _ _

theorem lowerBetween_eq_nil : lowerBetween before text after = [] ↔ text = [] := by
  cases text with
  | nil => exact ⟨fun _ => rfl, fun _ => rfl⟩
  | cons c rest =>
    constructor
    · intro h
      exact absurd (List.append_eq_nil_iff.mp h).1 lowerOne_ne_nil
    · exact nofun

end Parts

/-! ## Boundaries -/

/-- A blank of ASCII or a hyphen. -/
def isBoundary (c : Char) : Bool := isAsciiBlank c || c == '-'

/-- The text is empty or starts with a boundary. -/
def Bounded (text : List Char) : Prop := ∀ c ∈ text.head?, isBoundary c = true

section Boundaries

variable {before after rest text : List Char} {c : Char}

/-- What holds of each of the boundaries. -/
theorem boundary_all {p : Char → Bool} (h : isBoundary c = true)
    (hall : [' ', '\t', '\n', '\x0c', '\r', '-'].all p = true) : p c = true := by
  apply List.all_eq_true.mp hall c
  simpa [isBoundary, isAsciiBlank, or_assoc] using h

theorem casing_of_isBoundary (h : isBoundary c = true) :
    cased.has c = false ∧ caseIgnorable.has c = false := by
  have hplain := boundary_all (p := fun c => !cased.has c && !caseIgnorable.has c) h
    (by decide +kernel)
  simpa using hplain

theorem lowerOne_of_isBoundary (h : isBoundary c = true) : lowerOne before c rest = [c] := by
  have hplain := boundary_all (p := fun c => c != 'Σ' && c != 'İ' && lowerChar c == c) h
    (by decide +kernel)
  simp only [Bool.and_eq_true, bne_iff_ne, beq_iff_eq] at hplain
  obtain ⟨⟨hsigma, hdotted⟩, hlower⟩ := hplain
  simp [lowerOne, hsigma, hdotted, hlower]

theorem lowerCaseRuns_above : ∀ run ∈ lowerCaseRuns, 0x61 ≤ (run.first : Int) + run.shift := by
  decide +kernel

theorem toNat_ofNat_or (n : Nat) : (Char.ofNat n).toNat = n ∨ (Char.ofNat n).toNat = 0 := by
  by_cases hvalid : n.isValidChar
  · left
    rw [Char.ofNat, dif_pos hvalid]
    rfl
  · right
    rw [Char.ofNat, dif_neg hvalid]
    rfl

/-- A character that is changed becomes one behind the boundaries. -/
theorem isBoundary_lowerChar (h : isBoundary (lowerChar c) = true) : isBoundary c = true := by
  unfold lowerChar at h
  split at h
  next run hrun =>
    have hcovers := List.find?_some hrun
    simp only [CaseRun.covers, Bool.and_eq_true, decide_eq_true_eq] at hcovers
    have habove := lowerCaseRuns_above run (List.mem_of_find?_eq_some hrun)
    have hcode : 0x61 ≤ ((c.toNat : Int) + run.shift).toNat := by omega
    have hrange := boundary_all (p := fun c => 0 < c.toNat && c.toNat < 0x61) h (by decide)
    simp only [Bool.and_eq_true, decide_eq_true_eq] at hrange
    obtain hvalue | hvalue := toNat_ofNat_or ((c.toNat : Int) + run.shift).toNat <;> omega
  · exact h

theorem isBoundary_of_mem_lowerOne {d : Char} (hd : d ∈ lowerOne before c rest)
    (h : isBoundary d = true) : isBoundary c = true := by
  unfold lowerOne at hd
  split at hd
  · have hsigma : isBoundary 'ς' = false ∧ isBoundary 'σ' = false := by decide
    split at hd
    · cases (List.mem_singleton.mp hd ▸ hsigma.1).symm.trans h
    · cases (List.mem_singleton.mp hd ▸ hsigma.2).symm.trans h
  · split at hd
    · have hdotted : ['i', '\u0307'].all (!isBoundary ·) = true := by decide
      have hd := List.all_eq_true.mp hdotted d hd
      rw [h] at hd
      cases hd
    · rw [List.mem_singleton.mp hd] at h
      exact isBoundary_lowerChar h

/-- A part in lower case has the boundaries that it had. -/
theorem mem_of_mem_lowerBetween {d : Char} (hd : d ∈ lowerBetween before text after)
    (h : isBoundary d = true) : d ∈ text := by
  induction text generalizing before with
  | nil => exact hd
  | cons c rest ih =>
    obtain hone | hrest := List.mem_append.mp hd
    · have hc := isBoundary_of_mem_lowerOne hone h
      rw [lowerOne_of_isBoundary hc] at hone
      exact List.mem_singleton.mp hone ▸ List.mem_cons_self
    · exact List.mem_cons_of_mem c (ih hrest)

theorem head?_lowerBetween (h : Bounded text) :
    (lowerBetween before text after).head? = text.head? := by
  cases text with
  | nil => rfl
  | cons c rest =>
    rw [lowerBetween, lowerOne_of_isBoundary (h c rfl)]
    rfl

theorem lowerBetween_append (before text rest after : List Char) :
    lowerBetween before (text ++ rest) after =
      lowerBetween before text (rest ++ after) ++
        lowerBetween (text.reverse ++ before) rest after := by
  induction text generalizing before with
  | nil => rfl
  | cons c text ih =>
    simp only [List.cons_append, lowerBetween, ih, List.append_assoc, List.reverse_cons,
      List.nil_append]

theorem getLast?_lowerBetween (h : Bounded text.reverse) :
    (lowerBetween before text after).getLast? = text.getLast? := by
  obtain rfl | ⟨text, c, rfl⟩ := List.eq_nil_or_concat text
  · rfl
  · rw [List.concat_eq_append, List.reverse_concat] at h
    rw [List.concat_eq_append, lowerBetween_append, lowerBetween, lowerOne_of_isBoundary (h c rfl),
      lowerBetween, List.append_nil, List.getLast?_concat, List.getLast?_concat]

/-- A boundary is as good as the end of the text, seen from a word. -/
theorem startsCased_append (h : Bounded after) (text : List Char) :
    startsCased (text ++ after) = startsCased text := by
  have hafter : startsCased after = false := by
    cases after with
    | nil => rfl
    | cons c rest =>
      obtain ⟨hcased, hignorable⟩ := casing_of_isBoundary (h c rfl)
      rw [startsCased, List.dropWhile_cons_of_neg (by simp [hignorable])]
      exact hcased
  induction text with
  | nil => exact hafter
  | cons c rest ih =>
    unfold startsCased at ih ⊢
    cases hignorable : caseIgnorable.has c with
    | true =>
      rw [List.cons_append, List.dropWhile_cons_of_pos hignorable,
        List.dropWhile_cons_of_pos hignorable, ih]
    | false =>
      rw [List.cons_append, List.dropWhile_cons_of_neg (by simp [hignorable]),
        List.dropWhile_cons_of_neg (by simp [hignorable])]

/-- Between boundaries the sigmas of a text end the words that they end in the text alone. -/
theorem finalSigmas_bounded (hbefore : Bounded before) (hafter : Bounded after)
    (front text : List Char) :
    finalSigmas (front ++ before) text after = finalSigmas front text [] := by
  induction text generalizing front with
  | nil => rfl
  | cons c rest ih =>
    have hrest := ih (c :: front)
    rw [List.cons_append] at hrest
    rw [finalSigmas, finalSigmas, hrest, endsWord, endsWord, startsCased_append hbefore,
      startsCased_append hafter, List.append_nil]

end Boundaries

end HtmlTemplate
