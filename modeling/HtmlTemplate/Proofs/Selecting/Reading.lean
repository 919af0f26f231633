-- SUMMARY: How names, quoted texts and blanks are taken from a text, and how far they go.
import HtmlTemplate.Proofs.Selecting.Nesting

/-!
# Taking parts from a text

The readers of the smallest parts go on as far as they can. A name is read exactly when
the text behind it does not go on with a character of names, and blanks are skipped up to
a character that is none: `Stops` says so of a text.

`Leaves` is what all readers have in common. What they leave is an end of the text, and of
what they take only the parentheses between quotes matter to the count.
-/

namespace HtmlTemplate.Selector

/-! ## Characters -/

theorem isPlain_of_isNameChar {c : Char} (h : isNameChar c = true) : isPlain c = true := by
  cases c using paren_cases with
  | opening => cases h
  | closing => cases h
  | plain c hplain => exact hplain

theorem isPlain_of_isBlank {c : Char} (h : isBlank c = true) : isPlain c = true := by
  cases c using paren_cases with
  | opening => cases h
  | closing => cases h
  | plain c hplain => exact hplain

theorem isAlpha_iff_toNat {c : Char} :
    c.isAlpha = true ↔ 65 ≤ c.toNat ∧ c.toNat ≤ 90 ∨ 97 ≤ c.toNat ∧ c.toNat ≤ 122 := by
  have hupper : c.isUpper = true ↔ 65 ≤ c.toNat ∧ c.toNat ≤ 90 :=
    decide_eq_true_iff.trans (and_congr UInt32.le_iff_toNat_le UInt32.le_iff_toNat_le)
  have hlower : c.isLower = true ↔ 97 ≤ c.toNat ∧ c.toNat ≤ 122 :=
    Bool.and_eq_true_iff.trans (and_congr (decide_eq_true_iff.trans UInt32.le_iff_toNat_le)
      (decide_eq_true_iff.trans UInt32.le_iff_toNat_le))
  exact Bool.or_eq_true_iff.trans (or_congr hupper hlower)

/-- Within ASCII no character of a name is a blank. -/
theorem isBlank_of_isAlphanum {c : Char} (h : c.isAlphanum = true) : isBlank c = false := by
  simp [Char.isAlphanum, isAlpha_iff_toNat, Char.isDigit_iff_toNat] at h
  simp [isBlank, CodePoints.has, whiteSpace]
  omega

theorem isBlank_of_isAlpha {c : Char} (h : c.isAlpha = true) : isBlank c = false :=
  isBlank_of_isAlphanum (by simp [Char.isAlphanum, h])

theorem isBlank_of_isDigit {c : Char} (h : c.isDigit = true) : isBlank c = false :=
  isBlank_of_isAlphanum (by simp [Char.isAlphanum, h])

/-- Lower case changes letters alone, and makes letters of them. -/
theorem toLower_eq_or_isAlpha (c : Char) :
    c.toLower = c ∨ c.isAlpha = true ∧ c.toLower.isAlpha = true := by
  unfold Char.toLower
  split
  next h =>
    right
    simp only [isAlpha_iff_toNat]
    simp [UInt32.le_iff_toNat_le] at h ⊢
    omega
  next => exact .inl rfl

/-- A test that does not tell letters apart does not tell their case. -/
theorem apply_toLower {p : Char → Bool}
    (h : ∀ {c c'}, c.isAlpha = true → c'.isAlpha = true → p c = p c') (c : Char) :
    p c.toLower = p c := by
  obtain hsame | ⟨hletter, hlower⟩ := toLower_eq_or_isAlpha c
  · rw [hsame]
  · exact h hlower hletter

theorem isBlank_toLower (c : Char) : isBlank c.toLower = isBlank c :=
  apply_toLower (fun h h' => (isBlank_of_isAlpha h).trans (isBlank_of_isAlpha h').symm) c

theorem isNameChar_toLower (c : Char) : isNameChar c.toLower = isNameChar c :=
  apply_toLower (fun h h' => by simp [isNameChar, Char.isAlphanum, h, h']) c

theorem isNameStart_toLower (c : Char) : isNameStart c.toLower = isNameStart c :=
  apply_toLower (fun h h' => by simp [isNameStart, h, h']) c

/-! ## Where a part ends -/

/-- The text does not go on with such a character. -/
def Stops (p : Char → Bool) (text : List Char) : Prop := ∀ c ∈ text.head?, p c = false

section Stops

variable {p : Char → Bool} {part rest : List Char}

@[simp] theorem stops_nil (p : Char → Bool) : Stops p [] := nofun

@[simp] theorem stops_cons {c : Char} : Stops p (c :: rest) ↔ p c = false := by
  simp [Stops]

theorem stops_dropWhile (p : Char → Bool) (text : List Char) : Stops p (text.dropWhile p) := by
  have h := List.head?_dropWhile_not p text
  intro c hc
  rw [Option.mem_def.mp hc] at h
  exact h

theorem takeWhile_append (hpart : ∀ c ∈ part, p c = true) (hrest : Stops p rest) :
    (part ++ rest).takeWhile p = part := by
  rw [List.takeWhile_append_of_pos hpart]
  cases rest with
  | nil => rw [List.takeWhile_nil, List.append_nil]
  | cons c rest => rw [List.takeWhile_cons_of_neg (by simpa using hrest), List.append_nil]

theorem dropWhile_append (hpart : ∀ c ∈ part, p c = true) (hrest : Stops p rest) :
    (part ++ rest).dropWhile p = rest := by
  rw [List.dropWhile_append_of_pos hpart]
  cases rest with
  | nil => rfl
  | cons c rest => exact List.dropWhile_cons_of_neg (by simpa using hrest)

end Stops

/-! ## Names -/

/-- A text that is read as a name. -/
structure IsName (name : String) : Prop where
  ne_nil : name.toList ≠ []
  chars : ∀ c ∈ name.toList, isNameChar c = true

theorem readName_eq_ok {text rest : List Char} {name : String} :
    readName text = .ok (name, rest) ↔
      text = name.toList ++ rest ∧ IsName name ∧ Stops isNameChar rest := by
  unfold readName
  constructor
  · intro h
    split at h
    · exact absurd h (stopAt_ne_ok _ _)
    next hne =>
      cases h
      rw [String.toList_ofList]
      refine ⟨List.takeWhile_append_dropWhile.symm, ⟨?_, ?_⟩, stops_dropWhile _ _⟩
      · rw [String.toList_ofList]
        exact hne
      · rw [String.toList_ofList]
        exact List.all_eq_true.mp List.all_takeWhile
  · rintro ⟨rfl, hname, hrest⟩
    rw [takeWhile_append hname.chars hrest, dropWhile_append hname.chars hrest]
    split
    next hnil => exact absurd hnil hname.ne_nil
    next => rw [String.ofList_toList]

theorem IsName.isNameChar_head {name : String} (h : IsName name) {c : Char}
    {rest text : List Char} (heq : name.toList ++ rest = c :: text) : isNameChar c = true := by
  obtain ⟨first, more, hfirst⟩ := List.exists_cons_of_ne_nil h.ne_nil
  rw [hfirst] at heq
  cases heq
  exact h.chars _ (hfirst ▸ List.mem_cons_self)

/-! ## Quotes -/

theorem readQuoted_eq_ok {quote : Char} {text inside rest : List Char} :
    readQuoted quote text = .ok (inside, rest) ↔
      text = inside ++ quote :: rest ∧ quote ∉ inside := by
  induction text generalizing inside with
  | nil => simp [readQuoted]
  | cons c text ih =>
    unfold readQuoted
    split
    next hquote =>
      subst hquote
      constructor
      · intro h
        cases h
        exact ⟨rfl, List.not_mem_nil⟩
      · rintro ⟨htext, hfree⟩
        cases inside with
        | nil => cases htext; rfl
        | cons _ inside => cases htext; exact absurd List.mem_cons_self hfree
    next hquote =>
      rw [map_eq_ok]
      constructor
      · rintro ⟨⟨inside, rest⟩, hread, heq⟩
        cases heq
        obtain ⟨rfl, hfree⟩ := ih.mp hread
        exact ⟨rfl, List.not_mem_cons_of_ne_of_not_mem (Ne.symm hquote) hfree⟩
      · rintro ⟨htext, hfree⟩
        cases inside with
        | nil => cases htext; exact absurd rfl hquote
        | cons _ inside =>
          cases htext
          exact ⟨(inside, rest), ih.mpr ⟨rfl, List.not_mem_of_not_mem_cons hfree⟩, rfl⟩

/-! ## What is left -/

/-- A reader took a part from the text and left the rest. The part does to the count of
    parentheses what `inner` does. -/
structure Leaves (text inner rest : List Char) : Prop where
  suffix : rest <:+ text
  nesting : SameNesting text (inner ++ rest)

namespace Leaves

variable {text inner mid inner' rest : List Char}

theorem refl (text : List Char) : Leaves text [] text :=
  ⟨List.suffix_rfl, .refl text⟩

theorem trans (h : Leaves text inner mid) (h' : Leaves mid inner' rest) :
    Leaves text (inner ++ inner') rest := by
  refine ⟨h'.suffix.trans h.suffix, h.nesting.trans ?_⟩
  rw [List.append_assoc]
  exact h'.nesting.append_left inner

theorem after (h : Leaves text inner mid) (h' : Leaves mid [] rest) : Leaves text inner rest := by
  have h := h.trans h'
  rwa [List.append_nil] at h

theorem whole (inner rest : List Char) : Leaves (inner ++ rest) inner rest :=
  ⟨List.suffix_append inner rest, .refl _⟩

theorem plain {part : List Char} (h : ∀ c ∈ part, isPlain c = true) (rest : List Char) :
    Leaves (part ++ rest) [] rest :=
  ⟨List.suffix_append part rest, sameNesting_plain h rest⟩

theorem char {c : Char} (h : isPlain c = true) (rest : List Char) : Leaves (c :: rest) [] rest :=
  plain (List.forall_mem_singleton.mpr h) rest

theorem length_le (h : Leaves text inner rest) : rest.length ≤ text.length :=
  h.suffix.length_le

end Leaves

theorem leaves_skipBlanks (text : List Char) : Leaves text [] (skipBlanks text) := by
  have hblanks : ∀ c ∈ text.takeWhile isBlank, isPlain c = true :=
    fun c hc => isPlain_of_isBlank (List.all_eq_true.mp List.all_takeWhile c hc)
  have h := Leaves.plain hblanks (skipBlanks text)
  rwa [skipBlanks, List.takeWhile_append_dropWhile] at h

theorem leaves_readName {text rest : List Char} {name : String}
    (h : readName text = .ok (name, rest)) : Leaves text [] rest := by
  obtain ⟨rfl, hname, -⟩ := readName_eq_ok.mp h
  exact .plain (fun c hc => isPlain_of_isNameChar (hname.chars c hc)) rest

theorem leaves_readArgument {text argument rest : List Char}
    (h : readArgument 0 text = .ok (argument, rest)) : Leaves ('(' :: text) [] rest := by
  obtain ⟨rfl, hbalanced⟩ := readArgument_eq_ok.mp h
  have hsuffix : rest <:+ '(' :: (argument ++ ')' :: rest) :=
    ⟨'(' :: argument ++ [')'], by simp⟩
  exact ⟨hsuffix, sameNesting_argument hbalanced rest⟩

end HtmlTemplate.Selector
