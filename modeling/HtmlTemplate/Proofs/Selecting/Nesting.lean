-- SUMMARY: The nesting of parentheses in a text, and where the argument of a pseudo-class ends.
import HtmlTemplate.Selector.Reader

/-!
# Nested parentheses

The argument of a pseudo-class goes up to the parenthesis that closes it. It is cut out by
counting, whatever else the text says: parentheses between quotes count as well. So all
that matters of a text is what it does to the count. `SameNesting` compares two texts by
that alone.
-/

namespace HtmlTemplate.Selector

/-- How many parentheses are open behind a text in front of which `depth` are open; none
    if the text closes one that is not open. -/
def nesting? : Nat → List Char → Option Nat
  | depth, [] => some depth
  | depth, c :: rest =>
    match c, depth with
    | '(', depth => nesting? (depth + 1) rest
    | ')', 0 => none
    | ')', depth + 1 => nesting? depth rest
    | _, depth => nesting? depth rest

/-- A text that closes what it opens, and nothing else. -/
def Balanced (text : List Char) : Prop := nesting? 0 text = some 0

instance (text : List Char) : Decidable (Balanced text) :=
  inferInstanceAs (Decidable (nesting? 0 text = some 0))

/-- Texts that do the same to the number of parentheses that are open. -/
def SameNesting (first second : List Char) : Prop :=
  ∀ depth, nesting? depth first = nesting? depth second

/-- Neither of the two parentheses. -/
def isPlain (c : Char) : Bool := c != '(' && c != ')'

/-! ## Counting -/

@[simp] theorem nesting?_nil (depth : Nat) : nesting? depth [] = some depth := rfl

@[simp] theorem nesting?_open (depth : Nat) (rest : List Char) :
    nesting? depth ('(' :: rest) = nesting? (depth + 1) rest := rfl

@[simp] theorem nesting?_close_zero (rest : List Char) : nesting? 0 (')' :: rest) = none := rfl

@[simp] theorem nesting?_close_succ (depth : Nat) (rest : List Char) :
    nesting? (depth + 1) (')' :: rest) = nesting? depth rest := rfl

theorem nesting?_plain {c : Char} (h : isPlain c = true) (depth : Nat) (rest : List Char) :
    nesting? depth (c :: rest) = nesting? depth rest := by
  simp only [isPlain, Bool.and_eq_true, bne_iff_ne] at h
  simp [nesting?, h]

/-- A character opens a parenthesis, closes one or does neither. -/
theorem paren_cases {motive : Char → Prop} (opening : motive '(') (closing : motive ')')
    (plain : ∀ c, isPlain c = true → motive c) (c : Char) : motive c := by
  by_cases hopening : c = '('
  · exact hopening ▸ opening
  by_cases hclosing : c = ')'
  · exact hclosing ▸ closing
  exact plain c (by simp [isPlain, hopening, hclosing])

theorem nesting?_append (depth : Nat) (first second : List Char) :
    nesting? depth (first ++ second) = (nesting? depth first).bind (nesting? · second) := by
  induction first generalizing depth with
  | nil => rfl
  | cons c rest ih =>
    rw [List.cons_append]
    cases c using paren_cases with
    | opening => exact ih (depth + 1)
    | closing =>
      cases depth with
      | zero => rfl
      | succ depth => exact ih depth
    | plain c hplain =>
      rw [nesting?_plain hplain, nesting?_plain hplain]
      exact ih depth

/-- More parentheses that are open in front stay open. -/
theorem nesting?_add {depth after : Nat} {text : List Char} (more : Nat)
    (h : nesting? depth text = some after) :
    nesting? (depth + more) text = some (after + more) := by
  induction text generalizing depth with
  | nil =>
    cases h
    rfl
  | cons c rest ih =>
    cases c using paren_cases with
    | opening =>
      rw [nesting?_open, Nat.add_right_comm]
      exact ih h
    | closing =>
      cases depth with
      | zero => cases h
      | succ depth =>
        rw [Nat.add_right_comm, nesting?_close_succ]
        exact ih h
    | plain c hplain =>
      rw [nesting?_plain hplain] at h ⊢
      exact ih h

theorem Balanced.nesting?_eq {text : List Char} (h : Balanced text) (depth : Nat) :
    nesting? depth text = some depth := by
  simpa using nesting?_add depth h

/-! ## Texts that count the same -/

namespace SameNesting

variable {first second third : List Char}

theorem refl (text : List Char) : SameNesting text text := fun _ => rfl

theorem trans (h : SameNesting first second) (h' : SameNesting second third) :
    SameNesting first third :=
  fun depth => (h depth).trans (h' depth)

theorem append_left (before : List Char) (h : SameNesting first second) :
    SameNesting (before ++ first) (before ++ second) := by
  intro depth
  rw [nesting?_append, nesting?_append, funext h]

theorem balanced_iff (h : SameNesting first second) : Balanced first ↔ Balanced second := by
  rw [Balanced, Balanced, h 0]

end SameNesting

/-- A text without parentheses may be left out. -/
theorem sameNesting_plain {text : List Char} (h : ∀ c ∈ text, isPlain c = true)
    (rest : List Char) : SameNesting (text ++ rest) rest := by
  induction text with
  | nil => exact .refl rest
  | cons c text ih =>
    rw [List.forall_mem_cons] at h
    intro depth
    rw [List.cons_append, nesting?_plain h.1]
    exact ih h.2 depth

theorem balanced_of_plain {text : List Char} (h : ∀ c ∈ text, isPlain c = true) :
    Balanced text := by
  have hsame := sameNesting_plain h []
  rw [List.append_nil] at hsame
  exact hsame 0

/-- A pair of parentheses with a balanced text between them may be left out. -/
theorem sameNesting_argument {argument : List Char} (h : Balanced argument) (rest : List Char) :
    SameNesting ('(' :: (argument ++ ')' :: rest)) rest := by
  intro depth
  rw [nesting?_open, nesting?_append, h.nesting?_eq]
  rfl

/-! ## Arguments -/

theorem readArgument_plain {c : Char} (h : isPlain c = true) (depth : Nat) (text : List Char) :
    readArgument depth (c :: text) =
      (readArgument depth text).map fun (argument, rest) => (c :: argument, rest) := by
  simp only [isPlain, Bool.and_eq_true, bne_iff_ne] at h
  simp [readArgument, h]

/-- The argument that is cut out closes all that is open, in front of one more parenthesis
    that closes. -/
theorem readArgument_eq_ok {depth : Nat} {text argument rest : List Char} :
    readArgument depth text = .ok (argument, rest) ↔
      text = argument ++ ')' :: rest ∧ nesting? depth argument = some 0 := by
  induction text generalizing depth argument with
  | nil => simp [readArgument]
  | cons c text ih =>
    -- the first character is one of the argument and leaves `inner` parentheses open
    have hmore {inner : Nat}
        (hread : readArgument depth (c :: text) =
          (readArgument inner text).map fun (argument, rest) => (c :: argument, rest))
        (hcount : ∀ inside, nesting? depth (c :: inside) = nesting? inner inside)
        (hinside : c = ')' → depth ≠ 0) :
        readArgument depth (c :: text) = .ok (argument, rest) ↔
          c :: text = argument ++ ')' :: rest ∧ nesting? depth argument = some 0 := by
      rw [hread, map_eq_ok]
      constructor
      · rintro ⟨⟨inside, after⟩, hread', heq⟩
        cases heq
        obtain ⟨rfl, hnesting⟩ := ih.mp hread'
        exact ⟨rfl, (hcount inside).trans hnesting⟩
      · rintro ⟨htext, hnesting⟩
        cases argument with
        | nil =>
          cases htext
          exact absurd (Option.some.inj hnesting) (hinside rfl)
        | cons _ inside =>
          cases htext
          exact ⟨(inside, rest), ih.mpr ⟨rfl, (hcount inside).symm.trans hnesting⟩, rfl⟩
    cases c using paren_cases with
    | opening => exact hmore rfl (fun _ => rfl) fun h => absurd h (by decide)
    | closing =>
      cases depth with
      | zero =>
        constructor
        · intro h
          cases h
          exact ⟨rfl, rfl⟩
        · rintro ⟨htext, hnesting⟩
          cases argument with
          | nil => cases htext; rfl
          | cons _ inside => cases htext; cases hnesting
      | succ depth => exact hmore rfl (fun _ => rfl) fun _ => Nat.succ_ne_zero depth
    | plain c hplain =>
      refine hmore (readArgument_plain hplain depth text) (nesting?_plain hplain depth) ?_
      rintro rfl
      cases hplain

end HtmlTemplate.Selector
