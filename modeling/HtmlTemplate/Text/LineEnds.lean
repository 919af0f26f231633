-- SUMMARY: Line ends as line feeds, however they are written.

/-!
# Line ends

A line ends with a line feed, with a carriage return, or with both.
-/

namespace HtmlTemplate

/-- Line ends are read as line feeds, however they are written. -/
def normalizeLineEnds : List Char → List Char
  | [] => []
  | '\r' :: '\n' :: rest => '\n' :: normalizeLineEnds rest
  | c :: rest => (if c == '\r' then '\n' else c) :: normalizeLineEnds rest

/-- Where no carriage return follows, a character other than one is kept. -/
theorem normalizeLineEnds_cons {c : Char} (h : c ≠ '\r') (rest : List Char) :
    normalizeLineEnds (c :: rest) = c :: normalizeLineEnds rest := by
  rw [normalizeLineEnds.eq_def]
  split
  · next heq => cases heq
  · next heq => exact absurd (List.cons.inj heq).1 h
  · next heq =>
    obtain ⟨rfl, rfl⟩ := List.cons.inj heq
    rw [if_neg (by simpa using h)]

theorem normalizeLineEnds_return {rest : List Char} (h : rest.head? ≠ some '\n') :
    normalizeLineEnds ('\r' :: rest) = '\n' :: normalizeLineEnds rest := by
  rw [normalizeLineEnds.eq_def]
  split
  · next heq => cases heq
  · next heq =>
    obtain ⟨-, rfl⟩ := List.cons.inj heq
    exact absurd rfl h
  · next heq =>
    obtain ⟨rfl, rfl⟩ := List.cons.inj heq
    rfl

theorem normalizeLineEnds_of_notMem {text : List Char} (h : '\r' ∉ text) :
    normalizeLineEnds text = text := by
  induction text with
  | nil => rfl
  | cons c rest ih =>
    rw [List.mem_cons, not_or] at h
    rw [normalizeLineEnds_cons (Ne.symm h.1), ih h.2]

theorem notMem_normalizeLineEnds (text : List Char) : '\r' ∉ normalizeLineEnds text := by
  fun_induction normalizeLineEnds text with
  | case1 => exact List.not_mem_nil
  | case2 rest ih => simpa using ih
  | case3 c rest _ ih =>
    rw [List.mem_cons, not_or]
    refine ⟨fun heq => ?_, ih⟩
    split at heq
    · exact absurd heq (by decide)
    · next hne => exact hne (by simp [← heq])

/-- Two texts keep their line ends to themselves unless a carriage return and a line feed meet. -/
theorem normalizeLineEnds_append {first second : List Char}
    (h : first.getLast? ≠ some '\r' ∨ second.head? ≠ some '\n') :
    normalizeLineEnds (first ++ second) = normalizeLineEnds first ++ normalizeLineEnds second := by
  fun_induction normalizeLineEnds first with
  | case1 => rfl
  | case2 rest ih =>
    have hrest : rest.getLast? ≠ some '\r' ∨ second.head? ≠ some '\n' :=
      h.imp_left fun hne hlast => hne (by simp [List.getLast?_cons, hlast])
    simp [normalizeLineEnds, ih hrest]
  | case3 c rest hnone ih =>
    have hrest : rest.getLast? ≠ some '\r' ∨ second.head? ≠ some '\n' :=
      h.imp_left fun hne hlast => hne (by simp [List.getLast?_cons, hlast])
    rw [List.cons_append, List.cons_append, ← ih hrest]
    by_cases hc : c = '\r'
    · subst hc
      refine normalizeLineEnds_return ?_
      cases rest with
      | nil => exact h.resolve_left fun hne => hne rfl
      | cons d more =>
        rintro ⟨⟩
        exact hnone more rfl rfl
    · rw [normalizeLineEnds_cons hc, if_neg (by simpa using hc)]

theorem normalizeLineEnds_append_of_notMem {first : List Char} (h : '\r' ∉ first)
    (second : List Char) : normalizeLineEnds (first ++ second) = first ++ normalizeLineEnds second := by
  rw [normalizeLineEnds_append (.inl fun hlast => h (List.mem_of_getLast? hlast)),
    normalizeLineEnds_of_notMem h]

theorem normalizeLineEnds_append_cons {c : Char} (h : c ≠ '\n') (first second : List Char) :
    normalizeLineEnds (first ++ c :: second) =
      normalizeLineEnds first ++ normalizeLineEnds (c :: second) :=
  normalizeLineEnds_append (.inr fun hhead => h (Option.some.inj hhead))

end HtmlTemplate
