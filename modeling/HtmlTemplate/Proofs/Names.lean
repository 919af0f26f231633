-- SUMMARY: Tables of names: places and texts determine each other in all that was interned.
import HtmlTemplate.Names
import Mathlib.Data.List.Nodup
import Mathlib.Data.List.Infix

/-!
# Tables of names

Interning either finds a text or adds it at the end. So a table only grows, no
text is in it twice, and a place that was given out once stands for the same
text ever after.
-/

namespace HtmlTemplate

namespace Names

variable {names : Names} {text : String} {id : NameId}

/-! ## Going from places to texts -/

/-- The text is the entry at the place. -/
abbrev Holds (names : Names) (id : NameId) (text : String) : Prop :=
  names.entries[id.index]? = some text

theorem Holds.get_eq (h : names.Holds id text) : names.get id = text := by
  rw [get, List.getD_eq_getElem?_getD, h, Option.getD_some]

theorem Holds.unique {other : String} (h : names.Holds id text) (hother : names.Holds id other) :
    text = other :=
  h.get_eq.symm.trans hother.get_eq

theorem holds_iff : names.Holds id text ↔ id.index < names.size ∧ names.get id = text := by
  constructor
  · intro h
    exact ⟨(List.getElem?_eq_some_iff.mp h).1, h.get_eq⟩
  · rintro ⟨hlt, hget⟩
    rw [get, List.getD_eq_getElem?_getD, List.getElem?_eq_getElem hlt, Option.getD_some] at hget
    rw [Holds, List.getElem?_eq_getElem hlt, hget]

theorem get_of_size_le (h : names.size ≤ id.index) : names.get id = "" := by
  rw [get, List.getD_eq_getElem?_getD, List.getElem?_eq_none h, Option.getD_none]

/-- A table that has grown has the entries that it had at their places. -/
theorem Holds.mono {other : Names} (h : names.Holds id text)
    (hgrown : names.entries <+: other.entries) : other.Holds id text := by
  obtain ⟨rest, hrest⟩ := hgrown
  obtain ⟨hlt, -⟩ := List.getElem?_eq_some_iff.mp h
  rw [Holds, ← hrest, List.getElem?_append_left hlt, h]

/-! ## Going from texts to places -/

/-- What is found is there. -/
theorem holds_of_lookup? (h : names.lookup? text = some id) : names.Holds id text := by
  rw [lookup?_eq, Option.map_eq_some_iff] at h
  obtain ⟨index, hindex, rfl⟩ := h
  obtain ⟨hlt, heq, -⟩ := List.idxOf?_eq_some_iff.mp hindex
  rw [Holds, List.getElem?_eq_getElem hlt, heq]

/-- And where no text is twice, all that is there is found. -/
theorem lookup?_eq_some (hnodup : names.entries.Nodup) :
    names.lookup? text = some id ↔ names.Holds id text := by
  refine ⟨holds_of_lookup?, fun h => ?_⟩
  cases hlookup : names.lookup? text with
  | none => exact absurd (List.mem_of_getElem? h) (lookup?_eq_none.mp hlookup)
  | some other =>
    obtain ⟨hlt, -⟩ := List.getElem?_eq_some_iff.mp h
    have hindex : id.index = other.index :=
      (List.getElem?_inj hlt hnodup).mp (h.trans (holds_of_lookup? hlookup).symm)
    obtain ⟨index⟩ := id
    obtain ⟨index'⟩ := other
    exact congrArg (fun place => some (NameId.mk place)) hindex.symm

/-! ## Interning -/

theorem intern_of_some (h : names.lookup? text = some id) : names.intern text = (names, id) := by
  rw [intern, h]

theorem intern_of_none (h : names.lookup? text = none) :
    names.intern text = (names.add text, ⟨names.size⟩) := by
  rw [intern, h]

/-- A text that was interned is at the place that was answered. -/
theorem holds_intern (names : Names) (text : String) :
    (names.intern text).1.Holds (names.intern text).2 text := by
  cases h : names.lookup? text with
  | some id =>
    rw [intern_of_some h]
    exact holds_of_lookup? h
  | none =>
    rw [intern_of_none h]
    exact List.getElem?_concat_length

theorem prefix_intern (names : Names) (text : String) :
    names.entries <+: (names.intern text).1.entries := by
  cases h : names.lookup? text with
  | some id => rw [intern_of_some h]
  | none =>
    rw [intern_of_none h]
    exact List.prefix_append names.entries [text]

theorem nodup_intern (hnodup : names.entries.Nodup) (text : String) :
    (names.intern text).1.entries.Nodup := by
  cases h : names.lookup? text with
  | some id =>
    rw [intern_of_some h]
    exact hnodup
  | none =>
    rw [intern_of_none h]
    exact hnodup.append (List.nodup_singleton text)
      (List.disjoint_singleton.mpr (lookup?_eq_none.mp h))

theorem mem_intern {other : String} :
    other ∈ (names.intern text).1.entries ↔ other ∈ names.entries ∨ other = text := by
  cases h : names.lookup? text with
  | some id =>
    have hmem : text ∈ names.entries := List.mem_of_getElem? (holds_of_lookup? h)
    rw [intern_of_some h]
    refine ⟨.inl, ?_⟩
    rintro (hother | rfl)
    · exact hother
    · exact hmem
  | none => simp [intern_of_none h, add]

/-! ## Interning one text after the other -/

theorem prefix_internEach (names : Names) (texts : List String) :
    names.entries <+: (names.internEach texts).entries := by
  induction texts generalizing names with
  | nil => exact List.prefix_refl names.entries
  | cons text texts ih => exact (prefix_intern names text).trans (ih (names.intern text).1)

theorem nodup_internEach (hnodup : names.entries.Nodup) (texts : List String) :
    (names.internEach texts).entries.Nodup := by
  induction texts generalizing names with
  | nil => exact hnodup
  | cons text texts ih => exact ih (nodup_intern hnodup text)

theorem mem_internEach {texts : List String} :
    text ∈ (names.internEach texts).entries ↔ text ∈ names.entries ∨ text ∈ texts := by
  induction texts generalizing names with
  | nil => simp [internEach]
  | cons other texts ih =>
    have hrest : text ∈ (names.internEach (other :: texts)).entries ↔
        text ∈ (names.intern other).1.entries ∨ text ∈ texts := ih
    rw [hrest, mem_intern, List.mem_cons, or_assoc]

/-- Interning texts, all different, that a table lacks puts them at its end. -/
theorem internEach_ofList {before texts : List String} (h : (before ++ texts).Nodup) :
    (ofList before).internEach texts = ofList (before ++ texts) := by
  induction texts generalizing before with
  | nil => rw [List.append_nil]; rfl
  | cons text texts ih =>
    have hlacks : (ofList before).lookup? text = none :=
      lookup?_eq_none.mpr fun hmem => List.disjoint_of_nodup_append h hmem List.mem_cons_self
    have hadd : (ofList before).add text = ofList (before ++ [text]) := by
      simp [add, ofList, size, List.zipIdx_append]
    rw [List.append_cons] at h ⊢
    rw [← ih h, ← hadd]
    simp only [internEach, List.foldl_cons, intern_of_none hlacks]

theorem nodup_initial : initial.entries.Nodup := by
  simp only [initial, ofList, common]
  decide +kernel

/-- The first table comes about by interning the empty text and then the common names. -/
theorem initial_eq_internEach : initial = (ofList []).internEach ("" :: common) := by
  have hnodup : ([] ++ "" :: common).Nodup := nodup_initial
  exact (internEach_ofList hnodup).symm

/-- The place of a text stays its place, and that of no other text, whatever is interned
    later. -/
theorem intern_internEach (hnodup : names.entries.Nodup) (text : String) (more : List String) :
    let id := (names.intern text).2
    let later := (names.intern text).1.internEach more
    later.get id = text ∧ later.intern text = (later, id) ∧
      ∀ other, (later.intern other).2 = id ↔ other = text := by
  intro id later
  have hentry : later.Holds id text := (holds_intern names text).mono (prefix_internEach _ more)
  have hlater : later.entries.Nodup := nodup_internEach (nodup_intern hnodup text) more
  have hlookup : later.lookup? text = some id := (lookup?_eq_some hlater).mpr hentry
  refine ⟨hentry.get_eq, intern_of_some hlookup, fun other => ⟨fun hid => ?_, ?_⟩⟩
  · have hother := holds_intern later other
    rw [hid] at hother
    exact hother.unique (hentry.mono (prefix_intern later other))
  · rintro rfl
    rw [intern_of_some hlookup]

/-- Starting from the first table, after any texts were interned: a text that is interned
    gets a place of the table, which stands for it and for no other text however the table
    grows; interning it again answers this place and changes nothing. The table holds the
    texts it started with and those interned, the places at which they are looked up are
    those that stand for them, and the empty text is at place 0 and beyond the table. -/
theorem internEach_initial (texts : List String) :
    let names : Names := initial.internEach texts
    (∀ text more,
      let id := (names.intern text).2
      let later := (names.intern text).1.internEach more
      id.index < (names.intern text).1.size ∧ later.get id = text ∧
        later.intern text = (later, id) ∧ ∀ other, (later.intern other).2 = id ↔ other = text) ∧
      (∀ text id, names.lookup? text = some id → names.intern text = (names, id)) ∧
      (∀ text, (names.lookup? text).isSome ↔ text ∈ "" :: common ++ texts) ∧
      (∀ text id, names.lookup? text = some id ↔ id.index < names.size ∧ names.get id = text) ∧
      names.lookup? "" = some emptyId ∧ names.get emptyId = "" ∧
      ∀ id : NameId, names.size ≤ id.index → names.get id = "" := by
  intro names
  have hnodup : names.entries.Nodup := nodup_internEach nodup_initial texts
  have hempty : names.Holds emptyId "" :=
    have hfirst : initial.Holds emptyId "" := rfl
    hfirst.mono (prefix_internEach initial texts)
  refine ⟨fun text more => ⟨?_, intern_internEach hnodup text more⟩, fun _ _ => intern_of_some,
    fun text => ?_, fun _ _ => (lookup?_eq_some hnodup).trans holds_iff,
    (lookup?_eq_some hnodup).mpr hempty, hempty.get_eq, fun _ => get_of_size_le⟩
  · exact (holds_iff.mp (holds_intern names text)).1
  · have hmem : text ∈ names.entries ↔ text ∈ "" :: common ++ texts := by
      rw [mem_internEach, List.mem_append]
      rfl
    rw [← hmem, Option.isSome_iff_ne_none, ne_eq, lookup?_eq_none, not_not]

end Names

end HtmlTemplate
