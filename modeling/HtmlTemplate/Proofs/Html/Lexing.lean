-- SUMMARY: What the lexer finds in markup: the tags, attributes and texts that were written.
import HtmlTemplate.Html.Lexer
import HtmlTemplate.Proofs.Html.Readable
import HtmlTemplate.Proofs.Selecting.Reading

/-!
# Lexing markup

The lexer cuts what is written in the syntax of HTML into what it was put together from.
References are replaced by the characters they were written for, a tag has the name and the
attributes of its element in lower case, and a text goes up to the next `<`, or, inside an
element whose content is text, up to the end tag of this element.
-/

namespace HtmlTemplate.Html.Lexer

open Selector (Stops stops_cons stops_dropWhile takeWhile_append dropWhile_append)
open Syntax (isPlain references textMarks valueMarks WritesText WritesAttributes isTagName
  isAttributeName)

-- ---------------------------------------------------------------------------
-- Characters that can be written
-- ---------------------------------------------------------------------------

theorem withoutNull_of_plain {text : List Char} (h : ∀ c ∈ text, isPlain c = true) :
    withoutNull text = text := by
  refine (List.map_congr_left fun c hc => ?_).trans (List.map_id text)
  have hne : c ≠ '\x00' := by
    rintro rfl
    exact absurd (h _ hc) (by decide)
  rw [if_neg (by simpa using hne), id]

-- ---------------------------------------------------------------------------
-- References
-- ---------------------------------------------------------------------------

theorem readReference_written {reference : Char × String} (h : reference ∈ references)
    (inAttribute : Bool) (rest : List Char) :
    ∃ inside, reference.2.toList = '&' :: inside ∧
      readReference inAttribute (inside ++ rest) = some ([reference.1], rest) := by
  have hnamed : ∀ reference ∈ references,
      ∃ name : String, reference.2.toList = '&' :: (name.toList ++ [';']) ∧
        namedCharacters? name = some [reference.1] ∧ ∀ c ∈ name.toList, c.isAlphanum = true := by
    simp only [references, List.forall_mem_cons]
    refine ⟨⟨"amp", ?_⟩, ⟨"lt", ?_⟩, ⟨"gt", ?_⟩, ⟨"quot", ?_⟩, ⟨"apos", ?_⟩, ⟨"nbsp", ?_⟩,
      List.forall_mem_nil _⟩
    all_goals exact ⟨by decide, by decide +kernel, List.all_eq_true.mp (by decide)⟩
  obtain ⟨name, hname, hchars, hletters⟩ := hnamed reference h
  refine ⟨name.toList ++ [';'], hname, ?_⟩
  have hstops : Stops Char.isAlphanum (';' :: rest) := stops_cons.mpr (by decide)
  have hread : readReference inAttribute (name.toList ++ ';' :: rest) =
      readName inAttribute (name.toList ++ ';' :: rest) := by
    have hsharp : ∀ more, name.toList ++ ';' :: rest ≠ '#' :: more := by
      intro more heq
      cases hcs : name.toList with
      | nil => rw [hcs] at heq; cases heq
      | cons c cs =>
        rw [hcs] at heq hletters
        obtain ⟨rfl, -⟩ := List.cons.inj heq
        exact absurd (hletters '#' List.mem_cons_self) (by decide)
    unfold readReference
    split
    · next heq => exact absurd heq (hsharp _)
    · next heq => exact absurd heq (hsharp _)
    · next heq => exact absurd heq (hsharp _)
    · rfl
  rw [List.append_assoc, List.singleton_append, hread, readName,
    takeWhile_append hletters hstops, dropWhile_append hletters hstops, String.ofList_toList]
  simp only [hchars, Option.map_some]

section Written

variable {marks text markup : List Char} (h : WritesText marks text markup)
include h

/-- Replacing references gives the text that was written. -/
theorem decodeWithin_written (hamp : '&' ∈ marks) (inAttribute : Bool) {fuel : Nat}
    (hfuel : markup.length ≤ fuel) : decodeWithin inAttribute fuel markup = text := by
  induction h generalizing fuel with
  | nil => cases fuel <;> rfl
  | @plain c text markup hc _ ih =>
    rw [List.length_cons] at hfuel
    obtain ⟨fuel, rfl⟩ : ∃ n, fuel = n + 1 := ⟨fuel - 1, by omega⟩
    have hne : c ≠ '&' := fun heq => hc (heq ▸ hamp)
    rw [decodeWithin.eq_def]
    split
    · cases ‹_ = _›
    · next heq => cases heq
    · next heq => exact absurd (List.cons.inj heq).1 hne
    · next heq =>
      obtain ⟨rfl, rfl⟩ := List.cons.inj heq
      rw [ih (by omega)]
  | @reference reference text markup hmem _ ih =>
    obtain ⟨inside, hinside, hread⟩ := readReference_written hmem inAttribute markup
    rw [hinside, List.length_append, List.length_cons] at hfuel
    obtain ⟨fuel, rfl⟩ : ∃ n, fuel = n + 1 := ⟨fuel - 1, by omega⟩
    rw [hinside, List.cons_append, decodeWithin, hread]
    dsimp only
    rw [ih (by omega), List.singleton_append]

theorem decode_written (hamp : '&' ∈ marks) (inAttribute : Bool) :
    decode inAttribute markup = text :=
  decodeWithin_written h hamp inAttribute (Nat.le_refl _)

/-- What is written has no numbered references. -/
theorem startsUnfinishedNumber_written (hamp : '&' ∈ marks) :
    startsUnfinishedNumber markup = false := by
  have hsharp : ∀ more, markup ≠ '&' :: '#' :: more := by
    rintro more rfl
    generalize htext : '&' :: '#' :: more = markup at h
    cases h with
    | nil => cases htext
    | plain hc =>
      obtain ⟨rfl, -⟩ := List.cons.inj htext
      exact hc hamp
    | reference hmem =>
      have hnext : ∀ reference ∈ references,
          ∃ next inside, reference.2.toList = '&' :: next :: inside ∧ next ≠ '#' := by
        simp [references]
      obtain ⟨next, inside, hinside, hne⟩ := hnext _ hmem
      rw [hinside] at htext
      exact hne (List.cons.inj (List.cons.inj htext).2).1.symm
  unfold startsUnfinishedNumber
  split
  · exact absurd rfl (hsharp _)
  · exact absurd rfl (hsharp _)
  · exact absurd rfl (hsharp _)
  · rfl

theorem decoded_written (hamp : '&' ∈ marks) : decoded markup = characters text := by
  rw [decoded, startsUnfinishedNumber_written h hamp, decode_written h hamp]
  rfl

end Written

/-- A written text has no brackets that open tags. -/
theorem free_of_writesText {text markup : List Char} (h : WritesText textMarks text markup) :
    ∀ c ∈ markup, (c != '<') = true := by
  have hnone : '<' ∉ markup := h.notMem (by decide) (by decide)
  exact fun c hc => bne_iff_ne.mpr fun heq => hnone (heq ▸ hc)

-- ---------------------------------------------------------------------------
-- Texts
-- ---------------------------------------------------------------------------

theorem markup_of_ne {foreign : Bool} {c : Char} {text : List Char} (h : c ≠ '<') :
    markup foreign (c :: text) =
      (decoded ((c :: text).takeWhile (· != '<')), (c :: text).dropWhile (· != '<')) := by
  unfold markup
  split
  · next heq => exact absurd (List.cons.inj heq).1 h
  · next heq => exact absurd (List.cons.inj heq).1 h
  · next heq => exact absurd (List.cons.inj heq).1 h
  · next heq => exact absurd (List.cons.inj heq).1 h
  · rfl

/-- A text goes up to the next tag. -/
theorem markup_text {foreign : Bool} {text written rest : List Char}
    (h : WritesText textMarks text written) (hne : text ≠ []) (hrest : Stops (· != '<') rest) :
    markup foreign (written ++ rest) = (characters text, rest) := by
  have hfree := free_of_writesText h
  obtain ⟨c, more, rfl⟩ := List.exists_cons_of_ne_nil (h.ne_nil hne)
  rw [List.cons_append, markup_of_ne (bne_iff_ne.mp (hfree c List.mem_cons_self)),
    ← List.cons_append, takeWhile_append hfree hrest, dropWhile_append hfree hrest,
    decoded_written h (by decide)]

-- ---------------------------------------------------------------------------
-- Tags
-- ---------------------------------------------------------------------------

theorem lowerName_of_ne_null {name : String} (h : ∀ c ∈ name.toList, c ≠ '\x00') :
    lowerName name.toList = asciiLower name := by
  rw [lowerName, asciiLower, withoutNull, List.map_map]
  congr 1
  refine List.map_congr_left fun c hc => ?_
  have hne : c.toLower ≠ '\x00' := by
    obtain hsame | ⟨-, hletter⟩ := Selector.toLower_eq_or_isAlpha c
    · rw [hsame]
      exact h c hc
    · intro hnull
      rw [hnull] at hletter
      exact absurd hletter (by decide)
  simp [hne]

theorem splitAtMark?_append {mark : Char} {before : List Char} (h : mark ∉ before)
    (after : List Char) : splitAtMark? [mark] (before ++ mark :: after) = some (before, after) := by
  induction before with
  | nil => simp [splitAtMark?]
  | cons c before ih =>
    rw [List.mem_cons, not_or] at h
    simp [splitAtMark?, ih h.2, h.1]

theorem attributeValue?_quoted {value : String} {written : List Char}
    (h : WritesText valueMarks value.toList written) (rest : List Char) :
    attributeValue? ('"' :: (written ++ '"' :: rest)) = some (value, rest) := by
  have hquote : '"' ∉ written := h.notMem (by decide) (by decide)
  have hplain := (h.allPlain (by decide) (by decide)).2
  simp [attributeValue?, splitAtMark?_append hquote, withoutNull_of_plain hplain,
    decode_written h (by decide), isAsciiBlank]

/-- One attribute is read after the other. -/
theorem attributes?_cons {fuel : Nat} {found : List (String × String)} {name value : String}
    {written : List Char} (hname : isAttributeName name = true)
    (hvalue : WritesText valueMarks value.toList written) (rest : List Char) :
    attributes? (fuel + 1) found (' ' :: (name.toList ++ '=' :: '"' :: (written ++ '"' :: rest))) =
      attributes? fuel (addAttribute found (asciiLower name) value) rest := by
  rw [isAttributeName] at hname
  cases hchars : name.toList with
  | nil => rw [hchars] at hname; cases hname
  | cons c more =>
    rw [hchars] at hname
    simp only [Bool.and_eq_true, List.all_eq_true] at hname
    obtain ⟨⟨hfirst, hmore⟩, hnull⟩ := hname
    have hlower : lowerName (c :: more) = asciiLower name := by
      rw [← hchars]
      exact lowerName_of_ne_null fun d hd => bne_iff_ne.mp (hnull d (hchars ▸ hd))
    have hends : endsTagName c = false := by simpa using hfirst
    simp only [endsTagName, Bool.or_eq_false_iff, beq_eq_false_iff_ne] at hends
    obtain ⟨⟨hblank, hslash⟩, hbracket⟩ := hends
    let after : List Char := '"' :: (written ++ '"' :: rest)
    have hstops : Stops (!endsAttributeName ·) ('=' :: after) := stops_cons.mpr (by decide)
    have hskip : (' ' :: c :: (more ++ '=' :: after)).dropWhile isAsciiBlank =
        c :: (more ++ '=' :: after) := by
      rw [List.dropWhile_cons_of_pos (by decide), List.dropWhile_cons_of_neg (by simp [hblank])]
    rw [List.cons_append, attributes?, hskip]
    split
    · next heq => cases heq
    · next heq => exact absurd (List.cons.inj heq).1 hbracket
    · next heq => exact absurd (List.cons.inj heq).1 hslash
    · next heq => exact absurd (List.cons.inj heq).1 hslash
    · next heq =>
      obtain ⟨rfl, rfl⟩ := List.cons.inj heq
      rw [takeWhile_append hmore hstops, dropWhile_append hmore hstops, hlower,
        List.dropWhile_cons_of_neg (by decide)]
      simp only [after, attributeValue?_quoted hvalue]

theorem addAttribute_of_notMem {found : List (String × String)} {name : String}
    (h : name ∉ found.map (·.1)) (value : String) :
    addAttribute found name value = found ++ [(name, value)] := by
  have hlookup : found.lookup name = none :=
    List.lookup_eq_none_iff.mpr fun pair hpair =>
      bne_iff_ne.mpr fun heq => h (List.mem_map.mpr ⟨pair, hpair, heq.symm⟩)
  rw [addAttribute, hlookup]
  rfl

/-- The attributes of a tag are those that were written. -/
theorem attributes?_written {attributes found : List (String × String)} {written : List Char}
    (hwritten : WritesAttributes attributes written) {fuel : Nat} (hfuel : attributes.length < fuel)
    (h : ∀ pair ∈ attributes, isWritable pair = true)
    (hdistinct : ((found ++ attributes.map lowered).map (·.1)).Nodup) (rest : List Char) :
    attributes? fuel found (written ++ '>' :: rest) =
      some (found ++ attributes.map lowered, false, rest) := by
  induction hwritten generalizing found fuel with
  | nil =>
    obtain ⟨fuel, rfl⟩ : ∃ n, fuel = n + 1 := ⟨fuel - 1, by simp at hfuel; omega⟩
    simp [attributes?, isAsciiBlank]
  | @cons name value more written after hvalue _ ih =>
    obtain ⟨fuel, rfl⟩ : ∃ n, fuel = n + 1 := ⟨fuel - 1, by simp at hfuel; omega⟩
    rw [List.length_cons] at hfuel
    obtain ⟨hattribute, hmore⟩ := List.forall_mem_cons.mp h
    have hname : isAttributeName name = true := (Bool.and_eq_true_iff.mp hattribute).1
    have hnew : asciiLower name ∉ found.map (·.1) := by
      rw [List.map_append, List.nodup_append] at hdistinct
      exact fun hmem => hdistinct.2.2 _ hmem _ List.mem_cons_self rfl
    have hsplit : ' ' :: (name.toList ++ '=' :: '"' :: (written ++ '"' :: after)) ++ '>' :: rest =
        ' ' :: (name.toList ++ '=' :: '"' :: (written ++ '"' :: (after ++ '>' :: rest))) := by
      simp
    rw [List.map_cons, List.append_cons] at hdistinct
    rw [hsplit, attributes?_cons hname hvalue, addAttribute_of_notMem hnew]
    have hrest := ih (Nat.lt_of_succ_lt_succ hfuel) hmore hdistinct
    rwa [List.append_assoc] at hrest

theorem exists_cons_of_isTagName {name : String} (h : isTagName name = true) :
    ∃ c rest, name.toList = c :: rest ∧ c.isAlpha = true := by
  rw [isTagName, Bool.and_eq_true] at h
  cases hchars : name.toList with
  | nil => rw [hchars] at h; cases h.1
  | cons c rest =>
    rw [hchars] at h
    exact ⟨c, rest, rfl, h.1⟩

theorem tag?_written {name : String} (h : isTagName name = true)
    {attributes : List (String × String)} {written : List Char}
    (hwritten : WritesAttributes attributes written)
    (hattributes : ∀ pair ∈ attributes, isWritable pair = true)
    (hdistinct : ((attributes.map lowered).map (·.1)).Nodup) (rest : List Char) :
    tag? (name.toList ++ (written ++ '>' :: rest)) =
      some (⟨asciiLower name, attributes.map lowered, false⟩, rest) := by
  rw [isTagName, Bool.and_eq_true, List.all_eq_true] at h
  have hname : ∀ c ∈ name.toList, (!endsTagName c) = true := fun c hc =>
    (Bool.and_eq_true_iff.mp (h.2 c hc)).1
  have hnull : ∀ c ∈ name.toList, c ≠ '\x00' := fun c hc =>
    bne_iff_ne.mp (Bool.and_eq_true_iff.mp (h.2 c hc)).2
  have hstops : Stops (!endsTagName ·) (written ++ '>' :: rest) := by
    cases hwritten with
    | nil => exact stops_cons.mpr (by decide)
    | cons => exact stops_cons.mpr (by decide)
  have hlength : attributes.length ≤ written.length := by
    clear hdistinct hstops hattributes
    induction hwritten with
    | nil => exact Nat.le_refl _
    | cons _ _ ih =>
      simp only [List.length_append, List.length_cons]
      omega
  rw [tag?, takeWhile_append hname hstops, dropWhile_append hname hstops,
    lowerName_of_ne_null hnull, attributes?_written hwritten _ hattributes hdistinct]
  · rfl
  · simp only [List.length_append, List.length_cons]
    omega

/-- A start tag is read as the tag that was written. -/
theorem markup_startTag {foreign : Bool} {name : String} (h : isTagName name = true)
    {attributes : List (String × String)} {written : List Char}
    (hwritten : WritesAttributes attributes written)
    (hattributes : ∀ pair ∈ attributes, isWritable pair = true)
    (hdistinct : ((attributes.map lowered).map (·.1)).Nodup) (rest : List Char) :
    markup foreign (Syntax.startTag name written ++ rest) =
      ([.token (.startTag ⟨asciiLower name, attributes.map lowered, false⟩)], rest) := by
  obtain ⟨c, more, hchars, hletter⟩ := exists_cons_of_isTagName h
  have htext : Syntax.startTag name written ++ rest =
      '<' :: (name.toList ++ (written ++ '>' :: rest)) := by
    simp [Syntax.startTag]
  have hne (d : Char) (hd : d.isAlpha = false) : c ≠ d := by
    rintro rfl
    exact absurd hletter (by simp [hd])
  have hread : tagToken .startTag (name.toList ++ (written ++ '>' :: rest)) =
      ([.token (.startTag ⟨asciiLower name, attributes.map lowered, false⟩)], rest) := by
    rw [tagToken, tag?_written h hwritten hattributes hdistinct]
  rw [htext, ← hread, hchars, List.cons_append, markup.eq_def]
  simp [hne '!' (by decide), hne '?' (by decide), hne '/' (by decide), hletter]

/-- So is an end tag. -/
theorem tagToken_endTag {name : String} (h : isTagName name = true) (rest : List Char) :
    tagToken .endTag (name.toList ++ '>' :: rest) =
      ([.token (.endTag (.plain (asciiLower name)))], rest) := by
  have hread : tag? (name.toList ++ '>' :: rest) = some (.plain (asciiLower name), rest) :=
    tag?_written h .nil (List.forall_mem_nil _) .nil rest
  rw [tagToken, hread]

theorem endTag_append (name : String) (rest : List Char) :
    Syntax.endTag name ++ rest = '<' :: '/' :: (name.toList ++ '>' :: rest) := by
  simp [Syntax.endTag]

theorem markup_endTag {foreign : Bool} {name : String} (h : isTagName name = true)
    (rest : List Char) :
    markup foreign (Syntax.endTag name ++ rest) =
      ([.token (.endTag (.plain (asciiLower name)))], rest) := by
  obtain ⟨c, more, hchars, hletter⟩ := exists_cons_of_isTagName h
  have hne : c ≠ '>' := by
    rintro rfl
    exact absurd hletter (by decide)
  rw [endTag_append, ← tagToken_endTag h, hchars, List.cons_append, markup,
    if_pos hletter]
  exact hne

-- ---------------------------------------------------------------------------
-- Raw texts
-- ---------------------------------------------------------------------------

/-- An element whose content is text, with its name in letters. -/
structure IsTextName (name : String) : Prop where
  isTagName : isTagName name = true
  isAlpha : ∀ c ∈ name.toList, c.isAlpha = true
  lower : asciiLower name = name

/-- In a text mode the source is cut into characters, up to the end tag of the element. -/
inductive CutsText (name : String) : TextMode → List Char → List Char → Prop where
  | nil {mode : TextMode}
      (h : ∀ foreign rest, step foreign mode (Syntax.endTag name ++ rest) =
        ([.token (.endTag (.plain name))], .markup, rest)) :
      CutsText name mode [] []
  | cons {mode next : TextMode} {taken left shown later : List Char} (hne : taken ≠ [])
      (h : ∀ foreign rest, step foreign mode (taken ++ (left ++ (Syntax.endTag name ++ rest))) =
        (characters shown, next, left ++ (Syntax.endTag name ++ rest)))
      (hleft : CutsText name next left later) :
      CutsText name mode (taken ++ left) (shown ++ later)

section RawText

variable {name : String}

theorem startsEndTag_endTag (h : IsTextName name) (rest : List Char) :
    startsEndTag name (Syntax.endTag name ++ rest) = true := by
  have hstops : Stops Char.isAlpha ('>' :: rest) := stops_cons.mpr (by decide)
  have hlower : lowerName name.toList = name := by
    rw [lowerName_of_ne_null, h.lower]
    rintro c hc rfl
    exact absurd (h.isAlpha _ hc) (by decide)
  rw [endTag_append, startsEndTag, takeWhile_append h.isAlpha hstops,
    dropWhile_append h.isAlpha hstops, hlower, beq_self_eq_true]
  rfl

/-- The end tag of the element ends its text. -/
theorem rawText_endTag (h : IsTextName name) (references : Bool) (stay : TextMode)
    (rest : List Char) :
    rawText name references stay (Syntax.endTag name ++ rest) =
      ([.token (.endTag (.plain name))], .markup, rest) := by
  have hread := tagToken_endTag h.isTagName rest
  rw [h.lower] at hread
  rw [rawText, if_pos (startsEndTag_endTag h rest), endTag_append,
    List.drop_succ_cons, List.drop_succ_cons, List.drop_zero, hread]

theorem stops_endTag (name : String) (rest : List Char) :
    Stops (· != '<') (Syntax.endTag name ++ rest) := stops_cons.mpr (by decide)

theorem rawText_run {references : Bool} {stay : TextMode} {c : Char} {text run rest : List Char}
    (hends : startsEndTag name (c :: text) = false) (htext : text = run ++ rest)
    (hfree : ∀ c ∈ run, (c != '<') = true) (hrest : Stops (· != '<') rest)
    (hplain : ∀ d ∈ c :: run, isPlain d = true) :
    rawText name references stay (c :: text) =
      (if references then decoded (c :: run) else characters (c :: run), stay, rest) := by
  have htake : withoutNull ((c :: text).take 1 ++ ((c :: text).drop 1).takeWhile (· != '<')) =
      c :: run := by
    rw [List.take_succ_cons, List.take_zero, List.drop_succ_cons, List.drop_zero, htext,
      takeWhile_append hfree hrest, List.singleton_append, withoutNull_of_plain hplain]
  have hdrop : ((c :: text).drop 1).dropWhile (· != '<') = rest := by
    rw [List.drop_succ_cons, List.drop_zero, htext, dropWhile_append hfree hrest]
  rw [rawText, if_neg (by rw [hends]; decide)]
  dsimp only
  rw [htake, hdrop]

/-- A written text has no tags in it. -/
theorem cutsText_escapable (h : IsTextName name) {text written : List Char}
    (hwritten : WritesText textMarks text written) :
    CutsText name (.escapable name) written text := by
  have hnil : CutsText name (.escapable name) [] [] :=
    .nil fun _ rest => rawText_endTag h true (.escapable name) rest
  by_cases hne : text = []
  · subst hne
    cases hwritten
    exact hnil
  have hfree := free_of_writesText hwritten
  have hplain := (hwritten.allPlain (by decide) (by decide)).2
  have hdecoded := decoded_written hwritten (by decide)
  obtain ⟨c, more, rfl⟩ := List.exists_cons_of_ne_nil (hwritten.ne_nil hne)
  obtain ⟨hc, hmore⟩ := List.forall_mem_cons.mp hfree
  rw [← List.append_nil (c :: more), ← List.append_nil text]
  refine .cons (List.cons_ne_nil _ _) (fun foreign rest => ?_) hnil
  have hends (more : List Char) : startsEndTag name (c :: more) = false := by
    unfold startsEndTag
    split
    · next heq => exact absurd (List.cons.inj heq).1 (bne_iff_ne.mp hc)
    · rfl
  rw [step, List.nil_append, List.cons_append,
    rawText_run (hends _) rfl hmore (stops_endTag name rest) hplain, if_pos rfl, hdecoded]

/-- The letters that a text starts with end before the next tag. -/
theorem letters_append (text more : List Char) :
    (text ++ '<' :: more).takeWhile Char.isAlpha = text.takeWhile Char.isAlpha ∧
      (text ++ '<' :: more).dropWhile Char.isAlpha =
        text.dropWhile Char.isAlpha ++ '<' :: more := by
  induction text with
  | nil => exact ⟨List.takeWhile_cons_of_neg (by decide), List.dropWhile_cons_of_neg (by decide)⟩
  | cons c text ih =>
    cases hc : c.isAlpha with
    | true => simp [hc, ih.1, ih.2]
    | false => simp [hc]

/-- Whether an end tag starts is seen before the next tag. -/
theorem startsEndTag_append {text : List Char} (hne : text ≠ []) (more : List Char) :
    startsEndTag name (text ++ '<' :: more) = startsEndTag name text := by
  obtain ⟨c, text, rfl⟩ := List.exists_cons_of_ne_nil hne
  by_cases hc : c = '<'
  · subst hc
    cases text with
    | nil => rfl
    | cons d text =>
      by_cases hd : d = '/'
      · subst hd
        obtain ⟨htake, hdrop⟩ := letters_append text more
        simp only [List.cons_append, startsEndTag, htake, hdrop]
        cases text.dropWhile Char.isAlpha with
        | nil => rfl
        | cons e rest => rfl
      · simp [startsEndTag, hd]
  · simp [startsEndTag, hc]

/-- Letters with the end of a name behind them, behind a bracket, are a tag of this name. -/
theorem startsWithTag_letters (bracket : String) {letters : List Char}
    (hletters : ∀ c ∈ letters, c.isAlpha = true) (hname : lowerName letters = name) {c : Char}
    (hc : endsTagName c = true) (more : List Char) :
    startsWithTag bracket name (bracket.toList ++ (letters ++ c :: more)) = true := by
  have hlower : name.toList = letters.map Char.toLower := by
    have hnull : ∀ d ∈ (String.ofList letters).toList, d ≠ '\x00' := by
      rw [String.toList_ofList]
      rintro d hd rfl
      exact absurd (hletters _ hd) (by decide)
    have hsame := lowerName_of_ne_null hnull
    rw [String.toList_ofList, hname] at hsame
    rw [hsame, asciiLower, String.toList_ofList, String.toList_ofList]
  have hlength : name.length = letters.length := by
    rw [← String.length_toList, hlower, List.length_map]
  have hbracket : bracket.length = bracket.toList.length := String.length_toList.symm
  simp [startsWithTag, hbracket, hlength, hlower, hc]

/-- The lexer finds an end tag of the element only where there is one. -/
theorem startsEndTag_eq_false {text : List Char} (h : startsWithTag "</" name text = false) :
    startsEndTag name text = false := by
  rw [Bool.eq_false_iff] at h ⊢
  intro hstarts
  unfold startsEndTag at hstarts
  split at hstarts
  · next rest =>
    rw [Bool.and_eq_true, beq_iff_eq] at hstarts
    obtain ⟨hname, hends⟩ := hstarts
    have hsplit : rest.takeWhile Char.isAlpha ++ rest.dropWhile Char.isAlpha = rest :=
      List.takeWhile_append_dropWhile
    cases hdrop : rest.dropWhile Char.isAlpha with
    | nil => rw [hdrop] at hends; cases hends
    | cons c more =>
      rw [hdrop] at hends hsplit
      refine h ?_
      rw [← hsplit]
      exact startsWithTag_letters "</" (List.all_eq_true.mp List.all_takeWhile) hname hends more
  · cases hstarts

/-- One piece of a raw text goes up to the next `<`. -/
theorem rawText_piece {mode : TextMode} {c : Char} {text : List Char}
    (hplain : ∀ d ∈ c :: text, isPlain d = true)
    (hends : startsEndTag name (c :: text) = false) :
    ∃ run left, text = run ++ left ∧ ∀ rest,
      rawText name false mode (c :: run ++ (left ++ (Syntax.endTag name ++ rest))) =
        (characters (c :: run), mode, left ++ (Syntax.endTag name ++ rest)) := by
  refine ⟨text.takeWhile (· != '<'), text.dropWhile (· != '<'),
    List.takeWhile_append_dropWhile.symm, fun rest => ?_⟩
  have hfree : ∀ c ∈ text.takeWhile (· != '<'), (c != '<') = true :=
    List.all_eq_true.mp List.all_takeWhile
  have hstops := stops_dropWhile (· != '<') text
  have hsplit : text = text.takeWhile (· != '<') ++ text.dropWhile (· != '<') :=
    List.takeWhile_append_dropWhile.symm
  generalize text.takeWhile (· != '<') = run at hsplit hfree ⊢
  generalize text.dropWhile (· != '<') = left at hsplit hstops ⊢
  subst hsplit
  have hstops' : Stops (· != '<') (left ++ (Syntax.endTag name ++ rest)) := by
    cases left with
    | nil => exact stops_endTag name rest
    | cons d left => exact hstops
  have hnone : startsEndTag name (c :: (run ++ (left ++ (Syntax.endTag name ++ rest)))) =
      false := by
    rw [endTag_append, ← List.append_assoc, ← List.cons_append,
      startsEndTag_append (List.cons_ne_nil _ _), hends]
  rw [List.cons_append, rawText_run hnone rfl hfree hstops' fun d hd =>
    hplain d (List.mem_append_left left hd)]
  rfl

/-- Raw text goes from one `<` to the next, up to the end tag. -/
theorem cutsText_raw (h : IsTextName name) {text : List Char}
    (hplain : ∀ c ∈ text, isPlain c = true)
    (hends : ∀ suffix, suffix <:+ text → startsEndTag name suffix = false) :
    CutsText name (.raw name) text text := by
  induction hlength : text.length using Nat.strongRecOn generalizing text with
  | _ length ih =>
    cases text with
    | nil => exact .nil fun foreign rest => by rw [step, rawText_endTag h]
    | cons c text =>
      obtain ⟨run, left, rfl, hread⟩ := rawText_piece hplain (hends _ (List.suffix_refl _))
      have hsuffix : left <:+ c :: (run ++ left) :=
        (List.suffix_append run left).trans (List.suffix_cons _ _)
      have hshorter : left.length < length := by
        rw [← hlength, List.length_cons, List.length_append]
        omega
      rw [← List.cons_append]
      refine .cons (List.cons_ne_nil _ _) (fun foreign rest => by rw [step, hread]) ?_
      exact ih _ hshorter (fun d hd => hplain d (hsuffix.subset hd))
        (fun suffix hsuffix' => hends suffix (hsuffix'.trans hsuffix)) rfl

/-! ### Scripts -/

/-- In a script, a comment begins there. -/
def startsComment (text : List Char) : Bool := "<!--".toList.isPrefixOf text

/-- In a comment of a script, a start tag of a script begins there. -/
def startsScript (text : List Char) : Bool :=
  match text with
  | '<' :: rest => (scriptWord? rest).any (·.1 == "script")
  | _ => false

theorem startsScript_eq_false {text : List Char} (h : startsWithTag "<" "script" text = false) :
    startsScript text = false := by
  rw [Bool.eq_false_iff] at h ⊢
  intro hstarts
  unfold startsScript scriptWord? at hstarts
  split at hstarts
  · next rest =>
    have hsplit : rest.takeWhile Char.isAlpha ++ rest.dropWhile Char.isAlpha = rest :=
      List.takeWhile_append_dropWhile
    cases hdrop : rest.dropWhile Char.isAlpha with
    | nil => simp [hdrop] at hstarts
    | cons c more =>
      rw [hdrop] at hstarts hsplit
      dsimp only at hstarts
      split at hstarts
      · next hends =>
        rw [Option.any_some, beq_iff_eq] at hstarts
        refine h ?_
        rw [← hsplit]
        exact startsWithTag_letters "<" (List.all_eq_true.mp List.all_takeWhile) hstarts hends more
      · cases hstarts
  · cases hstarts

theorem isPrefixOf_append {mark : List Char} (h : '<' ∉ mark) (text more : List Char) :
    mark.isPrefixOf (text ++ '<' :: more) = mark.isPrefixOf text := by
  induction mark generalizing text with
  | nil => simp
  | cons c mark ih =>
    rw [List.mem_cons, not_or] at h
    cases text with
    | nil => simp [List.isPrefixOf, Ne.symm h.1]
    | cons d text => simp [List.isPrefixOf, ih h.2 text]

theorem startsComment_append {text : List Char} (hne : text ≠ []) (more : List Char) :
    startsComment (text ++ '<' :: more) = startsComment text := by
  obtain ⟨c, text, rfl⟩ := List.exists_cons_of_ne_nil hne
  have h : ['!', '-', '-'].isPrefixOf (text ++ '<' :: more) = ['!', '-', '-'].isPrefixOf text :=
    isPrefixOf_append (by decide) text more
  simp [startsComment, List.isPrefixOf, h]

theorem startsScript_append {text : List Char} (hne : text ≠ []) (more : List Char) :
    startsScript (text ++ '<' :: more) = startsScript text := by
  obtain ⟨c, text, rfl⟩ := List.exists_cons_of_ne_nil hne
  by_cases hc : c = '<'
  · subst hc
    obtain ⟨htake, hdrop⟩ := letters_append text more
    simp only [List.cons_append, startsScript, scriptWord?, htake, hdrop]
    cases text.dropWhile Char.isAlpha with
    | nil => rfl
    | cons d rest => rfl
  · simp [startsScript, hc]

/-- What the mode and the rest of a script have to be for the end tag to be found. -/
def IsScriptRest (mode : TextMode) (text : List Char) : Prop :=
  mode = .script ∧ (∀ suffix, suffix <:+ text → startsComment suffix = false) ∨
    (mode = .script ∨ mode = .scriptComment) ∧
      ∀ suffix, suffix <:+ text → startsScript suffix = false

theorem IsScriptRest.suffix {mode : TextMode} {text rest : List Char}
    (h : IsScriptRest mode text) (hsuffix : rest <:+ text) : IsScriptRest mode rest :=
  h.imp (.imp_right fun hnone _ hrest => hnone _ (hrest.trans hsuffix))
    (.imp_right fun hnone _ hrest => hnone _ (hrest.trans hsuffix))

theorem isTextName_script : IsTextName "script" :=
  ⟨by decide, List.all_eq_true.mp (by decide), by decide⟩

theorem isPrefixOf_endTag {mark : List Char} (h : '/' ∉ mark) (hlong : 1 < mark.length)
    (name : String) (rest : List Char) :
    mark.isPrefixOf (Syntax.endTag name ++ rest) = false := by
  match mark, hlong with
  | c :: d :: mark, _ =>
    simp only [List.mem_cons, not_or] at h
    simp [Syntax.endTag, List.isPrefixOf, Ne.symm h.2.1]

theorem script_outside (text : List Char) :
    script .script text =
      if startsComment text then scriptCharacters 2 .scriptComment text
      else rawText "script" false .script text := rfl

theorem script_inside {text : List Char} (h : startsEndTag "script" text = false)
    (hscript : startsScript text = false) :
    script .scriptComment text =
      if "-->".toList.isPrefixOf text then scriptCharacters 3 .script text
      else scriptCharacters 1 .scriptComment text := by
  rw [script, if_neg (Bool.eq_false_iff.mp h)]
  by_cases hclose : "-->".toList.isPrefixOf text = true
  · rw [if_pos hclose, if_pos hclose]
  rw [if_neg hclose, if_neg hclose]
  split
  · next hopens =>
    obtain ⟨rest, rfl⟩ := List.isPrefixOf_iff_prefix.mp hopens
    split
    · next hword =>
      have hword' : scriptWord? rest = some ("script", _) := hword
      simp [startsScript, hword'] at hscript
    · rfl
  · rfl

/-- The end tag of a script is found in both of these modes. -/
theorem script_endTag {mode : TextMode} {text : List Char} (h : IsScriptRest mode text)
    (rest : List Char) :
    script mode (Syntax.endTag "script" ++ rest) =
      ([.token (.endTag (.plain "script"))], .markup, rest) := by
  have hmode : mode = .script ∨ mode = .scriptComment := h.elim (.inl ·.1) (·.1)
  have hread := rawText_endTag isTextName_script false
  obtain rfl | rfl := hmode
  · have hcomment : startsComment (Syntax.endTag "script" ++ rest) = false :=
      isPrefixOf_endTag (by decide) (by decide) _ _
    rw [script_outside, hcomment, if_neg (by decide), hread]
  · have hclose : "-->".toList.isPrefixOf (Syntax.endTag "script" ++ rest) = false :=
      isPrefixOf_endTag (by decide) (by decide) _ _
    rw [script, hclose, if_neg (by decide),
      if_pos (startsEndTag_endTag isTextName_script rest), hread]

theorem scriptCharacters_append {count : Nat} {taken : List Char} (hcount : taken.length = count)
    (hplain : ∀ c ∈ taken, isPlain c = true) (next : TextMode) (rest : List Char) :
    scriptCharacters count next (taken ++ rest) = (characters taken, next, rest) := by
  subst hcount
  rw [scriptCharacters, List.take_left, List.drop_left, withoutNull_of_plain hplain]

/-- A script goes on outside its comments like any raw text. -/
theorem script_piece_outside {c : Char} {text : List Char}
    (h : IsScriptRest .script (c :: text)) (hplain : ∀ d ∈ c :: text, isPlain d = true)
    (hends : startsEndTag "script" (c :: text) = false) :
    ∃ taken left next, taken ≠ [] ∧ c :: text = taken ++ left ∧ IsScriptRest next left ∧
      ∀ rest, script .script (taken ++ (left ++ (Syntax.endTag "script" ++ rest))) =
        (characters taken, next, left ++ (Syntax.endTag "script" ++ rest)) := by
  have hstarts (rest : List Char) :
      startsComment (c :: text ++ (Syntax.endTag "script" ++ rest)) =
        startsComment (c :: text) := by
    rw [endTag_append]
    exact startsComment_append (List.cons_ne_nil _ _) _
  cases hcomment : startsComment (c :: text) with
  | true =>
    have hnested : ∀ suffix, suffix <:+ c :: text → startsScript suffix = false := by
      obtain ⟨-, hnone⟩ | ⟨-, hnone⟩ := h
      · exact absurd hcomment (by simp [hnone _ (List.suffix_refl _)])
      · exact hnone
    obtain ⟨more, hmore⟩ := List.isPrefixOf_iff_prefix.mp hcomment
    have hsplit : c :: text = ['<', '!'] ++ ('-' :: '-' :: more) := hmore.symm
    refine ⟨_, _, .scriptComment, List.cons_ne_nil _ _, hsplit, .inr ⟨.inr rfl, ?_⟩,
      fun rest => ?_⟩
    · exact fun suffix hsuffix =>
        hnested suffix (hsuffix.trans (hsplit ▸ List.suffix_append _ _))
    · have htwo : ∀ d ∈ ['<', '!'], isPlain d = true := List.all_eq_true.mp (by decide)
      rw [← List.append_assoc, ← hsplit, script_outside, if_pos ((hstarts rest).trans hcomment),
        hsplit, List.append_assoc]
      exact scriptCharacters_append rfl htwo _ _
  | false =>
    obtain ⟨run, left, rfl, hread⟩ := rawText_piece hplain hends
    refine ⟨c :: run, left, .script, List.cons_ne_nil _ _, rfl,
      h.suffix ((List.suffix_append run left).trans (List.suffix_cons _ _)), fun rest => ?_⟩
    have hno := hstarts rest
    rw [hcomment, ← List.cons_append, List.append_assoc] at hno
    rw [script_outside, if_neg (Bool.eq_false_iff.mp hno), hread]

/-- Inside a comment it goes on character by character, up to the end of the comment. -/
theorem script_piece_inside {c : Char} {text : List Char}
    (h : IsScriptRest .scriptComment (c :: text)) (hplain : ∀ d ∈ c :: text, isPlain d = true)
    (hends : startsEndTag "script" (c :: text) = false) :
    ∃ taken left next, taken ≠ [] ∧ c :: text = taken ++ left ∧ IsScriptRest next left ∧
      ∀ rest, script .scriptComment (taken ++ (left ++ (Syntax.endTag "script" ++ rest))) =
        (characters taken, next, left ++ (Syntax.endTag "script" ++ rest)) := by
  have hnested : ∀ suffix, suffix <:+ c :: text → startsScript suffix = false :=
    h.elim (fun h => absurd h.1 nofun) (·.2)
  have hclose (rest : List Char) :
      "-->".toList.isPrefixOf (c :: text ++ (Syntax.endTag "script" ++ rest)) =
        "-->".toList.isPrefixOf (c :: text) := by
    rw [endTag_append]
    exact isPrefixOf_append (by decide) _ _
  have hread (rest : List Char) :
      script .scriptComment (c :: text ++ (Syntax.endTag "script" ++ rest)) =
        if "-->".toList.isPrefixOf (c :: text) then
          scriptCharacters 3 .script (c :: text ++ (Syntax.endTag "script" ++ rest))
        else scriptCharacters 1 .scriptComment
          (c :: text ++ (Syntax.endTag "script" ++ rest)) := by
    rw [← hclose rest]
    refine script_inside ?_ ?_
    · rw [endTag_append, startsEndTag_append (List.cons_ne_nil _ _), hends]
    · rw [endTag_append, startsScript_append (List.cons_ne_nil _ _),
        hnested _ (List.suffix_refl _)]
  cases hcomment : "-->".toList.isPrefixOf (c :: text) with
  | true =>
    obtain ⟨left, hleft⟩ := List.isPrefixOf_iff_prefix.mp hcomment
    have hthree : ∀ d ∈ "-->".toList, isPlain d = true := List.all_eq_true.mp (by decide)
    refine ⟨_, left, .script, by decide, hleft.symm, .inr ⟨.inl rfl, ?_⟩, fun rest => ?_⟩
    · exact fun suffix hsuffix =>
        hnested suffix (hsuffix.trans (hleft ▸ List.suffix_append _ _))
    · rw [← List.append_assoc, hleft, hread, hcomment, if_pos rfl, ← hleft, List.append_assoc]
      exact scriptCharacters_append rfl hthree _ _
  | false =>
    refine ⟨[c], text, .scriptComment, List.cons_ne_nil _ _, rfl,
      h.suffix (List.suffix_cons _ _), fun rest => ?_⟩
    have hone : ∀ d ∈ [c], isPlain d = true := by simpa using hplain c List.mem_cons_self
    rw [← List.append_assoc, List.singleton_append, hread, hcomment, if_neg (by decide)]
    exact scriptCharacters_append rfl hone _ _

theorem cutsText_script {mode : TextMode} {text : List Char}
    (hmode : IsScriptRest mode text) (hplain : ∀ c ∈ text, isPlain c = true)
    (hends : ∀ suffix, suffix <:+ text → startsEndTag "script" suffix = false) :
    CutsText "script" mode text text := by
  have hstep (mode : TextMode) (text' : List Char) (hmode : IsScriptRest mode text')
      (foreign : Bool) (text : List Char) : step foreign mode text = script mode text := by
    obtain ⟨rfl, -⟩ | ⟨rfl | rfl, -⟩ := hmode <;> rfl
  induction hlength : text.length using Nat.strongRecOn generalizing mode text with
  | _ length ih =>
    cases text with
    | nil => exact .nil fun foreign rest => by rw [hstep mode _ hmode, script_endTag hmode]
    | cons c text =>
      have hpiece : ∃ taken left next, taken ≠ [] ∧ c :: text = taken ++ left ∧
          IsScriptRest next left ∧
          ∀ rest, script mode (taken ++ (left ++ (Syntax.endTag "script" ++ rest))) =
            (characters taken, next, left ++ (Syntax.endTag "script" ++ rest)) := by
        have hnone := hends _ (List.suffix_refl _)
        obtain rfl | rfl : mode = .script ∨ mode = .scriptComment := hmode.elim (.inl ·.1) (·.1)
        · exact script_piece_outside hmode hplain hnone
        · exact script_piece_inside hmode hplain hnone
      obtain ⟨taken, left, next, hne, hsplit, hnext, hread⟩ := hpiece
      have hsuffix : left <:+ c :: text := hsplit ▸ List.suffix_append taken left
      have hshorter : left.length < length := by
        have := List.length_pos_iff.mpr hne
        rw [← hlength, hsplit, List.length_append]
        omega
      rw [hsplit]
      refine .cons hne (fun foreign rest => by rw [hstep mode _ hmode, hread]) ?_
      exact ih _ hshorter hnext (fun d hd => hplain d (hsuffix.subset hd))
        (fun suffix hsuffix' => hends suffix (hsuffix'.trans hsuffix)) rfl

end RawText

end HtmlTemplate.Html.Lexer
