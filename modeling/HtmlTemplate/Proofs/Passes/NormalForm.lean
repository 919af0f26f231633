-- SUMMARY: The normal form of templates: what it rules out, that the passes reach it, and that they leave it as it is.
import Mathlib.Data.List.Chain
import HtmlTemplate.Template.Normal

/-!
# The normal form

A template in normal form has no elements and attributes, and its sequences cannot be
simplified: no sequence is an item of another one, none has one item only, and no two
texts stand side by side in one. Each pass has a shape of its own to establish:
`lower` writes elements out everywhere, `flatten` takes sequences apart in what is
written out, and `merge` joins texts in what is flat, where it takes care that nothing
becomes an item of a sequence that was none. A template in normal form is what all
three passes leave as it is.
-/

namespace HtmlTemplate.Template

-- ---------------------------------------------------------------------------
-- Parts
-- ---------------------------------------------------------------------------

/-- A template contains itself and what its parts contain. -/
inductive Contains : Template → Template → Prop where
  | self (template : Template) : Contains template template
  | item {items : List Template} {item part : Template} (hitem : item ∈ items)
      (h : item.Contains part) : Contains (.sequence items) part
  | yes {condition : Condition} {yes part : Template} {no : Option Template}
      (h : yes.Contains part) : Contains (.choice condition yes no) part
  | no {condition : Condition} {yes no part : Template} (h : no.Contains part) :
      Contains (.choice condition yes (some no)) part
  | body {repetition : Repetition} {body part : Template} (h : body.Contains part) :
      Contains (.block repetition body) part
  | attributes {name : String} {attributes content part : Template}
      (h : attributes.Contains part) : Contains (.element name attributes content) part
  | content {name : String} {attributes content part : Template} (h : content.Contains part) :
      Contains (.element name attributes content) part
  | value {name : String} {value part : Template} (h : value.Contains part) :
      Contains (.attr name value) part

/-- Everything in the template is so, the template itself included. -/
def Throughout (p : Template → Prop) (template : Template) : Prop :=
  ∀ part, template.Contains part → p part

section Throughout

variable {p : Template → Prop}

theorem Throughout.imp {q : Template → Prop} {template : Template} (h : template.Throughout p)
    (himp : ∀ {part}, p part → q part) : template.Throughout q :=
  fun part hpart => himp (h part hpart)

theorem Throughout.self {template : Template} (h : template.Throughout p) : p template :=
  h template (.self template)

@[simp] theorem throughout_static {markup : String} :
    (static markup).Throughout p ↔ p (.static markup) := by
  refine ⟨Throughout.self, fun h part hpart => ?_⟩
  cases hpart with
  | self => exact h

@[simp] theorem throughout_dynamic {var : Var} :
    (dynamic var).Throughout p ↔ p (.dynamic var) := by
  refine ⟨Throughout.self, fun h part hpart => ?_⟩
  cases hpart with
  | self => exact h

@[simp] theorem throughout_sequence {items : List Template} :
    (sequence items).Throughout p ↔
      p (.sequence items) ∧ ∀ item ∈ items, item.Throughout p := by
  refine ⟨fun h => ⟨h.self, fun item hitem part hpart => h part (.item hitem hpart)⟩, ?_⟩
  rintro ⟨hself, hitems⟩ part hpart
  cases hpart with
  | self => exact hself
  | item hitem h => exact hitems _ hitem part h

@[simp] theorem throughout_choice {condition : Condition} {yes : Template}
    {no : Option Template} :
    (choice condition yes no).Throughout p ↔
      p (.choice condition yes no) ∧ yes.Throughout p ∧ ∀ item ∈ no, item.Throughout p := by
  constructor
  · refine fun h => ⟨h.self, fun part hpart => h part (.yes hpart), ?_⟩
    rintro item rfl part hpart
    exact h part (.no hpart)
  · rintro ⟨hself, hyes, hno⟩ part hpart
    cases hpart with
    | self => exact hself
    | yes h => exact hyes part h
    | no h => exact hno _ rfl part h

@[simp] theorem throughout_block {repetition : Repetition} {body : Template} :
    (block repetition body).Throughout p ↔ p (.block repetition body) ∧ body.Throughout p := by
  refine ⟨fun h => ⟨h.self, fun part hpart => h part (.body hpart)⟩, ?_⟩
  rintro ⟨hself, hbody⟩ part hpart
  cases hpart with
  | self => exact hself
  | body h => exact hbody part h

@[simp] theorem throughout_element {name : String} {attributes content : Template} :
    (element name attributes content).Throughout p ↔
      p (.element name attributes content) ∧ attributes.Throughout p ∧
        content.Throughout p := by
  constructor
  · exact fun h => ⟨h.self, fun part hpart => h part (.attributes hpart),
      fun part hpart => h part (.content hpart)⟩
  · rintro ⟨hself, hattributes, hcontent⟩ part hpart
    cases hpart with
    | self => exact hself
    | attributes h => exact hattributes part h
    | content h => exact hcontent part h

@[simp] theorem throughout_attr {name : String} {value : Template} :
    (attr name value).Throughout p ↔ p (.attr name value) ∧ value.Throughout p := by
  refine ⟨fun h => ⟨h.self, fun part hpart => h part (.value hpart)⟩, ?_⟩
  rintro ⟨hself, hvalue⟩ part hpart
  cases hpart with
  | self => exact hself
  | value h => exact hvalue part h

end Throughout

-- ---------------------------------------------------------------------------
-- Shapes
-- ---------------------------------------------------------------------------

/-- Neither an element nor an attribute. -/
def IsWrittenOut : Template → Prop
  | .element _ _ _ => False
  | .attr _ _ => False
  | _ => True

/-- No value, choice or repetition. -/
def IsFixed : Template → Prop
  | .dynamic _ => False
  | .choice _ _ _ => False
  | .block _ _ => False
  | _ => True

def IsStatic : Template → Prop
  | .static _ => True
  | _ => False

def IsSequence : Template → Prop
  | .sequence _ => True
  | _ => False

/-- Items that need not be taken apart: none is a sequence, and one alone is no
    sequence. -/
structure AreFlat (items : List Template) : Prop where
  not_isSequence : ∀ item ∈ items, ¬item.IsSequence
  length_ne_one : items.length ≠ 1

/-- Items that need not be joined: no text is empty, and no two stand side by side. -/
structure AreJoined (items : List Template) : Prop where
  static_empty_notMem : .static "" ∉ items
  apart : items.IsChain fun first second => ¬(first.IsStatic ∧ second.IsStatic)

/-- What the second pass makes of every part. -/
def IsFlat : Template → Prop
  | .sequence items => AreFlat items
  | part => part.IsWrittenOut

/-- What all passes together make of every part. -/
def IsNormal : Template → Prop
  | .sequence items => AreFlat items ∧ AreJoined items
  | part => part.IsWrittenOut

-- ---------------------------------------------------------------------------
-- Writing elements out
-- ---------------------------------------------------------------------------

mutual

theorem throughout_lower (template : Template) : template.lower.Throughout IsWrittenOut := by
  cases template with
  | static markup => simp [lower, IsWrittenOut]
  | dynamic var => simp [lower, IsWrittenOut]
  | sequence items => simpa [lower, IsWrittenOut] using throughout_lowerAll items
  | choice condition yes no =>
    simpa [lower, IsWrittenOut] using ⟨throughout_lower yes, throughout_lowerOption no⟩
  | block repetition body => simpa [lower, IsWrittenOut] using throughout_lower body
  | element name attributes content =>
    have hattributes := throughout_lower attributes
    have hcontent := throughout_lower content
    cases hvoid : Markup.isVoid name <;> simp [lower, hvoid, IsWrittenOut, hattributes, hcontent]
  | attr name value => simp [lower, IsWrittenOut, throughout_lower value]

theorem throughout_lowerAll (items : List Template) :
    ∀ item ∈ lowerAll items, item.Throughout IsWrittenOut := by
  cases items with
  | nil => simp [lowerAll]
  | cons item rest =>
    rw [lowerAll, List.forall_mem_cons]
    exact ⟨throughout_lower item, throughout_lowerAll rest⟩

theorem throughout_lowerOption (item? : Option Template) :
    ∀ item ∈ lowerOption item?, item.Throughout IsWrittenOut := by
  cases item? with
  | none => simp [lowerOption]
  | some item => simpa [lowerOption] using throughout_lower item

end

-- ---------------------------------------------------------------------------
-- Taking sequences apart
-- ---------------------------------------------------------------------------

/-- A sequence is made only of more or fewer items than one. -/
theorem throughout_ofItems {p : Template → Prop} {items : List Template}
    (hitems : ∀ item ∈ items, item.Throughout p)
    (hsequence : items.length ≠ 1 → p (.sequence items)) : (ofItems items).Throughout p := by
  unfold ofItems
  split
  next item => exact hitems item List.mem_cons_self
  next items hone =>
    refine throughout_sequence.mpr ⟨hsequence ?_, hitems⟩
    intro hlength
    obtain ⟨item, rfl⟩ := List.length_eq_one_iff.mp hlength
    exact hone item rfl

theorem items_of_not_isSequence {template : Template} (h : ¬template.IsSequence) :
    template.items = [template] := by
  cases template with
  | sequence items => exact absurd trivial h
  | _ => rfl

/-- The items of a flat template are flat and no sequences. -/
theorem throughout_items {template : Template} (h : template.Throughout IsFlat) :
    ∀ item ∈ template.items, item.Throughout IsFlat ∧ ¬item.IsSequence := by
  intro item hitem
  by_cases hsequence : template.IsSequence
  · cases template with
    | sequence items =>
      obtain ⟨hflat, hitems⟩ := throughout_sequence.mp h
      exact ⟨hitems item hitem, hflat.not_isSequence item hitem⟩
    | _ => exact absurd hsequence id
  · rw [items_of_not_isSequence hsequence, List.mem_singleton] at hitem
    subst hitem
    exact ⟨h, hsequence⟩

mutual

theorem throughout_flatten (template : Template) (h : template.Throughout IsWrittenOut) :
    template.flatten.Throughout IsFlat := by
  cases template with
  | static markup => simp [flatten, IsFlat, IsWrittenOut]
  | dynamic var => simp [flatten, IsFlat, IsWrittenOut]
  | sequence parts =>
    have hparts := throughout_flattenAll parts (throughout_sequence.mp h).2
    refine throughout_ofItems (fun item hitem => (hparts item hitem).1) fun hlength => ?_
    exact ⟨fun item hitem => (hparts item hitem).2, hlength⟩
  | choice condition yes no =>
    obtain ⟨-, hyes, hno⟩ := throughout_choice.mp h
    exact throughout_choice.mpr
      ⟨trivial, throughout_flatten yes hyes, throughout_flattenOption no hno⟩
  | block repetition body =>
    exact throughout_block.mpr ⟨trivial, throughout_flatten body (throughout_block.mp h).2⟩
  | element name attributes content => exact absurd h.self id
  | attr name value => exact absurd h.self id

theorem throughout_flattenAll (parts : List Template)
    (h : ∀ part ∈ parts, part.Throughout IsWrittenOut) :
    ∀ item ∈ flattenAll parts, item.Throughout IsFlat ∧ ¬item.IsSequence := by
  cases parts with
  | nil => simp [flattenAll]
  | cons part rest =>
    obtain ⟨hpart, hrest⟩ := List.forall_mem_cons.mp h
    rw [flattenAll, List.forall_mem_append]
    exact ⟨throughout_items (throughout_flatten part hpart), throughout_flattenAll rest hrest⟩

theorem throughout_flattenOption (item? : Option Template)
    (h : ∀ item ∈ item?, item.Throughout IsWrittenOut) :
    ∀ item ∈ flattenOption item?, item.Throughout IsFlat := by
  cases item? with
  | none => simp [flattenOption]
  | some item => simpa [flattenOption] using throughout_flatten item (h item rfl)

end

-- ---------------------------------------------------------------------------
-- Joining texts
-- ---------------------------------------------------------------------------

theorem forall_mem_consMerged {p : Template → Prop} {item : Template} {rest : List Template}
    (hstatic : ∀ markup, p (.static markup)) (hitem : p item)
    (hrest : ∀ item ∈ rest, p item) : ∀ other ∈ consMerged item rest, p other := by
  unfold consMerged
  split
  next markup =>
    split
    · exact hrest
    · split
      next next rest =>
        exact List.forall_mem_cons.mpr ⟨hstatic _, fun other h => hrest other (.tail _ h)⟩
      next => exact List.forall_mem_cons.mpr ⟨hitem, hrest⟩
  next => exact List.forall_mem_cons.mpr ⟨hitem, hrest⟩

theorem areJoined_nil : AreJoined [] := ⟨List.not_mem_nil, .nil⟩

theorem areJoined_cons_iff {item : Template} {rest : List Template} :
    AreJoined (item :: rest) ↔
      item ≠ .static "" ∧ (∀ next ∈ rest.head?, ¬(item.IsStatic ∧ next.IsStatic)) ∧
        AreJoined rest := by
  constructor
  · rintro ⟨hempty, hchain⟩
    obtain ⟨hitem, hrest⟩ := not_or.mp (List.mem_cons.not.mp hempty)
    obtain ⟨hnext, hchain⟩ := List.isChain_cons.mp hchain
    exact ⟨Ne.symm hitem, hnext, hrest, hchain⟩
  · rintro ⟨hitem, hnext, hempty, hchain⟩
    exact ⟨List.mem_cons.not.mpr (not_or.mpr ⟨Ne.symm hitem, hempty⟩),
      List.isChain_cons.mpr ⟨hnext, hchain⟩⟩

theorem areJoined_consMerged (item : Template) {rest : List Template} (h : AreJoined rest) :
    AreJoined (consMerged item rest) := by
  unfold consMerged
  split
  next markup =>
    split
    next => exact h
    next hempty =>
      have hne : markup ≠ "" := by simpa using hempty
      split
      next next rest =>
        -- The joined text stands where the next one stood.
        obtain ⟨-, hnext, hrest⟩ := areJoined_cons_iff.mp h
        exact areJoined_cons_iff.mpr ⟨by simp [hne], hnext, hrest⟩
      next hother =>
        refine areJoined_cons_iff.mpr ⟨by simp [hne], ?_, h⟩
        rintro next hnext ⟨-, hstatic⟩
        obtain ⟨rest, rfl⟩ := List.head?_eq_some_iff.mp hnext
        cases next with
        | static next => exact hother next rest rfl
        | _ => exact hstatic
  next hother =>
    have hstatic : ¬item.IsStatic := by
      cases item with
      | static markup => exact absurd rfl (hother markup)
      | _ => exact id
    refine areJoined_cons_iff.mpr ⟨hother "", ?_, h⟩
    exact fun _ _ hboth => hstatic hboth.1

theorem not_isSequence_merge {template : Template} (h : ¬template.IsSequence) :
    ¬template.merge.IsSequence := by
  cases template with
  | sequence items => exact absurd trivial h
  | _ => simp [merge, IsSequence]

mutual

theorem throughout_merge (template : Template) (h : template.Throughout IsFlat) :
    template.merge.Throughout IsNormal := by
  cases template with
  | static markup => simp [merge, IsNormal, IsWrittenOut]
  | dynamic var => simp [merge, IsNormal, IsWrittenOut]
  | sequence parts =>
    obtain ⟨hflat, hparts⟩ := throughout_sequence.mp h
    obtain ⟨hitems, hjoined⟩ := throughout_mergeAll parts fun part hpart =>
      ⟨hparts part hpart, hflat.not_isSequence part hpart⟩
    refine throughout_ofItems (fun item hitem => (hitems item hitem).1) fun hlength => ?_
    exact ⟨⟨fun item hitem => (hitems item hitem).2, hlength⟩, hjoined⟩
  | choice condition yes no =>
    obtain ⟨-, hyes, hno⟩ := throughout_choice.mp h
    exact throughout_choice.mpr
      ⟨trivial, throughout_merge yes hyes, throughout_mergeOption no hno⟩
  | block repetition body =>
    exact throughout_block.mpr ⟨trivial, throughout_merge body (throughout_block.mp h).2⟩
  | element name attributes content => exact absurd h.self id
  | attr name value => exact absurd h.self id

theorem throughout_mergeAll (parts : List Template)
    (h : ∀ part ∈ parts, part.Throughout IsFlat ∧ ¬part.IsSequence) :
    (∀ item ∈ mergeAll parts, item.Throughout IsNormal ∧ ¬item.IsSequence) ∧
      AreJoined (mergeAll parts) := by
  cases parts with
  | nil => simp [mergeAll, areJoined_nil]
  | cons part rest =>
    obtain ⟨⟨hpart, hsequence⟩, hrest⟩ := List.forall_mem_cons.mp h
    obtain ⟨hitems, hjoined⟩ := throughout_mergeAll rest hrest
    refine ⟨forall_mem_consMerged ?_ ?_ hitems, areJoined_consMerged _ hjoined⟩
    · exact fun markup => ⟨throughout_static.mpr trivial, id⟩
    · exact ⟨throughout_merge part hpart, not_isSequence_merge hsequence⟩

theorem throughout_mergeOption (item? : Option Template)
    (h : ∀ item ∈ item?, item.Throughout IsFlat) :
    ∀ item ∈ mergeOption item?, item.Throughout IsNormal := by
  cases item? with
  | none => simp [mergeOption]
  | some item => simpa [mergeOption] using throughout_merge item (h item rfl)

end

-- ---------------------------------------------------------------------------
-- What the passes leave as it is
-- ---------------------------------------------------------------------------

mutual

theorem lower_eq_self (template : Template) (h : template.Throughout IsWrittenOut) :
    template.lower = template := by
  cases template with
  | static markup => rfl
  | dynamic var => rfl
  | sequence items => rw [lower, lowerAll_eq_self items (throughout_sequence.mp h).2]
  | choice condition yes no =>
    obtain ⟨-, hyes, hno⟩ := throughout_choice.mp h
    rw [lower, lower_eq_self yes hyes, lowerOption_eq_self no hno]
  | block repetition body => rw [lower, lower_eq_self body (throughout_block.mp h).2]
  | element name attributes content => exact absurd h.self id
  | attr name value => exact absurd h.self id

theorem lowerAll_eq_self (items : List Template)
    (h : ∀ item ∈ items, item.Throughout IsWrittenOut) : lowerAll items = items := by
  cases items with
  | nil => rfl
  | cons item rest =>
    obtain ⟨hitem, hrest⟩ := List.forall_mem_cons.mp h
    rw [lowerAll, lower_eq_self item hitem, lowerAll_eq_self rest hrest]

theorem lowerOption_eq_self (item? : Option Template)
    (h : ∀ item ∈ item?, item.Throughout IsWrittenOut) : lowerOption item? = item? := by
  cases item? with
  | none => rfl
  | some item => rw [lowerOption, lower_eq_self item (h item rfl)]

end

theorem ofItems_eq_sequence {items : List Template} (h : items.length ≠ 1) :
    ofItems items = .sequence items := by
  unfold ofItems
  split
  next item => exact absurd rfl h
  next => rfl

theorem IsFlat.isWrittenOut {template : Template} (h : template.IsFlat) :
    template.IsWrittenOut := by
  cases template with
  | sequence items => trivial
  | _ => exact h

mutual

theorem flatten_eq_self (template : Template) (h : template.Throughout IsFlat) :
    template.flatten = template := by
  cases template with
  | static markup => rfl
  | dynamic var => rfl
  | sequence parts =>
    obtain ⟨hflat, hparts⟩ := throughout_sequence.mp h
    rw [flatten, flattenAll_eq_self parts fun part hpart =>
      ⟨hparts part hpart, hflat.not_isSequence part hpart⟩]
    exact ofItems_eq_sequence hflat.length_ne_one
  | choice condition yes no =>
    obtain ⟨-, hyes, hno⟩ := throughout_choice.mp h
    rw [flatten, flatten_eq_self yes hyes, flattenOption_eq_self no hno]
  | block repetition body => rw [flatten, flatten_eq_self body (throughout_block.mp h).2]
  | element name attributes content => exact absurd h.self id
  | attr name value => exact absurd h.self id

theorem flattenAll_eq_self (parts : List Template)
    (h : ∀ part ∈ parts, part.Throughout IsFlat ∧ ¬part.IsSequence) :
    flattenAll parts = parts := by
  cases parts with
  | nil => rfl
  | cons part rest =>
    obtain ⟨⟨hpart, hsequence⟩, hrest⟩ := List.forall_mem_cons.mp h
    rw [flattenAll, flatten_eq_self part hpart, items_of_not_isSequence hsequence,
      flattenAll_eq_self rest hrest, List.singleton_append]

theorem flattenOption_eq_self (item? : Option Template)
    (h : ∀ item ∈ item?, item.Throughout IsFlat) : flattenOption item? = item? := by
  cases item? with
  | none => rfl
  | some item => rw [flattenOption, flatten_eq_self item (h item rfl)]

end

/-- Items that are joined already are put in front of each other as they are. -/
theorem consMerged_eq_cons {item : Template} {rest : List Template}
    (h : AreJoined (item :: rest)) : consMerged item rest = item :: rest := by
  obtain ⟨hempty, hnext, -⟩ := areJoined_cons_iff.mp h
  unfold consMerged
  split
  next markup =>
    have hne : markup ≠ "" := by simpa using hempty
    rw [if_neg (by simpa using hne)]
    split
    next next rest => exact absurd ⟨trivial, trivial⟩ (hnext _ rfl)
    next => rfl
  next => rfl

mutual

theorem merge_eq_self (template : Template) (h : template.Throughout IsNormal) :
    template.merge = template := by
  cases template with
  | static markup => rfl
  | dynamic var => rfl
  | sequence parts =>
    obtain ⟨⟨hflat, hjoined⟩, hparts⟩ := throughout_sequence.mp h
    rw [merge, mergeAll_eq_self parts hparts hjoined, ofItems_eq_sequence hflat.length_ne_one]
  | choice condition yes no =>
    obtain ⟨-, hyes, hno⟩ := throughout_choice.mp h
    rw [merge, merge_eq_self yes hyes, mergeOption_eq_self no hno]
  | block repetition body => rw [merge, merge_eq_self body (throughout_block.mp h).2]
  | element name attributes content => exact absurd h.self id
  | attr name value => exact absurd h.self id

theorem mergeAll_eq_self (parts : List Template) (h : ∀ part ∈ parts, part.Throughout IsNormal)
    (hjoined : AreJoined parts) : mergeAll parts = parts := by
  cases parts with
  | nil => rfl
  | cons part rest =>
    obtain ⟨hpart, hrest⟩ := List.forall_mem_cons.mp h
    rw [mergeAll, merge_eq_self part hpart,
      mergeAll_eq_self rest hrest (areJoined_cons_iff.mp hjoined).2.2]
    exact consMerged_eq_cons hjoined

theorem mergeOption_eq_self (item? : Option Template)
    (h : ∀ item ∈ item?, item.Throughout IsNormal) : mergeOption item? = item? := by
  cases item? with
  | none => rfl
  | some item => rw [mergeOption, merge_eq_self item (h item rfl)]

end

theorem IsNormal.isFlat {template : Template} (h : template.IsNormal) : template.IsFlat := by
  cases template with
  | sequence items => exact h.1
  | _ => exact h

/-- A template in normal form is what all passes leave as it is. -/
theorem optimize_eq_self {template : Template} (h : template.Throughout IsNormal) :
    template.optimize = template := by
  have hflat : template.Throughout IsFlat := h.imp IsNormal.isFlat
  have hwritten : template.Throughout IsWrittenOut := hflat.imp IsFlat.isWrittenOut
  rw [optimize, lower_eq_self template hwritten, flatten_eq_self template hflat,
    merge_eq_self template h]

theorem throughout_optimize (template : Template) : template.optimize.Throughout IsNormal :=
  throughout_merge _ (throughout_flatten _ (throughout_lower template))

-- ---------------------------------------------------------------------------
-- Templates without values, choices and repetitions
-- ---------------------------------------------------------------------------

mutual

theorem throughout_lower_of_isFixed (template : Template) (h : template.Throughout IsFixed) :
    template.lower.Throughout IsFixed := by
  cases template with
  | static markup => exact h
  | dynamic var => exact absurd h.self id
  | sequence items =>
    exact throughout_sequence.mpr
      ⟨trivial, throughout_lowerAll_of_isFixed items (throughout_sequence.mp h).2⟩
  | choice condition yes no => exact absurd h.self id
  | block repetition body => exact absurd h.self id
  | element name attributes content =>
    obtain ⟨-, hattributes, hcontent⟩ := throughout_element.mp h
    have hattributes := throughout_lower_of_isFixed attributes hattributes
    have hcontent := throughout_lower_of_isFixed content hcontent
    cases hvoid : Markup.isVoid name <;> simp [lower, hvoid, IsFixed, hattributes, hcontent]
  | attr name value =>
    have hvalue := throughout_lower_of_isFixed value (throughout_attr.mp h).2
    simp [lower, IsFixed, hvalue]

theorem throughout_lowerAll_of_isFixed (items : List Template)
    (h : ∀ item ∈ items, item.Throughout IsFixed) :
    ∀ item ∈ lowerAll items, item.Throughout IsFixed := by
  cases items with
  | nil => simp [lowerAll]
  | cons item rest =>
    obtain ⟨hitem, hrest⟩ := List.forall_mem_cons.mp h
    rw [lowerAll, List.forall_mem_cons]
    exact ⟨throughout_lower_of_isFixed item hitem, throughout_lowerAll_of_isFixed rest hrest⟩

end

theorem items_ofItems (items : List Template) (h : ∀ item ∈ items, ¬item.IsSequence) :
    (ofItems items).items = items := by
  unfold ofItems
  split
  next item => exact items_of_not_isSequence (h item List.mem_cons_self)
  next => rfl

theorem IsStatic.not_isSequence {template : Template} (h : template.IsStatic) :
    ¬template.IsSequence := by
  cases template with
  | static markup => exact id
  | _ => exact absurd h id

mutual

/-- What is fixed and written out is a list of texts, once its sequences are taken apart. -/
theorem isStatic_flatten (template : Template) (hfixed : template.Throughout IsFixed)
    (hwritten : template.Throughout IsWrittenOut) :
    ∀ item ∈ template.flatten.items, item.IsStatic := by
  cases template with
  | static markup => exact List.forall_mem_singleton.mpr trivial
  | dynamic var => exact absurd hfixed.self id
  | sequence parts =>
    have hparts := isStatic_flattenAll parts (throughout_sequence.mp hfixed).2
      (throughout_sequence.mp hwritten).2
    rw [flatten, items_ofItems _ fun item hitem => (hparts item hitem).not_isSequence]
    exact hparts
  | choice condition yes no => exact absurd hfixed.self id
  | block repetition body => exact absurd hfixed.self id
  | element name attributes content => exact absurd hwritten.self id
  | attr name value => exact absurd hwritten.self id

theorem isStatic_flattenAll (parts : List Template)
    (hfixed : ∀ part ∈ parts, part.Throughout IsFixed)
    (hwritten : ∀ part ∈ parts, part.Throughout IsWrittenOut) :
    ∀ item ∈ flattenAll parts, item.IsStatic := by
  cases parts with
  | nil => simp [flattenAll]
  | cons part rest =>
    obtain ⟨hfixed, hrest⟩ := List.forall_mem_cons.mp hfixed
    obtain ⟨hwritten, hrest'⟩ := List.forall_mem_cons.mp hwritten
    rw [flattenAll, List.forall_mem_append]
    exact ⟨isStatic_flatten part hfixed hwritten, isStatic_flattenAll rest hrest hrest'⟩

end

theorem isStatic_mergeAll {items : List Template} (h : ∀ item ∈ items, item.IsStatic) :
    ∀ item ∈ mergeAll items, item.IsStatic := by
  induction items with
  | nil => simp [mergeAll]
  | cons item rest ih =>
    obtain ⟨hitem, hrest⟩ := List.forall_mem_cons.mp h
    refine forall_mem_consMerged (fun _ => trivial) ?_ (ih hrest)
    cases item with
    | static markup => trivial
    | _ => exact absurd hitem id

/-- Joined texts are one text at most. -/
theorem AreJoined.eq_nil_or_singleton {items : List Template} (h : AreJoined items)
    (hstatic : ∀ item ∈ items, item.IsStatic) :
    items = [] ∨ ∃ markup, items = [.static markup] := by
  match items with
  | [] => exact .inl rfl
  | [item] =>
    cases item with
    | static markup => exact .inr ⟨markup, rfl⟩
    | _ => exact absurd (hstatic _ List.mem_cons_self) id
  | first :: second :: rest =>
    refine absurd ⟨?_, ?_⟩ ((areJoined_cons_iff.mp h).2.1 second rfl)
    · exact hstatic first (by simp)
    · exact hstatic second (by simp)

theorem optimize_eq_of_isFixed {template : Template} (h : template.Throughout IsFixed) :
    (∃ markup, template.optimize = .static markup) ∨ template.optimize = .empty := by
  have hwritten := throughout_lower template
  have hstatic :=
    isStatic_flatten template.lower (throughout_lower_of_isFixed template h) hwritten
  have hflat := throughout_flatten template.lower hwritten
  rw [optimize]
  generalize template.lower.flatten = flat at hstatic hflat ⊢
  cases flat with
  | static markup => exact .inl ⟨markup, rfl⟩
  | sequence items =>
    have hjoined := (throughout_mergeAll items (throughout_items hflat)).2
    obtain hnil | ⟨markup, hone⟩ := hjoined.eq_nil_or_singleton (isStatic_mergeAll hstatic)
    · exact .inr (by rw [merge, hnil]; rfl)
    · exact .inl ⟨markup, by rw [merge, hone]; rfl⟩
  | _ => exact absurd (hstatic _ List.mem_cons_self) id

/-- The passes reach the normal form. They leave it as it is, so that preparing a template
    twice is no different from preparing it once, and without values, choices and
    repetitions nothing but one text is left of a template. -/
theorem optimize_normal (template : Template) :
    template.optimize.Throughout IsNormal ∧
      template.optimize.optimize = template.optimize ∧
      (template.Throughout IsFixed →
        (∃ markup, template.optimize = .static markup) ∨ template.optimize = .empty) :=
  ⟨throughout_optimize template, optimize_eq_self (throughout_optimize template),
    optimize_eq_of_isFixed⟩

end HtmlTemplate.Template
