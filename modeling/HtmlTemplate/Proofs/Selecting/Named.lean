-- SUMMARY: The classes and attributes that a selector asks for have names.
import HtmlTemplate.Proofs.Selecting.Readable

/-!
# Names in selectors

A tree keeps names in a table, and the empty text has a place in it. A selector that is
read asks for no class and no attribute by the empty text: the reader takes at least one
character for a name, and lower case leaves as many. `Selector.IsNamed` says so, down to
the tests inside of `:not()`.
-/

namespace HtmlTemplate.Selector

mutual

/-- The test asks for no class and no attribute without a name. -/
def Simple.IsNamed : Simple → Prop
  | .className name => name ≠ ""
  | .attr test => test.name ≠ ""
  | .not compound => AllNamed compound
  | .any | .tag _ | .id _ | .root | .empty | .position _ _ => True

def AllNamed : Compound → Prop
  | [] => True
  | test :: rest => test.IsNamed ∧ AllNamed rest

end

/-- All compounds of an alternative ask for names. -/
def Complex.IsNamed : Complex → Prop
  | .single subject => AllNamed subject
  | .combined left _ subject => left.IsNamed ∧ AllNamed subject

/-! ## What is read asks for names -/

theorem IsName.ne_empty {name : String} (h : IsName name) : name ≠ "" :=
  fun hempty => h.ne_nil (congrArg String.toList hempty)

mutual

theorem Simple.Readable.isNamed {test : Simple} (h : test.Readable) : test.IsNamed := by
  match test, h with
  | .className name, h => exact IsName.ne_empty h
  | .attr test, h => exact (AttributeTest.Readable.name h).ne_empty
  | .not compound, h => exact AllReadable.allNamed h.2.1
  | .any, _ | .tag _, _ | .id _, _ | .root, _ | .empty, _ | .position _ _, _ => trivial

theorem AllReadable.allNamed {compound : Compound} (h : AllReadable compound) :
    AllNamed compound := by
  match compound, h with
  | [], _ => trivial
  | test :: rest, h => exact ⟨Simple.Readable.isNamed h.1, AllReadable.allNamed h.2.2⟩

end

theorem Complex.Readable.isNamed {complex : Complex} (h : complex.Readable) : complex.IsNamed := by
  induction complex with
  | single subject => exact (h subject (List.mem_singleton_self _)).2.allNamed
  | combined left combinator subject ih =>
    rw [Complex.Readable, Complex.compounds, List.forall_mem_append] at h
    exact ⟨ih h.1, (h.2 subject (List.mem_singleton_self _)).2.allNamed⟩

/-- A selector that is read asks for names everywhere. -/
theorem isNamed_parse {text : String} {selector : Selector} (h : parse text = .ok selector) :
    ∀ complex ∈ selector, complex.IsNamed :=
  fun complex hcomplex => ((readable_parse h).2 complex hcomplex).isNamed

end HtmlTemplate.Selector
