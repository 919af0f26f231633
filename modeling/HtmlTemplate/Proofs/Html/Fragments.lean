-- SUMMARY: Fragments whose markup is read again: what they are, and when the markup stays as it is.
import HtmlTemplate.Proofs.Html.Conforming
import HtmlTemplate.Proofs.Html.LineEnds
import HtmlTemplate.Proofs.Html.Rereading

/-!
# Fragments of markup

A fragment is read as the content of a body, by anything that reads documents and follows the
syntax of HTML. The markup of a fragment is one of the ways to write what the fragment shows,
with two losses: a carriage return, which a source text says by a reference, is read as a line
end, and a line feed right behind the start tag of a `pre`, a `listing` or a `textarea` as a
part of the tag. So the markup stays as it is exactly if it has neither.
-/

namespace HtmlTemplate.Html

variable {read : String → Forest}

/-- The forest that the markup of a fragment shows, with line feeds for line ends. -/
def shownFragment (read : String → Forest) (source : String) : Forest :=
  normalizedAll (shown (fragmentOf read source))

/-- The markup of the fragment says all that is in it but for line ends: all of it is readable
    in a body, and no foreign element is written like the HTML element of its name. -/
def IsReadableFragment (read : String → Forest) (source : String) : Prop :=
  AreReadable [.html "body", .html "html"] (shownFragment read source) ∧
    AreToldApart (shownFragment read source)

instance (read : String → Forest) (source : String) : Decidable (IsReadableFragment read source) :=
  inferInstanceAs (Decidable (_ ∧ _))

theorem FollowsSyntax.fragmentOf_withLineFeeds (h : FollowsSyntax read) (source : String) :
    fragmentOf read (withLineFeeds source) = fragmentOf read source := by
  have hbody : '\r' ∉ "<body>".toList := by decide
  have hsource : String.ofList (normalizeLineEnds ("<body>" ++ source).toList) =
      "<body>" ++ withLineFeeds source := by
    rw [String.toList_append, normalizeLineEnds_append_of_notMem hbody, String.ofList_append,
      String.ofList_toList, withLineFeeds]
  rw [fragmentOf, fragmentOf, ← h.lineEnds ("<body>" ++ source), hsource]

end HtmlTemplate.Html

namespace HtmlTemplate.Tree

open Html (Forest FollowsSyntax AreReadable AreTidy IsReadableFragment shownFragment withLineFeeds
  fragmentOf bareAll trimmedAll lostAll forestMarkup)
open Html.Syntax (Writes WritesText WritesContent textMarks startTag endTag)

variable {read : String → Forest}

/-- The markup of a fragment, for what reads documents. -/
def fragmentMarkup (read : String → Forest) (source : String) : String :=
  (ofFragmentBy read {} source).markup

/-- The markup of a readable fragment is that of the forest it shows, but for line ends. -/
theorem withLineFeeds_fragmentMarkup {source : String} (h : IsReadableFragment read source) :
    withLineFeeds (fragmentMarkup read source) = forestMarkup false (shownFragment read source) := by
  have hdistinct := Html.haveDistinctAttributes_of_normalizedAll
    (Html.haveDistinctAttributes_of_tidy (Html.areTidy_of_readable h.1))
  rw [fragmentMarkup, ofFragmentBy,
    markup_ofForest_shown (Html.haveDistinctAttributes_of_shown hdistinct), withLineFeeds,
    Html.normalizeLineEnds_forestMarkup h.1, String.ofList_toList]
  rfl

/-- Where a tidy forest is read, its markup is written again. -/
theorem fragmentMarkup_of_bareAll {source : String} {nodes : Forest} (htidy : AreTidy nodes)
    (h : bareAll (fragmentOf read source) = nodes) :
    fragmentMarkup read source = forestMarkup false nodes := by
  subst h
  have hread : AreTidy (fragmentOf read source) := Html.areTidy_of_bareAll htidy
  rw [fragmentMarkup, ofFragmentBy, markup_ofForest {} (Html.haveDistinctAttributes_of_tidy hread),
    Html.forestMarkup_keptAll false hread, Html.forestMarkup_bareAll]

/-- A readable forest is read from all that it is written with. -/
theorem fragmentMarkup_of_writes (hread : FollowsSyntax read) {nodes : Forest} {written : List Char}
    (h : AreReadable [.html "body", .html "html"] nodes)
    (hwrites : Writes false nodes written) :
    fragmentMarkup read (String.ofList written) = forestMarkup false nodes :=
  fragmentMarkup_of_bareAll (Html.areTidy_of_readable h) (hread.body nodes written h hwrites)

theorem fragmentMarkup_withLineFeeds (hread : FollowsSyntax read) (source : String) :
    fragmentMarkup read (withLineFeeds source) = fragmentMarkup read source := by
  rw [fragmentMarkup, fragmentMarkup, ofFragmentBy, ofFragmentBy, hread.fragmentOf_withLineFeeds]

/-- The markup of a readable fragment is, up to line ends, that of a forest, and is read as this
    forest without the line feeds that are left out. So it stays as it is exactly if it has no
    carriage return and no `pre`, `listing` or `textarea` begins with a line feed. -/
theorem fragmentMarkup_fragmentMarkup (hread : FollowsSyntax read) {source : String}
    (h : IsReadableFragment read source) :
    withLineFeeds (fragmentMarkup read source) = forestMarkup false (shownFragment read source) ∧
      fragmentMarkup read (fragmentMarkup read source) =
        forestMarkup false (trimmedAll (shownFragment read source)) ∧
      (fragmentMarkup read (fragmentMarkup read source) = fragmentMarkup read source ↔
        '\r' ∉ (fragmentMarkup read source).toList ∧ lostAll (shownFragment read source) = 0) := by
  have hmarkup := withLineFeeds_fragmentMarkup h
  have hagain : fragmentMarkup read (fragmentMarkup read source) =
      forestMarkup false (trimmedAll (shownFragment read source)) := by
    rw [← fragmentMarkup_of_writes hread (Html.areReadable_trimmedAll h.1)
      (Html.writes_forestMarkup h.1 h.2 false), String.ofList_toList, ← hmarkup,
      fragmentMarkup_withLineFeeds hread]
  refine ⟨hmarkup, hagain, ?_⟩
  -- Without carriage returns the markup is that of the forest, and only line feeds can be lost.
  have hkept (hnone : '\r' ∉ (fragmentMarkup read source).toList) :
      fragmentMarkup read (fragmentMarkup read source) = fragmentMarkup read source ↔
        lostAll (shownFragment read source) = 0 := by
    rw [Html.withLineFeeds_of_notMem hnone] at hmarkup
    rw [hagain, hmarkup]
    exact Html.markup_trimmedAll_eq_iff false _
  have hnone (heq : fragmentMarkup read (fragmentMarkup read source) = fragmentMarkup read source) :
      '\r' ∉ (fragmentMarkup read source).toList := by
    intro hmem
    rw [← heq, hagain] at hmem
    have hfed := (Html.sublist_markup_trimmedAll false _).subset hmem
    rw [← hmarkup, Html.toList_withLineFeeds] at hfed
    exact notMem_normalizeLineEnds _ hfed
  exact ⟨fun heq => ⟨hnone heq, (hkept (hnone heq)).mp heq⟩,
    fun hstays => (hkept hstays.1).mpr hstays.2⟩

/-- The line feed behind the tag of the text area is left out when the source is read, so none
    is left out of the markup. -/
theorem fragmentMarkup_fragmentMarkup_textarea :
    let source := "<p class=a>one &amp; two<table><tr><td>a<td>b</table><textarea>\nc</textarea>"
    FollowsSyntax Html.document ∧ IsReadableFragment Html.document source ∧
      '\r' ∉ (fragmentMarkup Html.document source).toList ∧
      lostAll (shownFragment Html.document source) = 0 ∧
      fragmentMarkup Html.document (fragmentMarkup Html.document source) =
        fragmentMarkup Html.document source := by
  intro source
  have hreadable : IsReadableFragment Html.document source := by decide +kernel
  have hnone : '\r' ∉ (fragmentMarkup Html.document source).toList := by decide +kernel
  have hlost : lostAll (shownFragment Html.document source) = 0 := by decide +kernel
  exact ⟨Html.document_followsSyntax, hreadable, hnone, hlost,
    (fragmentMarkup_fragmentMarkup Html.document_followsSyntax hreadable).2.2.mpr ⟨hnone, hlost⟩⟩

/-- A `pre` with a text. -/
def preformatted (content : String) : Forest :=
  [.element Html.Namespace.html.uri "pre" [] [.text content]]

/-- A `pre` may be written with a line feed behind its tag. -/
theorem writes_preformatted (content : String) (h : ∀ c ∈ content.toList, c ∉ textMarks) :
    Writes false (preformatted content) ("<pre>\n" ++ content ++ "</pre>").toList := by
  have htext : WritesContent false content.toList content.toList := WritesText.self h
  have hinside : Writes false [.text content] content.toList := by
    simpa using Writes.text htext (.nil false)
  have hvoid : Html.holding Html.Namespace.html.uri "pre" ≠ .void := by decide
  have hwrites : Writes false (preformatted content)
      (startTag "pre" [] ++ ('\n' :: content.toList ++ (endTag "pre" ++ []))) :=
    .element hvoid .nil hinside (.nil false)
  simpa [startTag, endTag] using hwrites

/-- Of two line feeds, one is lost when the source is read and the other when its markup is. -/
theorem fragmentMarkup_pre :
    let source := "<pre>\n\nx</pre>"
    FollowsSyntax Html.document ∧ ∀ read, FollowsSyntax read →
      fragmentMarkup read source = "<pre>\nx</pre>" ∧
      fragmentMarkup read (fragmentMarkup read source) = "<pre>x</pre>" ∧
      fragmentMarkup read (fragmentMarkup read source) ≠ fragmentMarkup read source := by
  intro source
  refine ⟨Html.document_followsSyntax, fun read hread => ?_⟩
  have hsource : fragmentMarkup read source = "<pre>\nx</pre>" :=
    fragmentMarkup_of_writes hread (by decide +kernel)
      (writes_preformatted "\nx" (by simp [textMarks]))
  have hmarkup : fragmentMarkup read "<pre>\nx</pre>" = "<pre>x</pre>" :=
    fragmentMarkup_of_writes hread (by decide +kernel)
      (writes_preformatted "x" (by simp [textMarks]))
  rw [hsource, hmarkup]
  exact ⟨rfl, rfl, by decide⟩

end HtmlTemplate.Tree
