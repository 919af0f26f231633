-- SUMMARY: Forests of which nothing is left out, with attributes of different names.
import HtmlTemplate.Proofs.Html.Readable
import HtmlTemplate.Proofs.Html.Written

/-!
# Tidy forests

A tree takes over a tidy forest as it is: there are no comments, no instructions and no blank
texts in it, and on no element two attributes of one name. Readable forests are tidy.
-/

namespace HtmlTemplate.Html

mutual

/-- Nothing is left out of the node, and it has attributes of different names. -/
def Node.IsTidy : Node → Prop
  | .element _ _ attributes children =>
    (attributes.map Attribute.writtenName).Nodup ∧ AreTidy children
  | .text content => isBlankText content = false
  | _ => False

def AreTidy : Forest → Prop
  | [] => True
  | node :: rest => node.IsTidy ∧ AreTidy rest

end

-- ---------------------------------------------------------------------------
-- What is tidy
-- ---------------------------------------------------------------------------

theorem areTidy_content {name : String} {children : Forest}
    (h : isReadableContent name children = true) : AreTidy children := by
  unfold isReadableContent at h
  split at h
  · trivial
  · simp only [isReadableText, Bool.and_eq_true, Bool.not_eq_true'] at h
    exact ⟨h.1.1, trivial⟩
  · cases h

theorem IsReadableTag.nodup {stack : List OpenElement} {ns name : String}
    {attributes : List Attribute} (h : IsReadableTag stack ns name attributes) :
    (attributes.map Attribute.writtenName).Nodup := by
  have hdistinct := h.distinct
  rw [labels, List.map_map, List.map_map] at hdistinct
  exact List.Nodup.of_map asciiLower (by rw [List.map_map]; exact hdistinct)

mutual

theorem Node.isTidy_of_readable {stack : List OpenElement} {node : Node}
    (h : node.IsReadable stack) : node.IsTidy := by
  cases node with
  | element ns name attributes children =>
    obtain ⟨htag, hadmits⟩ := h
    refine ⟨htag.nodup, ?_⟩
    cases hholding : holding ns name <;> rw [hholding] at hadmits
    case void | nothing | template =>
      obtain rfl : children = [] := hadmits
      trivial
    case text => exact areTidy_content hadmits
    case nodes => exact areTidy_of_readable hadmits
  | text content =>
    have hreadable := h.1
    simp only [isReadableText, Bool.and_eq_true, Bool.not_eq_true'] at hreadable
    exact hreadable.1
  | comment | instruction | doctype => exact h.elim

theorem areTidy_of_readable {stack : List OpenElement} {nodes : Forest}
    (h : AreReadable stack nodes) : AreTidy nodes := by
  cases nodes with
  | nil => trivial
  | cons node rest => exact ⟨Node.isTidy_of_readable h.1, areTidy_of_readable h.2.2⟩

end

mutual

theorem Node.isTidy_of_bare {node : Node} (h : node.bare.IsTidy) : node.IsTidy := by
  cases node with
  | element ns name attributes children =>
    refine ⟨?_, areTidy_of_bareAll h.2⟩
    have hnodup := h.1
    rwa [List.map_map] at hnodup
  | text | comment | instruction | doctype => exact h

theorem areTidy_of_bareAll {nodes : Forest} (h : AreTidy (bareAll nodes)) :
    AreTidy nodes := by
  cases nodes with
  | nil => trivial
  | cons node rest => exact ⟨Node.isTidy_of_bare h.1, areTidy_of_bareAll h.2⟩

end

-- ---------------------------------------------------------------------------
-- Trees of tidy forests
-- ---------------------------------------------------------------------------

theorem nodup_labelled {attributes : List Attribute}
    (h : (attributes.map Attribute.writtenName).Nodup) :
    (attributes.map fun attr => (attr.ns, attr.writtenName)).Nodup := by
  refine List.Nodup.of_map Prod.snd ?_
  rwa [List.map_map]

mutual

theorem Node.hasDistinctAttributes_of_tidy {node : Node} (h : node.IsTidy) :
    node.HasDistinctAttributes := by
  cases node with
  | element ns name attributes children =>
    exact ⟨nodup_labelled h.1, haveDistinctAttributes_of_tidy h.2⟩
  | text | comment | instruction | doctype => trivial

theorem haveDistinctAttributes_of_tidy {nodes : Forest} (h : AreTidy nodes) :
    HaveDistinctAttributes nodes := by
  cases nodes with
  | nil => trivial
  | cons node rest =>
    exact ⟨Node.hasDistinctAttributes_of_tidy h.1, haveDistinctAttributes_of_tidy h.2⟩

end

theorem attributesMarkup_written (attributes : List Attribute) :
    attributesMarkup (attributes.map Attribute.written) = attributesMarkup attributes := by
  rw [attributesMarkup, List.map_map]
  rfl

mutual

theorem Node.markup_kept (raw : Bool) {node : Node} (h : node.IsTidy) :
    forestMarkup raw (node.kept {}) = node.markup raw := by
  cases node with
  | element ns name attributes children =>
    rw [Node.kept, forestMarkup, forestMarkup, Node.markup, Node.markup, attributesMarkup_written,
      forestMarkup_keptAll _ h.2, String.append_empty]
  | text content =>
    have hblank : isBlankText content = false := h
    rw [Node.kept, if_pos (by rw [hblank]; rfl), forestMarkup, forestMarkup, String.append_empty]
  | comment | instruction | doctype => exact h.elim

/-- All of a tidy forest is kept. -/
theorem forestMarkup_keptAll (raw : Bool) {nodes : Forest} (h : AreTidy nodes) :
    forestMarkup raw (keptAll {} nodes) = forestMarkup raw nodes := by
  cases nodes with
  | nil => rfl
  | cons node rest =>
    rw [keptAll, forestMarkup_append, forestMarkup, Node.markup_kept raw h.1,
      forestMarkup_keptAll raw h.2]

end

mutual

theorem Node.markup_bare (raw : Bool) (node : Node) :
    node.bare.markup raw = node.markup raw := by
  cases node with
  | element ns name attributes children =>
    rw [Node.bare, Node.markup, Node.markup, attributesMarkup_bare,
      forestMarkup_bareAll _ children]
  | text | comment | instruction | doctype => rfl

theorem forestMarkup_bareAll (raw : Bool) (nodes : Forest) :
    forestMarkup raw (bareAll nodes) = forestMarkup raw nodes := by
  cases nodes with
  | nil => rfl
  | cons node rest =>
    rw [bareAll, forestMarkup, forestMarkup, node.markup_bare raw,
      forestMarkup_bareAll raw rest]

end

-- ---------------------------------------------------------------------------
-- Forests that are shown
-- ---------------------------------------------------------------------------

theorem haveDistinctAttributes_consJoined {node : Node} {rest : Forest}
    (h : HaveDistinctAttributes (consJoined node rest)) :
    node.HasDistinctAttributes ∧ HaveDistinctAttributes rest := by
  unfold consJoined at h
  split at h
  · exact ⟨trivial, trivial, h.2⟩
  · exact h

/-- All elements are shown, with the written names of their attributes. -/
theorem haveDistinctAttributes_of_shown {nodes : Forest}
    (h : HaveDistinctAttributes (shown nodes)) : HaveDistinctAttributes nodes := by
  unfold shown at h
  match nodes with
  | [] => trivial
  | .element ns name attributes children :: rest =>
    obtain ⟨⟨hnodup, hchildren⟩, hrest⟩ := haveDistinctAttributes_consJoined h
    refine ⟨⟨?_, haveDistinctAttributes_of_shown hchildren⟩, haveDistinctAttributes_of_shown hrest⟩
    refine nodup_labelled (List.Nodup.of_map (fun name => ("", name)) ?_)
    rw [List.map_map, List.map_map] at hnodup
    rw [List.map_map]
    exact hnodup
  | .text content :: rest =>
    refine ⟨trivial, haveDistinctAttributes_of_shown ?_⟩
    rw [keptAll, Node.kept] at h
    split at h
    · exact (haveDistinctAttributes_consJoined h).2
    · exact h
  | .doctype _ _ _ :: rest =>
    exact ⟨trivial, haveDistinctAttributes_of_shown (haveDistinctAttributes_consJoined h).2⟩
  | .comment _ :: rest | .instruction _ _ :: rest =>
    exact ⟨trivial, haveDistinctAttributes_of_shown h⟩

end HtmlTemplate.Html
