-- SUMMARY: Forests as they are read again: without the line feeds that start tags leave out.
import HtmlTemplate.Proofs.Html.Written

/-!
# Line feeds that are left out

A line feed right behind the tag of a `pre`, a `listing` or a `textarea` is taken for a part of
the tag. Markup does not write it twice, so it is lost when the markup is read: `trimmedAll` is
the forest without these line feeds, and `lostAll` counts them.
-/

namespace HtmlTemplate.Html

/-- The nodes as they are read if a line feed in front of them is left out. -/
def afterLineFeed (skip : Bool) : Forest → Forest
  | .text content :: rest => .text (String.ofList (dropLineFeed skip content.toList)) :: rest
  | nodes => nodes

mutual

/-- The node without the line feeds that are left out in reading. -/
def Node.trimmed : Node → Node
  | .element ns name attributes children =>
    .element ns name attributes (afterLineFeed (skipsLineFeed ns name) (trimmedAll children))
  | node => node

def trimmedAll : Forest → Forest
  | [] => []
  | node :: rest => node.trimmed :: trimmedAll rest

end

/-- Whether the nodes begin with a line feed. -/
def startsWithLineFeed : Forest → Bool
  | .text content :: _ => content.toList.head? == some '\n'
  | _ => false

mutual

/-- How many line feeds of its markup are left out in reading. Of a void element nothing but
    the tag is written. -/
def Node.lost : Node → Nat
  | .element ns name _ children =>
    if Markup.isVoid name then 0
    else (if skipsLineFeed ns name && startsWithLineFeed children then 1 else 0) + lostAll children
  | _ => 0

def lostAll : Forest → Nat
  | [] => 0
  | node :: rest => node.lost + lostAll rest

end

-- ---------------------------------------------------------------------------
-- The length of the markup
-- ---------------------------------------------------------------------------

@[simp] theorem afterLineFeed_false (nodes : Forest) : afterLineFeed false nodes = nodes := by
  unfold afterLineFeed
  split
  · rw [dropLineFeed_false, String.ofList_toList]
  · rfl

theorem startsWithLineFeed_trimmedAll (nodes : Forest) :
    startsWithLineFeed (trimmedAll nodes) = startsWithLineFeed nodes := by
  cases nodes with
  | nil => rfl
  | cons node rest => cases node <;> rfl

/-- Where the nodes begin with no line feed, they are read as they are. -/
theorem afterLineFeed_eq {skip : Bool} {nodes : Forest}
    (h : (skip && startsWithLineFeed nodes) = false) : afterLineFeed skip nodes = nodes := by
  unfold afterLineFeed
  split
  · next content rest =>
    have hkept : dropLineFeed skip content.toList = content.toList := by
      cases hchars : content.toList with
      | nil => cases skip <;> rfl
      | cons c more =>
        refine dropLineFeed_of_ne ?_ more
        rw [startsWithLineFeed, hchars, Bool.and_eq_false_iff] at h
        exact h.imp_right fun hne => by simpa using hne
    rw [hkept, String.ofList_toList]
  · rfl

theorem text_lineFeed (raw : Bool) (content : List Char) :
    Markup.text raw (String.ofList ('\n' :: content)) =
      "\n" ++ Markup.text raw (String.ofList content) := by
  have hfirst : Markup.text raw "\n" = "\n" := by cases raw <;> rfl
  rw [← List.singleton_append, String.ofList_append, text_append]
  exact congrArg (· ++ _) hfirst

/-- A line feed that is left out is a character of the markup. -/
theorem markup_afterLineFeed (raw skip : Bool) (nodes : Forest) :
    forestMarkup raw nodes = (if skip && startsWithLineFeed nodes then "\n" else "") ++
      forestMarkup raw (afterLineFeed skip nodes) := by
  cases hstarts : skip && startsWithLineFeed nodes with
  | false =>
    rw [afterLineFeed_eq hstarts]
    exact String.empty_append.symm
  | true =>
    rw [Bool.and_eq_true] at hstarts
    obtain ⟨rfl, hstarts⟩ := hstarts
    unfold startsWithLineFeed at hstarts
    split at hstarts
    · next content rest =>
      obtain ⟨more, hmore⟩ := List.head?_eq_some_iff.mp (beq_iff_eq.mp hstarts)
      have hcontent : content = String.ofList ('\n' :: more) := by
        rw [← hmore, String.ofList_toList]
      have hread : afterLineFeed true (.text content :: rest) =
          .text (String.ofList more) :: rest := by
        rw [afterLineFeed, hmore]
        rfl
      rw [hread, hcontent, forestMarkup, forestMarkup, Node.markup, Node.markup, text_lineFeed,
        String.append_assoc, if_pos rfl]
    · cases hstarts

mutual

theorem Node.length_markup_trimmed (raw : Bool) (node : Node) :
    (node.trimmed.markup raw).length + node.lost = (node.markup raw).length := by
  cases node with
  | element ns name attributes children =>
    have hchildren := length_markup_trimmedAll (Markup.isRawText name) children
    have hfirst := congrArg String.length (markup_afterLineFeed (Markup.isRawText name)
      (skipsLineFeed ns name) (trimmedAll children))
    rw [startsWithLineFeed_trimmedAll, String.length_append, apply_ite String.length,
      show "\n".length = 1 from rfl, String.length_empty] at hfirst
    rw [Node.trimmed, Node.markup, Node.markup, Node.lost, Markup.element, Markup.element]
    split
    · rfl
    · simp only [String.length_append]
      omega
  | text | comment | instruction | doctype => rfl

/-- Each line feed that is left out is a character of the markup. -/
theorem length_markup_trimmedAll (raw : Bool) (nodes : Forest) :
    (forestMarkup raw (trimmedAll nodes)).length + lostAll nodes =
      (forestMarkup raw nodes).length := by
  cases nodes with
  | nil => rfl
  | cons node rest =>
    have hnode := node.length_markup_trimmed raw
    have hrest := length_markup_trimmedAll raw rest
    rw [trimmedAll, forestMarkup, forestMarkup, lostAll, String.length_append, String.length_append]
    omega

end

-- ---------------------------------------------------------------------------
-- What is left of the markup
-- ---------------------------------------------------------------------------

mutual

theorem Node.sublist_markup_trimmed (raw : Bool) (node : Node) :
    (node.trimmed.markup raw).toList.Sublist (node.markup raw).toList := by
  cases node with
  | element ns name attributes children =>
    have hchildren : (forestMarkup (Markup.isRawText name)
        (afterLineFeed (skipsLineFeed ns name) (trimmedAll children))).toList.Sublist
          (forestMarkup (Markup.isRawText name) children).toList := by
      refine .trans ?_ (sublist_markup_trimmedAll (Markup.isRawText name) children)
      rw [markup_afterLineFeed _ (skipsLineFeed ns name) (trimmedAll children),
        String.toList_append]
      exact List.sublist_append_right _ _
    rw [Node.trimmed, Node.markup, Node.markup, Markup.element, Markup.element]
    split
    · exact .refl _
    · simp only [String.toList_append]
      exact .append (.refl _) (.append (.append (.append hchildren (.refl _)) (.refl _)) (.refl _))
  | text | comment | instruction | doctype => exact .refl _

/-- Nothing is written for a forest without its line feeds but what is written for it anyway. -/
theorem sublist_markup_trimmedAll (raw : Bool) (nodes : Forest) :
    (forestMarkup raw (trimmedAll nodes)).toList.Sublist (forestMarkup raw nodes).toList := by
  cases nodes with
  | nil => exact .refl _
  | cons node rest =>
    rw [trimmedAll, forestMarkup, forestMarkup, String.toList_append, String.toList_append]
    exact .append (node.sublist_markup_trimmed raw) (sublist_markup_trimmedAll raw rest)

end

/-- The markup is that of the whole forest exactly if no line feed is left out. -/
theorem markup_trimmedAll_eq_iff (raw : Bool) (nodes : Forest) :
    forestMarkup raw (trimmedAll nodes) = forestMarkup raw nodes ↔ lostAll nodes = 0 := by
  have hlength := length_markup_trimmedAll raw nodes
  refine ⟨fun heq => ?_, fun hlost => ?_⟩
  · rw [heq] at hlength
    omega
  · rw [hlost, Nat.add_zero] at hlength
    exact String.toList_inj.mp ((sublist_markup_trimmedAll raw nodes).eq_of_length hlength)

end HtmlTemplate.Html
