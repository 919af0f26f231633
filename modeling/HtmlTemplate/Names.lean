-- SUMMARY: Tables of names: each text is stored once and stands under a number.

/-!
# Names

Names of elements and attributes come again and again in a document. A tree
keeps each of them once, in a table, and refers to it by its place there. The
empty text is always at place 0, and a number beyond the table stands for it,
too.

A table is kept twice: as the list of its texts, for going from a place to the
text, and as pairs of a text and its place, for going the other way.
-/

namespace HtmlTemplate

/-- The place of a name in a table. -/
structure NameId where
  index : Nat
deriving DecidableEq

/-- A table of names. -/
structure Names where
  entries : List String
  /-- The texts with their places. -/
  places : List (String × Nat)
  /-- Looking a text up leads to the first of the entries that is this text. -/
  lookup_places (text : String) : places.lookup text = entries.idxOf? text

namespace Names

/-- The place of the empty text. -/
def emptyId : NameId := ⟨0⟩

/-- The place of a text, if the table holds it. -/
def lookup? (names : Names) (text : String) : Option NameId :=
  (names.places.lookup text).map NameId.mk

/-- The text at a place. -/
def get (names : Names) (id : NameId) : String := names.entries.getD id.index ""

def size (names : Names) : Nat := names.entries.length

theorem lookup?_eq (names : Names) (text : String) :
    names.lookup? text = (names.entries.idxOf? text).map NameId.mk := by
  rw [lookup?, names.lookup_places]

theorem lookup?_eq_none {names : Names} {text : String} :
    names.lookup? text = none ↔ text ∉ names.entries := by
  rw [lookup?_eq, Option.map_eq_none_iff, List.idxOf?_eq_none_iff]

/-- The table with one text more, at the end. -/
def add (names : Names) (text : String) : Names where
  entries := names.entries ++ [text]
  places := names.places ++ [(text, names.size)]
  lookup_places other := by
    have hentries : (names.entries ++ [text]).idxOf? other =
        (names.entries.idxOf? other).or (([text].idxOf? other).map (· + names.size)) :=
      List.findIdx?_append
    rw [hentries, List.lookup_append, names.lookup_places, List.lookup_cons,
      List.idxOf?_singleton, BEq.comm]
    cases text == other <;> simp

/-- The place of a text, which is added at the end when the table lacks it. -/
def intern (names : Names) (text : String) : Names × NameId :=
  match names.lookup? text with
  | some id => (names, id)
  | none => (names.add text, ⟨names.size⟩)

/-- The table after one text after the other was interned. -/
def internEach (names : Names) (texts : List String) : Names :=
  texts.foldl (fun names text => (names.intern text).1) names

theorem lookup_zipIdx (texts : List String) (start : Nat) (text : String) :
    (texts.zipIdx start).lookup text = (texts.idxOf? text).map (start + ·) := by
  induction texts generalizing start with
  | nil => rfl
  | cons first texts ih =>
    rw [List.zipIdx_cons, List.lookup_cons, List.idxOf?_cons, BEq.comm, ih]
    cases first == text <;> simp [Function.comp_def, Nat.add_assoc, Nat.add_comm 1]

/-- The table of the given texts. -/
def ofList (texts : List String) : Names where
  entries := texts
  places := texts.zipIdx
  lookup_places text := by simp [lookup_zipIdx]

/-- Names that most documents use. -/
def common : List String :=
  ["html", "head", "body", "title", "div", "span", "p", "a", "img",
   "ul", "ol", "li", "table", "tr", "td", "th", "h1", "h2", "h3",
   "section", "article", "header", "footer", "nav", "main",
   "script", "style", "link", "meta", "br", "hr",
   "id", "class", "href", "src", "alt", "type", "name", "value"]

/-- The table that a tree starts with. -/
def initial : Names := ofList ("" :: common)

end Names

end HtmlTemplate
