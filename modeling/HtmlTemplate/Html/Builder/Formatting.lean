-- SUMMARY: Formatting elements: opening them again in a new block, and mending end tags that cross a block.
import HtmlTemplate.Html.Builder

/-!
# Formatting

Formatting such as `<b>` may be closed across blocks: in `<b><p>x</b>y`, the `x`
is bold and the `y` is not, and both are in the paragraph. What is open as
formatting is kept in a list of its own. `reopenFormatting` opens again what a
block has closed; `closeFormatting` takes an end tag apart that crosses a block.
-/

namespace HtmlTemplate.Html.Builder

open OpenElement (inScope bordersScope)

/-! ## The list of formatting -/

/-- Whether the entry is that of the node. -/
def isEntryOf (node : Handle) : FormatEntry → Bool
  | .marker => false
  | .element other _ => other == node

def isMarker : FormatEntry → Bool
  | .marker => true
  | .element _ _ => false

/-- The entries inside the innermost border. -/
def recentFormatting (b : Builder) : List FormatEntry := b.formatting.takeWhile (!isMarker ·)

/-- The latest formatting of a name inside the innermost border. -/
def findFormatting? (b : Builder) (name : String) : Option (Handle × Tag) :=
  b.recentFormatting.findSome? fun
    | .marker => none
    | .element node tag => if tag.name == name then some (node, tag) else none

def removeFormatting (b : Builder) (node : Handle) : Builder :=
  { b with formatting := b.formatting.filter (!isEntryOf node ·) }

/-- The same name and the same attributes, in any order. -/
def sameFormat (tag : Tag) : FormatEntry → Bool
  | .marker => false
  | .element _ other =>
    tag.name == other.name && tag.attributes.length == other.attributes.length &&
      tag.attributes.all fun pair => other.attributes.contains pair

/-- Remove the earliest entry that looks like a tag, if there are three already. -/
def dropFourth (tag : Tag) (recent : List FormatEntry) : List FormatEntry :=
  if (recent.countP (sameFormat tag)) < 3 then recent
  else (recent.reverse.eraseP (sameFormat tag)).reverse

/-- Open formatting, and note it. -/
def openFormatting (b : Builder) (tag : Tag) : Builder :=
  let recent := dropFourth tag b.recentFormatting
  let earlier := b.formatting.dropWhile (!isMarker ·)
  let b := b.openTag tag
  match b.stack with
  | element :: _ => { b with formatting := .element element.node tag :: (recent ++ earlier) }
  | [] => b

/-- Whether formatting stops the search for what is to be opened again. -/
def isOpenOrMarker (b : Builder) : FormatEntry → Bool
  | .marker => true
  | .element node _ => b.stack.any (·.node == node)

/-- Open again the formatting that has been closed by the end of a block. -/
def reopenFormatting (b : Builder) : Builder :=
  let closed := b.formatting.takeWhile (!b.isOpenOrMarker ·)
  let rest := b.formatting.drop closed.length
  closed.reverse.foldl (fun b entry =>
    match entry with
    | .marker => b
    | .element _ tag =>
      let b := b.openTag tag
      match b.stack with
      | element :: _ => { b with formatting := .element element.node tag :: b.formatting }
      | [] => b) { b with formatting := rest }

/-! ## End tags -/

/-- Close the innermost element of the name, unless a special element is open
    inside it. -/
def closeByName (b : Builder) (name : String) : Builder :=
  match b.stack.find? fun e => e.isNamed name || e.isOneOf specialNames with
  | some element =>
    if element.isNamed name then
      (b.impliedEndsExcept name).popThrough (·.node == element.node)
    else b
  | none => b

/-- Where the entry of the formatting that is closed goes. -/
inductive Bookmark where
  | inPlace
  | after (node : Handle)

/-- The state of a walk from a block out to the formatting around it. -/
structure Walk where
  builder : Builder
  last : Handle
  bookmark : Bookmark := .inPlace
  /-- Elements passed so far that stay open, the outermost first. -/
  kept : List OpenElement := []

/-- Pass the elements between the block and the formatting. Formatting among them
    is copied, at most three deep, and what was below the last copy is moved into
    the new one; all else is closed. -/
def walkOut (block : Handle) : Nat → List OpenElement → Walk → Walk
  | _, [], walk => walk
  | count, element :: outer, walk =>
    let b := walk.builder
    let entry := b.formatting.findSome? fun
      | .marker => none
      | .element node tag => if node == element.node then some tag else none
    match entry with
    | none => walkOut block (count + 1) outer walk
    | some tag =>
      if count ≥ 3 then
        walkOut block (count + 1) outer { walk with builder := b.removeFormatting element.node }
      else
        let (b, copy) := b.create .html tag.name (elementAttributes .html tag)
        let formatting := b.formatting.map fun entry =>
          if isEntryOf element.node entry then .element copy.node tag else entry
        let draft := b.draft.put (.lastIn copy.node) walk.last
        walkOut block (count + 1) outer
          { builder := { b with formatting, draft }
            last := copy.node
            bookmark := if walk.last == block then .after copy.node else walk.bookmark
            kept := copy :: walk.kept }

/-- Put an entry where the bookmark says and take out the entry it replaces. -/
def placeEntry (bookmark : Bookmark) (replaced : Handle) (entry : FormatEntry)
    (formatting : List FormatEntry) : List FormatEntry :=
  match bookmark with
  | .inPlace => formatting.map fun other => if isEntryOf replaced other then entry else other
  | .after node =>
    (formatting.flatMap fun other =>
      if isEntryOf node other then [entry, other] else [other]).filter (!isEntryOf replaced ·)

/-- One round of closing formatting; `none` when there is nothing left to do. -/
def closeFormattingOnce (b : Builder) (name : String) : Builder × Bool :=
  match b.findFormatting? name with
  | none => (b.closeByName name, false)
  | some (node, tag) =>
    let inner := b.stack.takeWhile (·.node != node)
    match b.stack.drop inner.length with
    | [] => (b.removeFormatting node, false)
    | _ :: outer =>
      if !inScope bordersScope (·.node == node) b.stack then (b, false)
      else match inner.reverse.find? (·.isOneOf specialNames) with
        | none => (({ b with stack := outer }).removeFormatting node, false)
        | some block =>
          let below := inner.takeWhile (·.node != block.node)
          let between := inner.drop (below.length + 1)
          let walk := walkOut block.node 0 between { builder := b, last := block.node }
          let b := walk.builder
          let b := match outer with
            | ancestor :: _ => { b with draft := b.draft.put (b.placeIn ancestor) walk.last }
            | [] => b
          let (b, copy) := b.create .html tag.name (elementAttributes .html tag)
          let draft := b.draft.moveChildren block.node copy.node
          let draft := draft.put (.lastIn block.node) copy.node
          let formatting :=
            placeEntry walk.bookmark node (.element copy.node tag) b.formatting
          ({ b with
              draft
              formatting
              stack := below ++ copy :: block :: (walk.kept.reverse ++ outer) }, true)

/-- Close formatting in at most so many rounds. -/
def closeFormattingWithin : Nat → Builder → String → Builder
  | 0, b, _ => b
  | rounds + 1, b, name =>
    match b.closeFormattingOnce name with
    | (b, true) => closeFormattingWithin rounds b name
    | (b, false) => b

/-- Close the latest formatting of a name. A block that is open inside it keeps a
    copy of it for what it holds already; eight rounds are made at most. -/
def closeFormatting (b : Builder) (name : String) : Builder :=
  match b.stack with
  | element :: _ =>
    if element.isNamed name && !(b.formatting.any (isEntryOf element.node)) then b.pop
    else closeFormattingWithin 8 b name
  | [] => b

/-- A link ends a link that is open. -/
def closeOpenLink (b : Builder) : Builder :=
  match b.findFormatting? "a" with
  | some (node, _) => ((b.closeFormatting "a").removeFormatting node).removeFromStack node
  | none => b

end HtmlTemplate.Html.Builder
