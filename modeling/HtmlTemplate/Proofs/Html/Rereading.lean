-- SUMMARY: Reading what a readable forest is written with, as a forest behind the tag of a body.
import HtmlTemplate.Proofs.Html.Elements

/-!
# Reading what is written

What a readable forest is written with is read node by node. Each node comes behind those
before it, which is what `Builder.Passes` says of one node and `Builder.Reads` of nodes side
by side. So behind the tag of a body the forest is read as it was, whichever of the ways of
writing it has been taken.
-/

namespace HtmlTemplate.Html

open Selector (Stops stops_cons)
open Syntax (Writes WritesText textMarks)

namespace Builder

variable {b : Builder}

-- ---------------------------------------------------------------------------
-- Texts
-- ---------------------------------------------------------------------------

/-- What has to hold for a text to be read as one node: no text is in front of it, and no
    byte order mark is left out. -/
def Awaits (b : Builder) : Node → Prop
  | .text content =>
    b.draft.EndsClosed b.innermost ∧ (b.skipMark = true → content.toList.head? ≠ some '\uFEFF')
  | _ => True

/-- The characters of a text that may stand here are read as a text. -/
theorem Ready.foldl_text (h : b.Ready) (htexts : holdsTexts b.stack = true) {text : List Char}
    (hne : text ≠ []) (hplain : ∀ c ∈ text, Syntax.isPlain c = true) :
    ∃ allowed, (Lexer.characters text).foldl (·.process ·)
        ({ b with textMode := .markup, skipMark := false } : Builder) = { b.settled with
      draft := b.draft.putText b.innermost (dropLineFeed b.skipLineFeed text)
      framesetAllowed := allowed } := by
  let now : Builder := { b with textMode := .markup, skipMark := false }
  have hnow : now.Ready :=
    h.stays ⟨⟨h.textMode.symm, rfl, rfl, rfl, rfl⟩, rfl, rfl, rfl, rfl⟩ h.cells
  obtain ⟨allowed, hread⟩ :=
    foldl_characters (hnow.takesTexts htexts) hnow.cells hnow.nonempty hplain
  refine ⟨allowed, hread.trans ?_⟩
  rw [List.isEmpty_eq_false_iff.mpr hne, Bool.and_false, Builder.settled, h.textMode]
  rfl

/-- A text is read up to the next tag, as one node. -/
theorem Ready.reaches_text (h : b.Ready) {content : String}
    (hreadable : isReadableText content = true) (htexts : holdsTexts b.stack = true)
    (hawaits : b.Awaits (.text content)) {written rest : List Char}
    (hwritten : WritesText textMarks content.toList (dropLineFeed b.skipLineFeed written))
    (hrest : Stops (· != '<') rest) :
    ∃ later, Reaches b (written ++ rest) later rest ∧ b.Passes (.text content) later := by
  simp only [isReadableText, Bool.and_eq_true, Bool.not_eq_true'] at hreadable
  obtain ⟨hblank, -⟩ := hreadable
  obtain ⟨hclosed, hmark⟩ := hawaits
  obtain ⟨whole, hwhole, hdrop⟩ := exists_text_of_dropLineFeed (by decide) hwritten
  have hne : whole ≠ [] := by
    rintro rfl
    have hempty : content = "" := by
      rw [← String.toList_inj, ← hdrop]
      cases b.skipLineFeed <;> rfl
    rw [hempty] at hblank
    cases hblank
  have hfirst (hskip : b.skipMark = true) : written.head? ≠ some '\uFEFF' := by
    intro hhead
    obtain ⟨more, rfl⟩ := List.head?_eq_some_iff.mp hhead
    rw [dropLineFeed_of_ne (.inr (by decide))] at hwritten
    exact hmark hskip (hwritten.head?_eq (by decide))
  have hcut (foreign : Bool) : Lexer.step foreign b.textMode (written ++ rest) =
      (Lexer.characters whole, .markup, rest) := by
    rw [h.textMode, Lexer.step, Lexer.markup_text hwhole hne hrest]
  obtain ⟨allowed, hread⟩ :=
    h.foldl_text htexts hne (hwhole.allPlain (by decide) (by decide)).1
  rw [hdrop] at hread
  obtain ⟨top, outer, hstack, htop⟩ := h.exists_top
  have hopen := holdsOpen_putText h.cells (hstack ▸ List.mem_cons_self : top ∈ b.stack)
    content.toList
  rw [← htop] at hopen
  have hready : ({ b.settled with
      draft := b.draft.putText b.innermost content.toList
      framesetAllowed := allowed } : Builder).Ready :=
    h.stays ⟨⟨rfl, rfl, rfl, rfl, rfl⟩, rfl, rfl, rfl, rfl⟩ hopen
  refine ⟨_, .piece (hwhole.ne_nil hne) hfirst hcut hread, ?_⟩
  exact ⟨⟨rfl, receives_text h.innermost_lt hclosed hblank, hready⟩, rfl, by rintro ⟨⟩⟩

-- ---------------------------------------------------------------------------
-- Line feeds that are left out
-- ---------------------------------------------------------------------------

/-- In front of a tag, or where nothing is left, a line feed is left out by itself. -/
theorem Ready.reaches_lineFeed (h : b.Ready) (hskip : b.skipLineFeed = true) {rest : List Char}
    (hrest : Stops (· != '<') rest) : Reaches b ('\n' :: rest) b.settled rest := by
  have hwritten : WritesText textMarks ['\n'] ['\n'] := .plain (by decide) .nil
  have hcut (foreign : Bool) :
      Lexer.step foreign b.textMode (['\n'] ++ rest) = (Lexer.characters ['\n'], .markup, rest) := by
    rw [h.textMode, Lexer.step, Lexer.markup_text hwritten (List.cons_ne_nil _ _) hrest]
  have hread : (Lexer.characters ['\n']).foldl (·.process ·)
      ({ b with textMode := .markup, skipMark := false } : Builder) = b.settled := by
    show ({ b with textMode := .markup, skipMark := false } : Builder).process
      (.token (.character '\n')) = _
    rw [process, Builder.settled, h.textMode]
    simp only [hskip]
  exact .piece (List.cons_ne_nil _ _) (fun _ => by decide) hcut hread

/-- Whether or not a line feed is left out, what begins with a tag is read behind it. -/
theorem Ready.reaches_unfed (h : b.Ready) {text written rest : List Char}
    (htext : dropLineFeed b.skipLineFeed text = written)
    (hrest : Stops (· != '<') (written ++ rest)) :
    ∃ now : Builder, Reaches b (text ++ rest) now (written ++ rest) ∧ now.Ready ∧
      now.stack = b.stack ∧ now.draft = b.draft := by
  subst htext
  obtain ⟨hskip, heq⟩ | ⟨heq, -⟩ := dropLineFeed_cases b.skipLineFeed text
  · refine ⟨b.settled, ?_, h.settled, rfl, rfl⟩
    have hread := h.reaches_lineFeed hskip hrest
    rwa [← List.cons_append, ← heq] at hread
  · rw [heq]
    exact ⟨b, .refl _ _, h, rfl, rfl⟩

/-- What is left out in front of a text is left out of its characters. -/
theorem exists_of_dropLineFeed_append {skip : Bool} {text first second : List Char}
    (hne : first ≠ []) (h : dropLineFeed skip text = first ++ second) :
    ∃ more, text = more ++ second ∧ dropLineFeed skip more = first := by
  obtain ⟨rfl, heq⟩ | ⟨heq, hhead⟩ := dropLineFeed_cases skip text
  · exact ⟨'\n' :: first, by rw [heq, h, List.cons_append], rfl⟩
  · obtain ⟨c, more, rfl⟩ := List.exists_cons_of_ne_nil hne
    rw [heq] at h
    refine ⟨c :: more, h, dropLineFeed_of_ne ?_ more⟩
    cases skip with
    | false => exact .inl rfl
    | true => exact .inr fun hc => hhead rfl (by rw [h, hc]; rfl)

-- ---------------------------------------------------------------------------
-- Nodes side by side
-- ---------------------------------------------------------------------------

theorem Reads.innermost_eq {nodes : Forest} {later : Builder} (h : b.Reads nodes later) :
    later.innermost = b.innermost := by
  rw [innermost, innermost, h.stack]

/-- What has been read behind a line feed that is left out. -/
theorem Reads.of_unfed {now later : Builder} {nodes : Forest} (h : now.Reads nodes later)
    (hstack : now.stack = b.stack) (hdraft : now.draft = b.draft) : b.Reads nodes later := by
  have hreceives := h.receives
  rw [hdraft, innermost, hstack] at hreceives
  exact ⟨h.stack.trans hstack, hreceives, h.ready⟩

/-- Behind a node there may be what may follow it. -/
theorem Passes.awaits (h : b.Ready) {node next : Node} {later : Builder}
    (hpasses : b.Passes node later) (hnode : node.IsReadable b.stack)
    (hnext : mayFollow node next = true) : later.Awaits next := by
  cases next with
  | text content =>
    cases node with
    | element ns name attributes children =>
      refine ⟨?_, fun hmark => ?_⟩
      · rw [hpasses.innermost_eq]
        exact Draft.endsClosed_of_receives h.innermost_lt hpasses.receives
      · have hscript : name = "script" := beq_iff_eq.mp (hpasses.skipMark hmark)
        subst hscript
        simpa [mayFollow] using hnext
    | text => cases hnext
    | comment | instruction | doctype => exact hnode.elim
  | element | comment | instruction | doctype => trivial

/-- What is written is read as the nodes wherever they may stand. A line feed in front of it that
    is left out does not count. -/
def ReadsAs (written : List Char) (nodes : Forest) : Prop :=
  ∀ (b : Builder) (text rest : List Char), b.Ready → AreReadable b.stack nodes →
    (∀ node ∈ nodes.head?, b.Awaits node) → dropLineFeed b.skipLineFeed text = written →
    Stops (· != '<') rest →
    ∃ later, Reaches b (text ++ rest) later rest ∧ b.Reads nodes later

/-- Behind a node that has been read, the nodes that follow it are read. -/
theorem Passes.reaches_more (h : b.Ready) {node : Node} {nodes : Forest} {middle : Builder}
    (hpasses : b.Passes node middle) (hnodes : AreReadable b.stack (node :: nodes))
    {more rest : List Char} (hmore : ReadsAs more nodes) (hrest : Stops (· != '<') rest) :
    ∃ later, Reaches middle (more ++ rest) later rest ∧ b.Reads (node :: nodes) later := by
  obtain ⟨hnode, hnext, hnodes⟩ := hnodes
  have hawaits (next : Node) (hhead : next ∈ nodes.head?) : middle.Awaits next :=
    hpasses.awaits h hnode (by rwa [Option.mem_def.mp hhead] at hnext)
  have htext : dropLineFeed middle.skipLineFeed more = more := by
    rw [hpasses.skipLineFeed, dropLineFeed_false]
  obtain ⟨later, hreaches, hreads⟩ :=
    hmore middle more rest hpasses.ready (hpasses.stack ▸ hnodes) hawaits htext hrest
  have hreceives := hreads.receives
  rw [hpasses.innermost_eq] at hreceives
  exact ⟨later, hreaches, hreads.stack.trans hpasses.stack,
    hpasses.receives.append h.innermost_lt hreceives, hreads.ready⟩

theorem readsAs_nil : ReadsAs [] [] := by
  intro b text rest h _ _ htext hrest
  obtain ⟨now, hreaches, hnow, hstack, hdraft⟩ := h.reaches_unfed htext hrest
  have hreads : now.Reads [] now := ⟨rfl, .nil _ _, hnow⟩
  exact ⟨now, hreaches, hreads.of_unfed hstack hdraft⟩

/-- What stands behind a text is no text that could be taken for a part of it. -/
theorem stops_writes {stack : List OpenElement} {content : String} {nodes : Forest}
    (h : AreReadable stack (.text content :: nodes)) {written : List Char}
    (hwritten : Writes false nodes written) {rest : List Char} (hrest : Stops (· != '<') rest) :
    Stops (· != '<') (written ++ rest) := by
  cases hwritten with
  | nil => exact hrest
  | text => cases h.2.1
  | void | element => exact stops_cons.mpr (by decide)

theorem readsAs_text {content : String} {nodes : Forest} {markup more : List Char}
    (hcontent : WritesText textMarks content.toList markup) (hwrites : Writes false nodes more)
    (hmore : ReadsAs more nodes) : ReadsAs (markup ++ more) (.text content :: nodes) := by
  intro b text rest h hnodes hawaits htext hrest
  have hne : markup ≠ [] := by
    refine hcontent.ne_nil ?_
    rintro hempty
    have hreadable := hnodes.1.1
    rw [isReadableText, isBlankText, hempty] at hreadable
    cases hreadable
  obtain ⟨first, rfl, hfirst⟩ := exists_of_dropLineFeed_append hne htext
  obtain ⟨middle, hreaches, hpasses⟩ := h.reaches_text hnodes.1.1 hnodes.1.2 (hawaits _ rfl)
    (hfirst ▸ hcontent) (stops_writes hnodes hwrites hrest)
  obtain ⟨later, hreaches', hreads⟩ := hpasses.reaches_more h hnodes hmore hrest
  rw [List.append_assoc]
  exact ⟨later, hreaches.trans hreaches', hreads⟩

/-- A node that begins with a tag is read in front of others as it is by itself. -/
theorem readsAs_tagged {node : Node} {nodes : Forest} {written more : List Char}
    (hfirst : written.head? = some '<')
    (hnode : ∀ b : Builder, b.Ready → node.IsReadable b.stack → ∀ rest,
      ∃ later, Reaches b (written ++ rest) later rest ∧ b.Passes node later)
    (hmore : ReadsAs more nodes) : ReadsAs (written ++ more) (node :: nodes) := by
  intro b text rest h hnodes _ htext hrest
  have hstops : Stops (· != '<') (written ++ more ++ rest) := by
    obtain ⟨inside, rfl⟩ := List.head?_eq_some_iff.mp hfirst
    exact stops_cons.mpr (by decide)
  obtain ⟨now, hunfed, hnow, hstack, hdraft⟩ := h.reaches_unfed htext hstops
  rw [← hstack] at hnodes
  obtain ⟨middle, hreaches, hpasses⟩ := hnode now hnow hnodes.1 (more ++ rest)
  obtain ⟨later, hreaches', hreads⟩ := hpasses.reaches_more hnow hnodes hmore hrest
  rw [List.append_assoc] at hunfed
  exact ⟨later, hunfed.trans (hreaches.trans hreaches'), hreads.of_unfed hstack hdraft⟩

/-- What an element is written with is read as the element, if what is inside is read as its
    children. -/
theorem Ready.reaches_element (h : b.Ready) {ns name : String} {attributes : List Attribute}
    {children : Forest} (hnode : (Node.element ns name attributes children).IsReadable b.stack)
    (hvoid : Html.holding ns name ≠ .void) {written inside : List Char}
    (hwritten : Syntax.WritesAttributes (labels attributes) written)
    (hwrites : Writes (isRaw ns name) children (dropLineFeed (skipsLineFeed ns name) inside))
    (hinside : isRaw ns name = false →
      ReadsAs (dropLineFeed (skipsLineFeed ns name) inside) children)
    (rest : List Char) :
    ∃ later, Reaches b (Syntax.startTag name written ++
        (inside ++ (Syntax.endTag name ++ rest))) later rest ∧
      b.Passes (.element ns name attributes children) later := by
  obtain ⟨htag, hadmits⟩ := hnode
  cases hholding : Html.holding ns name <;> rw [hholding] at hadmits
  case void => exact absurd hholding hvoid
  case nothing | template =>
    obtain rfl : children = [] := hadmits
    rw [skipsLineFeed_of_holding (by simp [hholding]), dropLineFeed_false] at hwrites
    cases hwrites
    first
    | exact h.reaches_nothing htag hholding hwritten rest
    | exact h.reaches_template htag hholding hwritten rest
  case text => exact h.reaches_textElement htag hholding hadmits hwritten hwrites rest
  case nodes =>
    refine h.reaches_nodesElement htag hholding hwritten
      (fun {middle} hmiddle hstack hclosed hmark hskips more => ?_) rest
    have hchildren : AreReadable middle.stack children := by
      rw [hstack, areReadable_under]
      exact hadmits
    refine hinside (isRaw_of_holding hholding) middle inside _ hmiddle hchildren (fun next _ => ?_)
      (by rw [hskips]) (Lexer.stops_endTag name more)
    cases next with
    | text content =>
      refine ⟨hclosed, fun hskip => ?_⟩
      rw [hmark] at hskip
      cases hskip
    | element | comment | instruction | doctype => trivial

/-- What a readable forest is written with is read as this forest. The induction is on the
    writing: for the nodes inside an element, it starts behind the tag of the element, where a
    line feed may be left out. -/
theorem readsAs_of_writes {raw : Bool} {nodes : Forest} {written : List Char}
    (hwrites : Writes raw nodes written) (hraw : raw = false) : ReadsAs written nodes := by
  induction hwrites with
  | nil => exact readsAs_nil
  | text hcontent hwrites ih =>
    subst hraw
    exact readsAs_text hcontent hwrites (ih rfl)
  | void hvoid hattributes _ ih =>
    exact readsAs_tagged rfl
      (fun b h hnode rest => h.reaches_void hnode.1 hvoid hattributes rest) (ih hraw)
  | @element raw ns name attributes children nodes written inside more hvoid hattributes hchildren
      _ ihchildren ihnodes =>
    have hread : ReadsAs
        (Syntax.startTag name written ++ (inside ++ Syntax.endTag name) ++ more)
        (.element ns name attributes children :: nodes) := by
      refine readsAs_tagged rfl (fun b h hnode rest => ?_) (ihnodes hraw)
      rw [List.append_assoc, List.append_assoc]
      exact h.reaches_element hnode hvoid hattributes hchildren ihchildren rest
    rwa [List.append_assoc, List.append_assoc] at hread

end Builder

-- ---------------------------------------------------------------------------
-- Behind the tag of a body
-- ---------------------------------------------------------------------------

/-- The state behind the tag of a body, where a fragment starts. -/
def atBody : Builder := {
  draft := ⟨#[{ content := .document, children := [1] },
    { content := .element .html "html" [], parent := some 0, children := [2, 3] },
    { content := .element .html "head" [], parent := some 1 },
    { content := .element .html "body" [], parent := some 1 }]⟩
  mode := .inBody
  old := true
  stack := [(OpenElement.html "body").under 3, (OpenElement.html "html").under 1]
  head := some ((OpenElement.html "head").under 2)
  framesetAllowed := false
  skipMark := false }

theorem process_body :
    ({ skipMark := false } : Builder).process (.token (.startTag (.plain "body"))) = atBody := by
  rfl

theorem atBody_ready : atBody.Ready where
  mode := rfl
  textMode := rfl
  templateModes := rfl
  old := rfl
  head := rfl
  fostering := rfl
  formatting := .skip (.skip .nil (by decide)) (by decide)
  form := rfl
  nonempty := nofun
  holding := by decide
  handles := by decide
  cells e he := by
    simp only [atBody, List.mem_cons, List.not_mem_nil, or_false] at he
    obtain rfl | rfl := he <;> exact ⟨_, rfl, rfl⟩

theorem reaches_body (rest : List Char) : Reaches {} ("<body>".toList ++ rest) atBody rest := by
  have hname : Syntax.isTagName "body" = true := by decide
  have hcut (foreign : Bool) : Lexer.step foreign .markup ("<body>".toList ++ rest) =
      ([.token (.startTag (.plain "body"))], .markup, rest) := by
    have hread : Lexer.markup foreign ("<body>".toList ++ rest) =
        ([.token (.startTag (.plain "body"))], rest) :=
      Lexer.markup_startTag hname .nil (List.forall_mem_nil _) .nil rest
    rw [Lexer.step, hread]
  exact .piece (by decide) (by decide) hcut process_body

/-- The end of the input changes nothing inside a body. -/
theorem process_endOfInput {b : Builder} (h : b.Ready) (hstack : b.stack = atBody.stack) :
    (b.process (.token .endOfInput)).draft = b.draft := by
  have hmode : b.mode = .inBody := by
    have hplain := h.mode
    rw [hstack] at hplain
    exact Mode.eq_of_plain hplain (by decide)
  have hforeign : ({ b with skipLineFeed := false } : Builder).isForeign .endOfInput = false := by
    rw [Builder.isForeign, hstack]
    rfl
  have hrule : ({ b with skipLineFeed := false } : Builder).rule .endOfInput =
      .done { b with skipLineFeed := false } := by
    rw [Builder.rule, hforeign, if_neg Bool.false_ne_true, Builder.modeRule, hmode]
    dsimp only
    rw [Builder.inBodyRule]
    exact if_pos (by rw [h.templateModes]; rfl)
  rw [Builder.process_token (.inr (by rintro ⟨⟩)) hrule]

/-- Behind the tag of the body, what a readable forest is written with puts the forest there. -/
theorem readWithin_body {nodes : Forest} (h : AreReadable [.html "body", .html "html"] nodes)
    {written : List Char} (hwrites : Writes false nodes written) {fuel : Nat}
    (hfuel : ("<body>".toList ++ written).length < fuel) :
    atBody.draft.Receives 3 nodes (readWithin fuel {} ("<body>".toList ++ written)).draft := by
  have hbody : AreReadable atBody.stack nodes := by
    rw [← areReadable_map_bare]
    exact h
  have hawaits (node : Node) (_ : node ∈ nodes.head?) : atBody.Awaits node := by
    cases node with
    | text content => exact ⟨by rintro _ _ _ ⟨⟩, by rintro ⟨⟩⟩
    | element | comment | instruction | doctype => trivial
  obtain ⟨later, hforest, hreads⟩ := Builder.readsAs_of_writes hwrites rfl atBody written []
    atBody_ready hbody hawaits (dropLineFeed_false _) (Selector.stops_nil _)
  rw [List.append_nil] at hforest
  obtain ⟨fuel', hleft, hread⟩ := ((reaches_body written).trans hforest).readWithin_eq hfuel
  obtain ⟨fuel', rfl⟩ : ∃ less, fuel' = less + 1 := ⟨fuel' - 1, by omega⟩
  have hlast : readWithin (fuel' + 1) later [] = later.process (.token .endOfInput) := by
    rw [readWithin]
    cases later.skipMark <;> rfl
  rw [hread, hlast, process_endOfInput hreads.ready hreads.stack]
  exact hreads.receives

/-- What the body holds is what has been put into it. -/
theorem forest_of_receives {later : Draft} {nodes : Forest}
    (h : atBody.draft.Receives 3 nodes later) :
    ∃ content, later.forest = [.element Namespace.html.uri "html" []
        [.element Namespace.html.uri "head" [] [], .element Namespace.html.uri "body" [] content]] ∧
      bareAll content = nodes := by
  obtain ⟨added, hadded, hholds⟩ := h.children
  have hsize : 4 ≤ later.size := h.size
  obtain ⟨depth, hdepth⟩ : ∃ depth, later.size = depth + 2 := ⟨later.size - 2, by omega⟩
  have hold (node : Nat) (hlt : node < 4) (hne : node ≠ 3) :
      later.get? node = atBody.draft.get? node := h.others node hlt hne
  have hroot : later.get? Draft.root = some { content := .document, children := [1] } :=
    hold 0 (by decide) (by decide)
  have hhtml : later.get? 1 = some
      { content := .element .html "html" [], parent := some 0, children := [2, 3] } :=
    hold 1 (by decide) (by decide)
  have hhead : later.get? 2 = some { content := .element .html "head" [], parent := some 1 } :=
    hold 2 (by decide) (by decide)
  have hbody : later.get? 3 = some
      { content := .element .html "body" [], parent := some 1, children := added } := hadded
  refine ⟨later.forestWithin depth added, ?_, ?_⟩
  · have hnil : later.forestWithin depth [] = [] := by cases depth <;> rfl
    rw [Draft.forest, Draft.children_of_get? hroot, show later.cells.size = depth + 2 from hdepth]
    simp [Draft.forestWithin, hhtml, hhead, hbody, hnil]
  · have hbound : later.size ≤ 4 + depth := by omega
    exact Draft.bareAll_forestWithin hholds hbound

-- ---------------------------------------------------------------------------
-- Whole documents
-- ---------------------------------------------------------------------------

theorem notMem_writesAttributes {attributes : List (String × String)}
    (h : ∀ pair ∈ attributes, isWritable pair = true) {written : List Char}
    (hwritten : Syntax.WritesAttributes attributes written) : '\r' ∉ written := by
  induction hwritten with
  | nil => exact List.not_mem_nil
  | @cons name value _ _ _ hvalue _ ih =>
    obtain ⟨hpair, hmore⟩ := List.forall_mem_cons.mp h
    have hname := notMem_of_isAttributeName (Bool.and_eq_true_iff.mp hpair).1
    have hwritten : '\r' ∉ _ := hvalue.notMem (by decide) (by decide)
    simp [hname, hwritten, ih hmore]

theorem notMem_writesContent {raw : Bool} {content : String} {written : List Char}
    (h : isReadableText content = true)
    (hwritten : Syntax.WritesContent raw content.toList written) : '\r' ∉ written := by
  rw [isReadableText, Bool.and_eq_true, List.all_eq_true] at h
  unfold Syntax.WritesContent at hwritten
  split at hwritten
  · rw [hwritten]
    exact fun hmem => ne_return_of_isPlain (h.2 _ hmem) rfl
  · exact hwritten.notMem (by decide) (by decide)

theorem eq_nil_of_writes {raw : Bool} {written : List Char} (h : Writes raw [] written) :
    written = [] := by
  cases h
  rfl

theorem notMem_writes_content {raw : Bool} {name : String} {children : Forest}
    (h : isReadableContent name children = true) {written : List Char}
    (hwrites : Writes raw children written) : '\r' ∉ written := by
  unfold isReadableContent at h
  split at h
  · cases hwrites
    exact List.not_mem_nil
  · cases hwrites with
    | text hcontent hnodes =>
      cases hnodes
      rw [List.append_nil]
      exact notMem_writesContent (Bool.and_eq_true_iff.mp h).1 hcontent
  · cases h

theorem notMem_of_dropLineFeed {skip : Bool} {text : List Char}
    (h : '\r' ∉ dropLineFeed skip text) : '\r' ∉ text := by
  obtain ⟨-, heq⟩ | ⟨heq, -⟩ := dropLineFeed_cases skip text
  · rw [heq, List.mem_cons, not_or]
    exact ⟨by decide, h⟩
  · rwa [heq] at h

/-- Of what a readable forest is written with, no line end is left to be made a line feed. -/
theorem notMem_writes {raw : Bool} {nodes : Forest} {written : List Char}
    (hwrites : Writes raw nodes written) {stack : List OpenElement}
    (h : AreReadable stack nodes) : '\r' ∉ written := by
  induction hwrites generalizing stack with
  | nil => exact List.not_mem_nil
  | text hcontent _ ih =>
    rw [List.mem_append, not_or]
    exact ⟨notMem_writesContent h.1.1 hcontent, ih h.2.2⟩
  | void _ hattributes _ ih =>
    obtain ⟨⟨htag, -⟩, -, hmore⟩ := h
    have hname := notMem_of_isTagName htag.isTagName
    have hwritten := notMem_writesAttributes htag.isWritable hattributes
    simp [Syntax.startTag, hname, hwritten, ih hmore]
  | @element raw ns name attributes children nodes written inside more _ hattributes hchildren _
      ihchildren ihnodes =>
    obtain ⟨⟨htag, hadmits⟩, -, hmore⟩ := h
    have hname := notMem_of_isTagName htag.isTagName
    have hwritten := notMem_writesAttributes htag.isWritable hattributes
    have hinside : '\r' ∉ dropLineFeed (skipsLineFeed ns name) inside := by
      cases hholding : holding ns name <;> rw [hholding] at hadmits
      case void | nothing | template =>
        obtain rfl : children = [] := hadmits
        rw [eq_nil_of_writes hchildren]
        exact List.not_mem_nil
      case text => exact notMem_writes_content hadmits hchildren
      case nodes => exact ihchildren hadmits
    simp [Syntax.startTag, Syntax.endTag, hname, hwritten, notMem_of_dropLineFeed hinside, ihnodes hmore]

/-- What the program reads documents with does so by the syntax of HTML. -/
theorem document_followsSyntax : FollowsSyntax document where
  lineEnds source := by
    have hagain := normalizeLineEnds_of_notMem (notMem_normalizeLineEnds source.toList)
    rw [document, document, readCharacters, readCharacters, String.toList_ofList, hagain]
  body nodes markup hnodes hwrites := by
    have hplain : '\r' ∉ "<body>".toList ++ markup := by
      rw [List.mem_append, not_or]
      exact ⟨by decide, notMem_writes hwrites hnodes⟩
    obtain ⟨content, hforest, hcontent⟩ :=
      forest_of_receives (readWithin_body hnodes hwrites (Nat.lt_succ_self _))
    have hread : document ("<body>" ++ String.ofList markup) =
        [.element Namespace.html.uri "html" [] [.element Namespace.html.uri "head" [] [],
          .element Namespace.html.uri "body" [] content]] := by
      have hbody : ("<body>" ++ String.ofList markup).toList = "<body>".toList ++ markup :=
        String.toList_append.trans (congrArg _ String.toList_ofList)
      rw [document, readCharacters, hbody, normalizeLineEnds_of_notMem hplain, hforest]
    rw [fragmentOf, hread]
    exact hcontent

end HtmlTemplate.Html
