-- SUMMARY: The markup of an element against the markup of what is inside it.
import HtmlTemplate.Proofs.Escaping
import HtmlTemplate.Proofs.Tree.Below
import HtmlTemplate.Tree.Markup

/-!
# Elements from outside and from inside

The markup of an element is its open tag, what is inside it and its close tag. What is
inside can also be written apart, and then as if it stood in no element at all: the texts
right inside of a raw-text element are escaped there, while they are written as they are
inside of their tags. So the two agree just when these texts have no character that is
escaped.
-/

namespace HtmlTemplate

/-! ## Texts that are not changed by escaping -/

namespace Markup

/-- The text has no character that is escaped. -/
def IsPlain (text : String) : Prop := ∀ c ∈ text.toList, c ∉ ['&', '<', '>']

variable {text : String}

theorem textCharacter_of_not_mem {c : Char} (h : c ∉ ['&', '<', '>']) : textCharacter c = [c] :=
  ((textCharacter_cases c).resolve_left h).2

theorem IsPlain.escapedText_eq (h : IsPlain text) : escapedText text = text := by
  have hpieces : text.toList.flatMap textCharacter = text.toList.flatMap fun c => [c] :=
    List.flatMap_congr fun c hc => textCharacter_of_not_mem (h c hc)
  rw [escapedText, hpieces, List.flatMap_singleton', String.ofList_toList]

/-- A character that is escaped takes more room. -/
theorem lt_length_textCharacter {c : Char} (h : c ∈ ['&', '<', '>']) :
    1 < (textCharacter c).length := by
  simp only [List.mem_cons, List.not_mem_nil, or_false] at h
  rcases h with rfl | rfl | rfl <;> decide

/-- Escaping makes no text shorter, and leaves only plain ones as long as they are. -/
theorem length_escapedText (text : String) :
    text.length ≤ (escapedText text).length ∧
      ((escapedText text).length = text.length → IsPlain text) := by
  unfold escapedText IsPlain
  rw [String.length_ofList, ← String.length_toList]
  induction text.toList with
  | nil => simp
  | cons c rest ih =>
    obtain ⟨hle, hplain⟩ := ih
    rw [List.flatMap_cons, List.length_append, List.length_cons]
    by_cases hc : c ∈ ['&', '<', '>']
    · have hlt := lt_length_textCharacter hc
      exact ⟨by omega, fun heq => by omega⟩
    · rw [textCharacter_of_not_mem hc, List.length_singleton]
      refine ⟨by omega, fun heq => List.forall_mem_cons.mpr ⟨hc, hplain (by omega)⟩⟩

end Markup

/-! ## Branches in a raw-text element -/

namespace Branch

variable {names : Names}

/-- The branch is no text, or one that has no character that is escaped. -/
def IsPlain : Branch → Prop
  | .node _ (.text text) _ => Markup.IsPlain text
  | _ => True

theorem IsPlain.markup_eq {branch : Branch} (h : branch.IsPlain) :
    branch.markup names true = branch.markup names false := by
  obtain ⟨id, content, children⟩ := branch
  cases content with
  | text text => exact (Markup.IsPlain.escapedText_eq h).symm
  | _ => rfl

theorem length_markup (names : Names) (branch : Branch) :
    (branch.markup names true).length ≤ (branch.markup names false).length ∧
      ((branch.markup names false).length = (branch.markup names true).length →
        branch.IsPlain) := by
  obtain ⟨id, content, children⟩ := branch
  cases content with
  | text text => exact Markup.length_escapedText text
  | _ => exact ⟨Nat.le_refl _, fun _ => trivial⟩

theorem length_markupAll (names : Names) (branches : List Branch) :
    (markupAll names true branches).length ≤ (markupAll names false branches).length ∧
      ((markupAll names false branches).length = (markupAll names true branches).length →
        ∀ branch ∈ branches, branch.IsPlain) := by
  induction branches with
  | nil => exact ⟨Nat.le_refl _, fun _ => nofun⟩
  | cons branch rest ih =>
    obtain ⟨hle, hplain⟩ := branch.length_markup names
    obtain ⟨hle', hplain'⟩ := ih
    rw [markupAll, markupAll, String.length_append, String.length_append]
    refine ⟨by omega, fun heq => ?_⟩
    exact List.forall_mem_cons.mpr ⟨hplain (by omega), hplain' (by omega)⟩

/-- Branches side by side are written alike raw or not, if none has a text that escaping
    changes: no text gets shorter by it, so that differences do not make up for each other. -/
theorem markupAll_eq_iff {branches : List Branch} :
    markupAll names true branches = markupAll names false branches ↔
      ∀ branch ∈ branches, branch.IsPlain := by
  constructor
  · intro h
    exact (length_markupAll names branches).2 (congrArg String.length h.symm)
  · intro h
    induction branches with
    | nil => rfl
    | cons branch rest ih =>
      rw [List.forall_mem_cons] at h
      rw [markupAll, markupAll, h.1.markup_eq, ih h.2]

end Branch

/-! ## Branches of a tree -/

namespace Tree

variable {tree : Tree} {id : NodeId}

/-- A branch that may go as deep as the tree has nodes is whole. -/
theorem Linked.branchWithin_succ (h : tree.Linked tree.children) {top : NodeId}
    (htop : ∃ node, tree.get? top = some node) {above : List NodeId} {depth : Nat}
    (hpath : tree.Path top above id) (hdepth : tree.size ≤ above.length + depth) :
    tree.branchWithin (depth + 1) id = tree.branchWithin depth id := by
  induction depth generalizing above id with
  | zero => exact absurd (h.length_path_lt htop hpath) (Nat.not_lt.mpr hdepth)
  | succ depth ih =>
    rw [branchWithin, branchWithin]
    congr 1
    funext node
    refine congrArg (Branch.node id node.content) (List.filterMap_congr fun child hchild => ?_)
    refine ih (hpath.child hchild) ?_
    rw [List.length_cons]
    omega

/-- The branch of a node is made of the branches of its children. -/
theorem Linked.branch?_eq (h : tree.Linked tree.children) {node : Node}
    (hnode : tree.get? id = some node) :
    tree.branch? id = some (.node id node.content (tree.branches id)) := by
  unfold branch? branches
  cases hsize : tree.size with
  | zero => exact absurd (lt_of_get? hnode) (by omega)
  | succ depth =>
    rw [branchWithin, hnode, Option.map_some]
    refine congrArg (some <| Branch.node id node.content ·)
      (List.filterMap_congr fun child hchild => ?_)
    refine (h.branchWithin_succ ⟨node, hnode⟩ (.child .top hchild) ?_).symm
    rw [hsize, List.length_singleton]
    omega

/-- The markup of an element is made of the markup of the branches inside it. -/
theorem Linked.outerMarkup_element (h : tree.Linked tree.children) {element : Element}
    (helement : tree.element? id = some element) :
    tree.outerMarkup id = Markup.element (tree.name element.name.localName)
      (element.attributesMarkup tree.names)
      (Branch.markupAll tree.names (Markup.isRawText (tree.name element.name.localName))
        (tree.branches id)) := by
  obtain ⟨node, hnode, hcontent⟩ := Option.bind_eq_some_iff.mp helement
  cases hkind : node.content with
  | element found =>
    rw [hkind] at hcontent
    obtain rfl := Option.some.inj hcontent
    rw [outerMarkup, h.branch?_eq hnode, hkind]
    rfl
  | _ => rw [hkind] at hcontent; cases hcontent

/-- The branches inside of a node are plain if the texts among its children are. -/
theorem forall_isPlain_iff :
    (∀ branch ∈ tree.branches id, branch.IsPlain) ↔
      ∀ child ∈ tree.children id, ∀ node text, tree.get? child = some node →
        node.content = .text text → Markup.IsPlain text := by
  unfold branches
  cases hsize : tree.size with
  | zero =>
    refine iff_of_true (by simp [branchWithin]) fun child _ node text hnode _ => ?_
    exact absurd (lt_of_get? hnode) (by omega)
  | succ depth =>
    constructor
    · intro hplain child hchild node text hnode htext
      have hbranch : tree.branchWithin (depth + 1) child = some _ :=
        Option.map_eq_some_iff.mpr ⟨node, hnode, rfl⟩
      have hmem := hplain _ (List.mem_filterMap.mpr ⟨child, hchild, hbranch⟩)
      rwa [htext] at hmem
    · intro hplain branch hbranch
      obtain ⟨child, hchild, hbranch⟩ := List.mem_filterMap.mp hbranch
      obtain ⟨node, hnode, rfl⟩ := Option.map_eq_some_iff.mp hbranch
      cases htext : node.content with
      | text text => exact hplain child hchild node text hnode htext
      | _ => trivial

/-- The markup of an element that is not void is its open tag, the markup of what is inside
    it and its close tag, unless it is a raw-text element with a text right inside that has
    a character that is escaped; then it is something else. -/
theorem outerMarkup_eq_iff (tree : Tree) (hbuilt : tree.Built) :
    ∀ id element, tree.element? id = some element →
      let tag := tree.name element.name.localName
      Markup.isVoid tag = false →
        (tree.outerMarkup id = "<" ++ tag ++ element.attributesMarkup tree.names ++ ">" ++
            tree.innerMarkup id ++ "</" ++ tag ++ ">" ↔
          (Markup.isRawText tag = true → ∀ child ∈ tree.children id, ∀ node text,
            tree.get? child = some node → node.content = .text text →
              Markup.IsPlain text)) := by
  intro id element helement tag hvoid
  have houter : tree.outerMarkup id = "<" ++ tag ++ element.attributesMarkup tree.names ++ ">" ++
      Branch.markupAll tree.names (Markup.isRawText tag) (tree.branches id) ++ "</" ++ tag ++
        ">" := by
    rw [hbuilt.linked.outerMarkup_element helement, Markup.element,
      if_neg (Bool.eq_false_iff.mp hvoid)]
    simp only [String.append_assoc]
    rfl
  rw [houter, innerMarkup, String.append_left_inj, String.append_left_inj,
    String.append_left_inj, String.append_right_inj, ← forall_isPlain_iff]
  cases Markup.isRawText tag with
  | true => rw [Branch.markupAll_eq_iff]; simp
  | false => simp

/-- A style sheet, and after it a script whose text is escaped when it is written apart. -/
def rawTextTree : Tree :=
  let style := Tree.empty.createElement "style"
  let rule := style.1.create (.text "p + p")
  let script := rule.1.createElement "script"
  let test := script.1.create (.text "a < b")
  (((test.1.append root (some style.2)).append style.2 (some rule.2)).append root
    (some script.2)).append script.2 (some test.2)

theorem built_rawTextTree : rawTextTree.Built := by
  have hstyled := @Built.create _ (Built.empty.createElement "style") (.text "p + p") nofun
  have hcreated := @Built.create _ (hstyled.createElement "script") (.text "a < b") nofun
  have hstyle := hcreated.appendLeaf root ⟨1⟩ rfl rfl rfl (by decide)
  have hrule := hstyle.appendLeaf ⟨1⟩ ⟨2⟩ rfl rfl rfl (by decide)
  have hscript := hrule.appendLeaf root ⟨3⟩ rfl rfl rfl (by decide)
  exact hscript.appendLeaf ⟨3⟩ ⟨4⟩ rfl rfl rfl (by decide)

theorem outerMarkup_eq_iff_style :
    rawTextTree.Built ∧ rawTextTree.tag? ⟨1⟩ = some "style" ∧
      Markup.isVoid "style" = false ∧ Markup.isRawText "style" = true ∧
      rawTextTree.outerMarkup ⟨1⟩ = "<style>" ++ rawTextTree.innerMarkup ⟨1⟩ ++ "</style>" := by
  refine ⟨built_rawTextTree, rfl, by decide, by decide, ?_⟩
  have hiff := outerMarkup_eq_iff rawTextTree built_rawTextTree ⟨1⟩ _ rfl (by decide)
  refine hiff.mpr fun _ child hchild node text hnode htext => ?_
  obtain rfl : child = ⟨2⟩ := List.mem_singleton.mp hchild
  obtain rfl := Option.some.inj hnode
  obtain rfl := Content.text.inj htext
  simp [Markup.IsPlain]

/-- The text of a script is written raw inside of its tags and escaped without them. -/
theorem outerMarkup_script :
    rawTextTree.Built ∧ rawTextTree.tag? ⟨3⟩ = some "script" ∧ Markup.isVoid "script" = false ∧
      rawTextTree.outerMarkup ⟨3⟩ = "<script>a < b</script>" ∧
      rawTextTree.innerMarkup ⟨3⟩ = "a &lt; b" ∧
      rawTextTree.outerMarkup ⟨3⟩ ≠ "<script>" ++ rawTextTree.innerMarkup ⟨3⟩ ++ "</script>" := by
  have houter : rawTextTree.outerMarkup ⟨3⟩ = "<script>a < b</script>" := rfl
  have hinner : rawTextTree.innerMarkup ⟨3⟩ = "a &lt; b" := rfl
  refine ⟨built_rawTextTree, rfl, by decide, houter, hinner, ?_⟩
  rw [houter, hinner]
  decide

end Tree

end HtmlTemplate
