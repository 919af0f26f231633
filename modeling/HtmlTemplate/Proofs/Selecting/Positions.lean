-- SUMMARY: Positional selectors go by the place of an element among its siblings that are elements.
import HtmlTemplate.Proofs.Selecting
import HtmlTemplate.Proofs.Selecting.Formulas.Values

/-!
# Positions

The ten positional pseudo-classes are five tests of two numbers: the place of an element among
the element children of its parent, or among those of them with its tag, and how many these
are. `Tree.StandsAt` tells both by the list of children alone. The tests with formulas put the
place into 32 bits, which changes nothing below 2³¹.
-/

namespace HtmlTemplate

open Selector

/-! ## Tests of a place -/

namespace Selector

/-- The formula that gives the first place alone. -/
def Nth.one : Nth := ⟨0, 1⟩

theorem Nth.one_gives {value : Int} : Nth.one.Gives value ↔ 1 = value := by
  have hstep : Nth.one.step.toInt = 0 := rfl
  have hoffset : Nth.one.offset.toInt = 1 := rfl
  simp [Gives, hstep, hoffset]

namespace Position

variable {formula : Nth} {index count : Nat}

theorem nth_holds (hindex : index < 2 ^ 31) :
    (Position.nth formula).holds index count = true ↔ formula.Gives index := by
  rw [holds, Nth.holds_iff, Int32.toInt_ofNat_of_lt hindex]

theorem nthLast_holds (hindex : 0 < index) (hle : index ≤ count) (hcount : count < 2 ^ 31) :
    (Position.nthLast formula).holds index count = true ↔
      formula.Gives ((count : Int) - index + 1) := by
  have hlast : ((count - index + 1 : Nat) : Int) = (count : Int) - index + 1 := by omega
  rw [holds, Nth.holds_iff, Int32.toInt_ofNat_of_lt (by omega), hlast]

section Ends

variable (hindex : 0 < index) (hle : index ≤ count) (hcount : count < 2 ^ 31)
include hle hcount

theorem first_holds : Position.first.holds index count = (Position.nth .one).holds index count := by
  rw [Bool.eq_iff_iff, nth_holds (Nat.lt_of_le_of_lt hle hcount), Nth.one_gives, holds, beq_iff_eq]
  omega

include hindex

theorem last_holds :
    Position.last.holds index count = (Position.nthLast .one).holds index count := by
  rw [Bool.eq_iff_iff, nthLast_holds hindex hle hcount, Nth.one_gives, holds, beq_iff_eq]
  omega

omit hcount in
theorem only_holds : Position.only.holds index count =
    (Position.first.holds index count && Position.last.holds index count) := by
  rw [Bool.eq_iff_iff, Bool.and_eq_true, holds, holds, holds, beq_iff_eq, beq_iff_eq, beq_iff_eq]
  omega

end Ends

end Position

end Selector

namespace Tree

variable {tree : Tree} {top id : NodeId} {ofType : Bool} {index count : Nat}

/-! ## Places -/

/-- The node is the `index`-th of `count` children of its parent that are elements, with
    `ofType` of those that have its tag. -/
def StandsAt (tree : Tree) (ofType : Bool) (id : NodeId) (index count : Nat) : Prop :=
  ∃ parent before after, tree.children parent = before ++ id :: after ∧
    index = (before.filter (tree.isPeer ofType id)).length + 1 ∧
    count = ((tree.children parent).filter (tree.isPeer ofType id)).length

theorem StandsAt.pos (hstands : tree.StandsAt ofType id index count) : 0 < index := by
  obtain ⟨parent, before, after, -, rfl, -⟩ := hstands
  exact Nat.succ_pos _

theorem StandsAt.le (hstands : tree.StandsAt ofType id index count)
    (hid : tree.isElement id = true) : index ≤ count := by
  obtain ⟨parent, before, after, hchildren, rfl, rfl⟩ := hstands
  have hself : tree.isPeer ofType id id = true := by simp [isPeer, hid]
  simp [hchildren, hself]

theorem StandsAt.place_eq (h : tree.Linked tree.children)
    (hstands : tree.StandsAt ofType id index count) (hid : tree.isElement id = true) :
    tree.place ofType id = (index, count) := by
  obtain ⟨parent, before, after, hchildren, rfl, rfl⟩ := hstands
  exact Tree.place_eq h ofType hid hchildren

/-- An element without parent is alone; every other one stands at its place. -/
theorem Linked.place_cases (h : tree.Linked tree.children) (hid : tree.isElement id = true)
    (ofType : Bool) : tree.place ofType id = (1, 1) ∨
      ∃ index count, tree.StandsAt ofType id index count ∧
        tree.place ofType id = (index, count) := by
  cases hparent : tree.parent? id with
  | none =>
    left
    rw [place, hparent]
  | some parent =>
    obtain ⟨before, after, hchildren⟩ := List.append_of_mem (h.parent?_eq_some.mp hparent)
    exact .inr ⟨_, _, ⟨parent, before, after, hchildren, rfl, rfl⟩,
      Tree.place_eq h ofType hid hchildren⟩

/-! ## Selectors of positions -/

theorem fits_position (hid : tree.isElement id = true) (position : Position) :
    tree.fits id [.position ofType position] =
      position.holds (tree.place ofType id).1 (tree.place ofType id).2 := by
  obtain ⟨element, helement⟩ := Option.isSome_iff_exists.mp hid
  simp only [fits, helement, satisfiesAll, satisfies, Bool.and_true]

theorem fits_cons (test : Simple) (compound : Compound) :
    tree.fits id (test :: compound) = (tree.fits id [test] && tree.fits id compound) := by
  unfold fits
  cases tree.element? id with
  | none => rfl
  | some element => simp only [satisfiesAll, Bool.and_true]

/-- A selector of one compound asks nothing of other elements. -/
theorem fitsSelector_single (compound : Compound) :
    tree.fitsSelector top [.single compound] id = tree.fits id compound := by
  unfold fitsSelector isElement
  simp only [List.any_cons, List.any_nil, Bool.or_false, fitsComplex, fits]
  cases tree.element? id <;> simp

/-- Both texts are selectors, and the node fits both or neither, wherever the test starts. -/
def FitsAlike (tree : Tree) (id : NodeId) (text text' : String) : Prop :=
  ∃ selector selector', Selector.parse text = .ok selector ∧
    Selector.parse text' = .ok selector' ∧
    ∀ top, tree.fitsSelector top selector id = tree.fitsSelector top selector' id

section Texts

variable (ofType : Bool)

theorem parse_plain {position : Position} (hplain : position.formula? = none) :
    Selector.parse (":" ++ position.name ofType) = .ok [.single [.position ofType position]] := by
  cases position with
  | nth | nthLast => cases hplain
  | _ => cases ofType <;> rfl

theorem parse_one {position : Position} (hformula : position.formula? = some .one) :
    Selector.parse (":" ++ position.name ofType ++ "(1)") =
      .ok [.single [.position ofType position]] := by
  cases position with
  | nth | nthLast =>
    obtain rfl := Option.some.inj hformula
    cases ofType <;> rfl
  | _ => cases hformula

theorem parse_first_last :
    Selector.parse (":" ++ Position.first.name ofType ++ ":" ++ Position.last.name ofType) =
      .ok [.single [.position ofType .first, .position ofType .last]] := by
  cases ofType <;> rfl

end Texts

theorem fitsAlike_of_fits {text text' : String} {compound compound' : Compound}
    (hparse : Selector.parse text = .ok [.single compound])
    (hparse' : Selector.parse text' = .ok [.single compound'])
    (hfits : tree.fits id compound = tree.fits id compound') : tree.FitsAlike id text text' :=
  ⟨_, _, hparse, hparse', fun top => by rw [fitsSelector_single, fitsSelector_single, hfits]⟩

/-- The place of an element among fewer than 2³¹ peers, with or without a parent. -/
theorem Linked.place_bounds (h : tree.Linked tree.children) (hid : tree.isElement id = true)
    (hcount : ∀ index count, tree.StandsAt ofType id index count → count < 2 ^ 31) :
    0 < (tree.place ofType id).1 ∧ (tree.place ofType id).1 ≤ (tree.place ofType id).2 ∧
      (tree.place ofType id).2 < 2 ^ 31 := by
  obtain hplace | ⟨index, count, hstands, hplace⟩ := h.place_cases hid ofType
  · rw [hplace]
    exact ⟨Nat.one_pos, Nat.le_refl 1, by omega⟩
  · rw [hplace]
    exact ⟨hstands.pos, hstands.le hid, hcount index count hstands⟩

/-- For an element that is the `index`-th of fewer than 2³¹ peers: the pseudo-classes with a
    formula ask whether it gives the place, counted from the front or from the back, and those
    without ask for the ends. So the first, the last and the only one are those that the
    formula `1` finds from the front, from the back and from both. -/
theorem fits_position_iff (h : tree.Linked tree.children) (hid : tree.isElement id = true)
    (ofType : Bool) :
    (∀ index count, tree.StandsAt ofType id index count → count < 2 ^ 31 →
      (∀ formula, tree.fits id [.position ofType (.nth formula)] = true ↔
        formula.Gives index) ∧
      (∀ formula, tree.fits id [.position ofType (.nthLast formula)] = true ↔
        formula.Gives (count - index + 1)) ∧
      (tree.fits id [.position ofType .first] = true ↔ index = 1) ∧
      (tree.fits id [.position ofType .last] = true ↔ index = count) ∧
      (tree.fits id [.position ofType .only] = true ↔ count = 1)) ∧
    ((∀ index count, tree.StandsAt ofType id index count → count < 2 ^ 31) →
      tree.FitsAlike id (":" ++ Position.first.name ofType)
        (":" ++ (Position.nth .one).name ofType ++ "(1)") ∧
      tree.FitsAlike id (":" ++ Position.last.name ofType)
        (":" ++ (Position.nthLast .one).name ofType ++ "(1)") ∧
      tree.FitsAlike id (":" ++ Position.only.name ofType)
        (":" ++ Position.first.name ofType ++ ":" ++ Position.last.name ofType)) := by
  constructor
  · intro index count hstands hcount
    have hle : index ≤ count := hstands.le hid
    simp only [fits_position hid, hstands.place_eq h hid]
    refine ⟨fun _ => ?_, fun _ => ?_, ?_, ?_, ?_⟩
    · exact Position.nth_holds (Nat.lt_of_le_of_lt hle hcount)
    · exact Position.nthLast_holds hstands.pos hle hcount
    all_goals rw [Position.holds, beq_iff_eq]
  · intro hcount
    obtain ⟨hpos, hle, hlt⟩ := h.place_bounds hid hcount
    refine ⟨?_, ?_, ?_⟩
    · apply fitsAlike_of_fits (parse_plain ofType rfl) (parse_one ofType rfl)
      rw [fits_position hid, fits_position hid, Position.first_holds hle hlt]
    · apply fitsAlike_of_fits (parse_plain ofType rfl) (parse_one ofType rfl)
      rw [fits_position hid, fits_position hid, Position.last_holds hpos hle hlt]
    · apply fitsAlike_of_fits (parse_plain ofType rfl) (parse_first_last ofType)
      rw [fits_position hid, fits_cons, fits_position hid, fits_position hid,
        Position.only_holds hpos hle]

/-- A tree with a paragraph, a text, a division and a second paragraph. -/
def mixedTree : Tree :=
  let (tree, first) := Tree.empty.createElement "p"
  let (tree, text) := tree.create (.text "a")
  let (tree, middle) := tree.createElement "div"
  let (tree, last) := tree.createElement "p"
  (((tree.append root (some first)).append root (some text)).append root (some middle)).append
    root (some last)

theorem built_mixedTree : mixedTree.Built := by
  have htext : Content.text "a" ≠ .container := nofun
  have hnodes := (((Built.empty.createElement "p").create htext).createElement "div").createElement
    "p"
  exact (((hnodes.appendLeaf root ⟨1⟩ rfl rfl rfl (by decide)).appendLeaf root ⟨2⟩ rfl rfl rfl
    (by decide)).appendLeaf root ⟨3⟩ rfl rfl rfl (by decide)).appendLeaf root ⟨4⟩ rfl rfl rfl
    (by decide)

/-- The second of the two paragraphs is the third child that is an element. -/
theorem fits_position_iff_mixedTree :
    mixedTree.fits ⟨4⟩ [.position false (.nth ⟨2, 1⟩)] = true ∧
      mixedTree.fits ⟨4⟩ [.position true (.nth ⟨2, 1⟩)] = false ∧
      mixedTree.FitsAlike ⟨4⟩ ":last-of-type" ":nth-last-of-type(1)" := by
  have hlinked := built_mixedTree.linked
  have helement : mixedTree.isElement ⟨4⟩ = true := rfl
  have hchild : mixedTree.StandsAt false ⟨4⟩ 3 3 := ⟨root, [⟨1⟩, ⟨2⟩, ⟨3⟩], [], rfl, rfl, rfl⟩
  have hpeer : mixedTree.StandsAt true ⟨4⟩ 2 2 := ⟨root, [⟨1⟩, ⟨2⟩, ⟨3⟩], [], rfl, rfl, rfl⟩
  obtain ⟨hchildren, -⟩ := fits_position_iff hlinked helement false
  obtain ⟨hpeers, halike⟩ := fits_position_iff hlinked helement true
  refine ⟨?_, ?_, ?_⟩
  · exact ((hchildren 3 3 hchild (by decide)).1 ⟨2, 1⟩).mpr ⟨1, rfl⟩
  · rw [Bool.eq_false_iff, ne_eq, (hpeers 2 2 hpeer (by decide)).1 ⟨2, 1⟩]
    rintro ⟨k, hk⟩
    have hstep : (⟨2, 1⟩ : Nth).step.toInt = 2 := rfl
    have hoffset : (⟨2, 1⟩ : Nth).offset.toInt = 1 := rfl
    rw [hstep, hoffset] at hk
    omega
  · refine (halike fun index count hstands => ?_).2.1
    have hplace := hstands.place_eq hlinked helement
    rw [hpeer.place_eq hlinked helement, Prod.mk.injEq] at hplace
    exact hplace.2 ▸ by decide

end Tree

end HtmlTemplate
