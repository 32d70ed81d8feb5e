import Reffs.Ec.ReedSolomon
import Reffs.Lib.Staircase

/-!
# The Mojette transform

`mojette.c`: data is a grid of 64-bit words, `P` columns and `Q` rows, and a projection holds the
exclusive or along every line of one direction `(p, q)`, a pixel in column `col` of row `row` being
in bin `row * p + col * q` less an offset that brings the lowest bin to 0. `mojForward` computes a
projection, word by word or, for `q = 1`, a row at a time. The geometry-driven inverses
`mojInverseGd` and `mojInverseGdSparse` sort the projections by slope, give the `l`-th of them the
`l`-th row that is to be found, and sweep over the grid with one pixel of each of these rows in
every column step.

Memory is words under ints, as the code's indices are; bins and columns below 0 are never read.
Memory is always there. The peeling inverse, which takes over where a geometry-driven one refuses
its arguments, is not modelled; the switches that tests have for it are at their defaults.
-/

namespace Reffs.Ec

open Finset Staircase

/-! ## Words -/

/-- A word of a shard. Words are added with exclusive or. -/
structure Word where
  val : UInt64
  deriving DecidableEq, Repr

namespace Word

instance : Zero Word := ⟨⟨0⟩⟩
instance : Add Word := ⟨fun a b => ⟨a.val ^^^ b.val⟩⟩
instance : Neg Word := ⟨fun a => a⟩

lemma ext_val {a b : Word} (h : a.val = b.val) : a = b := by
  cases a
  cases b
  exact congrArg Word.mk h

instance : AddCommGroup Word where
  add_assoc := fun _ _ _ => ext_val (UInt64.xor_assoc _ _ _)
  zero_add := fun _ => ext_val UInt64.zero_xor
  add_zero := fun _ => ext_val UInt64.xor_zero
  add_comm := fun _ _ => ext_val (UInt64.xor_comm _ _)
  neg_add_cancel := fun _ => ext_val UInt64.xor_self
  nsmul := nsmulRec
  zsmul := zsmulRec

lemma add_self (a : Word) : a + a = 0 := ext_val UInt64.xor_self

lemma add_add_cancel (a b : Word) : a + b + b = a := by
  rw [add_assoc, add_self, add_zero]

end Word

abbrev Words := Int → Word

abbrev Grid := Nat → Words

variable (src : Words) (np : Nat) (rows : Grid) (bins : Words)

def intEnd : Nat := 2 ^ 31

/-! ## Directions and projections -/

structure Direction where
  p : Int
  q : Int
  deriving DecidableEq, Repr

/-- The directions for `n` projections: slopes from `-n / 2` up, without 0. -/
def mojDirectionsGenerate (n i : Nat) : Direction :=
  if i < n / 2 then ⟨-((n / 2 - i : Nat) : Int), 1⟩ else ⟨((i - n / 2 + 1 : Nat) : Int), 1⟩

def mojProjectionSize (d : Direction) (P Q : Nat) : Int :=
  |d.p| * ((Q : Int) - 1) + |d.q| * ((P : Int) - 1) + 1

def mojBinOffset (d : Direction) (P Q : Nat) : Int :=
  (if d.p < 0 then d.p * ((Q : Int) - 1) else 0) + (if d.q < 0 then d.q * ((P : Int) - 1) else 0)

structure Projection where
  dir : Direction
  bins : Words

/-! ## The forward transform -/

/-- Set the first `nbins` words to 0. -/
def clearWords (nbins : Int) : Words := fun b =>
  if 0 ≤ b ∧ b < nbins then 0 else bins b

def xorAt (b : Int) (v : Word) : Words := fun b' =>
  if b' = b then bins b' + v else bins b'

def forwardScalar (P Q : Nat) (d : Direction) (nbins : Int) (bins : Words) : Words :=
  (List.range Q).foldl (fun bins (row : Nat) =>
    (List.range P).foldl (fun bins (col : Nat) =>
      xorAt bins ((row : Int) * d.p + (col : Int) * d.q - mojBinOffset d P Q) (rows row col)) bins)
    (clearWords bins nbins)

/-- Add a row to the bins from `dst` on. -/
def mojFwdRowSeq (P : Nat) (dst : Int) (bins : Words) : Words := fun b =>
  if dst ≤ b ∧ b < dst + P then bins b + src (b - dst) else bins b

/-- The first row is copied, with zeros before and after it. -/
def copyFirst (P : Nat) (dst nbins : Int) (bins : Words) : Words := fun b =>
  if dst ≤ b ∧ b < dst + P then src (b - dst) else clearWords bins nbins b

def forwardRows (P Q : Nat) (d : Direction) (nbins : Int) (bins : Words) : Words :=
  (List.range Q).foldl (fun bins (row : Nat) =>
    let dst := (row : Int) * d.p - mojBinOffset d P Q
    if row = 0 then copyFirst (rows row) P dst nbins bins
      else mojFwdRowSeq (rows row) P dst bins) bins

/-- The projection of a grid along a direction, into a buffer of `nbins` words. -/
def mojForward (simd : Bool) (rows : Grid) (P Q : Nat) (d : Direction) (nbins : Int)
    (bins : Words) : Words :=
  if simd ∧ d.q = 1 ∧ 0 ≤ nbins - (-mojBinOffset d P Q + P) then forwardRows rows P Q d nbins bins
  else forwardScalar rows P Q d nbins bins

/-! ## The geometry-driven inverse -/

def kOffLast (p : Nat → Int) : Int :=
  if np = 1 then |p 0|
  else
    let inner := (List.range (np - 2)).map fun i => p (i + 1)
    let sMinus := (inner.map fun x => if x < 0 then -x else 0).sum
    let sPlus := (inner.map fun x => if x > 0 then x else 0).sum
    let pLast := p (np - 1)
    max ((if pLast < 0 then -pLast else 0) + sMinus) ((if pLast > 0 then pLast else 0) + sPlus)

/-- The lead of row `i` from the next one's, and the correction where known rows lie between them.
-/
def kOffStep (p : Nat → Int) (missing : Nat → Nat) (kOff : Nat → Int) (i : Nat) : Nat → Int :=
  let kOff' := Function.update kOff i (kOff (i + 1) + p (i + 1))
  let gap : Int := (missing (i + 1) : Int) - missing i - 1
  if gap > 0 then fun j => if i + 1 ≤ j ∧ j < np then kOff' j - gap * p (i + 1) else kOff' j
  else kOff'

/-- The leads of all rows, from the last one up. -/
def kOff (p : Nat → Int) (missing : Nat → Nat) : Nat → Int :=
  (List.range (np - 1)).reverse.foldl (kOffStep np p missing) fun l =>
    if l = np - 1 then kOffLast np p else 0

/-- The least of `n + 1` numbers. -/
def leastTo (f : Nat → Int) : Nat → Int
  | 0 => f 0
  | n + 1 => min (leastTo f n) (f (n + 1))

/-- The exclusive or of the other pixels on the line of slope `p` through column `x` of row `y`. -/
def gdOthers (P Q : Nat) (p : Int) (grid : Grid) (y : Nat) (x : Int) : Word :=
  if p ≠ 0 then
    Staircase.upward P p grid y x + Staircase.downward P p grid (Q - 1 - y) y x
  else (((List.range Q).filter (· ≠ y)).map fun i => grid i x).sum

/-- The sweep over the grid for the projections in the order of their slopes. -/
def gdSweep (grid : Grid) (P Q : Nat) (sorted : Nat → Projection) (np : Nat) (missing : Nat → Nat) :
    Grid :=
  let p := fun l => (sorted l).dir.p
  let kOff := kOff np p missing
  let kLo := -max (kOff 0) (kOff (np - 1))
  let kHi := (P : Int) - leastTo kOff (np - 1)
  (Staircase.turns kLo kHi np).foldl (Staircase.turn missing kOff P fun grid l x =>
      (sorted l).bins ((missing l : Int) * p l + x - mojBinOffset (sorted l).dir P Q) +
        gdOthers P Q (p l) grid (missing l) x) grid

/-- The projections by falling slope. With `q = 1` the slope is `p`. -/
def sortBySlope (projs : List Projection) : List Projection :=
  projs.insertionSort fun a b => b.dir.p ≤ a.dir.p

/-- The `l`-th projection; a list of projections is never read beyond its end. -/
def projAt (projs : List Projection) (l : Nat) : Projection := projs.getD l ⟨⟨0, 1⟩, 0⟩

def mojInverseGd (P Q : Nat) (projs : List Projection) : Except Errno Grid :=
  if projs.length ≠ Q ∨ P < 1 ∨ Q < 1 then .error .einval
  else if ∃ pr ∈ projs, pr.dir.q ≠ 1 then .error .einval
  else .ok (gdSweep 0 P Q (projAt (sortBySlope projs)) projs.length fun l => l)

/-- The rows `missing` from as many projections and the other rows. -/
def mojInverseGdSparse (grid : Grid) (P Q : Nat) (projs : List Projection) (missing : List Nat) :
    Except Errno Grid :=
  if projs.length ≠ missing.length ∨ P < 1 ∨ Q < 1 ∨ missing.length < 1 ∨ Q < missing.length then
    .error .einval
  else if ∃ pr ∈ projs, pr.dir.q ≠ 1 then .error .einval
  else if ∃ i ∈ List.range missing.length, Q ≤ missing.getD i 0 ∨
      (0 < i ∧ missing.getD i 0 ≤ missing.getD (i - 1) 0) then .error .einval
  else .ok (gdSweep grid P Q (projAt (sortBySlope projs)) projs.length fun l => missing.getD l 0)

/-! ## What a projection holds -/

section Forward

variable {P Q : Nat} {d : Direction}

lemma mojFwdRowSeq_apply (P : Nat) (dst : Int) (bins : Words) (b : Int) :
    mojFwdRowSeq src P dst bins b = bins b + if 0 ≤ b - dst ∧
      b - dst < P then src (b - dst) else 0 := by
  grind [add_zero, mojFwdRowSeq]

lemma xorRow_eq (src : Words) (dst : Int) (bins : Words) : ∀ P : Nat,
    (List.range P).foldl (fun bins (col : Nat) => xorAt bins (dst + (col : Int)) (src col)) bins =
      mojFwdRowSeq src P dst bins
  | 0 => by
    funext b
    rw [mojFwdRowSeq_apply, if_neg (by omega), add_zero]
    rfl
  | P + 1 => by
    rw [List.range_succ, List.foldl_append, xorRow_eq src dst bins P]
    funext b
    show xorAt (mojFwdRowSeq src P dst bins) (dst + (P : Int)) (src P) b = _
    unfold xorAt
    rw [mojFwdRowSeq_apply, mojFwdRowSeq_apply]
    by_cases hb : b = dst + (P : Int)
    · rw [if_pos hb, if_neg (by omega), if_pos ⟨by omega, by omega⟩, add_zero]
      rw [show b - dst = (P : Int) by omega]
    · rw [if_neg hb]
      by_cases h : 0 ≤ b - dst ∧ b - dst < P
      · rw [if_pos h, if_pos ⟨h.1, by omega⟩]
      · rw [if_neg h, if_neg (by omega)]

lemma addRows_apply (rows : Grid) (P : Nat) (p off : Int) (bins : Words) (b : Int) : ∀ Q : Nat,
    (List.range Q).foldl
      (fun bins (row : Nat) => mojFwdRowSeq (rows row) P ((row : Int) * p - off) bins) bins b =
      bins b + ∑ row ∈ range Q, Staircase.pixel P rows row (b + off - (row : Int) * p)
  | 0 => by simp
  | Q + 1 => by
    rw [List.range_succ, List.foldl_append, sum_range_succ, ← add_assoc,
      ← addRows_apply rows P p off bins b Q]
    show mojFwdRowSeq (rows Q) P ((Q : Int) * p - off) _ b = _
    rw [mojFwdRowSeq_apply, show b - ((Q : Int) * p - off) = b + off - (Q : Int) * p by ring]
    rfl

lemma forwardScalar_apply (hq : d.q = 1) (bins : Words) {nbins b : Int}
    (hb : 0 ≤ b ∧ b < nbins) : forwardScalar rows P Q d nbins bins b = ∑ row ∈ range Q,
        Staircase.pixel P rows row (b + mojBinOffset d P Q - (row : Int) * d.p) := by
  unfold forwardScalar
  have hrow : (fun (bins : Words) (row : Nat) => (List.range P).foldl (fun bins (col : Nat) =>
        xorAt bins ((row : Int) * d.p + (col : Int) * d.q - mojBinOffset d P Q)
          (rows row col)) bins) =
      fun bins (row : Nat) => mojFwdRowSeq (rows row) P ((row : Int) * d.p - mojBinOffset d P Q)
        bins := by grind [xorRow_eq]
  rw [hrow, addRows_apply, clearWords, if_pos hb, zero_add]

lemma copyFirst_eq (P : Nat) {dst nbins : Int} (bins : Words) (hdst : 0 ≤ dst)
    (hend : dst + P ≤ nbins) :
    copyFirst src P dst nbins bins = mojFwdRowSeq src P dst (clearWords bins nbins) := by
  grind [clearWords, copyFirst, mojFwdRowSeq, zero_add]

lemma forwardRows_eq {nbins : Int} (hoff : mojBinOffset d P (Q + 1) ≤ 0)
    (hend : 0 ≤ nbins - (-mojBinOffset d P (Q + 1) + P)) :
    forwardRows rows P (Q + 1) d nbins bins = (List.range (Q + 1)).foldl (fun bins (row : Nat) =>
        mojFwdRowSeq (rows row) P ((row : Int) * d.p - mojBinOffset d P (Q + 1)) bins)
        (clearWords bins nbins) := by
  unfold forwardRows
  rw [List.range_succ_eq_map, List.foldl_cons, List.foldl_cons, List.foldl_map, List.foldl_map]
  have hfirst :
      copyFirst (rows 0) P (((0 : Nat) : Int) * d.p - mojBinOffset d P (Q + 1)) nbins bins =
      mojFwdRowSeq (rows 0) P (((0 : Nat) : Int) * d.p - mojBinOffset d P (Q + 1))
        (clearWords bins nbins) := by
    apply copyFirst_eq <;> simp only [Nat.cast_zero, zero_mul, zero_sub] <;> omega
  dsimp only
  rw [if_pos rfl, hfirst]
  rfl

lemma mojBinOffset_nonpos (hq : d.q = 1) (P Q : Nat) : mojBinOffset d P (Q + 1) ≤ 0 := by
  unfold mojBinOffset
  rw [if_neg (show ¬ d.q < 0 by omega), add_zero]
  split
  · next hp =>
    have hcast : ((Q + 1 : Nat) : Int) - 1 = Q := by
      push_cast
      ring
    rw [hcast]
    nlinarith
  · exact le_refl 0

/-- **Bin `y * p + x` of a projection is the sum on the line through column `x` of row `y`**,
however it was computed. -/
theorem mojForward_apply (simd : Bool) (rows : Grid) (hq : d.q = 1) (bins : Words) {nbins x : Int}
    {y : Nat} (hQ : 1 ≤ Q)
    (hb : 0 ≤ (y : Int) * d.p + x - mojBinOffset d P Q ∧
      (y : Int) * d.p + x - mojBinOffset d P Q < nbins) :
    mojForward simd rows P Q d nbins bins ((y : Int) * d.p + x - mojBinOffset d P Q) =
      lineSum P Q d.p rows y x := by
  have hsum : ∑ row ∈ range Q, pixel P rows row
        ((y : Int) * d.p + x - mojBinOffset d P Q + mojBinOffset d P Q - (row : Int) * d.p) =
      lineSum P Q d.p rows y x := by
    refine sum_congr rfl fun row _ => congrArg _ ?_
    unfold column
    ring
  unfold mojForward
  split
  · next h =>
    obtain ⟨Q, rfl⟩ : ∃ n, Q = n + 1 := ⟨Q - 1, by omega⟩
    rw [forwardRows_eq rows bins (mojBinOffset_nonpos hq P Q) h.2.2, addRows_apply, clearWords,
      if_pos hb, zero_add, hsum]
  · rw [forwardScalar_apply rows hq bins hb, hsum]

lemma bin_mem (hq : d.q = 1) {y : Nat} (hy : y < Q) {x : Int} (hx : 0 ≤ x ∧ x < P) :
    0 ≤ (y : Int) * d.p + x - mojBinOffset d P Q ∧
      (y : Int) * d.p + x - mojBinOffset d P Q < mojProjectionSize d P Q := by
  unfold mojBinOffset mojProjectionSize
  rw [hq, if_neg (show ¬ (1 : Int) < 0 by decide), add_zero, abs_one]
  have hyQ : (y : Int) ≤ (Q : Int) - 1 := by omega
  by_cases hp : d.p < 0
  · rw [if_pos hp, abs_of_neg hp]
    constructor
    · nlinarith
    · nlinarith
  · rw [if_neg hp, abs_of_nonneg (by omega)]
    have hp' : 0 ≤ d.p := by omega
    constructor
    · nlinarith
    · nlinarith

end Forward

end Reffs.Ec
