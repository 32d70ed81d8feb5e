import Reffs.Ec.Matrix

/-!
# Reed-Solomon encoding and decoding

`rs.c`: the encoding matrix with its two constructions, and the encoder and decoder that multiply
rows of it with shards byte by byte. A product with a coefficient is looked up, sixteen bytes at a
time in the two halves of a split table where the machine can do that (`simd`), and in a table of
256 entries for the rest. A buffer is its bytes; a function that is given a length writes no byte
beyond it. Memory is always there.
-/

namespace Reffs.Ec

open List

abbrev Buffer := Nat → UInt8

inductive Errno where
  | einval | eio
  deriving DecidableEq, Repr

/-! ## The encoding matrix -/

def coef : Nat → Gf
  | 0 => 1
  | c + 1 => coef c * ⟨2⟩

def smallMatrix (k m : Nat) : GfMatrix (k + m) k := fun r c =>
  if r.val < k then if r.val = c.val then 1 else 0
  else if r.val = k then 1
  else coef c.val

/-- The first `k` rows of a matrix. -/
def topRows {k m : Nat} (a : GfMatrix (k + m) k) : GfMatrix k k := pickRows a (Fin.castAdd m)

def buildEncodingMatrix (k m : Nat) : Option (GfMatrix (k + m) k) :=
  if m ≤ 2 then some (smallMatrix k m)
  else
    let vand := gfMatrixVandermonde (k + m) k
    match gfMatrixInvert (topRows vand) with
    | none => none
    | some topInv => some (gfMatrixMul vand topInv)

structure RsEncoding (k m : Nat) where
  encode : GfMatrix (k + m) k

/-- The coefficients of parity shard `i`. -/
def RsEncoding.parity {k m : Nat} (e : RsEncoding k m) : GfMatrix m k := fun i c =>
  e.encode (Fin.natAdd k i) c

def ecRsCreate (k m : Nat) : Option (RsEncoding k m) :=
  if k < 1 ∨ m < 1 ∨ k + m > 255 then none
  else (buildEncodingMatrix k m).map RsEncoding.mk

/-! ## Products with a coefficient -/

/-- The part of a product that is done sixteen bytes at a time, and its length. -/
def rsMulAdd16 (simd : Bool) (out input : Buffer) (splitTbl : Nat → UInt8) (len : Nat)
    (init : Bool) : Buffer × Nat :=
  let done := if simd then len / 16 * 16 else 0
  (fun p =>
    if p < done then
      let prod := splitTbl ((input p).toNat % 16) ^^^ splitTbl (16 + (input p).toNat / 16)
      if init then prod else prod ^^^ out p
    else out p, done)

/-- The part of it from `start` on. -/
def rsMulAddScalar (out input : Buffer) (tbl : UInt8 → UInt8) (start len : Nat) (init : Bool) :
    Buffer := fun p =>
  if start ≤ p ∧ p < len then
    if init then tbl (input p) else out p ^^^ tbl (input p)
  else out p

/-- Multiply by a coefficient and add, or begin with the product. -/
def rsMulAdd (simd : Bool) (c : Gf) (out input : Buffer) (len : Nat) (init : Bool) : Buffer :=
  let r := rsMulAdd16 simd out input (gfMulSplitTblInit c.val) len init
  if r.2 < len then rsMulAddScalar r.1 input (gfMulTblInit c.val) r.2 len init else r.1

/-- The loop over the shards that a row of coefficients is for. -/
def rsCombine {k : Nat} (simd : Bool) (row : Fin k → Gf) (shards : Fin k → Buffer) (out : Buffer)
    (len : Nat) : Buffer :=
  (List.finRange k).foldl (fun out j => rsMulAdd simd (row j) out (shards j) len (j.val == 0)) out

/-! ## The encoder and the decoder -/

/-- The parity shards; `parity` is what was in their buffers. -/
def rsEncode {k m : Nat} (simd : Bool) (e : RsEncoding k m) (data : Fin k → Buffer)
    (parity : Fin m → Buffer) (len : Nat) : Fin m → Buffer := fun i =>
  rsCombine simd (e.parity i) data (parity i) len

/-- The first `k` shards that are present. -/
def availIdx {k m : Nat} (present : Fin (k + m) → Bool) (c : Fin k) : Fin (k + m) :=
  ((List.finRange (k + m)).filter present).getD c.val ⟨0, by have := c.isLt; omega⟩

def rsDecode {k m : Nat} (simd : Bool) (e : RsEncoding k m) (shards : Fin (k + m) → Buffer)
    (present : Fin (k + m) → Bool) (len : Nat) : Except Errno (Fin (k + m) → Buffer) :=
  let avail := (List.finRange (k + m)).countP present
  if avail < k then .error .eio
  else if avail = k + m then .ok shards
  else
    let idx := availIdx present
    match gfMatrixInvert (pickRows e.encode idx) with
    | none => .error .einval
    | some subInv =>
      let recovered := fun r =>
        rsCombine simd (subInv r) (fun c => shards (idx c)) (fun _ => 0) len
      let data := fun j =>
        if present (Fin.castAdd m j) then shards (Fin.castAdd m j) else recovered j
      .ok (Fin.addCases (fun j => if present (Fin.castAdd m j) then shards (Fin.castAdd m j)
          else fun p => if p < len then recovered j p else shards (Fin.castAdd m j) p)
        (fun i => if present (Fin.natAdd k i) then shards (Fin.natAdd k i)
          else rsCombine simd (e.parity i) data (shards (Fin.natAdd k i)) len))

/-! ## What a row of coefficients does -/

lemma rsMulAdd_apply (simd : Bool) (c : Gf) (out input : Buffer) {len : Nat} (init : Bool) {p : Nat}
    (hp : p < len) : rsMulAdd simd c out input len init p =
      (if init then 0 else out p) ^^^ gfMul c.val (input p) := by
  have hsplit := gfMulSplitTblInit_eq c.val (input p)
  have htbl := gfMulTblInit_eq c.val (input p)
  unfold rsMulAdd
  by_cases hdone : p < (rsMulAdd16 simd out input (gfMulSplitTblInit c.val) len init).2
  · -- the byte is among those done by halves, and is left alone after that
    have hvalue : (rsMulAdd16 simd out input (gfMulSplitTblInit c.val) len init).1 p =
        (if init then 0 else out p) ^^^ gfMul c.val (input p) := by grind [rsMulAdd16]
    split
    · unfold rsMulAddScalar
      rw [if_neg fun h => absurd h.1 (not_le.mpr hdone), hvalue]
    · exact hvalue
  · have hkeep : (rsMulAdd16 simd out input (gfMulSplitTblInit c.val) len init).1 p = out p := by
      unfold rsMulAdd16 at hdone ⊢
      dsimp only at hdone ⊢
      rw [if_neg hdone]
    rw [if_pos (lt_of_le_of_lt (not_lt.mp hdone) hp), rsMulAddScalar,
      if_pos ⟨not_lt.mp hdone, hp⟩, hkeep, htbl]
    cases init
    · rfl
    · exact UInt8.zero_xor.symm

/-- **A row of coefficients** makes their sum of products, whatever was in the buffer. -/
theorem rsCombine_apply {k : Nat} (hk : 1 ≤ k) (simd : Bool) (row : Fin k → Gf)
    (shards : Fin k → Buffer) (out : Buffer) {len p : Nat} (hp : p < len) :
    (⟨rsCombine simd row shards out len p⟩ : Gf) = ∑ j, row j * ⟨shards j p⟩ := by
  obtain ⟨k, rfl⟩ := Nat.exists_eq_add_of_le' hk
  unfold rsCombine
  rw [finRange_succ, foldl_cons, Fin.sum_univ_succ]
  -- after the first shard the loop adds
  have hrest : ∀ (l : List (Fin k)) (out : Buffer), (⟨(l.map Fin.succ).foldl
        (fun out j => rsMulAdd simd (row j) out (shards j) len (j.val == 0)) out p⟩ : Gf) =
        ⟨out p⟩ + (l.map fun j => row j.succ * ⟨shards j.succ p⟩).sum := by
    intro l
    induction l with
    | nil =>
      intro out
      rw [map_nil, foldl_nil, map_nil, sum_nil, add_zero]
    | cons j l ih =>
      intro out
      rw [map_cons, foldl_cons, ih, map_cons, sum_cons, ← add_assoc]
      congr 1
      apply Gf.ext_val
      show rsMulAdd simd (row j.succ) out (shards j.succ) len false p = _
      rw [rsMulAdd_apply _ _ _ _ _ hp]
      rfl
  rw [hrest, Fin.sum_univ_def]
  congr 1
  apply Gf.ext_val
  show rsMulAdd simd (row 0) out (shards 0) len true p = _
  rw [rsMulAdd_apply _ _ _ _ _ hp]
  exact UInt8.zero_xor

lemma rsMulAdd_beyond (simd : Bool) (c : Gf) (out input : Buffer) {len p : Nat} (init : Bool)
    (hp : len ≤ p) : rsMulAdd simd c out input len init p = out p := by
  have hkeep : (rsMulAdd16 simd out input (gfMulSplitTblInit c.val) len init).1 p = out p := by
    refine if_neg ?_
    split <;> omega
  unfold rsMulAdd
  split
  · rw [rsMulAddScalar, if_neg (by omega), hkeep]
  · exact hkeep

/-- **Sixteen bytes at a time is one at a time**: encoder and decoder give the same bytes whether or
not the machine can do so, on any shards and buffers. -/
theorem rs_simd {k m : Nat} (simd : Bool) (e : RsEncoding k m) :
    rsEncode simd e = rsEncode false e ∧ rsDecode simd e = rsDecode false e := by
  have hmul : rsMulAdd simd = rsMulAdd false := by
    funext c out input len init p
    rcases Nat.lt_or_ge p len with hp | hp
    · rw [rsMulAdd_apply _ _ _ _ _ hp, rsMulAdd_apply _ _ _ _ _ hp]
    · rw [rsMulAdd_beyond _ _ _ _ _ hp, rsMulAdd_beyond _ _ _ _ _ hp]
  have hcombine : ∀ k, @rsCombine k simd = rsCombine false := fun k => by
    unfold rsCombine
    rw [hmul]
  unfold rsEncode rsDecode
  rw [hcombine k]
  exact ⟨rfl, rfl⟩

end Reffs.Ec
