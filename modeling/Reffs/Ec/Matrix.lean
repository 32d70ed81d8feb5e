import Mathlib.LinearAlgebra.Vandermonde
import Reffs.Ec.Gf
import Reffs.Lib.RowOps

/-!
# Matrices of bytes

`gf_matrix_mul`, `gf_matrix_invert` and `gf_matrix_vandermonde`. The inversion is a Gauss-Jordan
elimination on a copy of the matrix, with its row operations done to the unit matrix as well: it
returns a left inverse if it gets through (`gfMatrixInvert_mul`), and it gets through if the matrix
has no kernel (`gfMatrixInvert_some`).
-/

namespace Reffs.Ec

open Matrix RowOps List Option

abbrev GfMatrix (rows cols : Nat) := Matrix (Fin rows) (Fin cols) Gf

def pickRows {r n c : Nat} (a : GfMatrix r c) (idx : Fin n → Fin r) : GfMatrix n c := fun i j =>
  a (idx i) j

def gfMatrixMul {r n c : Nat} (a : GfMatrix r n) (b : GfMatrix n c) : GfMatrix r c := fun i j =>
  (List.finRange n).foldl (fun sum l => sum + a i l * b l j) 0

/-- The first row from `col` on that is not zero in the column. -/
def findPivot {n : Nat} (work : GfMatrix n n) (col : Fin n) : Option (Fin n) :=
  (List.finRange n).find? fun row => decide (col ≤ row) && decide (work row col ≠ 0)

/-- A turn of the loop of `gf_matrix_invert`: swap the pivot up, make it one, clear the column. -/
def eliminateColumn {n : Nat} (p : GfMatrix n n × GfMatrix n n) (col : Fin n) :
    Option (GfMatrix n n × GfMatrix n n) :=
  match findPivot p.1 col with
  | none => none
  | some pivot =>
    let work := swapRows p.1 col pivot
    let out := swapRows p.2 col pivot
    let inv := (work col col)⁻¹
    let work := scaleRow work col inv
    let out := scaleRow out col inv
    let factor := fun row => work row col
    some (clearRows work col factor, clearRows out col factor)

def gfMatrixInvert {n : Nat} (m : GfMatrix n n) : Option (GfMatrix n n) :=
  ((List.finRange n).foldlM eliminateColumn (m, 1)).map Prod.snd

def gfMatrixVandermonde (rows cols : Nat) : GfMatrix rows cols := fun r c =>
  ⟨gfPow (UInt8.ofNat (r.val + 1)) (UInt8.ofNat c.val)⟩

/-! ## Products -/

lemma foldl_add_eq_sum {n : Nat} (f : Fin n → Gf) :
    (finRange n).foldl (fun sum l => sum + f l) 0 = ∑ l, f l := by
  rw [Fin.sum_univ_def, sum_eq_foldl, foldl_map]

lemma gfMatrixMul_eq {r n c : Nat} (a : GfMatrix r n) (b : GfMatrix n c) :
    gfMatrixMul a b = a * b := by
  ext i j
  rw [Matrix.mul_apply]
  exact foldl_add_eq_sum fun l => a i l * b l j

/-! ## Inversion -/

variable {n : Nat} {A W O : GfMatrix n n}

lemma findPivot_some {col pivot : Fin n} (h : findPivot W col = some pivot) :
    col ≤ pivot ∧ W pivot col ≠ 0 := by
  have := find?_some h
  simpa using this

lemma findPivot_none {col : Fin n} (h : findPivot W col = none) {row : Fin n} (hle : col ≤ row) :
    W row col = 0 := by
  have := find?_eq_none.mp h row (mem_finRange row)
  by_contra hne
  exact this (by simp [hle, hne])

theorem eliminateColumn_some {col : Fin n} (htracks : Tracks A W O) (hunit : UnitBefore W col)
    {p : GfMatrix n n × GfMatrix n n} (h : eliminateColumn (W, O) col = some p) :
    Tracks A p.1 p.2 ∧ UnitBefore p.1 (col + 1) := by
  unfold eliminateColumn at h
  dsimp only at h
  cases hpivot : findPivot W col with
  | none =>
    rw [hpivot] at h
    cases h
  | some pivot =>
    rw [hpivot] at h
    cases h
    obtain ⟨hle, hne⟩ := findPivot_some hpivot
    have hentry : swapRows W col pivot col col = W pivot col := by
      unfold swapRows
      rw [Equiv.swap_apply_left]
    have hinv : (swapRows W col pivot col col)⁻¹ ≠ 0 := by
      rw [hentry]
      exact inv_ne_zero hne
    refine ⟨((htracks.swap col pivot).scale col hinv).clear col _, ?_⟩
    refine ((hunit.swap hle).scale _).clear ?_
    unfold scaleRow
    rw [if_pos rfl, hentry, mul_inv_cancel₀ hne]

lemma foldlM_eliminateColumn {cols : List (Fin n)} {c : Nat} (hcols : cols = (finRange n).drop c)
    (htracks : Tracks A W O) (hunit : UnitBefore W c) :
    (∀ p, cols.foldlM eliminateColumn (W, O) = some p → Tracks A p.1 p.2 ∧ UnitBefore p.1 n) ∧
    ((∀ v, A *ᵥ v = 0 → v = 0) → cols.foldlM eliminateColumn (W, O) ≠ none) := by
  induction cols generalizing c W O with
  | nil =>
    have hlast : n ≤ c := by
      have := drop_eq_nil_iff.mp hcols.symm
      rwa [length_finRange] at this
    constructor
    · intro p hp
      cases hp
      exact ⟨htracks, fun j _ i => hunit j (lt_of_lt_of_le j.isLt hlast) i⟩
    · exact fun _ => some_ne_none _
  | cons col rest ih =>
    -- the column that is next, and those after it
    have hlt : c < (finRange n).length := by
      by_contra hge
      rw [drop_eq_nil_iff.mpr (not_lt.mp hge)] at hcols
      cases hcols
    rw [drop_eq_getElem_cons hlt] at hcols
    obtain ⟨hcol, hrest⟩ := cons.inj hcols
    have hval : col.val = c := by rw [hcol, getElem_finRange]; rfl
    rw [foldlM_cons]
    subst hval
    cases hstep : eliminateColumn (W, O) col with
    | none =>
      refine ⟨fun p hp => (nomatch hp), fun hkernel => ?_⟩
      have hpivot : findPivot W col = none := by
        unfold eliminateColumn at hstep
        dsimp only at hstep
        split at hstep
        · assumption
        · cases hstep
      obtain ⟨v, hv, hWv⟩ := hunit.singular fun r hr => findPivot_none hpivot hr
      exact absurd (hkernel v (htracks.kernel v hWv)) hv
    | some p =>
      obtain ⟨htracks', hunit'⟩ := eliminateColumn_some htracks hunit hstep
      exact ih hrest htracks' hunit'

lemma unitBefore_zero (A : GfMatrix n n) : UnitBefore A 0 := fun _ h => absurd h (Nat.not_lt_zero _)

theorem gfMatrixInvert_mul (h : gfMatrixInvert A = some O) : O * A = 1 := by
  obtain ⟨p, hp, rfl⟩ := map_eq_some_iff.mp h
  obtain ⟨htracks, hunit⟩ := (foldlM_eliminateColumn (c := 0) (drop_zero).symm (Tracks.start A)
    (unitBefore_zero A)).1 p hp
  rw [htracks.product, hunit.all]

theorem gfMatrixInvert_some (h : ∀ v, A *ᵥ v = 0 → v = 0) : ∃ O, gfMatrixInvert A = some O := by
  have hne :=
    (foldlM_eliminateColumn (c := 0) (drop_zero).symm (Tracks.start A) (unitBefore_zero A)).2 h
  obtain ⟨p, hp⟩ := ne_none_iff_exists'.mp hne
  exact ⟨p.2, by rw [gfMatrixInvert, hp, map_some]⟩

/-- **Inversion answers exactly for the matrices that have an inverse**, and with that inverse, over
the field of bytes. -/
theorem gfMatrixInvert_iff (m : GfMatrix n n) : ByteField gfMul gfInv ∧
    ((∃ out, gfMatrixInvert m = some out) ↔ ∃ b, gfMatrixMul m b = 1 ∧ gfMatrixMul b m = 1) ∧
      ∀ out, gfMatrixInvert m = some out → gfMatrixMul m out = 1 ∧ gfMatrixMul out m = 1 := by
  have hout : ∀ out, gfMatrixInvert m = some out → gfMatrixMul m out = 1 ∧
      gfMatrixMul out m = 1 := by
    intro out h
    have hleft := gfMatrixInvert_mul h
    rw [gfMatrixMul_eq, gfMatrixMul_eq]
    exact ⟨mul_eq_one_comm.mp hleft, hleft⟩
  refine ⟨gfMul_byteField, ⟨fun ⟨out, h⟩ => ⟨out, hout out h⟩, fun ⟨b, _, hb⟩ => ?_⟩, hout⟩
  refine gfMatrixInvert_some fun v hv => ?_
  rw [gfMatrixMul_eq] at hb
  rw [← one_mulVec v, ← hb, ← mulVec_mulVec, hv, mulVec_zero]

/-! ## Vandermonde matrices -/

def point (r : Nat) : Gf := ⟨UInt8.ofNat (r + 1)⟩

lemma point_inj {r s : Nat} (hr : r < 255) (hs : s < 255) (h : point r = point s) : r = s := by
  have hnat := congrArg (fun a => a.val.toNat) h
  change (UInt8.ofNat (r + 1)).toNat = (UInt8.ofNat (s + 1)).toNat at hnat
  rw [UInt8.toNat_ofNat_of_lt' (show r + 1 < 256 by omega),
    UInt8.toNat_ofNat_of_lt' (show s + 1 < 256 by omega)] at hnat
  omega

lemma gfMatrixVandermonde_apply {rows cols : Nat} (hcols : cols ≤ 256) (r : Fin rows)
    (c : Fin cols) : gfMatrixVandermonde rows cols r c = point r ^ c.val := by
  unfold gfMatrixVandermonde
  rw [gfPow_eq, UInt8.toNat_ofNat_of_lt' (lt_of_lt_of_le c.isLt hcols)]
  rfl

/-- **Different rows are independent**, as many of them as there are columns. -/
theorem vandermonde_kernel {rows cols : Nat} (hrows : rows ≤ 255) (hcols : cols ≤ 256)
    {idx : Fin cols → Fin rows} (hidx : Function.Injective idx) {v : Fin cols → Gf}
    (hv : pickRows (gfMatrixVandermonde rows cols) idx *ᵥ v = 0) : v = 0 := by
  have heq : pickRows (gfMatrixVandermonde rows cols) idx = vandermonde fun r => point (idx r) := by
    ext r c
    rw [pickRows, gfMatrixVandermonde_apply hcols, vandermonde_apply]
  rw [heq] at hv
  refine Matrix.eq_zero_of_mulVec_eq_zero (det_vandermonde_ne_zero_iff.mpr fun r s h => hidx ?_) hv
  have hlt : ∀ r, (idx r).val < 255 := fun r => lt_of_lt_of_le (idx r).isLt hrows
  exact Fin.ext (point_inj (hlt r) (hlt s) h)

end Reffs.Ec
