import Mathlib.LinearAlgebra.Matrix.ToLin
import Mathlib.LinearAlgebra.Matrix.NonsingularInverse

/-!
# Row operations

The three row operations of a Gauss-Jordan elimination, on a matrix and a second one that collects
them. `Tracks A W O` says that `O` turns `A` into `W` and that nothing is lost on the way; every
operation keeps it. When the columns of `W` before a column `c` are those of the unit matrix,
clearing column `c` extends them by one (`UnitBefore.clear`), and a column without a pivot shows
that `A` was singular (`UnitBefore.singular`).
-/

namespace RowOps

open Matrix Finset

variable {n : Nat} {F : Type} [Field F]

def swapRows (X : Matrix (Fin n) (Fin n) F) (i j : Fin n) : Matrix (Fin n) (Fin n) F :=
  fun r => X (Equiv.swap i j r)

def scaleRow (X : Matrix (Fin n) (Fin n) F) (c : Fin n) (s : F) : Matrix (Fin n) (Fin n) F :=
  fun r j => if r = c then X r j * s else X r j

/-- Take row `c`, `f r` times, from every other row `r`. -/
def clearRows (X : Matrix (Fin n) (Fin n) F) (c : Fin n) (f : Fin n → F) :
    Matrix (Fin n) (Fin n) F :=
  fun r j => if r = c then X r j else X r j - f r * X c j

/-- `O` turns `A` into `W`, which has no more in its kernel than `A`. -/
structure Tracks (A W O : Matrix (Fin n) (Fin n) F) : Prop where
  product : O * A = W
  kernel : ∀ v, W *ᵥ v = 0 → A *ᵥ v = 0

variable {A W O : Matrix (Fin n) (Fin n) F}

lemma Tracks.start (A : Matrix (Fin n) (Fin n) F) : Tracks A A 1 where
  product := Matrix.one_mul A
  kernel := fun _ h => h

lemma Tracks.swap (h : Tracks A W O) (i j : Fin n) :
    Tracks A (swapRows W i j) (swapRows O i j) where
  product := by
    funext r
    exact congrFun h.product (Equiv.swap i j r)
  kernel := fun v hv => h.kernel v (funext fun r => by
    have hr := congrFun hv (Equiv.swap i j r)
    simpa [swapRows, mulVec] using hr)

lemma Tracks.scale (h : Tracks A W O) (c : Fin n) {s : F} (hs : s ≠ 0) :
    Tracks A (scaleRow W c s) (scaleRow O c s) where
  product := by
    ext r j
    have hr := congrFun (congrFun h.product r) j
    simp only [scaleRow, mul_apply] at hr ⊢
    split
    · rw [← hr, sum_mul]
      exact sum_congr rfl fun i _ => by ring
    · exact hr
  kernel := fun v hv => h.kernel v (funext fun r => by
    have hr := congrFun hv r
    simp only [mulVec, dotProduct, scaleRow, Pi.zero_apply] at hr ⊢
    split at hr
    · -- the sum is `s` times what it was
      have hsum : (∑ i, W r i * s * v i) = s * ∑ i, W r i * v i := by
        rw [mul_sum]
        exact sum_congr rfl fun i _ => by ring
      rw [hsum] at hr
      exact (mul_eq_zero.mp hr).resolve_left hs
    · exact hr)

lemma Tracks.clear (h : Tracks A W O) (c : Fin n) (f : Fin n → F) :
    Tracks A (clearRows W c f) (clearRows O c f) where
  product := by
    ext r j
    have hr := congrFun (congrFun h.product r) j
    have hc := congrFun (congrFun h.product c) j
    simp only [clearRows, mul_apply] at hr hc ⊢
    split
    · exact hr
    · rw [← hr, ← hc, mul_sum, ← sum_sub_distrib]
      exact sum_congr rfl fun i _ => by ring
  kernel := fun v hv => h.kernel v (funext fun r => by
    have hrow : ∀ r, r ≠ c → (clearRows W c f *ᵥ v) r = (W *ᵥ v) r - f r * (W *ᵥ v) c := by
      intro r hr
      simp only [mulVec, dotProduct, clearRows, if_neg hr, mul_sum, ← sum_sub_distrib]
      exact sum_congr rfl fun i _ => by ring
    have hc : (W *ᵥ v) c = 0 := by
      have := congrFun hv c
      simpa [mulVec, dotProduct, clearRows] using this
    by_cases hr : r = c
    · rw [hr]
      exact hc
    · have := congrFun hv r
      rw [hrow r hr, hc, mul_zero, sub_zero] at this
      exact this)

/-! ## Columns of the unit matrix -/

/-- The columns before `c` are those of the unit matrix. -/
def UnitBefore (W : Matrix (Fin n) (Fin n) F) (c : Nat) : Prop :=
  ∀ j : Fin n, j.val < c → ∀ i, W i j = if i = j then 1 else 0

lemma UnitBefore.all (h : UnitBefore W n) : W = 1 := by
  ext i j
  rw [h j j.isLt i, Matrix.one_apply]

lemma UnitBefore.swap {c pivot : Fin n} (h : UnitBefore W c) (hle : c ≤ pivot) :
    UnitBefore (swapRows W c pivot) c := by
  intro j hj i
  have hc : j ≠ c := fun he => by
    rw [he] at hj
    exact lt_irrefl _ hj
  have hp : j ≠ pivot := fun he => by
    rw [he] at hj
    exact absurd hj (not_lt.mpr hle)
  unfold swapRows
  rw [h j hj]
  refine if_congr ?_ rfl rfl
  rw [Equiv.swap_apply_eq_iff, Equiv.swap_apply_of_ne_of_ne hc hp]

lemma UnitBefore.scale {c : Fin n} (h : UnitBefore W c) (s : F) :
    UnitBefore (scaleRow W c s) c := by
  intro j hj i
  unfold scaleRow
  split
  · next hi =>
    have hne : i ≠ j := fun he => by
      rw [← he, hi] at hj
      exact lt_irrefl _ hj
    rw [h j hj i, if_neg hne, zero_mul]
  · exact h j hj i

theorem UnitBefore.clear {c : Fin n} (h : UnitBefore W c) (hpivot : W c c = 1) :
    UnitBefore (clearRows W c fun r => W r c) (c + 1) := by
  intro j hj i
  unfold clearRows
  rcases Nat.lt_succ_iff_lt_or_eq.mp hj with hlt | heq
  · have hne : c ≠ j := fun he => by
      rw [he] at hlt
      exact lt_irrefl _ hlt
    rw [h j hlt i, h j hlt c, if_neg hne, mul_zero, sub_zero, ite_self]
  · obtain rfl := Fin.ext heq
    split
    · next hi => rw [hi, hpivot]
    · rw [hpivot, mul_one, sub_self]

/-- **A column without a pivot** is a combination of the unit columns before it. -/
theorem UnitBefore.singular {c : Fin n} (h : UnitBefore W c) (hnone : ∀ r, c ≤ r → W r c = 0) :
    ∃ v, v ≠ 0 ∧ W *ᵥ v = 0 := by
  refine ⟨fun j => if j = c then 1 else if j < c then - W j c else 0, fun hv => ?_,
    funext fun r => ?_⟩
  · have := congrFun hv c
    simp at this
  · have hterm : ∀ j, W r j * (if j = c then 1 else if j < c then - W j c else 0) =
        (if j = c then W r c else 0) + if j = r then (if r < c then - W r c else 0) else 0 := by
      intro j
      by_cases hjc : j = c
      · subst hjc
        rw [if_pos rfl, if_pos rfl, mul_one]
        by_cases hjr : j = r
        · rw [if_pos hjr, ← hjr, if_neg (lt_irrefl j), add_zero]
        · rw [if_neg hjr, add_zero]
      · rw [if_neg hjc, if_neg hjc, zero_add]
        by_cases hlt : j < c
        · rw [if_pos hlt, h j hlt r]
          by_cases hjr : j = r
          · rw [if_pos hjr.symm, if_pos hjr, one_mul, ← hjr, if_pos hlt]
          · rw [if_neg (Ne.symm hjr), if_neg hjr, zero_mul]
        · rw [if_neg hlt, mul_zero]
          by_cases hjr : j = r
          · rw [if_pos hjr, ← hjr, if_neg hlt]
          · rw [if_neg hjr]
    simp only [mulVec, dotProduct, hterm, sum_add_distrib, sum_ite_eq',
      mem_univ, if_true, Pi.zero_apply]
    by_cases hlt : r < c
    · rw [if_pos hlt, add_neg_cancel]
    · rw [if_neg hlt, add_zero, hnone r (not_lt.mp hlt)]

end RowOps
