import Mathlib.Algebra.BigOperators.Fin
import Mathlib.Data.Fintype.BigOperators

/-!
# Counting the threads at a place

The state of a system of threads gives every thread its place, and shared counters count the threads
at some of the places. `tally` is such a count; `tally_update` says what it becomes when one thread
moves.
-/

namespace Tally

open Function Finset

variable {ι α : Type} [Fintype ι]

/-- The number of threads whose place meets `p`. -/
def tally (p : α → Bool) (f : ι → α) : Nat := ∑ i, (p (f i)).toNat

variable {p : α → Bool} {f : ι → α}

lemma tally_update [DecidableEq ι] (i : ι) (a : α) :
    tally p (update f i a) + (p (f i)).toNat = tally p f + (p a).toNat := by
  unfold tally
  rw [← add_sum_erase univ (fun j => (p (f j)).toNat) (mem_univ i),
    ← add_sum_erase univ (fun j => (p (update f i a j)).toNat)
      (mem_univ i), update_self]
  have hrest : ∑ j ∈ univ.erase i, (p (update f i a j)).toNat =
      ∑ j ∈ univ.erase i, (p (f j)).toNat :=
    sum_congr rfl fun j hj => by rw [update_of_ne (ne_of_mem_erase hj)]
  rw [hrest]
  omega

lemma tally_eq_zero : tally p f = 0 ↔ ∀ i, p (f i) = false := by
  simp [tally]

lemma tally_pos {i : ι} (h : p (f i)) : 0 < tally p f := by
  by_contra hzero
  have hnone := tally_eq_zero.mp (show tally p f = 0 by omega) i
  exact absurd (h.symm.trans hnone) (by decide)

end Tally
