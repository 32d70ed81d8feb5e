import Mathlib.Data.List.Sort
import Reffs.Ec.Mojette

/-!
# The geometry-driven inverse restores the grid

The leads that `kOff` gives the rows to be found make a staircase: from one row to the next they
change by the slope of the projection times the distance of the rows, known rows between them
included. The sweep therefore meets the pixels of every line in an order in which all but one of
them are known, and its first and last steps are wide enough for all columns. The inverses of the
source compute places, leads and bins in ints, those here in integers: `gdFits` says when they are
the same.
-/

namespace Reffs.Ec

open Function List Staircase

/-! ## Leads -/

/-- From one row to the next, a lead changes by the slope for every row in between. -/
def LeadStep (np : Nat) (p : Nat → Int) (missing : Nat → Nat) (lead : Nat → Int) (i : Nat) : Prop :=
  i + 1 < np → lead i - lead (i + 1) = p (i + 1) * ((missing (i + 1) : Int) - missing i)

section Leads

variable {np : Nat} {p : Nat → Int} {missing : Nat → Nat} {lead : Nat → Int} {i : Nat}

lemma kOffStep_self (hmono : missing i < missing (i + 1)) :
    LeadStep np p missing (kOffStep np p missing lead i) i := by
  intro hi
  have hne : i + 1 ≠ i := by omega
  unfold kOffStep
  split
  · grind
  · next hgap =>
    -- the rows are neighbours
    have hnext : (missing (i + 1) : Int) - missing i = 1 := by omega
    rw [update_self, update_of_ne hne, hnext]
    ring

lemma kOffStep_later {j : Nat} (hj : i < j) (h : LeadStep np p missing lead j) :
    LeadStep np p missing (kOffStep np p missing lead i) j := by
  intro hnp
  have hstep := h hnp
  unfold kOffStep
  split
  · grind
  · rw [update_of_ne (by omega), update_of_ne (by omega)]
    exact hstep

lemma foldl_kOffStep (hmono : ∀ i, i + 1 < np → missing i < missing (i + 1)) :
    ∀ (n : Nat) (lead : Nat → Int), n < np → (∀ j, n ≤ j → LeadStep np p missing lead j) →
      ∀ j, LeadStep np p missing ((range n).reverse.foldl (kOffStep np p missing) lead) j
  | 0, _, _, h, j => h j (Nat.zero_le j)
  | n + 1, lead, hn, h, j => by
    rw [range_succ, reverse_append, reverse_singleton, singleton_append, foldl_cons]
    refine foldl_kOffStep hmono n _ (by omega) (fun i hi => ?_) j
    rcases Nat.eq_or_lt_of_le hi with rfl | hlt
    · exact kOffStep_self (hmono n hn)
    · exact kOffStep_later hlt (h i hlt)

lemma kOff_step (hnp : 1 ≤ np) (hmono : ∀ i, i + 1 < np → missing i < missing (i + 1)) (i : Nat) :
    LeadStep np p missing (kOff np p missing) i := by
  unfold kOff
  refine foldl_kOffStep hmono (np - 1) _ (by omega) (fun j hj hlt => ?_) i
  omega

lemma leastTo_le (f : Nat → Int) : ∀ n l : Nat, l ≤ n → leastTo f n ≤ f l
  | 0, l, h => by
    obtain rfl : l = 0 := by omega
    exact le_refl _
  | n + 1, l, h => by
    rcases Nat.eq_or_lt_of_le h with rfl | hlt
    · exact min_le_right _ _
    · exact le_trans (min_le_left _ _) (leastTo_le f n l (by omega))

end Leads

/-! ## The sweep -/

section Sweep

variable {P Q np : Nat} {sorted : Nat → Projection} {missing : Nat → Nat} {orig : Grid}

def gdStairs (hnp : 1 ≤ np) (hslope : ∀ i j, i < j → j < np → (sorted j).dir.p < (sorted i).dir.p)
    (hmono : ∀ i j, i < j → j < np → missing i < missing j) : Staircase.Stairs where
  count := np
  slope := fun l => (sorted l).dir.p
  row := missing
  lead := kOff np (fun l => (sorted l).dir.p) missing
  slope_anti := hslope
  row_mono := hmono
  lead_step := kOff_step hnp fun i hi => hmono i (i + 1) (by omega) hi

lemma gdOthers_eq (p : Int) (grid : Grid) {y : Nat} (hy : y < Q) {x : Int} (hx : 0 ≤ x ∧ x < P) :
    gdOthers P Q p grid y x = otherSum P Q p grid y x := by
  unfold gdOthers
  by_cases hp : p = 0
  · rw [if_neg (not_not.mpr hp)]
    subst hp
    have hfin : (Finset.range Q).erase y = ((range Q).filter (· ≠ y)).toFinset := by
      ext i
      simp [and_comm]
    have hnodup : ((range Q).filter (· ≠ y)).Nodup := nodup_range.filter _
    unfold otherSum
    rw [hfin, sum_toFinset _ hnodup]
    refine congrArg sum (map_congr_left fun i _ => ?_)
    have hcol : column 0 x y i = x := by simp [column]
    rw [hcol, pixel, if_pos hx]
  · rw [if_pos hp]
    exact otherSum_eq p grid hy hx

def Projects (P Q : Nat) (orig : Grid) (pr : Projection) : Prop :=
  ∀ y, y < Q → ∀ x : Int, 0 ≤ x ∧ x < P →
    pr.bins ((y : Int) * pr.dir.p + x - mojBinOffset pr.dir P Q) =
      Staircase.lineSum P Q pr.dir.p orig y x

lemma gdSweep_restores (hnp : 1 ≤ np)
    (hslope : ∀ i j, i < j → j < np → (sorted j).dir.p < (sorted i).dir.p)
    (hmono : ∀ i j, i < j → j < np → missing i < missing j) (hrow : ∀ l < np, missing l < Q)
    (hproj : ∀ l < np, Projects P Q orig (sorted l)) {grid : Grid}
    (hknown : ∀ y < Q, (∀ l < np, missing l ≠ y) → ∀ x : Int, 0 ≤ x ∧ x < P → grid y x = orig y x) :
    ∀ y < Q, ∀ x : Int, 0 ≤ x ∧ x < P → gdSweep grid P Q sorted np missing y x = orig y x := by
  unfold gdSweep
  dsimp only
  -- with the staircase the sweep is the library's
  refine @Staircase.sweep_restores _ _ (gdStairs hnp hslope hmono) P Q orig _ _ _ grid ?_ ?_
    ?_ hknown
  · intro l hl
    exact neg_le_neg ((gdStairs hnp hslope hmono).lead_le_max hl)
  · intro l hl
    have hleast := leastTo_le (gdStairs hnp hslope hmono).lead (np - 1) l (Nat.le_sub_one_of_lt hl)
    exact sub_le_sub_left hleast _
  · intro g l x hl hx hothers
    show (sorted l).bins _ + gdOthers P Q (sorted l).dir.p g (missing l) x = orig (missing l) x
    have hothers' : otherSum P Q (sorted l).dir.p g (missing l) x =
        otherSum P Q (sorted l).dir.p orig (missing l) x := hothers
    rw [hproj l hl (missing l) (hrow l hl) x hx, gdOthers_eq _ g (hrow l hl) hx, hothers',
      lineSum_eq _ orig (hrow l hl) hx, add_comm (otherSum _ _ _ _ _ _)]
    exact Word.add_add_cancel _ _

end Sweep

/-! ## The order of the projections -/

section Order

variable {projs : List Projection}

lemma sortBySlope_perm (projs : List Projection) : (sortBySlope projs).Perm projs :=
  perm_insertionSort _ projs

lemma projAt_mem {l : Nat} (hl : l < projs.length) : projAt (sortBySlope projs) l ∈ projs := by
  have hlen : l < (sortBySlope projs).length := by rwa [(sortBySlope_perm projs).length_eq]
  unfold projAt
  rw [getD_eq_getElem _ _ hlen]
  exact (sortBySlope_perm projs).mem_iff.mp (getElem_mem hlen)

lemma projAt_slope (hnodup : (projs.map fun pr => pr.dir.p).Nodup) {i j : Nat} (hij : i < j)
    (hj : j < projs.length) :
    (projAt (sortBySlope projs) j).dir.p < (projAt (sortBySlope projs) i).dir.p := by
  have hjl : j < (sortBySlope projs).length := by rwa [(sortBySlope_perm projs).length_eq]
  have hil : i < (sortBySlope projs).length := by omega
  have hfall : (sortBySlope projs).Pairwise fun a b => b.dir.p ≤ a.dir.p := by
    refine @List.pairwise_insertionSort _ (fun a b : Projection => b.dir.p ≤ a.dir.p) _
      ⟨fun a b => le_total b.dir.p a.dir.p⟩ ⟨fun a b c hab hbc => le_trans hbc hab⟩ projs
  have hdistinct : ((sortBySlope projs).map fun pr => pr.dir.p).Nodup :=
    ((sortBySlope_perm projs).map _).nodup_iff.mpr hnodup
  unfold projAt
  rw [getD_eq_getElem _ _ hjl, getD_eq_getElem _ _ hil]
  refine lt_of_le_of_ne (pairwise_iff_getElem.mp hfall i j hil hjl hij) fun heq => ?_
  have hne := pairwise_iff_getElem.mp hdistinct i j (by simpa using hil) (by simpa using hjl) hij
  simp only [getElem_map] at hne
  exact hne heq.symm

end Order

/-! ## The inverses -/

lemma getD_lt_getD {missing : List Nat} (hmono : missing.Pairwise (· < ·)) {i j : Nat} (hij : i < j)
    (hj : j < missing.length) : missing.getD i 0 < missing.getD j 0 := by
  rw [getD_eq_getElem _ _ hj, getD_eq_getElem _ _ (hij.trans hj)]
  exact pairwise_iff_getElem.mp hmono i j (hij.trans hj) hj hij

/-- When `gdSweep` comes to a pixel, it has been at every other one that is to be found on the same
line. -/
def GdOrdered (P np : Nat) (p : Nat → Int) (missing : Nat → Nat) : Prop :=
  let lead := kOff np p missing
  ∀ done k l post,
    Staircase.turns (-max (lead 0) (lead (np - 1))) ((P : Int) - leastTo lead (np - 1)) np =
      done ++ (k, l) :: post →
    ∀ l', l' < np → l' ≠ l → 0 ≤ Staircase.column (p l) (k + lead l) (missing l) (missing l') →
      ∃ t ∈ done, t.2 = l' ∧
        t.1 + lead l' = Staircase.column (p l) (k + lead l) (missing l) (missing l')

/-! ## Ints -/

section Ints

variable {P Q np : Nat} {p : Nat → Int} {missing : Nat → Nat} {lead : Nat → Int} {i M : Nat}
    {B : Int}

/-- The leads after the first `n` rounds of the loop that computes them. -/
def kOffRounds (np : Nat) (p : Nat → Int) (missing : Nat → Nat) (n : Nat) : Nat → Int :=
  ((range (np - 1)).reverse.take n).foldl (kOffStep np p missing) fun l =>
    if l = np - 1 then kOffLast np p else 0

/-- What an inverse computes in ints is an int: the places of pixels, the leads, the columns, those
beside a column on a line, and the bins. -/
structure GdFits (P Q np : Nat) (p : Nat → Int) (missing : Nat → Nat) : Prop where
  place : ∀ y < Q, ∀ x < P, y * P + x < intEnd
  leads : ∀ n l, |kOffRounds np p missing n l| < intEnd
  columns : ∀ t ∈ turns (-max (kOff np p missing 0) (kOff np p missing (np - 1)))
    ((P : Int) - leastTo (kOff np p missing) (np - 1)) np,
    |t.1| < intEnd ∧ |t.1 + kOff np p missing t.2| < intEnd
  beside : ∀ l < np, ∀ x : Int, 0 ≤ x ∧ x < P → |x + p l| < intEnd ∧ |x - p l| < intEnd
  bins : ∀ l < np, ∀ x : Int, 0 ≤ x ∧ x < P → |mojBinOffset ⟨p l, 1⟩ P Q| < intEnd ∧
    |(missing l : Int) * p l + x| < intEnd ∧
    |(missing l : Int) * p l + x - mojBinOffset ⟨p l, 1⟩ P Q| < intEnd

lemma sum_part_le {f : Int → Int} (hf : ∀ x, 0 ≤ f x ∧ f x ≤ |x|) :
    ∀ {l : List Int}, (∀ x ∈ l, |x| ≤ M) → 0 ≤ (l.map f).sum ∧ (l.map f).sum ≤ l.length * M
  | [], _ => by simp
  | x :: l, h => by
    obtain ⟨hx, hl⟩ := forall_mem_cons.mp h
    have ih := sum_part_le hf hl
    have hfx := hf x
    rw [map_cons, sum_cons, length_cons, Nat.cast_succ, add_one_mul]
    omega

section

variable (hM : ∀ l < np, |p l| ≤ M)

include hM

lemma kOffLast_le (hnp : 1 ≤ np) : |kOffLast np p| ≤ np * M := by
  have hlast := hM (np - 1) (by omega)
  unfold kOffLast
  split
  · next hone =>
    subst hone
    simpa using hlast
  · next hne =>
    have hin : ∀ x ∈ (range (np - 2)).map fun i => p (i + 1), |x| ≤ M :=
      forall_mem_map.mpr fun i hi => hM _ (by have := mem_range.mp hi; omega)
    have hneg := sum_part_le (f := fun x => if x < 0 then -x else 0) (by grind) hin
    have hpos := sum_part_le (f := fun x => if x > 0 then x else 0) (by grind) hin
    have hlen : ((np - 2 : Nat) : Int) * M + 2 * M = np * M := by
      rw [← add_mul]
      congr 1
      omega
    rw [length_map, length_range] at hneg hpos
    dsimp only
    grind

lemma kOffStep_le (hi : i + 1 < np) (hmono : missing i < missing (i + 1)) (h : ∀ j, |lead j| ≤ B)
    (j : Nat) :
    |kOffStep np p missing lead i j| ≤ B + M * ((missing (i + 1) : Int) - missing i) := by
  have hp := hM _ hi
  have hj := h j
  have hnext := h (i + 1)
  have hM0 : (0 : Int) ≤ M := Int.natCast_nonneg M
  have hone : (M : Int) * 1 ≤ M * ((missing (i + 1) : Int) - missing i) :=
    mul_le_mul_of_nonneg_left (by omega) hM0
  have hgap : |((missing (i + 1) : Int) - missing i - 1) * p (i + 1)| + M ≤
      M * ((missing (i + 1) : Int) - missing i) := by
    have hmul :=
      mul_le_mul_of_nonneg_left hp (show 0 ≤ (missing (i + 1) : Int) - missing i - 1 by omega)
    rw [abs_mul, abs_of_nonneg (by omega)]
    linarith
  have hmoved : |update lead i (lead (i + 1) + p (i + 1)) j| ≤ B + M ∧
      (i + 1 ≤ j → |update lead i (lead (i + 1) + p (i + 1)) j| ≤ B) := by
    by_cases hji : j = i
    · subst hji
      rw [update_self]
      exact ⟨(abs_add_le _ _).trans (by omega), by omega⟩
    · rw [update_of_ne hji]
      exact ⟨by omega, fun _ => hj⟩
  unfold kOffStep
  split
  · dsimp only
    split
    · next hlater =>
      have hlead := hmoved.2 hlater.1
      exact (abs_sub _ _).trans (by omega)
    · omega
  · omega

variable (hmono : ∀ i j, i < j → j < np → missing i < missing j)

include hmono

lemma foldl_kOffStep_le : ∀ (n : Nat) (B : Int) (lead : Nat → Int), n < np →
    (∀ j, |lead j| ≤ B) → ∀ m j,
    |((range n).reverse.take m).foldl (kOffStep np p missing) lead j| ≤ B + M *
      ((missing n : Int) - missing 0)
  | 0, B, lead, _, h, m, j => by simpa using h j
  | n + 1, B, lead, hn, h, 0, j => by
    have hrow := hmono 0 (n + 1) (by omega) hn
    have hnonneg : 0 ≤ (M : Int) * ((missing (n + 1) : Int) - missing 0) :=
      mul_nonneg (by omega) (by omega)
    exact (h j).trans (by omega)
  | n + 1, B, lead, hn, h, m + 1, j => by
    rw [range_succ, reverse_append, reverse_singleton, singleton_append, take_succ_cons, foldl_cons]
    refine (foldl_kOffStep_le n _ _ (by omega) (kOffStep_le hM hn (hmono n (n + 1) (by omega) hn) h)
      m j).trans_eq ?_
    ring

variable (hnp : 1 ≤ np) (hrow : ∀ l < np, missing l < Q) (hcount : np ≤ Q)

include hnp hrow hcount

lemma kOffRounds_le (n l : Nat) : |kOffRounds np p missing n l| ≤ 2 * (Q * M) := by
  have hinit : ∀ j, |if j = np - 1 then kOffLast np p else 0| ≤ (np : Int) * M := by
    intro j
    split
    · exact kOffLast_le hM hnp
    · rw [abs_zero]
      positivity
  have hle := foldl_kOffStep_le hM hmono (np - 1) _ _ (by omega) hinit n l
  have hlast := hrow (np - 1) (by omega)
  have hfirst : (np : Int) * M ≤ Q * M := mul_le_mul_of_nonneg_right (by omega) (by omega)
  have hrest : (M : Int) * ((missing (np - 1) : Int) - missing 0) ≤ M * Q :=
    mul_le_mul_of_nonneg_left (by omega) (by omega)
  unfold kOffRounds
  linarith

lemma kOff_le (l : Nat) : |kOff np p missing l| ≤ 2 * (Q * M) := by
  have h := kOffRounds_le hM hmono hnp hrow hcount (np - 1) l
  rwa [kOffRounds, take_of_length_le (by simp)] at h

lemma gdFits (hgrid : P * Q ≤ intEnd) (hint : P + 4 * (Q * M) < intEnd) :
    GdFits P Q np p missing := by
  have hlead := fun l => abs_le.mp (kOff_le hM hmono hnp hrow hcount l)
  have hslope := fun l hl => abs_le.mp (hM l hl)
  have hM1 : (M : Int) ≤ Q * M := le_mul_of_one_le_left (by omega) (by omega)
  have hmul : ∀ l < np, ∀ y < Q, |(y : Int) * p l| ≤ Q * M := fun l hl y hy => by
    rw [abs_mul, Nat.abs_cast]
    exact mul_le_mul (by omega) (hM l hl) (abs_nonneg _) (by omega)
  have hoff : ∀ l < np, |mojBinOffset ⟨p l, 1⟩ P Q| ≤ Q * M := fun l hl => by
    have h := hmul l hl (Q - 1) (by omega)
    rw [Nat.cast_sub (by omega)] at h
    simp only [mojBinOffset]
    split
    · simpa [mul_comm] using h
    · simpa using show (0 : Int) ≤ Q * M by positivity
  have hleast : ∀ n, -(2 * (Q * M)) ≤ leastTo (kOff np p missing) n := fun n => by
    induction n with
    | zero => exact (hlead 0).1
    | succ n ih => exact le_min ih (hlead _).1
  have hgrid' : (P : Int) + 4 * (Q * M) < intEnd := by exact_mod_cast hint
  -- places, leads, columns of a turn, columns beside them, and bins
  refine ⟨fun y hy x hx => ?_, fun n l => ?_, fun t ht => ?_, fun l hl x hx => ?_,
    fun l hl x hx => ?_⟩
  · calc y * P + x < (y + 1) * P := by rw [add_one_mul]; omega
      _ ≤ Q * P := Nat.mul_le_mul_right P hy
      _ ≤ intEnd := by rw [Nat.mul_comm]; exact hgrid
  · have h := kOffRounds_le hM hmono hnp hrow hcount n l
    omega
  · obtain ⟨hlo, hhi, hl⟩ := mem_turns.mp ht
    have h0 := hlead 0
    have hlast := hlead (np - 1)
    have hl := hlead t.2
    have hleast := hleast (np - 1)
    rw [abs_lt, abs_lt]
    omega
  · have h := hslope l hl
    rw [abs_lt, abs_lt]
    omega
  · have hy := abs_le.mp (hmul l hl _ (hrow l hl))
    have hoff := abs_le.mp (hoff l hl)
    rw [abs_lt, abs_lt, abs_lt]
    omega

end
end Ints

section Inverse

variable {P Q : Nat} {orig : Grid} {projs : List Projection}

theorem mojInverseGd_restores (hP : 1 ≤ P) (hQ : 1 ≤ Q) (hlen : projs.length = Q)
    (hq : ∀ pr ∈ projs, pr.dir.q = 1) (hnodup : (projs.map fun pr => pr.dir.p).Nodup)
    (hproj : ∀ pr ∈ projs, Projects P Q orig pr) :
    ∃ out, mojInverseGd P Q projs = .ok out ∧ ∀ y < Q, ∀ x :
    Int, 0 ≤ x ∧ x < P → out y x = orig y x := by
  have hok : mojInverseGd P Q projs =
      .ok (gdSweep 0 P Q (projAt (sortBySlope projs)) projs.length fun l => l) := by
        grind [mojInverseGd]
  refine ⟨_, hok, ?_⟩
  refine gdSweep_restores (by omega) (fun i j hij hj => projAt_slope hnodup hij hj)
    (fun i j hij _ => hij) (fun l hl => by omega) (fun l hl => hproj _ (projAt_mem hl)) ?_
  intro y hy hnone
  exact absurd rfl (hnone y (by omega))

lemma length_le_of_rows {missing : List Nat} (hmono : missing.Pairwise (· < ·))
    (hrow : ∀ y ∈ missing, y < Q) : missing.length ≤ Q := by
  have hsub : missing ⊆ range Q := fun y hy => mem_range.mpr (hrow y hy)
  have hdistinct : missing.Nodup := hmono.imp fun h => Nat.ne_of_lt h
  simpa using (subperm_of_subset hdistinct hsub).length_le

/-- **As many projections as missing rows, and the other rows, restore the grid.** -/
theorem mojInverseGdSparse_restores {grid : Grid} {missing : List Nat} (hP : 1 ≤ P)
    (hlen : projs.length = missing.length) (hne : missing ≠ []) (hmono : missing.Pairwise (· < ·))
    (hrow : ∀ y ∈ missing, y < Q) (hq : ∀ pr ∈ projs, pr.dir.q = 1)
    (hnodup : (projs.map fun pr => pr.dir.p).Nodup) (hproj : ∀ pr ∈ projs, Projects P Q orig pr)
    (hknown : ∀ y < Q, y ∉ missing → ∀ x : Int, 0 ≤ x ∧ x < P → grid y x = orig y x) :
    ∃ out, mojInverseGdSparse grid P Q projs missing = .ok out ∧
      ∀ y < Q, ∀ x : Int, 0 ≤ x ∧ x < P → out y x = orig y x := by
  have hpos : 1 ≤ missing.length := length_pos_iff.mpr hne
  have hget : ∀ l < missing.length, missing.getD l 0 ∈ missing := by grind
  have hle := length_le_of_rows hmono hrow
  have hQ : 1 ≤ Q := by omega
  have hslopes : ¬ ∃ pr ∈ projs, pr.dir.q ≠ 1 := by grind
  have hrows : ¬ ∃ i ∈ range missing.length, Q ≤ missing.getD i 0 ∨
      (0 < i ∧ missing.getD i 0 ≤ missing.getD (i - 1) 0) := by
    rintro ⟨i, hi, hbad | ⟨hi0, hbad⟩⟩
    · have hlt := hrow _ (hget i (mem_range.mp hi))
      omega
    · have hlt := getD_lt_getD hmono (by omega : i - 1 < i) (mem_range.mp hi)
      omega
  have hok : mojInverseGdSparse grid P Q projs missing =
      .ok (gdSweep grid P Q (projAt (sortBySlope projs)) projs.length fun l =>
        missing.getD l 0) := by
    unfold mojInverseGdSparse
    rw [if_neg (by omega), if_neg hslopes, if_neg hrows]
  refine ⟨_, hok, ?_⟩
  refine gdSweep_restores (by omega) (fun i j hij hj => projAt_slope hnodup hij hj)
    (fun i j hij hj => getD_lt_getD hmono hij (by omega)) (fun l hl => hrow _ (hget l (by omega)))
    (fun l hl => hproj _ (projAt_mem hl)) ?_
  intro y hy hnone
  refine hknown y hy fun hmem => ?_
  obtain ⟨l, hl, heq⟩ := mem_iff_getElem.mp hmem
  refine hnone l (by omega) ?_
  rw [getD_eq_getElem _ _ hl]
  exact heq

lemma gdOrdered (hne : projs ≠ []) (hnodup : (projs.map fun pr => pr.dir.p).Nodup)
    {missing : Nat → Nat} (hmono : ∀ i j, i < j → j < projs.length → missing i < missing j) :
    GdOrdered P projs.length (fun l => (projAt (sortBySlope projs) l).dir.p) missing := by
  intro done k l post hturns l' hl' hne' hin
  let s := gdStairs (length_pos_iff.mpr hne) (fun i j hij hj => projAt_slope hnodup hij hj) hmono
  exact s.taken_before (fun l hl => neg_le_neg (s.lead_le_max hl)) hturns hl' hne' hin

/-- **Both inverses restore a grid from its projections**, the sparse one with the rows that are
known in place, and use a bin only when one pixel of its line is left to be found. No int that they
compute overflows when the grid has at most `2 ^ 31` pixels and the slopes, at most `M`, are not too
steep for its size. -/
theorem gdInverses_restore (hP : 1 ≤ P) (simd : Bool) (old : Direction → Words)
    (dirs : List Direction)
    (hq : ∀ d ∈ dirs, d.q = 1) (hnodup : (dirs.map Direction.p).Nodup) (missing : List Nat)
    (hlen : dirs.length = missing.length) (hne : missing ≠ []) (hmono : missing.Pairwise (· < ·))
    (hrow : ∀ y ∈ missing, y < Q) (M : Nat) (hM : ∀ d ∈ dirs, |d.p| ≤ M) (hgrid : P * Q ≤ intEnd)
    (hint : P + 4 * (Q * M) < intEnd) (grid : Grid)
    (hknown : ∀ y, y < Q → y ∉ missing → ∀ x : Int, 0 ≤ x ∧ x < P → grid y x = orig y x) :
    let projs := dirs.map fun d =>
      (⟨d, mojForward simd orig P Q d (mojProjectionSize d P Q) (old d)⟩ : Projection)
    let p := fun l => (projAt (sortBySlope projs) l).dir.p
    (∃ out, mojInverseGdSparse grid P Q projs missing = .ok out ∧
        ∀ y, y < Q → ∀ x : Int, 0 ≤ x ∧ x < P → out y x = orig y x) ∧
      GdOrdered P projs.length p (fun l => missing.getD l 0) ∧
      GdFits P Q projs.length p (fun l => missing.getD l 0) ∧
      (dirs.length = Q → (∃ out, mojInverseGd P Q projs = .ok out ∧
        ∀ y, y < Q → ∀ x : Int, 0 ≤ x ∧ x < P → out y x = orig y x) ∧
        GdOrdered P projs.length p (fun l => l) ∧ GdFits P Q projs.length p fun l => l) := by
  intro projs p
  have hpos : 1 ≤ missing.length := List.length_pos_iff.mpr hne
  have hcount : projs.length = dirs.length := List.length_map _
  have hslopes : (projs.map fun pr => pr.dir.p).Nodup := by
    rw [List.map_map]
    exact hnodup
  have hones : ∀ pr ∈ projs, pr.dir.q = 1 := List.forall_mem_map.mpr hq
  have hproj : ∀ pr ∈ projs, Projects P Q orig pr := by
    refine List.forall_mem_map.mpr fun d hd y hy x hx => ?_
    exact mojForward_apply simd orig (hq d hd) _ (by omega) (bin_mem (hq d hd) hy hx)
  have hsome : projs ≠ [] := by
    rw [← List.length_pos_iff]
    omega
  have hsteep : ∀ l < projs.length, |p l| ≤ M := fun l hl =>
    (List.forall_mem_map (P := fun pr : Projection => |pr.dir.p| ≤ M)).mpr hM _ (projAt_mem hl)
  have hlost : ∀ l < projs.length, missing.getD l 0 < Q := fun l hl => by
    rw [getD_eq_getElem _ _ (by omega)]
    exact hrow _ (getElem_mem _)
  have hrows : ∀ i j, i < j → j < projs.length → missing.getD i 0 < missing.getD j 0 :=
    fun i j hij hj => getD_lt_getD hmono hij (by omega)
  refine ⟨mojInverseGdSparse_restores hP (by omega) hne hmono hrow hones hslopes hproj hknown,
    gdOrdered hsome hslopes hrows,
    gdFits hsteep hrows (by omega) hlost
      (hcount.trans_le (hlen.trans_le (length_le_of_rows hmono hrow))) hgrid hint,
    fun hall => ⟨mojInverseGd_restores hP (by omega) (by omega) hones hslopes hproj,
      gdOrdered hsome hslopes fun _ _ hij _ => hij,
      gdFits hsteep (fun _ _ hij _ => hij) (by omega) (fun l hl => by omega) (by omega) hgrid hint⟩⟩

/-- Rows 0 and 2 of a grid of two columns from two projections and row 1. -/
theorem gdInverses_restore_two :
    let orig : Grid := fun y x => ⟨.ofInt (3 * y + x + 1)⟩
    let dirs : List Direction := [⟨1, 1⟩, ⟨-1, 1⟩]
    ∃ out, mojInverseGdSparse (fun y x => if y = 1 then orig y x else 0) 2 3
        (dirs.map fun d => ⟨d, mojForward true orig 2 3 d (mojProjectionSize d 2 3) 0⟩) [0, 2] =
          .ok out ∧
      ∀ y, y < 3 → ∀ x : Int, 0 ≤ x ∧ x < 2 → out y x = orig y x :=
  (gdInverses_restore (by decide) true 0 [⟨1, 1⟩, ⟨-1, 1⟩] (by decide) (by decide) [0, 2] rfl
    (by decide) (by decide)
    (by decide) 1 (by decide) (by decide) (by decide) _ (by grind)).1

/-- Bins without what is in the known rows are not what the sparse inverse is made for: here row 0
is known. -/
theorem sparse_residual_bins :
    let orig : Grid := fun y _ => if y = 0 then ⟨5⟩ else ⟨7⟩
    let unknown : Grid := fun y x => if y = 0 then 0 else orig y x
    let pr : Projection :=
      ⟨⟨0, 1⟩, mojForward false unknown 1 2 ⟨0, 1⟩ (mojProjectionSize ⟨0, 1⟩ 1 2) 0⟩
    ∃ out, mojInverseGdSparse orig 1 2 [pr] [1] = .ok out ∧ out 1 0 ≠ orig 1 0 := by
  refine ⟨_, rfl, ?_⟩
  decide

end Inverse

end Reffs.Ec
