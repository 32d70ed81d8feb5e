import Mathlib.Algebra.BigOperators.Intervals
import Mathlib.Tactic.Abel
import Mathlib.Tactic.Linarith
import Mathlib.Tactic.LinearCombination
import Mathlib.Tactic.Ring

/-!
# Rows of a grid from sums along lines

A grid of `Q` rows and `P` columns, over any commutative group. A line of slope `p` has one place in
every row, `p` columns further to the right with every row up; places outside the grid count as
nothing. When some rows of a grid are lost and there is a sum along every line of one slope for each
of them, the rows can be had back one pixel at a time: a pixel is the sum on its line less the other
pixels on it.

It is the order that matters. `Staircase` gives the lost rows, top to bottom, slopes that fall, and
moves all the rows in step, each with a lead that follows from the slopes.
-/

namespace Staircase

open Finset

variable {A : Type} [AddCommGroup A]

/-! ## Lines -/

/-- A pixel, and nothing outside the grid. -/
def pixel (P : Int) (grid : Nat → Int → A) (y : Nat) (x : Int) : A :=
  if 0 ≤ x ∧ x < P then grid y x else 0

/-- The place in row `y'` on the line of slope `p` through column `x` of row `y`. -/
def column (p x : Int) (y y' : Nat) : Int := x + ((y : Int) - y') * p

def lineSum (P : Int) (Q : Nat) (p : Int) (grid : Nat → Int → A) (y : Nat) (x : Int) : A :=
  ∑ y' ∈ Finset.range Q, pixel P grid y' (column p x y y')

/-- The sum on a line without the pixel in row `y`. -/
def otherSum (P : Int) (Q : Nat) (p : Int) (grid : Nat → Int → A) (y : Nat) (x : Int) : A :=
  ∑ y' ∈ (Finset.range Q).erase y, pixel P grid y' (column p x y y')

lemma lineSum_eq {P : Int} {Q : Nat} (p : Int) (grid : Nat → Int → A) {y : Nat} {x : Int}
    (hy : y < Q)
    (hx : 0 ≤ x ∧ x < P) : lineSum P Q p grid y x = otherSum P Q p grid y x + grid y x := by
  have hcol : column p x y y = x := by simp [column]
  rw [lineSum, ← sum_erase_add _ _ (mem_range.mpr hy), hcol, pixel, if_pos hx]
  rfl

/-! ## Walking along a line -/

/-- The sum on a line above row `y`, up to where it leaves the grid. -/
def upward (P p : Int) (grid : Nat → Int → A) : Nat → Int → A
  | 0, _ => 0
  | y + 1, x =>
    if 0 ≤ x + p ∧ x + p < P then grid y (x + p) + upward P p grid y (x + p) else 0

/-- The sum on a line below row `y`, with so many rows to go, down to where it leaves the grid. -/
def downward (P p : Int) (grid : Nat → Int → A) : Nat → Nat → Int → A
  | 0, _, _ => 0
  | n + 1, y, x =>
    if 0 ≤ x - p ∧ x - p < P then grid (y + 1) (x - p) + downward P p grid n (y + 1) (x - p) else 0

lemma outside_of_left {P x p : Int} (hx : 0 ≤ x ∧ x < P) (hout : ¬ (0 ≤ x + p ∧ x + p < P))
    {j : Int} (hj : 1 ≤ j) : ¬ (0 ≤ x + j * p ∧ x + j * p < P) := by
  intro hin
  rcases lt_trichotomy p 0 with hp | rfl | hp
  · have hle : j * p ≤ p := by nlinarith
    exact hout ⟨by omega, by omega⟩
  · exact hout (by simpa using hx)
  · have hle : p ≤ j * p := by nlinarith
    exact hout ⟨by omega, by omega⟩

lemma upward_eq (P p : Int) (grid : Nat → Int → A) : ∀ (y : Nat) (x : Int), 0 ≤ x ∧ x < P →
      upward P p grid y x = ∑ y' ∈ range y, pixel P grid y' (column p x y y')
  | 0, _, _ => by simp [upward]
  | y + 1, x, hx => by
    rw [upward, sum_range_succ]
    by_cases hin : 0 ≤ x + p ∧ x + p < P
    · have hlast : column p x (y + 1) y = x + p := by
        unfold column
        push_cast
        ring
      have hrest : ∀ y' : Nat, column p x (y + 1) y' = column p (x + p) y y' := by grind [column]
      rw [if_pos hin, upward_eq P p grid y (x + p) hin, hlast, pixel, if_pos hin, add_comm]
      simp only [hrest]
    · rw [if_neg hin]
      -- the line has left the grid, so that nothing above counts
      have hzero : ∀ y' : Nat, y' ≤ y → pixel P grid y' (column p x (y + 1) y') = 0 := by
        intro y' hy'
        refine if_neg (outside_of_left hx hin ?_)
        push_cast
        omega
      rw [hzero y (le_refl y), add_zero]
      exact (sum_eq_zero fun y' hy' =>
        hzero y' (Nat.le_of_lt (mem_range.mp hy'))).symm

lemma downward_eq (P p : Int) (grid : Nat → Int → A) : ∀ (n y : Nat) (x : Int), 0 ≤ x ∧ x < P →
      downward P p grid n y x = ∑ i ∈ range n, pixel P grid (y + 1 + i) (column p x y (y + 1 + i))
  | 0, _, _, _ => by simp [downward]
  | n + 1, y, x, hx => by
    rw [downward, sum_range_succ']
    by_cases hin : 0 ≤ x - p ∧ x - p < P
    · have hfirst : column p x y (y + 1 + 0) = x - p := by
        unfold column
        push_cast
        ring
      have hrest : ∀ i : Nat, column p x y (y + 1 + (i + 1)) =
          column p (x - p) (y + 1) (y + 1 + 1 + i) := by grind [column]
      rw [if_pos hin, downward_eq P p grid n (y + 1) (x - p) hin, hfirst, pixel, if_pos hin,
        add_comm]
      refine congrArg (· + grid (y + 1) (x - p)) (sum_congr rfl fun i _ => ?_)
      rw [hrest i, show y + 1 + (i + 1) = y + 1 + 1 + i from by omega]
    · rw [if_neg hin]
      have hneg : ¬ (0 ≤ x + -p ∧ x + -p < P) := by rwa [← sub_eq_add_neg]
      have hzero : ∀ i : Nat, pixel P grid (y + 1 + i) (column p x y (y + 1 + i)) = 0 := by
        intro i
        have hcol : column p x y (y + 1 + i) = x + ((1 : Int) + i) * -p := by grind [column]
        rw [hcol]
        exact if_neg (outside_of_left hx hneg (by omega))
      rw [hzero 0, add_zero]
      exact (sum_eq_zero fun i _ => hzero (i + 1)).symm

/-- **Walking up and walking down from a pixel sums up the others on its line.** -/
theorem otherSum_eq {P : Int} {Q : Nat} (p : Int) (grid : Nat → Int → A) {y : Nat} {x : Int}
    (hy : y < Q) (hx : 0 ≤ x ∧ x < P) :
    upward P p grid y x + downward P p grid (Q - 1 - y) y x = otherSum P Q p grid y x := by
  rw [upward_eq P p grid y x hx, downward_eq P p grid _ y x hx]
  have hsum : lineSum P Q p grid y x =
      ∑ y' ∈ range y, pixel P grid y' (column p x y y') + (grid y x + ∑ i ∈ range (Q - 1 - y),
          pixel P grid (y + 1 + i) (column p x y (y + 1 + i))) := by
    obtain ⟨n, rfl⟩ : ∃ n, Q = y + (n + 1) := ⟨Q - 1 - y, by omega⟩
    have hn : y + (n + 1) - 1 - y = n := by omega
    have hcol : column p x y (y + 0) = x := by simp [column]
    have hrow : ∀ i : Nat, y + (i + 1) = y + 1 + i := fun i => by omega
    rw [lineSum, sum_range_add, sum_range_succ', hn, hcol, pixel, if_pos hx, add_comm _ (grid _ _)]
    refine congrArg (∑ y' ∈ range y, pixel P grid y' (column p x y y') + ·)
      (congrArg (grid y x + ·) (sum_congr rfl fun i _ => ?_))
    rw [hrow i]
  have hsplit := lineSum_eq p grid hy hx
  rw [hsplit] at hsum
  have hcancel : otherSum P Q p grid y x + grid y x =
      (∑ y' ∈ range y, pixel P grid y' (column p x y y') +
        ∑ i ∈ range (Q - 1 - y), pixel P grid (y + 1 + i) (column p x y (y + 1 + i))) +
        grid y x := by
    rw [hsum]
    abel
  exact (add_right_cancel hcancel).symm

/-! ## The order of the pixels -/

/-- Lost rows `row`, from the top down, with falling slopes and leads to match. -/
structure Stairs where
  count : Nat
  slope : Nat → Int
  row : Nat → Nat
  lead : Nat → Int
  slope_anti : ∀ i j, i < j → j < count → slope j < slope i
  row_mono : ∀ i j, i < j → j < count → row i < row j
  lead_step : ∀ i, i + 1 < count →
    lead i - lead (i + 1) = slope (i + 1) * ((row (i + 1) : Int) - row i)

namespace Stairs

variable (s : Stairs)

/-- How much later than pixel `l` its line's pixel in row `l'` has its turn. -/
def delay (l l' : Nat) : Int := s.lead l - s.lead l' + ((s.row l : Int) - s.row l') * s.slope l

lemma delay_self (l : Nat) : s.delay l l = 0 := by
  unfold delay
  ring

lemma delay_succ (l l' : Nat) (h : l' + 1 < s.count) : s.delay l (l' + 1) = s.delay l l' +
      (s.slope (l' + 1) - s.slope l) * ((s.row (l' + 1) : Int) - s.row l') := by
  have hstep := s.lead_step l' h
  unfold delay
  linear_combination hstep

lemma row_step (l : Nat) (h : l + 1 < s.count) : 0 < (s.row (l + 1) : Int) - s.row l := by
  have hlt := s.row_mono l (l + 1) (by omega) h
  omega

lemma delay_below (l : Nat) : ∀ d : Nat, l + (d + 1) < s.count → s.delay l (l + (d + 1)) < 0
  | 0, h => by
    rw [show l + (0 + 1) = l + 1 from by omega, s.delay_succ l l (by omega), s.delay_self]
    have hrow := s.row_step l (by omega)
    have hslope := s.slope_anti l (l + 1) (by omega) (by omega)
    nlinarith
  | d + 1, h => by
    have ih := delay_below l d (by omega)
    rw [show l + (d + 1 + 1) = l + (d + 1) +
      1 from by omega, s.delay_succ l (l + (d + 1)) (by omega)]
    have hrow := s.row_step (l + (d + 1)) (by omega)
    have hslope := s.slope_anti l (l + (d + 1) + 1) (by omega) (by omega)
    nlinarith

lemma delay_above (l' : Nat) : ∀ d : Nat, l' + d < s.count → s.delay (l' + d) l' ≤ 0 := by
  -- the induction goes up from `l'` with the last row held fixed
  have key : ∀ (l d l' : Nat), l' + d = l → l < s.count → s.delay l l' ≤ 0 := by
    intro l d
    induction d with
    | zero =>
      intro l' hl' hl
      obtain rfl : l' = l := hl'
      exact le_of_eq (s.delay_self l')
    | succ d ih =>
      intro l' hl' hl
      have hnext := ih (l' + 1) (by omega) hl
      rw [s.delay_succ l l' (by omega)] at hnext
      have hrow := s.row_step l' (by omega)
      have hslope : s.slope l ≤ s.slope (l' + 1) := by
        rcases Nat.eq_or_lt_of_le (show l' + 1 ≤ l by omega) with heq | hlt
        · rw [heq]
        · exact le_of_lt (s.slope_anti _ _ hlt hl)
      nlinarith
  intro d h
  exact key (l' + d) d l' rfl h

/-- **Every other lost pixel on the line of a pixel has its turn before it.** -/
theorem earlier {l l' : Nat} (hl : l < s.count) (hl' : l' < s.count) (hne : l' ≠ l) :
    s.delay l l' < 0 ∨ s.delay l l' ≤ 0 ∧ l' < l := by
  rcases Nat.lt_or_gt_of_ne hne with hlt | hgt
  · obtain ⟨d, rfl⟩ : ∃ d, l = l' + d := ⟨l - l', by omega⟩
    exact .inr ⟨s.delay_above l' d hl, hlt⟩
  · obtain ⟨d, rfl⟩ : ∃ d, l' = l + (d + 1) := ⟨l' - l - 1, by omega⟩
    exact .inl (s.delay_below l d hl')

lemma lead_le_first : ∀ l : Nat, l < s.count → 0 ≤ s.slope l → s.lead l ≤ s.lead 0
  | 0, _, _ => le_refl _
  | l + 1, hl, hp => by
    have hslope := s.slope_anti l (l + 1) (by omega) hl
    have ih := lead_le_first l (by omega) (by omega)
    have hstep := s.lead_step l hl
    have hrow := s.row_step l hl
    nlinarith

lemma lead_le_last (l : Nat) : ∀ d : Nat, l + d < s.count → s.slope l ≤ 0 →
    s.lead l ≤ s.lead (l + d)
  | 0, _, _ => le_refl _
  | d + 1, h, hp => by
    have ih := lead_le_last l d (by omega) hp
    have hslope := s.slope_anti l (l + d + 1) (by omega) (by omega)
    have hstep := s.lead_step (l + d) (by omega)
    have hrow := s.row_step (l + d) (by omega)
    rw [show l + (d + 1) = l + d + 1 from by omega]
    nlinarith

lemma lead_le_max {l : Nat} (hl : l < s.count) :
    s.lead l ≤ max (s.lead 0) (s.lead (s.count - 1)) := by
  rcases le_total 0 (s.slope l) with hp | hp
  · exact le_trans (s.lead_le_first l hl hp) (le_max_left _ _)
  · have hlast := s.lead_le_last l (s.count - 1 - l) (by omega) hp
    rw [show l + (s.count - 1 - l) = s.count - 1 from by omega] at hlast
    exact le_trans hlast (le_max_right _ _)

end Stairs

/-! ## The sweep -/

/-- One turn: the pixel of the lost row `l` at time `k`, when it is in the grid. -/
def turn (row : Nat → Nat) (lead : Nat → Int) (P : Int) (value : (Nat → Int → A) → Nat → Int → A)
    (grid : Nat → Int → A) (t : Int × Nat) : Nat → Int → A :=
  let x := t.1 + lead t.2
  if 0 ≤ x ∧ x < P then
    fun y x' => if y = row t.2 ∧ x' = x then value grid t.2 x else grid y x'
  else grid

/-- All turns, with time first and the rows from the top down. -/
def turns (lo hi : Int) (count : Nat) : List (Int × Nat) :=
  (List.range (hi - lo).toNat).flatMap fun (i : Nat) =>
    (List.range count).map fun l => (lo + (i : Int), l)

lemma mem_turns {lo hi : Int} {count : Nat} {t : Int × Nat} :
    t ∈ turns lo hi count ↔ lo ≤ t.1 ∧ t.1 < hi ∧ t.2 < count := by
  obtain ⟨k, l⟩ := t
  simp only [turns, List.mem_flatMap, List.mem_range, List.mem_map, Prod.mk.injEq]
  constructor
  · rintro ⟨i, hi', l', hl', rfl, rfl⟩
    exact ⟨by omega, by omega, hl'⟩
  · rintro ⟨hlo, hhi, hl⟩
    exact ⟨(k - lo).toNat, by omega, l, hl, by omega, rfl⟩

/-- Which of two turns comes first. -/
def Before (t u : Int × Nat) : Prop := t.1 < u.1 ∨ t.1 = u.1 ∧ t.2 < u.2

lemma turns_pairwise (lo hi : Int) (count : Nat) : (turns lo hi count).Pairwise Before := by
  unfold turns
  rw [List.pairwise_flatMap]
  constructor
  · intro i _
    rw [List.pairwise_map]
    exact List.Pairwise.imp (fun h => .inr ⟨rfl, h⟩) List.pairwise_lt_range
  · refine List.Pairwise.imp ?_ List.pairwise_lt_range
    intro i j hij t ht u hu
    obtain ⟨l, -, rfl⟩ := List.mem_map.mp ht
    obtain ⟨l', -, rfl⟩ := List.mem_map.mp hu
    exact .inl (by dsimp only; omega)

lemma mem_of_before {lo hi : Int} {count : Nat} {pre post : List (Int × Nat)} {t u : Int × Nat}
    (h : turns lo hi count = pre ++ u :: post) (ht : t ∈ turns lo hi count) (hb : Before t u) :
    t ∈ pre := by
  have hpair := turns_pairwise lo hi count
  rw [h] at ht hpair
  rcases List.mem_append.mp ht with hpre | hpost
  · exact hpre
  · exfalso
    have htail := (List.pairwise_append.mp hpair).2.1
    rcases List.mem_cons.mp hpost with rfl | hpost
    · rcases hb with hlt | ⟨-, hlt⟩
      · exact lt_irrefl _ hlt
      · exact lt_irrefl _ hlt
    · rcases (List.pairwise_cons.mp htail).1 t hpost, hb with ⟨h1 | ⟨h1, h2⟩, h3 | ⟨h3, h4⟩⟩
        <;> omega

lemma foldl_prefix {S G : Type} (f : G → S → G) (I : List S → G → Prop) :
    ∀ (post pre : List S) (g : G), I pre g →
      (∀ pre' s post' g', pre ++ post = pre' ++ s :: post' → I pre' g' → I (pre' ++ [s]) (f g' s)) →
      I (pre ++ post) (post.foldl f g)
  | [], pre, g, h, _ => by simpa using h
  | s :: post, pre, g, h, hstep => by
    have hnext := hstep pre s post g rfl h
    have hrest := foldl_prefix f I post (pre ++ [s]) (f g s) hnext
      (fun pre' s' post' g' heq => hstep pre' s' post' g' (by simpa using heq))
    simpa using hrest

/-- The known rows, and the pixels whose turn has been, are as in `orig`. -/
structure Restored (s : Stairs) (P : Int) (Q : Nat) (orig : Nat → Int → A) (done : List (Int × Nat))
    (grid : Nat → Int → A) : Prop where
  known : ∀ y, y < Q → (∀ l, l < s.count → s.row l ≠ y) → ∀ x, 0 ≤ x ∧ x < P → grid y x = orig y x
  taken : ∀ t ∈ done, 0 ≤ t.1 + s.lead t.2 ∧ t.1 + s.lead t.2 < P →
    grid (s.row t.2) (t.1 + s.lead t.2) = orig (s.row t.2) (t.1 + s.lead t.2)

section Sweep

variable {s : Stairs} {P : Int} {Q : Nat} {orig : Nat → Int → A} {lo hi : Int}

lemma Stairs.taken_before (s : Stairs) {done post : List (Int × Nat)} {k : Int} {l l' : Nat}
    (hlo : ∀ l < s.count, lo ≤ - s.lead l) (hturns : turns lo hi s.count = done ++ (k, l) :: post)
    (hl' : l' < s.count) (hne : l' ≠ l)
    (hin : 0 ≤ column (s.slope l) (k + s.lead l) (s.row l) (s.row l')) : ∃ t ∈ done, t.2 = l' ∧
      t.1 + s.lead l' = column (s.slope l) (k + s.lead l) (s.row l) (s.row l') := by
  have hmem : (k, l) ∈ turns lo hi s.count := by grind
  obtain ⟨hk, hkhi, hl⟩ : lo ≤ k ∧ k < hi ∧ l < s.count := mem_turns.mp hmem
  -- the turn of that pixel, by its lead
  have hcol :
      column (s.slope l) (k + s.lead l) (s.row l) (s.row l') = (k + s.delay l l') + s.lead l' := by
    unfold column Stairs.delay
    ring
  have hearly : Before (k + s.delay l l', l') (k, l) := by
    rcases s.earlier hl hl' hne with hlt | ⟨hle, hlt⟩
    · exact .inl (by dsimp only; omega)
    · rcases lt_or_eq_of_le hle with hneg | hzero
      · exact .inl (by dsimp only; omega)
      · exact .inr ⟨by dsimp only; omega, hlt⟩
  have hdelay : s.delay l l' ≤ 0 := by
    rcases s.earlier hl hl' hne with hlt | ⟨hle, -⟩
    · exact le_of_lt hlt
    · exact hle
  rw [hcol] at hin ⊢
  have hfirst := hlo l' hl'
  have hturn : (k + s.delay l l', l') ∈ turns lo hi s.count :=
    mem_turns.mpr ⟨by dsimp only; omega, by dsimp only; omega, hl'⟩
  exact ⟨_, mem_of_before hturns hturn hearly, rfl, rfl⟩

lemma Restored.otherSum {done post : List (Int × Nat)} {grid : Nat → Int → A} {k : Int} {l : Nat}
    (h : Restored s P Q orig done grid) (hlo : ∀ l < s.count, lo ≤ - s.lead l)
    (hturns : turns lo hi s.count = done ++ (k, l) :: post) :
    Staircase.otherSum P Q (s.slope l) grid (s.row l) (k + s.lead l) =
      Staircase.otherSum P Q (s.slope l) orig (s.row l) (k + s.lead l) := by
  unfold Staircase.otherSum
  refine sum_congr rfl fun y' hy' => ?_
  obtain ⟨hne, hyQ⟩ := mem_erase.mp hy'
  unfold pixel
  by_cases hin : 0 ≤ column (s.slope l) (k + s.lead l) (s.row l) y' ∧
      column (s.slope l) (k + s.lead l) (s.row l) y' < P
  · rw [if_pos hin, if_pos hin]
    by_cases hlost : ∃ l', l' < s.count ∧ s.row l' = y'
    · obtain ⟨l', hl', rfl⟩ := hlost
      obtain ⟨t, ht, rfl, hcol⟩ :=
        s.taken_before hlo hturns hl' (fun heq => hne (by rw [heq])) hin.1
      rw [← hcol] at hin ⊢
      exact h.taken t ht hin
    · exact h.known y' (mem_range.mp hyQ) (fun l' hl' heq => hlost ⟨l', hl', heq⟩) _ hin
  · rw [if_neg hin, if_neg hin]

/-- **A sweep restores the grid**, when the value it gives a pixel is the right one as soon as the
others on its line are, and when it starts early enough and goes on for long enough. -/
theorem sweep_restores {value : (Nat → Int → A) → Nat → Int → A} {grid : Nat → Int → A}
    (hlo : ∀ l < s.count, lo ≤ - s.lead l) (hhi : ∀ l < s.count, P - s.lead l ≤ hi)
    (hvalue : ∀ g l x, l < s.count → 0 ≤ x ∧ x < P →
      otherSum P Q (s.slope l) g (s.row l) x = otherSum P Q (s.slope l) orig (s.row l) x →
      value g l x = orig (s.row l) x)
    (hknown : ∀ y < Q, (∀ l < s.count, s.row l ≠ y) → ∀ x, 0 ≤ x ∧ x < P → grid y x = orig y x) :
    ∀ y < Q, ∀ x, 0 ≤ x ∧ x < P →
      ((turns lo hi s.count).foldl (turn s.row s.lead P value) grid) y x = orig y x := by
  have hfold :=
    foldl_prefix (turn s.row s.lead P value) (Restored s P Q orig) (turns lo hi s.count) [] grid
    ⟨hknown, fun t ht => absurd ht List.not_mem_nil⟩ (by
      rintro pre ⟨k, l⟩ post g heq hg
      have hmem : (k, l) ∈ turns lo hi s.count := by grind
      have hl := (mem_turns.mp hmem).2.2
      have hother := hg.otherSum hlo (by simpa using heq)
      unfold turn
      dsimp only
      by_cases hx : 0 ≤ k + s.lead l ∧ k + s.lead l < P
      · rw [if_pos hx]
        have hval := hvalue g l (k + s.lead l) hl hx hother
        constructor
        · intro y hy hnot x hx'
          rw [if_neg (fun h => hnot l hl h.1.symm)]
          exact hg.known y hy hnot x hx'
        · intro t ht htx
          split
          · next hsame => rw [hval, hsame.1, hsame.2]
          · next hdiff =>
            rcases List.mem_append.mp ht with hpre | hlast
            · exact hg.taken t hpre htx
            · grind
      · rw [if_neg hx]
        refine ⟨hg.known, fun t ht htx => ?_⟩
        rcases List.mem_append.mp ht with hpre | hlast
        · exact hg.taken t hpre htx
        · obtain rfl := List.mem_singleton.mp hlast
          exact absurd htx hx)
  rw [List.nil_append] at hfold
  intro y hy x hx
  by_cases hlost : ∃ l < s.count, s.row l = y
  · obtain ⟨l, hl, rfl⟩ := hlost
    have h1 := hlo l hl
    have h2 := hhi l hl
    have hturn : (x - s.lead l, l) ∈ turns lo hi s.count :=
      mem_turns.mpr ⟨by dsimp only; omega, by dsimp only; omega, hl⟩
    have htaken := hfold.taken _ hturn
    simp only [sub_add_cancel] at htaken
    exact htaken hx
  · exact hfold.known y hy (fun l hl heq => hlost ⟨l, hl, heq⟩) x hx

end Sweep

end Staircase
