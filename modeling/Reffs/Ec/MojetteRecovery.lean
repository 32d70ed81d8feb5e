import Reffs.Ec.MojetteEncoding

/-!
# What Mojette decoding restores

Any `k` projections of the non-systematic encoding restore the rows, as long as the grid can be
indexed by ints (`nonsysRestores_iff`). The systematic decoder restores lost data from as many
projections, and lost parity by encoding again, but it does only one of the two: parity that is lost
together with data stays as it was (`sysRestores_of_loss`).
-/

namespace Reffs.Ec

open List

namespace MojetteEncoding

variable {e : MojetteEncoding} {simd : Bool} {shardLen : Nat} {present : Nat → Bool}

/-! ## The non-systematic encoding -/

/-- Encoding works, and every `k` shards give the rows back, whatever the buffers of the others
hold. -/
def NonsysRestores (e : MojetteEncoding) (simd : Bool) (shardLen : Nat) : Prop :=
  ∀ data parity : Nat → Words, ∃ shards, e.nonsysEncode simd data parity shardLen = .ok shards ∧
    ∀ (present : Nat → Bool) (stale : Nat → Words), e.k ≤ (e.indices present).length →
      ∃ out, e.nonsysDecode (fun i => if present i then shards i else stale i) present shardLen =
        .ok out ∧
        ∀ i, i < e.k → ∀ x : Int, 0 ≤ x ∧ x < (shardLen / 8 : Nat) → out i x = data i x

lemma gridP_ok (h : shardLen / 8 < intEnd) : gridP shardLen = .ok (shardLen / 8) := if_pos h

lemma gridP_overflow (h : ¬ shardLen / 8 < intEnd) : gridP shardLen = .error .overflow := if_neg h

lemma mem_indices {i : Nat} : i ∈ e.indices present ↔ i < e.k + e.m ∧ present i := by
  unfold indices
  rw [mem_filter, mem_range]

lemma nodup_indices : (e.indices present).Nodup := nodup_range.filter _

lemma nonsysEncode_ok (data parity : Nat → Words) (hP : shardLen / 8 < intEnd)
    (hfits : ∀ i < e.k + e.m, e.nbins (shardLen / 8) i < intEnd) :
    e.nonsysEncode simd data parity shardLen =
      .ok (e.nonsysShards simd data parity (shardLen / 8)) := by
  unfold nonsysEncode
  rw [gridP_ok hP]
  refine if_neg ?_
  rintro ⟨i, hi, hbad⟩
  have hlt := hfits i (mem_range.mp hi)
  omega

lemma nonsysShards_projects (data parity : Nat → Words) (P i : Nat) :
    Projects P e.k data ⟨e.dir i, e.nonsysShards simd data parity P i⟩ := by
  unfold nonsysShards
  by_cases hi : i < e.k
  · rw [if_pos hi]
    exact Projects.congr e (e.project_projects simd data P i 0) fun b hb => if_pos hb
  · rw [if_neg hi]
    exact e.project_projects simd data P i _

lemma nonsysDecode_restores {data shards given : Nat → Words} (hlen : 1 ≤ shardLen / 8)
    (hP : shardLen / 8 < intEnd) (hgrid : shardLen / 8 * e.k ≤ intEnd)
    (hproj : ∀ i, Projects (shardLen / 8) e.k data ⟨e.dir i, shards i⟩)
    (hgiven : ∀ i, present i → given i = shards i) (hk : e.k ≤ (e.indices present).length) :
    ∃ out, e.nonsysDecode given present shardLen = .ok out ∧
      ∀ i < e.k, ∀ x : Int, 0 ≤ x ∧ x < (shardLen / 8 : Nat) → out i x = data i x := by
  -- the first shards that are there
  have hmem : ∀ i ∈ (e.indices present).take e.k, i < e.k + e.m ∧ present i := fun i hi =>
    mem_indices.mp (mem_of_mem_take hi)
  have hnodup : ((e.indices present).take e.k).Nodup := nodup_indices.sublist (take_sublist _ _)
  obtain ⟨grid, hgd, hrows⟩ := @mojInverseGd_restores (shardLen / 8) e.k data
    (((e.indices present).take e.k).map fun i => ⟨e.dir i, given i⟩) hlen e.k_pos
    (by simp only [length_map, length_take]; omega)
    (by
      intro pr hpr
      obtain ⟨i, -, rfl⟩ := mem_map.mp hpr
      exact e.dir_q i)
    (e.nodup_slopes _ hnodup (fun i => i) (fun _ _ h => h) _)
    (by
      intro pr hpr
      obtain ⟨i, hi, rfl⟩ := mem_map.mp hpr
      rw [hgiven i (hmem i hi).2]
      exact hproj i)
  have hok : e.nonsysDecode given present shardLen =
      .ok fun i => if i < e.k then copyWords (grid i) (given i) (shardLen / 8) else given i := by
    have hfits : ¬ ((∃ i ∈ (e.indices present).take e.k,
        (intEnd : Int) ≤ e.nbins (shardLen / 8) i) ∨ intEnd < shardLen / 8 * e.k) := by
      rintro (⟨i, hi, hbad⟩ | hbad)
      · have hlt := e.nbins_lt hP hgrid (hmem i hi).1
        omega
      · omega
    unfold nonsysDecode
    rw [if_neg (by omega), gridP_ok hP]
    show (if _ then _ else _) = _
    rw [if_neg hfits, hgd]
  refine ⟨_, hok, fun i hi x hx => ?_⟩
  rw [if_pos hi, copyWords, if_pos hx]
  exact hrows i hi x hx

lemma nonsysDecode_beyond {given : Nat → Words} (hk : e.k ≤ (e.indices present).length)
    (hP : shardLen / 8 < intEnd) (hover : intEnd < shardLen / 8 * e.k) :
    e.nonsysDecode given present shardLen = .error .overflow := by
  unfold nonsysDecode
  rw [if_neg (by omega), gridP_ok hP]
  show (if _ then _ else _) = _
  exact if_pos (.inr hover)

lemma length_indices_all (e : MojetteEncoding) : (e.indices fun _ => true).length = e.k + e.m := by
  simp [indices]

/-- **The non-systematic encoding restores the rows from any `k` shards exactly when ints can index
the grid.** -/
theorem nonsysRestores_iff (e : MojetteEncoding) (simd : Bool) (shardLen : Nat)
    (hpos : 0 < shardLen) (hmul : 8 ∣ shardLen) :
    NonsysRestores e simd shardLen ↔ shardLen / 8 < intEnd ∧ shardLen / 8 * e.k ≤ intEnd := by
  have hlen : 1 ≤ shardLen / 8 := by omega
  constructor
  · intro h
    obtain ⟨shards, henc, hdec⟩ := h (fun _ => 0) (fun _ => 0)
    have hP : shardLen / 8 < intEnd := by
      by_contra hbad
      unfold nonsysEncode at henc
      rw [gridP_overflow hbad] at henc
      cases henc
    refine ⟨hP, ?_⟩
    by_contra hbad
    have hall : e.k ≤ (e.indices fun _ => true).length := by grind [e.length_indices_all]
    obtain ⟨out, hout, -⟩ := hdec (fun _ => true) (fun _ => 0) hall
    rw [nonsysDecode_beyond hall hP (by omega)] at hout
    cases hout
  · rintro ⟨hP, hgrid⟩ data parity
    refine ⟨_, nonsysEncode_ok data parity hP (fun i hi => e.nbins_lt hP hgrid hi), ?_⟩
    intro present stale hk
    exact nonsysDecode_restores hlen hP hgrid (nonsysShards_projects data parity _)
      (fun i hi => if_pos hi) hk

def twoAndOne : MojetteEncoding := ⟨2, 1, by decide, by decide, by decide⟩

theorem nonsysRestores_oneWord : NonsysRestores twoAndOne true 8 :=
  (nonsysRestores_iff twoAndOne true 8 (by decide) (by decide)).mpr ⟨by decide, by decide⟩

/-- Two rows of `2 ^ 30 + 1` words are encoded, but the place of their last word is no int. -/
theorem nonsysDecode_overflow : ∃ shards,
    twoAndOne.nonsysEncode true (fun _ => 0) (fun _ => 0) (8 * (2 ^ 30 + 1)) = .ok shards ∧
    twoAndOne.nonsysDecode shards (fun _ => true) (8 * (2 ^ 30 + 1)) = .error .overflow := by
  have hP : 8 * (2 ^ 30 + 1) / 8 = 2 ^ 30 + 1 := by norm_num
  refine ⟨_, nonsysEncode_ok _ _ (by rw [hP]; decide) (by rw [hP]; decide), ?_⟩
  exact nonsysDecode_beyond (by decide) (by rw [hP]; decide) (by rw [hP]; decide)

/-! ## The systematic encoding -/

def stripe (e : MojetteEncoding) (data parity : Nat → Words) : Nat → Words := fun i =>
  if i < e.k then data i else parity (i - e.k)

/-- `out` holds every missing shard of a stripe. -/
def Holds (e : MojetteEncoding) (shardLen : Nat) (present : Nat → Bool) (shards out : Nat → Words) :
    Prop :=
  ∀ i, i < e.k + e.m → present i = false →
    ∀ b : Int, 0 ≤ b ∧ b < e.shardSize true (shardLen / 8) i → out i b = shards i b

/-- Encoding works, and decoding brings every missing shard back, whatever its buffer held. -/
def SysRestores (e : MojetteEncoding) (simd : Bool) (shardLen : Nat) (present : Nat → Bool) :
    Prop :=
  ∀ data old : Nat → Words, ∃ parity, e.sysEncode simd data old shardLen = .ok parity ∧
    ∀ stale : Nat → Words, ∃ out,
      e.sysDecode simd (fun i => if present i then e.stripe data parity i else stale i) present
        shardLen = .ok out ∧ e.Holds shardLen present (e.stripe data parity) out

def EncodeFits (e : MojetteEncoding) (shardLen : Nat) : Prop :=
  shardLen / 8 < intEnd ∧ ∀ i, i < e.m → e.nbins (shardLen / 8) (e.k + i) < (intEnd : Int)

lemma sysEncode_ok (data old : Nat → Words) (h : e.EncodeFits shardLen) :
    e.sysEncode simd data old shardLen =
      .ok fun i => e.project simd data (shardLen / 8) (e.k + i) (old i) := by
  unfold sysEncode
  rw [gridP_ok h.1]
  refine if_neg ?_
  rintro ⟨i, hi, hbad⟩
  have hlt := h.2 i (mem_range.mp hi)
  omega

lemma encodeFits_of_sysEncode {data old parity : Nat → Words}
    (h : e.sysEncode simd data old shardLen = .ok parity) : e.EncodeFits shardLen := by
  unfold sysEncode at h
  by_cases hP : shardLen / 8 < intEnd
  · rw [gridP_ok hP] at h
    have hif : (if ∃ i ∈ range e.m, (intEnd : Int) ≤ e.nbins (shardLen / 8) (e.k + i) then
        Except.error Fault.overflow else _) = Except.ok parity := h
    by_cases hbad : ∃ i ∈ range e.m, (intEnd : Int) ≤ e.nbins (shardLen / 8) (e.k + i)
    · rw [if_pos hbad] at hif
      cases hif
    · refine ⟨hP, fun i hi => ?_⟩
      by_contra hge
      exact hbad ⟨i, mem_range.mpr hi, by omega⟩
  · rw [gridP_overflow hP] at h
    cases h

lemma project_apply (data data' : Nat → Words) (P i : Nat) (old old' : Words)
    (hdata : ∀ y < e.k, ∀ x : Int, 0 ≤ x ∧ x < P → data' y x = data y x) {b : Int}
    (hb : 0 ≤ b ∧ b < e.nbins P i) :
    e.project simd data' P i old' b = e.project simd data P i old b := by
  have hline : ∀ rows : Grid, ∀ bins : Words, e.project simd rows P i bins b =
      Staircase.lineSum P e.k (e.dir i).p rows 0 (b + mojBinOffset (e.dir i) P e.k) := by
    intro rows bins
    have hbin : ((0 : Nat) : Int) * (e.dir i).p + (b + mojBinOffset (e.dir i) P e.k) -
        mojBinOffset (e.dir i) P e.k = b := by
      push_cast
      ring
    have happ := mojForward_apply (d := e.dir i) (x := b + mojBinOffset (e.dir i) P e.k) (y := 0)
      simd rows (e.dir_q i) bins e.k_pos (by rw [hbin]; exact hb)
    rw [hbin] at happ
    exact happ
  rw [hline, hline]
  unfold Staircase.lineSum Staircase.pixel
  refine Finset.sum_congr rfl fun y hy => ?_
  split
  · next hx => exact hdata y (Finset.mem_range.mp hy) _ hx
  · rfl

def lostParity (e : MojetteEncoding) (present : Nat → Bool) : List Nat :=
  e.parityIndices fun i => !present i

lemma length_missing :
    (e.indices fun i => !present i).length =
      (e.missingRows present).length + (e.lostParity present).length := by
  unfold indices missingRows lostParity parityIndices
  rw [range_add, filter_append, length_append, filter_map, length_map]
  rfl

lemma length_parity : (e.parityIndices present).length + (e.lostParity present).length = e.m := by
  have hsplit := length_eq_length_filter_add (l := range e.m) fun i => present (e.k + i)
  rw [length_range] at hsplit
  exact hsplit.symm

lemma mem_missingRows {i : Nat} : i ∈ e.missingRows present ↔ i < e.k ∧ present i = false := by
  unfold missingRows
  rw [mem_filter, mem_range, Bool.not_eq_true']

lemma mem_lostParity {i : Nat} : i ∈ e.lostParity present ↔ i < e.m ∧
    present (e.k + i) = false := by
  unfold lostParity parityIndices
  rw [mem_filter, mem_range, Bool.not_eq_true']

section Decode

variable {data old parity given : Nat → Words}

lemma sysDecode_none (hdata : e.missingRows present = []) (hpar : e.lostParity present = []) :
    e.sysDecode simd given present shardLen = .ok given := by
  have htotal : (e.indices fun i => !present i).length = 0 := by grind [length_missing]
  unfold sysDecode
  dsimp only
  rw [htotal, if_neg (by omega), if_pos rfl]

section

variable (hle : (e.indices fun i => !present i).length ≤ e.m)

include hle

lemma sysDecode_parity
    (hdata : e.missingRows present = []) (hpar : e.lostParity present ≠ [])
    (hfits : e.EncodeFits shardLen) :
    e.sysDecode simd given present shardLen = .ok fun i => if e.k ≤ i ∧ i < e.k + e.m then
        e.project simd given (shardLen / 8) (e.k + (i - e.k))
          (given (e.k + (i - e.k))) else given i := by
  have hpos : (e.lostParity present).length ≠ 0 := fun h => hpar (eq_nil_of_length_eq_zero h)
  have htotal : (e.indices fun i => !present i).length ≠ 0 := by grind [length_missing]
  unfold sysDecode
  dsimp only
  rw [if_neg (by omega), if_neg htotal, hdata, if_pos length_nil, sysEncode_ok _ _ hfits]
  rfl

lemma sysDecode_data
    (hdata : e.missingRows present ≠ []) (hlen : 1 ≤ shardLen / 8) (hP : shardLen / 8 < intEnd)
    (hgrid : shardLen / 8 * e.k ≤ intEnd)
    (hrows : ∀ i < e.k, present i → ∀ x : Int, 0 ≤ x ∧ x < (shardLen / 8 : Nat) →
      given i x = data i x) (hproj : ∀ i < e.m, present (e.k + i) →
      Projects (shardLen / 8) e.k data ⟨e.dir (e.k + i), given (e.k + i)⟩) :
    ∃ out, e.sysDecode simd given present shardLen = .ok out ∧
      (∀ i < e.k, present i = false → ∀ x : Int, 0 ≤ x ∧ x < (shardLen / 8 : Nat) →
        out i x = data i x) ∧
      ∀ i, e.k ≤ i → out i = given i := by
  have hpos : (e.missingRows present).length ≠ 0 := fun h => hdata (eq_nil_of_length_eq_zero h)
  have hcount := @length_missing e present
  have hparity := @length_parity e present
  -- the projections that are used
  have hmem : ∀ i ∈ (e.parityIndices present).take (e.missingRows present).length,
      i < e.m ∧ present (e.k + i) := by
    intro i hi
    have hin := mem_of_mem_take hi
    unfold parityIndices at hin
    rwa [mem_filter, mem_range] at hin
  have hnodup : ((e.parityIndices present).take (e.missingRows present).length).Nodup :=
    (nodup_range.filter _).sublist (take_sublist _ _)
  obtain ⟨grid, hgd, hgrid'⟩ := @mojInverseGdSparse_restores (shardLen / 8) e.k data
    (((e.parityIndices present).take (e.missingRows present).length).map fun i =>
      ⟨e.dir (e.k + i), given (e.k + i)⟩)
    (fun y => if present y then given y else 0) (e.missingRows present) hlen
    (by simp only [length_map, length_take]; omega) hdata
    (pairwise_lt_range.filter _)
    (fun y hy => (mem_missingRows.mp hy).1)
    (by
      intro pr hpr
      obtain ⟨i, -, rfl⟩ := mem_map.mp hpr
      exact e.dir_q _)
    (e.nodup_slopes _ hnodup (fun i => e.k + i) (fun _ _ h => Nat.add_left_cancel h) _)
    (by
      intro pr hpr
      obtain ⟨i, hi, rfl⟩ := mem_map.mp hpr
      exact hproj i (hmem i hi).1 (hmem i hi).2)
    (by
      intro y hy hnot x hx
      have hpres : present y := by
        by_contra hp
        exact hnot (mem_missingRows.mpr ⟨hy, by simpa using hp⟩)
      rw [if_pos hpres, hrows y hy hpres x hx])
  have hfits : ¬ ((∃ i ∈ (e.parityIndices present).take (e.missingRows present).length,
      (intEnd : Int) ≤ e.nbins (shardLen / 8) (e.k + i)) ∨ intEnd < shardLen / 8 * e.k) := by
    rintro (⟨i, hi, hbad⟩ | hbad)
    · have hi' := (hmem i hi).1
      have hlt := e.nbins_lt hP hgrid (show e.k + i < e.k + e.m by omega)
      omega
    · omega
  have hok : e.sysDecode simd given present shardLen = .ok fun i =>
      if i ∈ e.missingRows present then copyWords (grid i) (given i) (shardLen / 8)
        else given i := by
    unfold sysDecode
    dsimp only
    rw [if_neg (by omega), if_neg (by omega), if_neg hpos, if_neg (by omega), gridP_ok hP]
    show (if _ then _ else _) = _
    rw [if_neg hfits, hgd]
  refine ⟨_, hok, fun i hi hp x hx => ?_, fun i hi => ?_⟩
  · grind [copyWords, mem_missingRows.mpr]
  · exact if_neg fun hin => by
      have hlt := (mem_missingRows.mp hin).1
      omega

lemma sysDecode_beyond
    (hdata : e.missingRows present ≠ []) (hP : shardLen / 8 < intEnd)
    (hover : intEnd < shardLen / 8 * e.k) :
    e.sysDecode simd given present shardLen = .error .overflow := by
  have hpos : (e.missingRows present).length ≠ 0 := fun h => hdata (eq_nil_of_length_eq_zero h)
  have hcount := @length_missing e present
  have hparity := @length_parity e present
  unfold sysDecode
  dsimp only
  rw [if_neg (by omega), if_neg (by omega), if_neg hpos, if_neg (by omega), gridP_ok hP]
  show (if _ then _ else _) = _
  exact if_pos (.inr hover)

end

/-- Data or parity is whole, and the grid fits if it is needed. -/
def Recoverable (e : MojetteEncoding) (shardLen : Nat) (present : Nat → Bool) : Prop :=
  (e.missingRows present = [] ∨ e.lostParity present = []) ∧
    (e.missingRows present ≠ [] → shardLen / 8 * e.k ≤ intEnd)

lemma present_of_missingRows_nil (h : e.missingRows present = []) {i : Nat} (hi : i < e.k) :
    present i := by
  by_contra hp
  have hin : i ∈ e.missingRows present := mem_missingRows.mpr ⟨hi, by simpa using hp⟩
  rw [h] at hin
  exact not_mem_nil hin

lemma present_of_lostParity_nil (h : e.lostParity present = []) {i : Nat} (hi : i < e.m) :
    present (e.k + i) := by
  by_contra hp
  have hin : i ∈ e.lostParity present := mem_lostParity.mpr ⟨hi, by simpa using hp⟩
  rw [h] at hin
  exact not_mem_nil hin

/-- The shards of a stripe that are there are in the buffers. -/
def Given (e : MojetteEncoding) (shardLen : Nat) (present : Nat → Bool)
    (shards given : Nat → Words) : Prop :=
  ∀ i, i < e.k + e.m → present i = true →
    ∀ b : Int, 0 ≤ b ∧ b < e.shardSize true (shardLen / 8) i → given i b = shards i b

lemma Given.row (h : e.Given shardLen present (e.stripe data parity) given) {i : Nat} (hi : i < e.k)
    (hp : present i) {x : Int} (hx : 0 ≤ x ∧ x < (shardLen / 8 : Nat)) : given i x = data i x := by
  have hsize : e.shardSize true (shardLen / 8) i = (shardLen / 8 : Nat) := if_pos ⟨rfl, hi⟩
  have hword := h i (by omega) hp x (by rw [hsize]; exact hx)
  rw [stripe, if_pos hi] at hword
  exact hword

lemma shardSize_parity (P i : Nat) : e.shardSize true P (e.k + i) = e.nbins P (e.k + i) :=
  if_neg fun h => absurd h.2 (by omega)

lemma stripe_parity (data parity : Nat → Words) (i : Nat) :
    e.stripe data parity (e.k + i) = parity i := by
  unfold stripe
  rw [if_neg (by omega), Nat.add_sub_cancel_left]

section

variable (henc : e.sysEncode simd data old shardLen = .ok parity) (hlen : 1 ≤ shardLen / 8)
  (hle : (e.indices fun i => !present i).length ≤ e.m)

include henc hlen hle

/-- **Decoding restores a stripe of which only data, or only parity, is missing.** -/
theorem sysDecode_holds
    (hrec : e.Recoverable shardLen present)
    (hgiven : e.Given shardLen present (e.stripe data parity) given) :
    ∃ out, e.sysDecode simd given present shardLen = .ok out ∧
      e.Holds shardLen present (e.stripe data parity) out := by
  have hfits := encodeFits_of_sysEncode henc
  rw [sysEncode_ok data old hfits] at henc
  cases henc
  by_cases hdata : e.missingRows present = []
  · by_cases hpar : e.lostParity present = []
    · refine ⟨given, sysDecode_none hdata hpar, fun i hi hp => ?_⟩
      exfalso
      by_cases hik : i < e.k
      · rw [present_of_missingRows_nil hdata hik] at hp
        cases hp
      · have hpres := present_of_lostParity_nil hpar (show i - e.k < e.m by omega)
        rw [show e.k + (i - e.k) = i by omega, hp] at hpres
        cases hpres
    · refine ⟨_, sysDecode_parity hle hdata hpar hfits, fun i hi hp b hb => ?_⟩
      by_cases hik : i < e.k
      · rw [present_of_missingRows_nil hdata hik] at hp
        cases hp
      · -- the rows are all there, so that the projection is the one of the encoder
        obtain ⟨j, rfl⟩ : ∃ j, i = e.k + j := ⟨i - e.k, by omega⟩
        rw [shardSize_parity] at hb
        rw [if_pos ⟨by omega, hi⟩, stripe_parity, Nat.add_sub_cancel_left]
        refine project_apply data given _ _ _ _ (fun y hy x hx => ?_) hb
        exact hgiven.row hy (present_of_missingRows_nil hdata hy) hx
  · have hpar : e.lostParity present = [] := hrec.1.resolve_left hdata
    obtain ⟨out, hok, hrows, -⟩ := @sysDecode_data e simd shardLen present data given hle hdata hlen
      hfits.1 (hrec.2 hdata) (fun i hi hp x hx => hgiven.row hi hp hx) (by
        intro i hi hp
        refine Projects.congr e (e.project_projects simd data (shardLen / 8) (e.k + i) (old i)) ?_
        intro b hb
        rw [hgiven (e.k + i) (by omega) hp b (by rw [shardSize_parity]; exact hb), stripe_parity])
    refine ⟨out, hok, fun i hi hp b hb => ?_⟩
    by_cases hik : i < e.k
    · have hsize : e.shardSize true (shardLen / 8) i = (shardLen / 8 : Nat) := if_pos ⟨rfl, hik⟩
      rw [hsize] at hb
      rw [stripe, if_pos hik]
      exact hrows i hik hp b hb
    · have hpres := present_of_lostParity_nil hpar (show i - e.k < e.m by omega)
      rw [show e.k + (i - e.k) = i by omega, hp] at hpres
      cases hpres

lemma not_holds_of_mixed (hdata : e.missingRows present ≠ []) (hpar : e.lostParity present ≠ [])
    (hgrid : shardLen / 8 * e.k ≤ intEnd) : ∃ stale : Nat → Words, ¬ ∃ out,
      e.sysDecode simd (fun i => if present i then e.stripe data parity i else stale i) present
        shardLen = .ok out ∧ e.Holds shardLen present (e.stripe data parity) out := by
  have hfits := encodeFits_of_sysEncode henc
  obtain ⟨i, hi⟩ := exists_mem_of_ne_nil _ hpar
  obtain ⟨him, hip⟩ := mem_lostParity.mp hi
  -- a buffer with another first word than the shard
  refine ⟨fun j _ => e.stripe data parity j 0 + ⟨1⟩, ?_⟩
  rintro ⟨out, hok, hholds⟩
  obtain ⟨out', hok', -, hkeep⟩ := @sysDecode_data e simd shardLen present data
    (fun i => if present i then e.stripe data parity i else fun _ => e.stripe data parity i 0 + ⟨1⟩)
    hle hdata hlen hfits.1 hgrid
    (fun j hj hp x _ => by rw [if_pos hp, stripe, if_pos hj])
    (fun j hj hp => by
      rw [if_pos hp, stripe_parity]
      rw [sysEncode_ok data old hfits] at henc
      cases henc
      exact e.project_projects simd data _ _ _)
  obtain rfl : out' = out := Except.ok.inj (hok'.symm.trans hok)
  have hsize : (0 : Int) < e.nbins (shardLen / 8) (e.k + i) := by
    have hk := e.k_pos
    have hnonneg : 0 ≤ |(e.dir (e.k + i)).p| * ((e.k : Int) - 1) :=
      mul_nonneg (abs_nonneg _) (by omega)
    rw [e.nbins_eq]
    omega
  have hword := hholds (e.k + i) (by omega) hip 0 ⟨le_refl 0, by rw [shardSize_parity]; exact hsize⟩
  rw [hkeep (e.k + i) (by omega), if_neg (by rw [hip]; exact Bool.false_ne_true)] at hword
  exact absurd (add_eq_left.mp hword) (by decide)

end

end Decode

lemma sysRestores_of_loss (hlen : 1 ≤ shardLen / 8)
    (hle : (e.indices fun i => !present i).length ≤ e.m) :
    SysRestores e simd shardLen present ↔ e.EncodeFits shardLen ∧
      e.Recoverable shardLen present := by
  constructor
  · intro h
    obtain ⟨parity, henc, hdec⟩ := h (fun _ => 0) (fun _ => 0)
    have hfits := encodeFits_of_sysEncode henc
    have hgrid : e.missingRows present ≠ [] → shardLen / 8 * e.k ≤ intEnd := by
      intro hdata
      by_contra hbad
      obtain ⟨out, hok, -⟩ := hdec fun _ => 0
      rw [sysDecode_beyond hle hdata hfits.1 (by omega)] at hok
      cases hok
    refine ⟨hfits, ?_, hgrid⟩
    by_contra hmixed
    push Not at hmixed
    obtain ⟨stale, hnot⟩ := not_holds_of_mixed henc hlen hle hmixed.1 hmixed.2 (hgrid hmixed.1)
    exact hnot (hdec stale)
  · rintro ⟨hfits, hrec⟩ data old
    refine ⟨_, sysEncode_ok data old hfits, fun stale => ?_⟩
    refine sysDecode_holds (sysEncode_ok data old hfits) hlen hle hrec fun i _ hp b _ => ?_
    rw [if_pos hp]

end MojetteEncoding

end Reffs.Ec
