import Reffs.Ec.MojetteInverse

/-!
# Mojette encodings

`mojette_encoding.c`: `k` data shards are the rows of a grid. The systematic encoding keeps them and
adds `m` projections; the non-systematic one replaces them by projections as well. Decoding takes
the first projections there are, as many as are needed, and the geometry-driven inverse.

The number of columns, the sizes of projections and the places of pixels in the grid are ints. What
happens when one of them does not fit is not defined by the language: such a call ends in `overflow`
here. The last pixel of a grid of `P` columns and `k` rows is at `P * k - 1`.
-/

namespace Reffs.Ec

inductive Fault where
  | errno (e : Errno)
  | overflow
  deriving DecidableEq, Repr

/-- What `mojette_create` accepts. -/
structure MojetteEncoding where
  k : Nat
  m : Nat
  k_pos : 1 ≤ k
  m_pos : 1 ≤ m
  width : k + m ≤ 64

/-- Words in a shard of so many bytes. -/
def gridP (shardLen : Nat) : Except Fault Nat :=
  if shardLen / 8 < intEnd then .ok (shardLen / 8) else .error .overflow

def copyWords (src dst : Words) (n : Nat) : Words := fun x => if 0 ≤ x ∧ x < n then src x else dst x

namespace MojetteEncoding

variable (e : MojetteEncoding)

def dir (i : Nat) : Direction := mojDirectionsGenerate (e.k + e.m) i

def nbins (P i : Nat) : Int := mojProjectionSize (e.dir i) P e.k

/-- `mojette_shard_size`, in words. -/
def shardSize (systematic : Bool) (P i : Nat) : Int :=
  if systematic ∧ i < e.k then P else e.nbins P i

def indices (present : Nat → Bool) : List Nat := (List.range (e.k + e.m)).filter present

/-- Projection `i` of the rows, into a buffer. -/
def project (simd : Bool) (rows : Grid) (P i : Nat) (bins : Words) : Words :=
  mojForward simd rows P e.k (e.dir i) (e.nbins P i) bins

/-! ## The systematic encoding -/

def sysEncode (simd : Bool) (data parity : Nat → Words) (shardLen : Nat) :
    Except Fault (Nat → Words) := do
  let P ← gridP shardLen
  if ∃ i ∈ List.range e.m, (intEnd : Int) ≤ e.nbins P (e.k + i) then .error .overflow
  else .ok fun i => e.project simd data P (e.k + i) (parity i)

def missingRows (present : Nat → Bool) : List Nat := (List.range e.k).filter fun i => !present i

def parityIndices (present : Nat → Bool) : List Nat :=
  (List.range e.m).filter fun i => present (e.k + i)

def sysDecode (simd : Bool) (shards : Nat → Words) (present : Nat → Bool) (shardLen : Nat) :
    Except Fault (Nat → Words) :=
  let missing := e.missingRows present
  let totalMissing := (e.indices fun i => !present i).length
  if e.m < totalMissing then .error (.errno .eio)
  else if totalMissing = 0 then .ok shards
  else if missing.length = 0 then do
    let parity ← e.sysEncode simd shards (fun i => shards (e.k + i)) shardLen
    .ok fun i => if e.k ≤ i ∧ i < e.k + e.m then parity (i - e.k) else shards i
  else if (e.parityIndices present).length < missing.length then .error (.errno .eio)
  else do
    let P ← gridP shardLen
    let sub := (e.parityIndices present).take missing.length
    if (∃ i ∈ sub, (intEnd : Int) ≤ e.nbins P (e.k + i)) ∨ intEnd < P * e.k then .error .overflow
    else
      let fullGrid : Grid := fun y => if present y then shards y else 0
      match mojInverseGdSparse fullGrid P e.k (sub.map fun i => ⟨e.dir (e.k + i), shards (e.k + i)⟩)
          missing with
      | .error err => .error (.errno err)
      -- the data shards that were missing are copied, and nothing else
      | .ok grid => .ok fun i => if i ∈ missing then copyWords (grid i) (shards i) P else shards i

/-! ## The non-systematic encoding -/

/-- All the projections. Those that replace data are computed in buffers of their own and then
copied. -/
def nonsysShards (simd : Bool) (data parity : Nat → Words) (P : Nat) : Nat → Words := fun i =>
  if i < e.k then
    fun b => if 0 ≤ b ∧ b < e.nbins P i then e.project simd data P i 0 b else data i b
  else e.project simd data P i (parity (i - e.k))

def nonsysEncode (simd : Bool) (data parity : Nat → Words) (shardLen : Nat) :
    Except Fault (Nat → Words) := do
  let P ← gridP shardLen
  if ∃ i ∈ List.range (e.k + e.m), (intEnd : Int) ≤ e.nbins P i then .error .overflow
  else .ok (e.nonsysShards simd data parity P)

def nonsysDecode (shards : Nat → Words) (present : Nat → Bool) (shardLen : Nat) :
    Except Fault (Nat → Words) :=
  let avail := e.indices present
  if avail.length < e.k then .error (.errno .eio)
  else do
    let P ← gridP shardLen
    let sub := avail.take e.k
    if (∃ i ∈ sub, (intEnd : Int) ≤ e.nbins P i) ∨ intEnd < P * e.k then .error .overflow
    else
      match mojInverseGd P e.k (sub.map fun i => ⟨e.dir i, shards i⟩) with
      | .error err => .error (.errno err)
      | .ok grid => .ok fun i => if i < e.k then copyWords (grid i) (shards i) P else shards i

end MojetteEncoding

/-! ## Directions and sizes -/

lemma mojDirectionsGenerate_q (n i : Nat) : (mojDirectionsGenerate n i).q = 1 := by
  unfold mojDirectionsGenerate
  split <;> rfl

lemma mojDirectionsGenerate_injective (n : Nat) :
    Function.Injective fun i => (mojDirectionsGenerate n i).p := by
  intro i j h
  dsimp only [mojDirectionsGenerate] at h
  split at h <;> split at h <;> dsimp only at h <;> omega

lemma mojDirectionsGenerate_bound {n i : Nat} (hn : n ≤ 64) (hi : i < n) :
    |(mojDirectionsGenerate n i).p| ≤ 32 := by
  unfold mojDirectionsGenerate
  rw [abs_le]
  split
  · dsimp only
    omega
  · dsimp only
    omega

namespace MojetteEncoding

variable (e : MojetteEncoding)

lemma dir_q (i : Nat) : (e.dir i).q = 1 := mojDirectionsGenerate_q _ i

lemma nbins_eq (P i : Nat) : e.nbins P i = |(e.dir i).p| * ((e.k : Int) - 1) + P := by
  unfold nbins mojProjectionSize
  rw [e.dir_q i, abs_one]
  ring

lemma nbins_lt {P i : Nat} (hP : P < intEnd) (hgrid : P * e.k ≤ intEnd) (hi : i < e.k + e.m) :
    e.nbins P i < (intEnd : Int) := by
  have hslope : |(e.dir i).p| ≤ 32 := mojDirectionsGenerate_bound e.width hi
  have hwidth := e.width
  have hk := e.k_pos
  rw [e.nbins_eq]
  unfold intEnd at hP hgrid ⊢
  rcases Nat.eq_or_lt_of_le hk with h1 | h2
  · rw [← h1]
    simp only [Nat.cast_one, sub_self, mul_zero, zero_add]
    exact_mod_cast hP
  · -- with two rows or more a projection is little longer than a row
    have hhalf : P * 2 ≤ 2 ^ 31 := le_trans (Nat.mul_le_mul_left P h2) hgrid
    have hextra : |(e.dir i).p| * ((e.k : Int) - 1) ≤ 32 * 63 := by
      refine mul_le_mul hslope ?_ ?_ (by norm_num)
      · omega
      · omega
    push_cast
    omega

lemma project_projects (simd : Bool) (rows : Grid) (P i : Nat) (bins : Words) :
    Projects P e.k rows ⟨e.dir i, e.project simd rows P i bins⟩ := by
  intro y hy x hx
  exact mojForward_apply simd rows (e.dir_q i) bins e.k_pos (bin_mem (e.dir_q i) hy hx)

lemma Projects.congr {P : Nat} {i : Nat} {rows : Grid} {bins bins' : Words}
    (h : Projects P e.k rows ⟨e.dir i, bins⟩)
    (heq : ∀ b, 0 ≤ b ∧ b < e.nbins P i → bins' b = bins b) :
    Projects P e.k rows ⟨e.dir i, bins'⟩ := by
  intro y hy x hx
  have hbin := bin_mem (d := e.dir i) (e.dir_q i) hy hx
  exact (heq _ hbin).trans (h y hy x hx)

lemma nodup_slopes (l : List Nat) (hl : l.Nodup) (f : Nat → Nat) (hf : Function.Injective f)
    (bins : Nat → Words) :
    ((l.map fun i => (⟨e.dir (f i), bins i⟩ : Projection)).map fun pr => pr.dir.p).Nodup := by
  rw [List.map_map]
  exact hl.map ((mojDirectionsGenerate_injective (e.k + e.m)).comp hf)

end MojetteEncoding

end Reffs.Ec
