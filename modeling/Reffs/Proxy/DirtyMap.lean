import Mathlib.Data.List.Sort
import Mathlib.Algebra.Order.Ring.Nat

/-!
# Dirty stripes of a write buffer

`ps_write_buffer_mark_dirty` and the table it fills: for each stripe of the file that a write has
touched, one bit for each of its shards. An entry whose bits are all set loses its bit mask, and
counts as fully dirty from then on. The table is a list in the order in which the hash table is
walked: the entries stand by the reversed bits of their hash, which is the number of the stripe.
-/

namespace Reffs.Proxy

open List

/-- `struct ps_write_buffer_geom`, with what `ps_write_buffer_set_geom` accepts. -/
structure Geom where
  k : Nat
  m : Nat
  shardSize : Nat
  k_pos : 0 < k
  shardSize_pos : 0 < shardSize
  stripe_le : k * shardSize ≤ 2 ^ 32 - 1

variable {i count offset : Nat} {ds : DirtyStripe}

namespace Geom

variable (g : Geom)

def stripeSize : Nat := g.k * g.shardSize

lemma stripeSize_pos : 0 < g.stripeSize := Nat.mul_pos g.k_pos g.shardSize_pos

/-- The bytes from `offset` to before `stop` have some of stripe `s` among them. -/
def Meets (offset stop s : Nat) : Prop := s * g.stripeSize < stop ∧ offset < (s + 1) * g.stripeSize

/-- They have some of shard `i` of stripe `s` among them. -/
def Touches (offset stop s i : Nat) : Prop :=
  s * g.stripeSize + i * g.shardSize < stop ∧ offset < s * g.stripeSize + (i + 1) * g.shardSize

instance (offset stop s : Nat) : Decidable (g.Meets offset stop s) :=
  inferInstanceAs (Decidable (_ ∧ _))

variable {g}

lemma shard_le_stripe (hi : i < g.k) : (i + 1) * g.shardSize ≤ g.stripeSize :=
  Nat.mul_le_mul_right g.shardSize hi

lemma Touches.meets {stop s : Nat} (h : g.Touches offset stop s i) (hi : i < g.k) :
    g.Meets offset stop s := by
  have hin := shard_le_stripe hi
  refine ⟨lt_of_le_of_lt (Nat.le_add_right _ _) h.1, ?_⟩
  calc offset < s * g.stripeSize + (i + 1) * g.shardSize := h.2
    _ ≤ s * g.stripeSize + g.stripeSize := Nat.add_le_add_left hin _
    _ = (s + 1) * g.stripeSize := (Nat.succ_mul s _).symm

end Geom

/-! ## The table -/

/-- An entry; a stripe without a mask is fully dirty. -/
structure DirtyStripe where
  stripeNo : Nat
  mask : Option (Nat → Bool)

/-- The lowest `n` bits of a number, in reverse. -/
def reverseBits : Nat → Nat → Nat
  | 0, _ => 0
  | n + 1, x => x % 2 * 2 ^ n + reverseBits n (x / 2)

def DirtyStripe.before (a b : DirtyStripe) : Prop :=
  reverseBits 64 a.stripeNo ≤ reverseBits 64 b.stripeNo

instance : DecidableRel DirtyStripe.before := fun _ _ => inferInstanceAs (Decidable (_ ≤ _))

abbrev DirtyTable := List DirtyStripe

namespace DirtyTable

/-- `ps_write_buffer_dirty_lookup`. -/
def lookup (t : DirtyTable) (s : Nat) : Option DirtyStripe := t.find? (·.stripeNo == s)

def put (t : DirtyTable) (ds : DirtyStripe) : DirtyTable :=
  if (t.lookup ds.stripeNo).isSome then t.map fun e => if e.stripeNo = ds.stripeNo then ds else e
  else t.orderedInsert DirtyStripe.before ds

/-- `ps_write_buffer_dirty_remove`. -/
def remove (t : DirtyTable) (s : Nat) : DirtyTable := t.filter (·.stripeNo ≠ s)

variable {t : DirtyTable} {s : Nat} {ds : DirtyStripe}

lemma lookup_stripeNo (h : t.lookup s = some ds) : ds.stripeNo = s := by
  have := find?_some h
  exact beq_iff_eq.mp this

lemma lookup_cons (e : DirtyStripe) :
    lookup (e :: t) s = if e.stripeNo = s then some e else t.lookup s := by
  unfold lookup
  rw [find?_cons]
  by_cases h : e.stripeNo = s
  · rw [if_pos h, beq_iff_eq.mpr h]
  · rw [if_neg h, beq_eq_false_iff_ne.mpr h]

lemma lookup_orderedInsert (hnew : t.lookup ds.stripeNo = none) :
    lookup (t.orderedInsert DirtyStripe.before ds) s =
      if ds.stripeNo = s then some ds else t.lookup s := by
  induction t with
  | nil => rw [orderedInsert_nil, lookup_cons]
  | cons e rest ih =>
    rw [orderedInsert_cons]
    split
    · rw [lookup_cons]
    · rw [lookup_cons] at hnew
      split at hnew
      · cases hnew
      · next hne =>
        rw [lookup_cons, ih hnew, lookup_cons]
        split
        · next he => rw [if_neg fun hs => hne (he.trans hs.symm)]
        · rfl

lemma lookup_put : (t.put ds).lookup s = if ds.stripeNo = s then some ds else t.lookup s := by
  unfold put
  split
  · next hold =>
    induction t with
    | nil => cases hold
    | cons e rest ih =>
      rw [map_cons, lookup_cons, lookup_cons]
      rw [lookup_cons] at hold
      by_cases he : e.stripeNo = ds.stripeNo
      · rw [if_pos he, he]
        by_cases hs : ds.stripeNo = s
        · rw [if_pos hs, if_pos hs]
        · rw [if_neg hs, if_neg hs, if_neg hs]
          -- what stands behind an entry of the same stripe is not looked at
          by_cases hrest : (lookup rest ds.stripeNo).isSome
          · rw [ih hrest, if_neg hs]
          · have hmap : rest.map (fun e => if e.stripeNo = ds.stripeNo then ds else e) = rest := by
              refine (map_congr_left fun e' he' => if_neg fun heq => hrest ?_).trans (map_id' rest)
              exact find?_isSome.mpr ⟨e', he', beq_iff_eq.mpr heq⟩
            rw [hmap]
      · grind
  · next hnew => exact lookup_orderedInsert (Option.not_isSome_iff_eq_none.mp hnew)

lemma lookup_remove (s' : Nat) : (t.remove s').lookup s = if s = s' then none else t.lookup s := by
  induction t with
  | nil =>
    unfold remove lookup
    simp
  | cons e rest ih =>
    unfold remove at ih ⊢
    by_cases he : e.stripeNo = s'
    · rw [filter_cons_of_neg (by simp [he]), ih, lookup_cons]
      by_cases hs : s = s'
      · rw [if_pos hs, if_pos hs]
      · rw [if_neg hs, if_neg hs, if_neg fun h => hs (h.symm.trans he)]
    · rw [filter_cons_of_pos (by simp [he]), lookup_cons, ih, lookup_cons]
      by_cases hs : e.stripeNo = s
      · rw [if_pos hs, if_pos hs, if_neg fun h => he (hs.trans h)]
      · rw [if_neg hs, if_neg hs]

end DirtyTable

/-! ## Marking -/

section

variable (g : Geom)

/-- `ps_dirty_stripe_shard_is_dirty`. -/
def shardIsDirty (ds : DirtyStripe) (i : Nat) : Bool :=
  match ds.mask with
  | none => true
  | some mask => decide (i < g.k) && mask i

/-- What marking makes of an entry: the bits of the touched shards are set, and the mask goes when
it is full. -/
def markEntry (offset stop : Nat) (ds : DirtyStripe) : DirtyStripe :=
  match ds.mask with
  | none => ds
  | some mask =>
    let base := ds.stripeNo * g.stripeSize
    let hitLo := max offset base
    let hitHi := min stop (base + g.stripeSize)
    let first := (hitLo - base) / g.shardSize
    let last := (hitHi - 1 - base) / g.shardSize
    let mask := fun i => mask i || (decide (first ≤ i) && decide (i ≤ last))
    { ds with mask := if (List.range g.k).all mask then none else some mask }

def markStripe (offset stop : Nat) (t : DirtyTable) (s : Nat) : DirtyTable :=
  t.put (markEntry g offset stop ((t.lookup s).getD ⟨s, some fun _ => false⟩))

/-- `ps_write_buffer_mark_dirty`, when there is memory for every record. The numbers of the stripes
are 32 bits wide; for a stripe number of all ones the loop of the source does not end, which takes
an offset far beyond any buffer. -/
def markDirty (t : DirtyTable) (offset count : Nat) : DirtyTable :=
  if count = 0 then t
  else
    let stop := (offset + count) % 2 ^ 64
    let first := offset / g.stripeSize % 2 ^ 32
    let last := (stop - 1) / g.stripeSize % 2 ^ 32
    (List.range' first (last + 1 - first)).foldl (markStripe g offset stop) t

/-- The loop when memory may be short: it ends where a record cannot be had. -/
def markStripes (memory : Nat → Bool) (offset stop : Nat) : List Nat → DirtyTable → DirtyTable
  | [], t => t
  | s :: rest, t =>
    if t.lookup s = none ∧ memory s = false then t
    else markStripes memory offset stop rest (markStripe g offset stop t s)

def markDirtyWith (memory : Nat → Bool) (t : DirtyTable) (offset count : Nat) : DirtyTable :=
  if count = 0 then t
  else
    let stop := (offset + count) % 2 ^ 64
    let first := offset / g.stripeSize % 2 ^ 32
    let last := (stop - 1) / g.stripeSize % 2 ^ 32
    markStripes g memory offset stop (List.range' first (last + 1 - first)) t

variable {g} {offset stop : Nat}

lemma markStripes_eq {memory : Nat → Bool} (h : ∀ s, memory s = true) (l : List Nat)
    (t : DirtyTable) :
    markStripes g memory offset stop l t = l.foldl (markStripe g offset stop) t := by
  induction l generalizing t with
  | nil => rfl
  | cons s rest ih => rw [markStripes, if_neg (by simp [h s]), ih, foldl_cons]

lemma markDirtyWith_eq {memory : Nat → Bool} (h : ∀ s, memory s = true) (t : DirtyTable) :
    markDirtyWith g memory t offset count = markDirty g t offset count := by
  simp only [markDirtyWith, markDirty, markStripes_eq h]

lemma touches_iff {s : Nat} (hi : i < g.k) (hmeets : g.Meets offset stop s) :
    ((max offset (s * g.stripeSize) - s * g.stripeSize) / g.shardSize ≤ i ∧
      i ≤ (min stop (s * g.stripeSize + g.stripeSize) - 1 - s * g.stripeSize) / g.shardSize) ↔
      g.Touches offset stop s i := by
  obtain ⟨hstop, hoffset⟩ := hmeets
  have hin := Geom.shard_le_stripe hi
  have hpos := g.shardSize_pos
  rw [Nat.succ_mul] at hin hoffset
  rw [Nat.le_div_iff_mul_le hpos, ← Nat.lt_succ_iff, Nat.div_lt_iff_lt_mul hpos]
  unfold Geom.Touches
  rw [Nat.succ_eq_add_one, Nat.succ_mul]
  generalize s * g.stripeSize = base at *
  generalize i * g.shardSize = off at *
  omega

lemma markEntry_stripeNo (ds : DirtyStripe) :
    (markEntry g offset stop ds).stripeNo = ds.stripeNo := by
  unfold markEntry
  split <;> rfl

lemma shardIsDirty_markEntry {ds : DirtyStripe} {i : Nat} (hi : i < g.k)
    (hmeets : g.Meets offset stop ds.stripeNo) : shardIsDirty g (markEntry g offset stop ds) i ↔
      shardIsDirty g ds i ∨ g.Touches offset stop ds.stripeNo i := by
  grind [markEntry, shardIsDirty, touches_iff]

/-- No entry keeps a mask that is full. -/
def DirtyTable.Collapsed (g : Geom) (t : DirtyTable) : Prop :=
  ∀ s ds mask, t.lookup s = some ds → ds.mask = some mask → ∃ i < g.k, mask i = false

lemma markEntry_collapsed {mask : Nat → Bool}
    (h : (markEntry g offset stop ds).mask = some mask) : ∃ i < g.k, mask i = false := by
  unfold markEntry at h
  split at h
  · next hnone =>
    rw [hnone] at h
    cases h
  · dsimp only at h
    split at h
    · cases h
    · next hall =>
      cases h
      rw [all_eq_true] at hall
      push Not at hall
      obtain ⟨i, hi, hfalse⟩ := hall
      exact ⟨i, mem_range.mp hi, Bool.not_eq_true _ ▸ hfalse⟩

lemma lookup_markStripe (t : DirtyTable) (s s' : Nat) :
    (markStripe g offset stop t s).lookup s' =
      if s = s' then some (markEntry g offset stop ((t.lookup s).getD ⟨s, some fun _ => false⟩))
      else t.lookup s' := by
  unfold markStripe
  rw [DirtyTable.lookup_put, markEntry_stripeNo]
  have hno : ((t.lookup s).getD ⟨s, some fun _ => false⟩).stripeNo = s := by
    cases h : t.lookup s with
    | none => rfl
    | some ds => exact DirtyTable.lookup_stripeNo h
  rw [hno]

lemma lookup_foldl_markStripe (first n : Nat) (t : DirtyTable) (s : Nat) :
    ((range' first n).foldl (markStripe g offset stop) t).lookup s =
      if first ≤ s ∧ s < first + n then
        some (markEntry g offset stop ((t.lookup s).getD ⟨s, some fun _ => false⟩))
          else t.lookup s := by
  induction n generalizing first t with
  | zero => rw [range'_zero, foldl_nil, if_neg (by omega)]
  | succ n ih =>
    rw [range'_succ, foldl_cons, ih]
    by_cases hs : first = s
    · subst hs
      rw [if_neg (by omega), if_pos (by omega), lookup_markStripe, if_pos rfl]
    · grind [lookup_markStripe]

/-- **Marking a range** inside the buffer marks the entry of every stripe that it meets. -/
theorem lookup_markDirty (hcount : 0 < count) (hsmall : offset + count ≤ 2 ^ 30)
    (t : DirtyTable) (s : Nat) :
    (markDirty g t offset count).lookup s = if g.Meets offset (offset + count) s then
      some (markEntry g offset (offset + count) ((t.lookup s).getD ⟨s, some fun _ => false⟩))
    else t.lookup s := by
  have hstop : (offset + count) % 2 ^ 64 = offset + count := Nat.mod_eq_of_lt (by omega)
  have hpos := g.stripeSize_pos
  have hsmaller : ∀ x ≤ 2 ^ 30, x / g.stripeSize % 2 ^ 32 = x / g.stripeSize := fun x hx =>
    Nat.mod_eq_of_lt (by have := Nat.div_le_self x g.stripeSize; omega)
  unfold markDirty
  rw [if_neg (by omega)]
  dsimp only
  rw [hstop, hsmaller offset (by omega), hsmaller _ (by omega), lookup_foldl_markStripe]
  refine if_congr ?_ rfl rfl
  have hfirst : offset / g.stripeSize ≤ s ↔ offset < (s + 1) * g.stripeSize := by
    rw [← Nat.lt_succ_iff, Nat.div_lt_iff_lt_mul hpos]
  have hlast : s ≤ (offset + count - 1) / g.stripeSize ↔ s * g.stripeSize < offset + count := by
    grind [Nat.le_div_iff_mul_le]
  have hle : offset / g.stripeSize ≤ (offset + count - 1) / g.stripeSize :=
    Nat.div_le_div_right (by omega)
  unfold Geom.Meets
  rw [← hfirst, ← hlast]
  omega

end

/-! ## Dirty shards -/

section

variable (g : Geom)

/-- Shard `i` of stripe `s` is dirty. -/
def Dirty (t : DirtyTable) (s i : Nat) : Prop :=
  ∃ ds, t.lookup s = some ds ∧ shardIsDirty g ds i = true

variable {g} {t : DirtyTable} {s i : Nat}

/-- **The shards that are dirty after marking** were dirty before or are touched by the range. -/
theorem dirty_markDirty (hcount : 0 < count) (hsmall : offset + count ≤ 2 ^ 30)
    (hi : i < g.k) : Dirty g (markDirty g t offset count) s i ↔
      Dirty g t s i ∨ g.Touches offset (offset + count) s i := by
  unfold Dirty
  rw [lookup_markDirty hcount hsmall]
  by_cases hmeets : g.Meets offset (offset + count) s
  · rw [if_pos hmeets]
    cases hold : t.lookup s with
    | none =>
      have hmark :=
        @shardIsDirty_markEntry g offset (offset + count) ⟨s, some fun _ => false⟩ i hi hmeets
      simpa [shardIsDirty] using hmark
    | some ds =>
      obtain rfl := DirtyTable.lookup_stripeNo hold
      simpa using shardIsDirty_markEntry hi hmeets
  · rw [if_neg hmeets]
    exact (or_iff_left fun htouches => hmeets (htouches.meets hi)).symm

lemma DirtyTable.Collapsed.markDirty (h : t.Collapsed g) (hcount : 0 < count)
    (hsmall : offset + count ≤ 2 ^ 30) :
    DirtyTable.Collapsed g (Proxy.markDirty g t offset count) := by
  intro s ds mask hlookup hmask
  rw [lookup_markDirty hcount hsmall] at hlookup
  split at hlookup
  · rw [← Option.some.inj hlookup] at hmask
    exact markEntry_collapsed hmask
  · exact h s ds mask hlookup hmask

lemma DirtyTable.Collapsed.remove (h : t.Collapsed g) (s' : Nat) :
    DirtyTable.Collapsed g (t.remove s') := by
  intro s ds mask hlookup hmask
  rw [DirtyTable.lookup_remove] at hlookup
  split at hlookup
  · cases hlookup
  · exact h s ds mask hlookup hmask

lemma DirtyTable.Collapsed.mask_none (h : t.Collapsed g)
    (hlookup : t.lookup s = some ds) : ds.mask = none ↔ ∀ i < g.k, Dirty g t s i := by
  constructor
  · intro hmask i _
    exact ⟨ds, hlookup, by rw [shardIsDirty, hmask]⟩
  · intro hall
    cases hmask : ds.mask with
    | none => rfl
    | some mask =>
      obtain ⟨i, hi, hfalse⟩ := h s ds mask hlookup hmask
      obtain ⟨ds', hlookup', hdirty⟩ := hall i hi
      obtain rfl := Option.some.inj (hlookup.symm.trans hlookup')
      rw [shardIsDirty, hmask] at hdirty
      simp [hfalse] at hdirty

end

/-! ## Runs of calls -/

section

inductive DirtyCall
  | mark (offset count : Nat)
  | remove (s : Nat)

def DirtyCall.Inside : DirtyCall → Prop
  | .mark offset count => offset + count ≤ 2 ^ 30
  | .remove _ => True

/-- The ranges marked since stripe `s` was last removed, of calls that stand newest first. An empty
range marks nothing. -/
def markedSince (s : Nat) : List DirtyCall → List (Nat × Nat)
  | [] => []
  | .mark offset count :: calls =>
    if count = 0 then markedSince s calls else (offset, count) :: markedSince s calls
  | .remove s' :: calls => if s = s' then [] else markedSince s calls

variable (g : Geom)

def dirtyTable : List DirtyCall → DirtyTable
  | [] => []
  | .mark offset count :: calls => markDirty g (dirtyTable calls) offset count
  | .remove s :: calls => (dirtyTable calls).remove s

structure Follows (calls : List DirtyCall) (t : DirtyTable) : Prop where
  present s : (t.lookup s).isSome ↔ ∃ r ∈ markedSince s calls, g.Meets r.1 (r.1 + r.2) s
  dirty s : ∀ i < g.k, Dirty g t s i ↔ ∃ r ∈ markedSince s calls, g.Touches r.1 (r.1 + r.2) s i
  collapsed : t.Collapsed g

variable {g} {calls : List DirtyCall} {t : DirtyTable}

lemma Follows.mark (h : Follows g calls t) (hin : offset + count ≤ 2 ^ 30) :
    Follows g (.mark offset count :: calls) (markDirty g t offset count) := by
  rcases count.eq_zero_or_pos with rfl | hcount
  · exact ⟨h.present, h.dirty, h.collapsed⟩
  · refine ⟨fun s => ?_, fun s i hi => ?_, h.collapsed.markDirty hcount hin⟩
    · rw [lookup_markDirty hcount hin, markedSince, if_neg hcount.ne', exists_mem_cons_iff,
        ← h.present]
      grind
    · rw [dirty_markDirty hcount hin hi, markedSince, if_neg hcount.ne', exists_mem_cons_iff,
        h.dirty s i hi, or_comm]

lemma Follows.remove (h : Follows g calls t) (s' : Nat) :
    Follows g (.remove s' :: calls) (t.remove s') where
  present s := by grind [markedSince, DirtyTable.lookup_remove, h.present s]
  dirty s i hi := by grind [markedSince, DirtyTable.lookup_remove, Dirty, h.dirty s i hi]
  collapsed := h.collapsed.remove s'

lemma dirtyTable_follows (hin : ∀ c ∈ calls, c.Inside) : Follows g calls (dirtyTable g calls) := by
  induction calls with
  | nil =>
    refine ⟨fun s => ?_, fun s i _ => ?_, nofun⟩
    · simp [markedSince, dirtyTable, DirtyTable.lookup]
    · simp [markedSince, dirtyTable, DirtyTable.lookup, Dirty]
  | cons c calls ih =>
    obtain ⟨hc, hcalls⟩ := forall_mem_cons.mp hin
    cases c with
    | mark offset count => exact (ih hcalls).mark hc
    | remove s => exact (ih hcalls).remove s

/-- **The dirty stripes** after any calls are those that a range marked since their last removal
meets; an entry has lost its mask exactly if all its shards are dirty. -/
theorem dirtyTable_spec (hin : ∀ c ∈ calls, c.Inside) (s : Nat) :
    (((dirtyTable g calls).lookup s).isSome ↔
        ∃ r ∈ markedSince s calls, g.Meets r.1 (r.1 + r.2) s) ∧
      (∀ i < g.k, Dirty g (dirtyTable g calls) s i ↔
        ∃ r ∈ markedSince s calls, g.Touches r.1 (r.1 + r.2) s i) ∧
      ∀ ds, (dirtyTable g calls).lookup s = some ds →
        (ds.mask = none ↔ ∀ i < g.k, Dirty g (dirtyTable g calls) s i) := by
  have h := @dirtyTable_follows g calls hin
  exact ⟨h.present s, h.dirty s, fun _ => h.collapsed.mask_none⟩

theorem dirtyTable_spec_mark : Dirty ⟨2, 1, 4, by decide, by decide, by decide⟩
    (dirtyTable ⟨2, 1, 4, by decide, by decide, by decide⟩ [.mark 8 4, .remove 1]) 1 0 :=
  ((dirtyTable_spec (by simp [DirtyCall.Inside]) 1).2.1 0 (by decide)).mpr
    ⟨(8, 4), mem_cons_self, by decide, by decide⟩

end

end Reffs.Proxy
