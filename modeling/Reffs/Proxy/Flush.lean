import Reffs.Proxy.Pipeline

/-!
# What a flush does

A flush takes the stripes of its list one by one and stops at the first error. It leaves the data of
the buffer alone; the stripes it gets to lose their entry, and have the bytes of their dirty shards
upstream (`flushStripes_spec`). When the calls succeed it gets through them all exactly if each can
be written from the buffer (`flushStripes_ok_iff`).
-/

namespace Reffs.Proxy

open List DirtyTable

/-! ## Bytes, shards and stripes -/

lemma shardOf_lt (b : Nat) : shardOf b < geom.k := by
  show b % 16384 / 4096 < 4
  omega

lemma shardOf_spec (b : Nat) : stripeOf b * geom.stripeSize + shardOf b * geom.shardSize ≤ b ∧
      b < stripeOf b * geom.stripeSize + (shardOf b + 1) * geom.shardSize := by
  show b / 16384 * 16384 + b % 16384 / 4096 * 4096 ≤ b ∧
    b < b / 16384 * 16384 + (b % 16384 / 4096 + 1) * 4096
  omega

lemma touches_of_mem {offset stop b : Nat} (hle : offset ≤ b) (hlt : b < stop) :
    geom.Touches offset stop (stripeOf b) (shardOf b) := by
  obtain ⟨hfirst, hlast⟩ := shardOf_spec b
  exact ⟨lt_of_le_of_lt hfirst hlt, lt_of_le_of_lt hle hlast⟩

def ByteDirty (t : DirtyTable) (b : Nat) : Prop := Dirty geom t (stripeOf b) (shardOf b)

lemma ByteDirty.lookup_ne_none {t : DirtyTable} {b : Nat} (h : ByteDirty t b) :
    t.lookup (stripeOf b) ≠ none := by
  obtain ⟨ds, hlookup, -⟩ := h
  rw [hlookup]
  exact Option.some_ne_none ds

/-! ## One stripe -/

/-- What a flush may have done: to the entries and bytes of the stripes of `ss`. -/
structure Progress (ss : List Nat) (buf : Buffer) (up : Content) (r : Flushed) : Prop where
  data : r.buf.data = buf.data
  capacity : r.buf.capacity = buf.capacity
  highWater : r.buf.highWater = buf.highWater
  entry : ∀ s, r.buf.dirty.lookup s = buf.dirty.lookup s ∨ (s ∈ ss ∧ r.buf.dirty.lookup s = none)
  byte : ∀ b, r.up b = up b ∨ (stripeOf b ∈ ss ∧ ByteDirty buf.dirty b ∧ r.up b = buf.data b)
  clean : ∀ b, r.buf.dirty.lookup (stripeOf b) = none → ByteDirty buf.dirty b → r.up b = buf.data b
  all : r.err = none → ∀ s ∈ ss, r.buf.dirty.lookup s = none

variable {ss : List Nat} {buf : Buffer} {up : Content} {calls : Calls} {s : Nat}

lemma progress_stop {ss : List Nat} {buf : Buffer} {up : Content} (err : Errno) :
    Progress ss buf up ⟨some err, buf, up⟩ where
  data := rfl
  capacity := rfl
  highWater := rfl
  entry := fun _ => .inl rfl
  byte := fun _ => .inl rfl
  clean := fun _ hnone hdirty => absurd hnone hdirty.lookup_ne_none
  all := fun h => nomatch h

/-- The write of a stripe, if its bytes are those of the buffer in the dirty shards and those that
upstream has in the others. -/
lemma progress_written {bytes : Content}
    (hdirty : ∀ b, stripeOf b = s → ByteDirty buf.dirty b → bytes b = buf.data b)
    (hclean : ∀ b, stripeOf b = s → ¬ ByteDirty buf.dirty b → bytes b = up b) :
    Progress [s] buf up (writtenStripe calls buf up s bytes) := by
  have hbyte : ∀ b, writeStripe calls up s bytes b = up b ∨
      (stripeOf b ∈ [s] ∧ ByteDirty buf.dirty b ∧
        writeStripe calls up s bytes b = buf.data b) := by grind [writeStripe]
  unfold writtenStripe
  split
  · exact { @progress_stop [s] buf up .eio with
      byte := hbyte
      clean := fun _ hnone hd => absurd hnone hd.lookup_ne_none
      all := fun h => nomatch h }
  · next hok =>
    rw [not_not] at hok
    refine ⟨rfl, rfl, rfl, fun s' => ?_, hbyte, fun b hnone hd => ?_, fun _ s' hs' => ?_⟩
    · grind [lookup_remove]
    · dsimp only at hnone ⊢
      rw [lookup_remove] at hnone
      split at hnone
      · grind [writeStripe]
      · exact absurd hnone hd.lookup_ne_none
    · dsimp only
      rw [lookup_remove, if_pos (mem_singleton.mp hs')]

lemma flushStripe_progress (calls : Calls) (buf : Buffer) (up : Content) (s : Nat) :
    Progress [s] buf up (flushStripe calls buf up s) := by
  unfold flushStripe
  dsimp only
  split
  · next hnone =>
    exact { @progress_stop [s] buf up .eio with
      clean := fun _ hclean hd => absurd hclean hd.lookup_ne_none
      all := fun _ s' hs' => by
        rw [mem_singleton.mp hs']
        exact hnone }
  · next ds hlookup =>
    -- the shards of this stripe are dirty as its entry says
    have hbyte : ∀ b, stripeOf b = s →
        (ByteDirty buf.dirty b ↔ shardIsDirty geom ds (shardOf b)) := by
      rintro b rfl
      constructor
      · rintro ⟨ds', hlookup', hd⟩
        rwa [Option.some.inj (hlookup.symm.trans hlookup')]
      · exact fun hd => ⟨ds, hlookup, hd⟩
    split
    · split
      · exact progress_stop _
      · split
        · exact progress_stop _
        · refine progress_written (fun b hb hd => ?_) fun b hb hd => ?_
          · exact if_pos ((hbyte b hb).mp hd)
          · exact if_neg (mt (hbyte b hb).mpr hd)
    · next hmask =>
      split
      · exact progress_stop _
      · refine progress_written (fun b hb hd => rfl) fun b hb hd => ?_
        refine absurd ((hbyte b hb).mpr ?_) hd
        rw [shardIsDirty, hmask]

/-! ## A list of stripes -/

lemma Progress.cons {s : Nat} {ss : List Nat} {buf : Buffer} {up : Content} {r r' : Flushed}
    (h : Progress [s] buf up r) (h' : Progress ss r.buf r.up r') (hok : r.err = none) :
    Progress (s :: ss) buf up r' := by
  -- an entry that the first stripe has left is as it was
  have hdirty : ∀ b, ByteDirty r.buf.dirty b → ByteDirty buf.dirty b := by
    rintro b ⟨ds, hlookup, hd⟩
    rcases h.entry (stripeOf b) with hsame | ⟨-, hnone⟩
    · exact ⟨ds, hsame ▸ hlookup, hd⟩
    · rw [hnone] at hlookup
      cases hlookup
  refine ⟨h'.data.trans h.data, h'.capacity.trans h.capacity, h'.highWater.trans h.highWater,
    fun s' => ?_, fun b => ?_, fun b hnone hd => ?_, fun herr s' hs' => ?_⟩
  · rcases h'.entry s' with hsame | ⟨hmem, hnone⟩
    · rcases h.entry s' with hsame' | ⟨hmem, hnone⟩
      · exact .inl (hsame.trans hsame')
      · exact .inr ⟨mem_cons.mpr (.inl (mem_singleton.mp hmem)), hsame.trans hnone⟩
    · exact .inr ⟨mem_cons_of_mem s hmem, hnone⟩
  · rcases h'.byte b with hsame | ⟨hmem, hd, heq⟩
    · rcases h.byte b with hsame' | ⟨hmem, hd, heq⟩
      · exact .inl (hsame.trans hsame')
      · grind
    · exact .inr ⟨mem_cons_of_mem s hmem, hdirty b hd, heq.trans (congrFun h.data b)⟩
  · rcases h'.byte b with hsame | ⟨-, -, heq⟩
    · rcases h.entry (stripeOf b) with hentry | ⟨-, hentry⟩
      · -- the entry went later, with its bytes
        obtain ⟨ds, hlookup, hshard⟩ := hd
        have hd' : ByteDirty r.buf.dirty b := ⟨ds, hentry.trans hlookup, hshard⟩
        exact (h'.clean b hnone hd').trans (congrFun h.data b)
      · exact hsame.trans (h.clean b hentry hd)
    · exact heq.trans (congrFun h.data b)
  · rcases mem_cons.mp hs' with rfl | hmem
    · have hnone := h.all hok s' (mem_singleton.mpr rfl)
      rcases h'.entry s' with hsame | ⟨-, hnone'⟩
      · exact hsame.trans hnone
      · exact hnone'
    · exact h'.all herr s' hmem

theorem flushStripes_spec (calls : Calls) (ss : List Nat) (buf : Buffer) (up : Content) :
    Progress ss buf up (flushStripes calls ss buf up) := by
  induction ss generalizing buf up with
  | nil =>
    exact { @progress_stop [] buf up .eio with
      clean := fun _ hclean hd => absurd hclean hd.lookup_ne_none
      all := fun _ s hs => nomatch hs }
  | cons s rest ih =>
    have hfirst := flushStripe_progress calls buf up s
    unfold flushStripes
    dsimp only
    split
    · next err herr =>
      -- the flush stopped at this stripe
      refine { hfirst with entry := fun s' => ?_, byte := fun b => ?_, all := fun hok => ?_ }
      · refine (hfirst.entry s').imp_right fun h => ⟨?_, h.2⟩
        exact mem_cons.mpr (.inl (mem_singleton.mp h.1))
      · refine (hfirst.byte b).imp_right fun h => ⟨?_, h.2⟩
        exact mem_cons.mpr (.inl (mem_singleton.mp h.1))
      · rw [hok] at herr
        cases herr
    · next hok => exact hfirst.cons (ih _ _) hok

/-! ## Errors -/

def Calls.Succeed (calls : Calls) : Prop := ∀ s, calls.readErr s = 0 ∧ calls.writeErr s = 0

/-- The entry can be written from the buffer: its dirty shards are within the capacity, or all of
the stripe is below the high-water mark if it is fully dirty. -/
def Writable (buf : Buffer) (ds : DirtyStripe) : Prop :=
  if ds.mask = none then ds.stripeNo * geom.stripeSize + geom.stripeSize ≤ buf.highWater
  else ∀ i < geom.k, shardIsDirty geom ds i = true →
    ds.stripeNo * geom.stripeSize + i * geom.shardSize + geom.shardSize ≤ buf.capacity

lemma flushStripe_ok_iff {calls : Calls} (hcalls : calls.Succeed) {buf : Buffer} {up : Content}
    {s : Nat} : (flushStripe calls buf up s).err = none ↔
      ∀ ds, buf.dirty.lookup s = some ds → Writable buf ds := by
  have hwritten : ∀ bytes, (writtenStripe calls buf up s bytes).err = none := fun bytes => by
    unfold writtenStripe
    rw [if_neg (not_not.mpr (hcalls s).2)]
  unfold flushStripe
  dsimp only
  split
  · grind
  · next ds hlookup =>
    have hno := lookup_stripeNo hlookup
    have hone : (∀ ds', buf.dirty.lookup s = some ds' → Writable buf ds') ↔ Writable buf ds := by
      grind
    rw [hone]
    unfold Writable
    rw [hno]
    split
    · next mask hmask =>
      have hpartial : ds.mask ≠ none := by grind
      rw [if_neg (not_not.mpr (hcalls s).1), if_neg hpartial]
      split
      · grind
      · grind
    · grind

/-- **A flush gets through** exactly if every entry of its list can be written. -/
theorem flushStripes_ok_iff (hcalls : calls.Succeed) : (flushStripes calls ss buf up).err = none ↔
      ∀ s ∈ ss, ∀ ds, buf.dirty.lookup s = some ds → Writable buf ds := by
  induction ss generalizing buf up with
  | nil => exact iff_of_true rfl fun s hs => nomatch hs
  | cons s rest ih =>
    have hfirst := flushStripe_progress calls buf up s
    rw [forall_mem_cons, ← @flushStripe_ok_iff calls hcalls buf up s]
    unfold flushStripes
    dsimp only
    split
    · next err herr => exact iff_of_false (by rw [herr]; simp) fun h => by simp [h.1] at herr
    · next hok =>
      rw [ih, and_iff_right hok]
      have hwritable : ∀ ds, Writable (flushStripe calls buf up s).buf ds ↔ Writable buf ds := by
        intro ds
        unfold Writable
        rw [hfirst.capacity, hfirst.highWater]
      constructor
      · intro h s' hs' ds hlookup
        rcases hfirst.entry s' with hsame | ⟨hmem, -⟩
        · exact (hwritable ds).mp (h s' hs' ds (hsame.trans hlookup))
        · -- the same stripe again: it has just been written
          rw [mem_singleton.mp hmem] at hlookup
          exact (flushStripe_ok_iff hcalls).mp hok ds hlookup
      · intro h s' hs' ds hlookup
        rcases hfirst.entry s' with hsame | ⟨-, hnone⟩
        · exact (hwritable ds).mpr (h s' hs' ds (hsame.symm.trans hlookup))
        · rw [hnone] at hlookup
          cases hlookup

/-! ## The list of a range -/

/-- The stripes that a flush is about: all of them for a count of zero. -/
def InFlush (start count s : Nat) : Prop := count = 0 ∨ geom.Meets start (start + count) s

instance (start count s : Nat) : Decidable (InFlush start count s) :=
  inferInstanceAs (Decidable (_ ∨ _))

lemma mem_flushList {t : DirtyTable} {start count : Nat} (hrange : start + count < 2 ^ 64) :
    s ∈ flushList t start count ↔ (t.lookup s).isSome ∧ InFlush start count s := by
  have htake : ∀ ds : DirtyStripe,
      (!(decide (count > 0) && (decide (ds.stripeNo * geom.stripeSize + geom.stripeSize ≤ start) ||
        decide (ds.stripeNo * geom.stripeSize ≥ (start + count) % 2 ^ 64)))) ↔
        InFlush start count ds.stripeNo := by
    intro ds
    rw [Nat.mod_eq_of_lt hrange]
    unfold InFlush Geom.Meets
    rw [Nat.succ_mul]
    simp only [Bool.not_eq_true', Bool.and_eq_false_iff, Bool.or_eq_false_iff,
      decide_eq_false_iff_not]
    omega
  unfold flushList
  rw [mem_map, DirtyTable.lookup, find?_isSome]
  constructor
  · grind
  · grind

end Reffs.Proxy
