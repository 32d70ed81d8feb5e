import Reffs.Lib.Machine
import Reffs.Proxy.Flush

/-!
# When a commit goes through

A buffer in use has a capacity that is a power of two of pages, its high-water mark below that, and
its dirty shards start below the mark (`Sound`). So a dirty shard is always within the capacity, and
the one thing that can stop a commit whose upstream calls succeed is a stripe with all its shards
dirty that ends above the mark.
-/

namespace Reffs.Proxy

open List Nat Buffer

/-! ## Capacity -/

def IsCapacity (n : Nat) : Prop := ∃ j ≤ 18, n = 4096 * 2 ^ j

lemma growTo_spec {need : Nat} (hneed : need ≤ bufferMax) (fuel j : Nat) (hj : j ≤ 18)
    (hfuel : 18 < j + fuel) :
    IsCapacity (growTo need fuel (4096 * 2 ^ j)) ∧ need ≤ growTo need fuel (4096 * 2 ^ j) := by
  induction fuel generalizing j with
  | zero => omega
  | succ fuel ih =>
    unfold growTo
    split
    · next hless =>
      -- a capacity of more than half the maximum is the maximum
      have hnotlast : j ≠ 18 := by
        rintro rfl
        rw [show (4096 * 2 ^ 18 : Nat) = bufferMax from rfl] at hless
        omega
      have hhalf : 4096 * 2 ^ j ≤ bufferMax / 2 := by
        have := Nat.pow_le_pow_right (show 0 < 2 by omega) (show j ≤ 17 by omega)
        show 4096 * 2 ^ j ≤ 4096 * 2 ^ 17
        omega
      rw [if_neg (by omega), Nat.mul_assoc, ← Nat.pow_succ]
      exact ih (j + 1) (by omega) (by omega)
    · exact ⟨⟨j, hj, rfl⟩, by omega⟩

lemma IsCapacity.dvd {n : Nat} (h : IsCapacity n) : 4096 ∣ n := by
  obtain ⟨j, -, rfl⟩ := h
  exact dvd_mul_right _ _

/-! ## Sound buffers -/

structure Buffer.Sound (buf : Buffer) : Prop where
  cap : buf.capacity = 0 ∨ IsCapacity buf.capacity
  high : buf.highWater ≤ buf.capacity
  collapsed : buf.dirty.Collapsed geom
  below : ∀ s i, i < geom.k → Dirty geom buf.dirty s i →
    s * geom.stripeSize + i * geom.shardSize < buf.highWater

lemma Buffer.sound_fresh : fresh.Sound where
  cap := .inl rfl
  high := le_refl 0
  collapsed := fun _ _ _ h => nomatch h
  below := fun _ _ _ h => by
    obtain ⟨ds, hlookup, -⟩ := h
    cases hlookup

variable {buf : Buffer} {ws : List WriteArgs} {w : World}

lemma ensureCapacity_spec {buf : Buffer} (h : buf.capacity = 0 ∨ IsCapacity buf.capacity)
    {need : Nat} (hpos : 0 < need) (hneed : need ≤ bufferMax) :
    IsCapacity (ensureCapacity buf need).capacity ∧ need ≤ (ensureCapacity buf need).capacity ∧
      buf.capacity ≤ (ensureCapacity buf need).capacity := by
  unfold ensureCapacity
  split
  · next hge =>
    refine ⟨h.resolve_left (by omega), hge, Nat.le_refl _⟩
  · next hless =>
    dsimp only
    rcases h with hzero | ⟨j, hj, hcap⟩
    · rw [if_pos hzero]
      have hgrow := growTo_spec hneed 64 0 (by omega) (by omega)
      exact ⟨hgrow.1, hgrow.2, by omega⟩
    · have hne : buf.capacity ≠ 0 := by
        rw [hcap]
        exact Nat.mul_ne_zero (by omega) (Nat.pow_pos (by omega)).ne'
      rw [if_neg hne]
      have hgrow := growTo_spec hneed 64 j hj (by omega)
      rw [← hcap] at hgrow
      exact ⟨hgrow.1, hgrow.2, by omega⟩

@[simp] lemma ensureCapacity_data (buf : Buffer) (need : Nat) :
    (ensureCapacity buf need).data = buf.data := by
  unfold ensureCapacity
  split <;> rfl

@[simp] lemma ensureCapacity_highWater (buf : Buffer) (need : Nat) :
    (ensureCapacity buf need).highWater = buf.highWater := by
  unfold ensureCapacity
  split <;> rfl

@[simp] lemma ensureCapacity_dirty (buf : Buffer) (need : Nat) :
    (ensureCapacity buf need).dirty = buf.dirty := by
  unfold ensureCapacity
  split <;> rfl

variable {memory : Nat → Bool}

lemma Buffer.write_highWater (buf : Buffer) (offset : Nat) (data : List UInt8) :
    (buf.write offset data memory).highWater = max buf.highWater (offset + data.length) := by
  unfold write
  dsimp only
  rw [ensureCapacity_highWater]
  split <;> omega

lemma Buffer.write_dirty (hmem : ∀ s, memory s = true) (buf : Buffer) (offset : Nat)
    (data : List UInt8) :
    (buf.write offset data memory).dirty = markDirty geom buf.dirty offset data.length := by
  unfold write
  dsimp only
  rw [ensureCapacity_dirty, markDirtyWith_eq hmem]

lemma Buffer.Sound.write {buf : Buffer} (h : buf.Sound) {offset : Nat} {data : List UInt8}
    (hpos : 0 < data.length) (hfits : offset + data.length ≤ bufferMax)
    (hmem : ∀ s, memory s = true) : (buf.write offset data memory).Sound := by
  have hcap := @ensureCapacity_spec buf h.cap (offset + data.length) (by omega) hfits
  have hcapacity : (buf.write offset data memory).capacity =
      (ensureCapacity buf (offset + data.length)).capacity := rfl
  refine ⟨.inr ?_, ?_, ?_, ?_⟩
  · rw [hcapacity]
    exact hcap.1
  · rw [hcapacity, write_highWater]
    have := h.high
    omega
  · rw [write_dirty hmem]
    exact h.collapsed.markDirty hpos hfits
  · intro s i hi hdirty
    rw [write_dirty hmem, dirty_markDirty hpos hfits hi] at hdirty
    rw [write_highWater]
    rcases hdirty with hdirty | htouches
    · exact lt_of_lt_of_le (h.below s i hi hdirty) (le_max_left _ _)
    · exact lt_of_lt_of_le htouches.1 (le_max_right _ _)

lemma Progress.dirty_of {ss : List Nat} {up : Content} {r : Flushed}
    (h : Progress ss buf up r) {s i : Nat} (hdirty : Dirty geom r.buf.dirty s i) :
    Dirty geom buf.dirty s i := by
  obtain ⟨ds, hlookup, hd⟩ := hdirty
  rcases h.entry s with hsame | ⟨-, hnone⟩
  · exact ⟨ds, hsame.symm.trans hlookup, hd⟩
  · rw [hnone] at hlookup
    cases hlookup

lemma Progress.sound {ss : List Nat} {up : Content} {r : Flushed}
    (h : Progress ss buf up r) (hsound : buf.Sound) : r.buf.Sound where
  cap := h.capacity ▸ hsound.cap
  high := h.capacity ▸ h.highWater ▸ hsound.high
  collapsed := fun s ds mask hlookup hmask => by
    rcases h.entry s with hsame | ⟨-, hnone⟩
    · exact hsound.collapsed s ds mask (hsame.symm.trans hlookup) hmask
    · rw [hnone] at hlookup
      cases hlookup
  below := fun s i hi hdirty => h.highWater ▸ hsound.below s i hi (h.dirty_of hdirty)

lemma Buffer.Sound.writable_iff (h : buf.Sound) {s : Nat} :
    (∀ ds, buf.dirty.lookup s = some ds → Writable buf ds) ↔
      ((∀ i < geom.k, Dirty geom buf.dirty s i) →
        s * geom.stripeSize + geom.stripeSize ≤ buf.highWater) := by
  constructor
  · intro hwritable hall
    obtain ⟨ds, hlookup, -⟩ := hall 0 geom.k_pos
    have hds := hwritable ds hlookup
    rw [Writable, if_pos ((h.collapsed.mask_none hlookup).mpr hall)] at hds
    rwa [DirtyTable.lookup_stripeNo hlookup] at hds
  · intro hall ds hlookup
    unfold Writable
    rw [DirtyTable.lookup_stripeNo hlookup]
    split
    · next hmask => exact hall ((h.collapsed.mask_none hlookup).mp hmask)
    intro i hi hd
    have hbelow := h.below s i hi ⟨ds, hlookup, hd⟩
    have hcap := h.cap.resolve_left (by have := h.high; omega)
    -- the shard and the capacity are both whole numbers of pages
    obtain ⟨pages, hpages⟩ := hcap.dvd
    have hhigh := h.high
    rw [hpages] at hhigh ⊢
    change s * 16384 + i * 4096 < buf.highWater at hbelow
    show s * 16384 + i * 4096 + 4096 ≤ 4096 * pages
    omega

/-! ## Writes -/

structure WriteArgs where
  offset : UInt64
  stable : UInt32
  data : List UInt8
  calls : Calls

def WriteArgs.event (a : WriteArgs) : Event := .write a.offset a.stable a.data a.calls

def WriteArgs.stop (a : WriteArgs) : Nat := a.offset.toNat + a.data.length

/-- The writes that stripe `s` has not been flushed since: an accepted write to stable storage
flushes the stripes that it meets. -/
def pending (s : Nat) (ws : List WriteArgs) : List WriteArgs :=
  ws.foldl (fun acc a =>
    if a.stable ≠ 0 ∧ geom.Meets a.offset.toNat a.stop s then [] else a :: acc) []

lemma pending_append (s : Nat) (ws : List WriteArgs) (a : WriteArgs) : pending s (ws ++ [a]) =
    if a.stable ≠ 0 ∧ geom.Meets a.offset.toNat a.stop s then [] else a :: pending s ws := by
  unfold pending
  rw [foldl_append, foldl_cons, foldl_nil]

/-- A write gets into the buffer; others are refused before that. -/
def Buffers (offset : Nat) (stable : UInt32) (data : List UInt8) : Prop :=
  0 < data.length ∧ stable ≤ 2 ∧ offset + data.length ≤ bufferMax

instance (offset : Nat) (stable : UInt32) (data : List UInt8) :
    Decidable (Buffers offset stable data) := inferInstanceAs (Decidable (_ ∧ _ ∧ _))

/-- What a `WRITE` has done, by its outcome. -/
inductive Wrote (w : World) (offset : Nat) (stable : UInt32) (data : List UInt8) (calls : Calls) :
    Option Errno → World → Prop where
  | refused (err : Errno) {buf : Option Buffer} (no : ¬ Buffers offset stable data)
      (same : buf.getD .fresh = w.buf.getD .fresh) :
      Wrote w offset stable data calls (some err) { w with buf := buf }
  | buffered (fits : Buffers offset stable data) (h : stable = 0) :
      Wrote w offset stable data calls none
        { w with buf := some ((w.buf.getD .fresh).write offset data calls.memory) }
  | flushed (fits : Buffers offset stable data) (h : stable ≠ 0) {r : Flushed}
      (flush : flushRange calls ((w.buf.getD .fresh).write offset data calls.memory)
        w.upstream offset
        data.length = r) :
      Wrote w offset stable data calls r.err { w with buf := some r.buf, upstream := r.up }

lemma wrote (w : World) (offset : UInt64) (stable : UInt32) (data : List UInt8) (calls : Calls) :
    Wrote w offset.toNat stable data calls ((Event.write offset stable data calls).error w)
      (w.step (.write offset stable data calls)) := by
  unfold Event.error World.step
  dsimp only
  unfold pipelineWrite
  by_cases hargs : data.length = 0 ∨ stable > 2
  · rw [if_pos hargs]
    refine .refused .einval (fun h => ?_) rfl
    rcases hargs with hzero | hstable
    · exact h.1.ne' hzero
    · exact absurd h.2.1 (UInt32.not_le.mpr hstable)
  · by_cases hbig : data.length > bufferMax
    · rw [if_neg hargs, if_pos hbig]
      exact .refused .efbig (fun h => by have := h.2.2; omega) rfl
    · rw [if_neg hargs, if_neg hbig]
      dsimp only
      by_cases hneed : (offset.toNat + data.length) % 2 ^ 64 > bufferMax
      · rw [if_pos hneed]
        refine .refused .eagain (fun h => ?_) rfl
        have := mod_le (offset.toNat + data.length) (2 ^ 64)
        have := h.2.2
        omega
      · by_cases hwrap : offset.toNat + data.length ≥ 2 ^ 64
        · rw [if_neg hneed, if_pos hwrap]
          refine .refused .wild (fun h => ?_) rfl
          have hmax : bufferMax < 2 ^ 64 := by decide
          have := h.2.2
          omega
        · rw [if_neg hneed, if_neg hwrap]
          rw [mod_eq_of_lt (by omega)] at hneed
          have hfits : Buffers offset.toNat stable data :=
            ⟨pos_of_ne_zero fun h => hargs (.inl h), UInt32.not_lt.mp fun h => hargs (.inr h),
              by omega⟩
          by_cases hstable : stable ≠ 0
          · rw [if_pos hstable]
            generalize hr : flushRange calls _ _ _ _ = r
            have hwrote := Wrote.flushed hfits hstable hr
            cases herr : r.err with
            | none | some err => rwa [herr] at hwrote
          · rw [if_neg hstable]
            exact .buffered hfits (not_not.mp hstable)

/-- The buffer after the writes `ws`. -/
structure Describes (ws : List WriteArgs) (buf : Buffer) : Prop where
  sound : buf.Sound
  high : ∀ x, 0 < x → (x ≤ buf.highWater ↔ ∃ a ∈ ws, x ≤ a.stop)
  dirty : ∀ s i, i < geom.k → (Dirty geom buf.dirty s i ↔
    ∃ a ∈ pending s ws, geom.Touches a.offset.toNat a.stop s i)

lemma Describes.fresh : Describes [] .fresh where
  sound := sound_fresh
  high := fun x hx => by
    show x ≤ 0 ↔ _
    simp
    omega
  dirty := fun s i _ => by
    refine iff_of_false ?_ ?_
    · rintro ⟨ds, hlookup, -⟩
      cases hlookup
    · rintro ⟨a, ha, -⟩
      cases ha

lemma Describes.write {ws : List WriteArgs} {buf : Buffer} (h : Describes ws buf) {a : WriteArgs}
    (hpos : 0 < a.data.length) (hfits : a.stop ≤ bufferMax) (hmem : ∀ s, memory s = true) :
    (∀ x, 0 < x → (x ≤ (buf.write a.offset.toNat a.data memory).highWater ↔ ∃ b ∈ ws ++ [a],
      x ≤ b.stop)) ∧
    ∀ s i, i < geom.k → (Dirty geom (buf.write a.offset.toNat a.data memory).dirty s i ↔
      ∃ b ∈ a :: pending s ws, geom.Touches b.offset.toNat b.stop s i) := by
  constructor
  · intro x hx
    rw [write_highWater, le_max_iff, h.high x hx]
    simp only [mem_append, mem_singleton, or_and_right, exists_or, exists_eq_left]
    rfl
  · intro s i hi
    rw [write_dirty hmem, dirty_markDirty hpos hfits hi, h.dirty s i hi]
    simp only [mem_cons, or_and_right, exists_or, exists_eq_left]
    exact or_comm

/-- The request is answered without an error, and all its stripes are marked. -/
def Accepted (w : World) (e : Event) : Prop := e.error w = none ∧ e.HasMemory

lemma Describes.step (h : Describes ws (w.buf.getD .fresh)) {a : WriteArgs}
    (hok : Accepted w a.event) : Describes (ws ++ [a]) ((w.step a.event).buf.getD .fresh) := by
  have hwrote := wrote w a.offset a.stable a.data a.calls
  change Wrote w _ _ _ _ (a.event.error w) (w.step a.event) at hwrote
  generalize w.step a.event = w' at hwrote
  rw [hok.1] at hwrote
  generalize herr : (none : Option Errno) = err at hwrote
  cases hwrote with
  | refused => cases herr
  | buffered hfits hstable =>
    obtain ⟨hpos, -, hfits⟩ := hfits
    obtain ⟨hhigh, hdirty⟩ := h.write hpos hfits hok.2
    refine ⟨h.sound.write hpos hfits hok.2, hhigh, fun s i hi => ?_⟩
    rw [pending_append, if_neg fun hflush => hflush.1 hstable]
    exact hdirty s i hi
  | @flushed hfits hstable r hflush =>
    obtain ⟨hpos, -, hfits⟩ := hfits
    obtain ⟨hhigh, hdirty⟩ := h.write hpos hfits hok.2
    have hprogress := flushStripes_spec a.calls (flushList
      ((w.buf.getD .fresh).write a.offset.toNat a.data a.calls.memory).dirty a.offset.toNat
        a.data.length)
      ((w.buf.getD .fresh).write a.offset.toNat a.data a.calls.memory) w.upstream
    change Progress _ _ _ (flushRange _ _ _ _ _) at hprogress
    rw [hflush] at hprogress
    have hlist :
        ∀ s, s ∈ flushList ((w.buf.getD .fresh).write a.offset.toNat a.data a.calls.memory).dirty
        a.offset.toNat a.data.length ↔ _ := fun s => mem_flushList (by
      have : bufferMax < 2 ^ 64 := by decide
      omega)
    refine ⟨hprogress.sound (h.sound.write hpos hfits hok.2), ?_, fun s i hi => ?_⟩
    · dsimp only [Option.getD_some]
      rw [hprogress.highWater]
      exact hhigh
    · dsimp only [Option.getD_some]
      rw [pending_append]
      by_cases hmeets : geom.Meets a.offset.toNat a.stop s
      · -- the stripe is flushed if it is dirty at all
        rw [if_pos ⟨hstable, hmeets⟩]
        refine iff_of_false ?_ (by simp)
        rintro ⟨ds, hlookup, hd⟩
        obtain ⟨ds', hlookup', -⟩ := hprogress.dirty_of ⟨ds, hlookup, hd⟩
        have hin := (hlist s).mpr ⟨by rw [hlookup']; rfl, .inr hmeets⟩
        rw [hprogress.all herr.symm s hin] at hlookup
        cases hlookup
      · rw [if_neg fun hflush' => hmeets hflush'.2, ← hdirty s i hi]
        refine ⟨hprogress.dirty_of, ?_⟩
        rintro ⟨ds, hlookup, hd⟩
        rcases hprogress.entry s with hsame | ⟨hin, -⟩
        · exact ⟨ds, hsame.trans hlookup, hd⟩
        · refine absurd (((hlist s).mp hin).2.resolve_left ?_) hmeets
          exact hpos.ne'

lemma Describes.run {w : World} (hw : w.buf = none) {ws : List WriteArgs}
    (hws : Machine.Along World.step Accepted w (ws.map WriteArgs.event)) :
    Describes ws ((Machine.run World.step w (ws.map WriteArgs.event)).buf.getD .fresh) := by
  suffices hgen : ∀ (before : List WriteArgs) (w : World), Describes before (w.buf.getD .fresh) →
      Machine.Along World.step Accepted w (ws.map WriteArgs.event) →
      Describes (before ++ ws)
        ((Machine.run World.step w (ws.map WriteArgs.event)).buf.getD .fresh) by
    have hstart : Describes [] (w.buf.getD .fresh) := by
      rw [hw]
      exact Describes.fresh
    exact hgen [] w hstart hws
  clear hws hw w
  induction ws with
  | nil =>
    intro before w h _
    rw [append_nil]
    exact h
  | cons a rest ih =>
    intro before w h halong
    rw [append_cons]
    exact ih (before ++ [a]) (w.step a.event) (h.step halong.1) halong.2

lemma commit_error {offset : UInt64} {count : UInt32} {calls : Calls}
    (hrange : ¬ (count > 0 ∧ offset.toNat > 2 ^ 64 - 1 - count.toNat)) :
    (Event.commit offset count calls).error w = none ↔
      (flushRange calls (w.buf.getD .fresh) w.upstream offset.toNat count.toNat).err = none := by
  unfold Event.error
  dsimp only
  unfold pipelineCommit
  rw [if_neg hrange]
  cases hbuf : w.buf with
  | none => exact iff_of_true rfl rfl
  | some buf => grind

/-- **A commit goes through, after any accepted writes, exactly if** its range does not pass the end
of the offsets and every stripe in it all of whose shards have been written to since it was last
flushed has been written to its end or beyond. -/
theorem commit_ok_iff {w : World} (hw : w.buf = none) {ws : List WriteArgs}
    (hws : Machine.Along World.step Accepted w (ws.map WriteArgs.event)) {calls : Calls}
    (hcalls : calls.Succeed) (offset : UInt64) (count : UInt32) :
    (Event.commit offset count calls).error (Machine.run World.step w (ws.map WriteArgs.event)) =
      none ↔ (count = 0 ∨ offset.toNat ≤ 2 ^ 64 - 1 - count.toNat) ∧
      ∀ s, InFlush offset.toNat count.toNat s →
        (∀ i < geom.k, ∃ a ∈ pending s ws, geom.Touches a.offset.toNat a.stop s i) →
        ∃ a ∈ ws, (s + 1) * geom.stripeSize ≤ a.stop := by
  have h := Describes.run hw hws
  generalize Machine.run World.step w (ws.map WriteArgs.event) = w' at h
  have hcount : count > 0 ↔ count ≠ 0 := UInt32.pos_iff_ne_zero
  by_cases hbad : count > 0 ∧ offset.toNat > 2 ^ 64 - 1 - count.toNat
  · grind [Event.error, pipelineCommit]
  have hrange : offset.toNat + count.toNat < 2 ^ 64 := by
    have hoffset := offset.toNat_lt
    have hbound := count.toNat_lt
    by_cases hzero : count = 0
    · rw [hzero]
      exact hoffset
    · have hle := mt (And.intro (hcount.mpr hzero)) hbad
      omega
  rw [commit_error hbad, flushRange, flushStripes_ok_iff hcalls, and_iff_right]
  · refine forall_congr' fun s => ?_
    rw [mem_flushList hrange, h.sound.writable_iff, ← h.high _ (by
      exact mul_pos (succ_pos s) geom.stripeSize_pos), succ_mul]
    have hall : (∀ i < geom.k, Dirty geom (w'.buf.getD .fresh).dirty s i) ↔
        ∀ i < geom.k, ∃ a ∈ pending s ws, geom.Touches a.offset.toNat a.stop s i :=
      forall₂_congr fun i hi => h.dirty s i hi
    rw [← hall]
    constructor
    · intro hok hin hdirty
      obtain ⟨ds, hlookup, -⟩ := hdirty 0 geom.k_pos
      exact hok ⟨by rw [hlookup]; rfl, hin⟩ hdirty
    · exact fun hok hlisted => hok hlisted.2
  · grind

/-! ## A stripe that cannot be committed -/

def goodCalls : Calls := ⟨fun _ => 0, fun _ => 0, fun _ => false, fun _ => none, fun _ => true⟩

def emptyWorld : World := ⟨none, fun _ => 0, 1⟩

def oneByte (offset : UInt64) : WriteArgs := ⟨offset, 0, [1], goodCalls⟩

/-- **One byte in each shard of a stripe**, and its commit fails with all upstream calls successful.
-/
theorem commit_stuck : emptyWorld.buf = none ∧ Machine.Along World.step Accepted emptyWorld
      ([oneByte 0, oneByte 4096, oneByte 8192, oneByte 12288].map WriteArgs.event) ∧
    goodCalls.Succeed ∧
    (Event.commit 0 0 goodCalls).error (Machine.run World.step emptyWorld
      ([oneByte 0, oneByte 4096, oneByte 8192, oneByte 12288].map WriteArgs.event)) =
        some .eio := by
  refine ⟨rfl, ?_, fun _ => ⟨rfl, rfl⟩, by decide +kernel⟩
  exact ⟨⟨rfl, fun _ => rfl⟩, ⟨rfl, fun _ => rfl⟩, ⟨rfl, fun _ => rfl⟩, ⟨rfl, fun _ => rfl⟩,
    trivial⟩

/-- One byte at the start of the file. -/
theorem commit_ok_iff_oneByte : (Event.commit 0 0 goodCalls).error
      (Machine.run World.step emptyWorld ([oneByte 0].map WriteArgs.event)) = none ↔
    ((0 : UInt32) = 0 ∨ (0 : UInt64).toNat ≤ 2 ^ 64 - 1 - (0 : UInt32).toNat) ∧
      ∀ s, InFlush (0 : UInt64).toNat (0 : UInt32).toNat s →
        (∀ i < geom.k, ∃ a ∈ pending s [oneByte 0], geom.Touches a.offset.toNat a.stop s i) →
        ∃ a ∈ [oneByte 0], (s + 1) * geom.stripeSize ≤ a.stop :=
  @commit_ok_iff emptyWorld rfl [oneByte 0] ⟨⟨rfl, fun _ => rfl⟩, trivial⟩ goodCalls
    (fun _ => ⟨rfl, rfl⟩) 0 0

end Reffs.Proxy
