import Reffs.Proxy.Commit

/-!
# What a flush makes of the file

Next to the proxy, the bytes that the client has written through the present buffer (`written`). The
data of the buffer is these bytes and zeros elsewhere, and the shards that are not dirty have them
upstream (`Mirrors`). A flush should put them over what upstream has, in the stripes of its range,
and leave all else alone. It puts whole shards there, or at a `CLOSE` everything up to the end of
the last stripe, so it does exactly if every byte of those that the client has not written is zero
upstream (`flush_overlays_iff`).
-/

namespace Reffs.Proxy

/-- The proxy, and the bytes the client has written through the present buffer. -/
structure Session where
  world : World
  written : Nat → Option UInt8

def wroteBytes (written : Nat → Option UInt8) (offset : Nat) (data : List UInt8) :
    Nat → Option UInt8 := fun b =>
  if offset ≤ b ∧ b < offset + data.length then some (data.getD (b - offset) 0) else written b

/-- What the client has written through the buffer, with the request. -/
def Session.writtenWith (c : Session) : Event → Nat → Option UInt8
  | .write offset stable data _ =>
    if Buffers offset.toNat stable data then wroteBytes c.written offset.toNat data else c.written
  | _ => c.written

/-- With the buffer goes the record of what was written through it. -/
def Session.step (c : Session) (e : Event) : Session where
  world := c.world.step e
  written := match (c.world.step e).buf with
    | none => fun _ => none
    | some _ => c.writtenWith e

/-- The buffer when the request comes to its flush. -/
def Session.flushing (c : Session) : Event → Buffer
  | .write offset _ data calls => (c.world.buf.getD .fresh).write offset.toNat data calls.memory
  | _ => c.world.buf.getD .fresh

/-- The bytes that a request is to bring upstream, of those that are written. -/
def Event.Range (e : Event) (b : Nat) : Prop :=
  match e with
  | .write offset stable data _ => stable ≠ 0 ∧ InFlush offset.toNat data.length (stripeOf b)
  | .commit offset count _ => InFlush offset.toNat count.toNat (stripeOf b)
  | .close _ _ => True

instance (e : Event) (b : Nat) : Decidable (e.Range b) :=
  match e with
  | .write _ _ _ _ => inferInstanceAs (Decidable (_ ∧ _))
  | .commit offset count _ =>
    inferInstanceAs (Decidable (InFlush offset.toNat count.toNat (stripeOf b)))
  | .close _ _ => inferInstanceAs (Decidable True)

def Session.Sends (c : Session) (e : Event) (b : Nat) : Prop :=
  match e with
  | .close _ _ => b < paddedLen (c.flushing e)
  | _ => e.Range b ∧ ByteDirty (c.flushing e).dirty b

/-- **The file after a request**, as it should be: what it was, with what the client has written. -/
def Session.Overlays (c : Session) (e : Event) : Prop :=
  ∀ b, (c.world.step e).upstream b =
    if e.Range b then (c.writtenWith e b).getD (c.world.upstream b) else c.world.upstream b

/-- Nothing but zeros is upstream where the request writes what the client has not written. -/
def Session.ZeroElsewhere (c : Session) (e : Event) : Prop :=
  ∀ b, c.Sends e b → c.writtenWith e b = none → c.world.upstream b = 0

/-! ## The buffer and what is written -/

/-- The buffer holds what the client has written, and what it is not to write again is upstream. -/
structure Mirrors (buf : Buffer) (up : Content) (written : Nat → Option UInt8) : Prop where
  sound : buf.Sound
  data : ∀ b, buf.data b = (written b).getD 0
  below : ∀ b v, written b = some v → b < buf.highWater
  clean : ∀ b v, written b = some v → ¬ ByteDirty buf.dirty b → up b = v

lemma Mirrors.fresh (up : Content) : Mirrors .fresh up fun _ => none where
  sound := Buffer.sound_fresh
  data := fun _ => rfl
  below := fun _ _ h => nomatch h
  clean := fun _ _ h => nomatch h

variable {memory : Nat → Bool}

lemma Buffer.write_data (buf : Buffer) (offset : Nat) (data : List UInt8) :
    (buf.write offset data memory).data = overlay buf.data offset data := by
  unfold Buffer.write
  dsimp only
  rw [ensureCapacity_data]

variable {buf : Buffer} {up : Content} {written : Nat → Option UInt8} {calls : Calls} {c : Session}

lemma Mirrors.write {buf : Buffer} {up : Content} {written : Nat → Option UInt8}
    (h : Mirrors buf up written) {offset : Nat} {stable : UInt32} {data : List UInt8}
    (hfits : Buffers offset stable data) (hmem : ∀ s, memory s = true) :
    Mirrors (buf.write offset data memory) up (wroteBytes written offset data) := by
  obtain ⟨hpos, -, hmax⟩ := hfits
  refine ⟨h.sound.write hpos hmax hmem, fun b => ?_, fun b v hv => ?_, fun b v hv hclean => ?_⟩
  · rw [Buffer.write_data]
    unfold overlay wroteBytes
    split
    · rfl
    · exact h.data b
  · rw [Buffer.write_highWater]
    unfold wroteBytes at hv
    split at hv
    · next hin => exact lt_of_lt_of_le hin.2 (Nat.le_max_right _ _)
    · exact lt_of_lt_of_le (h.below b v hv) (Nat.le_max_left _ _)
  · unfold ByteDirty at hclean
    rw [Buffer.write_dirty hmem, dirty_markDirty hpos hmax (shardOf_lt b), not_or] at hclean
    unfold wroteBytes at hv
    split at hv
    · next hin => exact absurd (touches_of_mem hin.1 hin.2) hclean.2
    · exact h.clean b v hv hclean.1

lemma Mirrors.flush (h : Mirrors buf up written) {ss : List Nat} {r : Flushed}
    (hr : Progress ss buf up r) : Mirrors r.buf r.up written := by
  refine ⟨hr.sound h.sound, fun b => ?_, fun b v hv => ?_, fun b v hv hclean => ?_⟩
  · rw [hr.data]
    exact h.data b
  · rw [hr.highWater]
    exact h.below b v hv
  · by_cases hdirty : ByteDirty buf.dirty b
    · -- the entry has gone, and its bytes are upstream
      rcases hr.entry (stripeOf b) with hsame | ⟨-, hnone⟩
      · obtain ⟨ds, hlookup, hd⟩ := hdirty
        exact absurd ⟨ds, hsame.trans hlookup, hd⟩ hclean
      · rw [hr.clean b hnone hdirty, h.data b, hv, Option.getD_some]
    · rcases hr.byte b with hsame | ⟨-, hd, -⟩
      · exact hsame.trans (h.clean b v hv hdirty)
      · exact absurd hd hdirty

/-! ## A flush -/

theorem flushRange_up {start count : Nat}
    (hrange : start + count < 2 ^ 64) (hok : (flushRange calls buf up start count).err = none)
    (b : Nat) : ((InFlush start count (stripeOf b) ∧ ByteDirty buf.dirty b) →
        (flushRange calls buf up start count).up b = buf.data b) ∧
      (¬ (InFlush start count (stripeOf b) ∧ ByteDirty buf.dirty b) →
        (flushRange calls buf up start count).up b = up b) := by
  have hr := flushStripes_spec calls (flushList buf.dirty start count) buf up
  constructor
  · rintro ⟨hin, hdirty⟩
    have hmem : stripeOf b ∈ flushList buf.dirty start count :=
      (mem_flushList hrange).mpr ⟨Option.isSome_iff_ne_none.mpr hdirty.lookup_ne_none, hin⟩
    exact hr.clean b (hr.all hok _ hmem) hdirty
  · intro hnot
    rcases hr.byte b with hsame | ⟨hmem, hdirty, -⟩
    · exact hsame
    · exact absurd ⟨((mem_flushList hrange).mp hmem).2, hdirty⟩ hnot

/-- Sending the bytes of `Sends` is overlaying what is written in `Range`, if upstream is zero where
they are not written. -/
lemma overlays_iff {up up' data : Content} {written : Nat → Option UInt8} {Range Sends : Nat → Prop}
    [DecidablePred Range] (hsent : ∀ b, Sends b → up' b = data b)
    (hkept : ∀ b, ¬ Sends b → up' b = up b) (hrange : ∀ b, Sends b → Range b)
    (hdata : ∀ b, data b = (written b).getD 0)
    (hclean : ∀ b v, written b = some v → Range b → ¬ Sends b → up b = v) :
    (∀ b, up' b = if Range b then (written b).getD (up b) else up b) ↔
      ∀ b, Sends b → written b = none → up b = 0 := by
  constructor
  · grind
  intro hzero b
  by_cases hb : Sends b
  · rw [hsent b hb, if_pos (hrange b hb), hdata b]
    cases hw : written b with
    | some v => rfl
    | none => exact (hzero b hb hw).symm
  · rw [hkept b hb]
    split
    · next hin =>
      cases hw : written b with
      | some v => exact hclean b v hw hin hb
      | none => rfl
    · rfl

lemma flush_overlays (h : Mirrors buf up written) {start count : Nat}
    (hrange : start + count < 2 ^ 64) (hok : (flushRange calls buf up start count).err = none) :
    (∀ b, (flushRange calls buf up start count).up b =
        if InFlush start count (stripeOf b) then (written b).getD (up b) else up b) ↔
      ∀ b, InFlush start count (stripeOf b) ∧ ByteDirty buf.dirty b → written b = none → up b = 0 :=
  overlays_iff (fun b => (flushRange_up hrange hok b).1) (fun b => (flushRange_up hrange hok b).2)
    (fun _ hb => hb.1) h.data fun b v hv hin hb => h.clean b v hv fun hd => hb ⟨hin, hd⟩

/-! ## Sessions -/

def Session.Mirrored (c : Session) : Prop :=
  Mirrors (c.world.buf.getD .fresh) c.world.upstream c.written

lemma Session.mirrored_step_of {e : Event} (h : ∀ buf, (c.world.step e).buf = some buf →
    Mirrors buf (c.world.step e).upstream (c.writtenWith e)) : (c.step e).Mirrored := by
  unfold Session.Mirrored Session.step
  cases hbuf : (c.world.step e).buf with
  | none => exact Mirrors.fresh _
  | some buf => exact h buf hbuf

lemma Session.Mirrored.step (h : c.Mirrored) {e : Event} (he : e.HasMemory) :
    (c.step e).Mirrored := by
  refine Session.mirrored_step_of fun buf hbuf => ?_
  cases e with
  | write offset stable data calls =>
    have hwrote := wrote c.world offset stable data calls
    generalize (Event.write offset stable data calls).error c.world = err at hwrote
    generalize c.world.step (.write offset stable data calls) = w at hwrote hbuf
    unfold Session.writtenWith
    cases hwrote with
    | refused _ hno hsame =>
      dsimp only at hbuf ⊢
      rw [if_neg hno]
      rw [hbuf, Option.getD_some] at hsame
      rw [hsame]
      exact h
    | buffered hfits _ =>
      cases hbuf
      dsimp only
      rw [if_pos hfits]
      exact Mirrors.write h hfits he
    | @flushed hfits _ r hflush =>
      -- a stable write is a buffered one and a flush of its range
      cases hbuf
      dsimp only
      rw [if_pos hfits, ← hflush]
      exact (Mirrors.write h hfits he).flush (flushStripes_spec _ _ _ _)
  | commit offset count calls =>
    unfold World.step pipelineCommit at hbuf ⊢
    dsimp only at hbuf ⊢
    unfold Session.Mirrored at h
    split at hbuf
    · next hbad =>
      rw [if_pos hbad]
      rw [hbuf] at h
      exact h
    · next hrange =>
      rw [if_neg hrange]
      cases hold : c.world.buf with
      | none => grind
      | some old =>
        rw [hold] at hbuf h
        dsimp only at hbuf ⊢
        have hflushed := h.flush (flushStripes_spec calls
          (flushList old.dirty offset.toNat count.toNat) old c.world.upstream)
        change Mirrors (flushRange _ _ _ _ _).buf (flushRange _ _ _ _ _).up _ at hflushed
        generalize flushRange calls old c.world.upstream offset.toNat count.toNat = r
          at hbuf hflushed ⊢
        split at hbuf
        · cases hbuf
          exact hflushed
        · dsimp only at hbuf ⊢
          split at hbuf
          · cases hbuf
          · cases hbuf
            exact hflushed
  | close err torn => grind [World.step, pipelineClose]

lemma commit_upstream {w : World} {offset : UInt64} {count : UInt32}
    (hok : (Event.commit offset count calls).error w = none) : offset.toNat + count.toNat < 2 ^ 64 ∧
    (flushRange calls (w.buf.getD .fresh) w.upstream offset.toNat count.toNat).err = none ∧
    (w.step (.commit offset count calls)).upstream =
      (flushRange calls (w.buf.getD .fresh) w.upstream offset.toNat count.toNat).up := by
  have hrange : ¬ (count > 0 ∧ offset.toNat > 2 ^ 64 - 1 - count.toNat) := by
    grind [Event.error, pipelineCommit]
  have herr := (commit_error hrange).mp hok
  refine ⟨?_, herr, ?_⟩
  · have hoffset := offset.toNat_lt
    have hbound := count.toNat_lt
    by_cases hzero : count = 0
    · rw [hzero]
      exact hoffset
    · have hle := mt (And.intro (UInt32.pos_iff_ne_zero.mpr hzero)) hrange
      omega
  · unfold World.step
    dsimp only
    unfold pipelineCommit
    rw [if_neg hrange]
    cases hbuf : w.buf with
    | none => rfl
    | some buf => grind

lemma close_upstream {w : World} {err : Int} {torn : Nat → Bool}
    (hok : (Event.close err torn).error w = none) (b : Nat) :
    (w.step (.close err torn)).upstream b =
      if b < paddedLen (w.buf.getD .fresh) then wholeFile (w.buf.getD .fresh) b
        else w.upstream b := by
  unfold Event.error at hok
  unfold World.step
  dsimp only at hok ⊢
  unfold pipelineClose at hok ⊢
  cases hbuf : w.buf with
  | none => exact (if_neg (Nat.not_lt_zero b)).symm
  | some buf => grind

lemma highWater_le_paddedLen (buf : Buffer) : buf.highWater ≤ paddedLen buf := by
  show buf.highWater ≤ (buf.highWater + 16384 - 1) / 16384 * 16384
  omega

lemma close_overlays (h : Mirrors buf up written) :
    (∀ b, (if b < paddedLen buf then wholeFile buf b else up b) =
        if True then (written b).getD (up b) else up b) ↔
      ∀ b < paddedLen buf, written b = none → up b = 0 := by
  refine @overlays_iff up _ buf.data written (fun _ => True) (· < paddedLen buf) _ (fun b hb => ?_)
    (fun b hb => if_neg hb) (fun _ _ => trivial) h.data fun b v hv _ hb => ?_
  · rw [if_pos hb]
    unfold wholeFile
    split
    · rfl
    · next habove =>
      -- nothing is written above the high-water mark
      rw [h.data b]
      cases hw : written b with
      | none => rfl
      | some v => exact absurd (h.below b v hw) habove
  · exact absurd (lt_of_lt_of_le (h.below b v hv) (highWater_le_paddedLen buf)) hb

lemma Session.Mirrored.overlays_iff {c : Session} (h : c.Mirrored) {e : Event} (hmem : e.HasMemory)
    (he : e.error c.world = none) : c.Overlays e ↔ c.ZeroElsewhere e := by
  unfold Session.Overlays Session.ZeroElsewhere
  cases e with
  | write offset stable data calls =>
    have hwrote := wrote c.world offset stable data calls
    rw [he] at hwrote
    generalize c.world.step (.write offset stable data calls) = w at hwrote ⊢
    generalize herr : (none : Option Errno) = err at hwrote
    cases hwrote with
    | refused => cases herr
    | buffered hfits hstable =>
      refine iff_of_true (fun b => ?_) fun b hb => absurd hstable hb.1.1
      rw [if_neg fun hin => hin.1 hstable]
    | @flushed hfits hstable r hflush =>
      subst hflush
      have hrange : offset.toNat + data.length < 2 ^ 64 := by
        have hmax : bufferMax < 2 ^ 64 := by decide
        have := hfits.2.2
        omega
      have hiff := flush_overlays (Mirrors.write h hfits hmem) hrange herr.symm
      simp only [Session.writtenWith, if_pos hfits, Event.Range, Session.Sends, Session.flushing,
        ne_eq, hstable, not_false_eq_true, true_and]
      exact hiff
  | commit offset count calls =>
    obtain ⟨hrange, hok, hup⟩ := commit_upstream he
    rw [hup]
    exact flush_overlays h hrange hok
  | close err torn =>
    simp only [close_upstream he]
    exact close_overlays h

end Reffs.Proxy
