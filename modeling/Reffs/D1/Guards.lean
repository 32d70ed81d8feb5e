import Reffs.D1.Owners

/-!
# Guards

The guard of a chunk counts its accepted writes. A write that states the guard it expects is
accepted only while that guard stands, and replaces it, so no two accepted writes of one chunk can
have expected the same guard, whatever ran between them.
-/

namespace Reffs.D1

open ByteCodec SlotTable Table Option MemberAnswer

variable {g g' : Guard} {writer : UInt32} {s : ObjectSlot} {b b' : Board} {act : Act}
    {ans : MemberAnswer}
  {we : WriteEntry} {w : World}

/-! ## The count behind a guard -/

/-- How many writes a guard stands for, within one. -/
def guardRank (g : Guard) : Nat := if g.neverWritten then 0 else g.generation.toNat + 1

/-- The guard after an accepted write: the first has generation zero, and each one after it counts
on. -/
structure Advances (g : Guard) (writer : UInt32) (g' : Guard) : Prop where
  written : g'.neverWritten = false
  writer : g'.writer = writer
  generation : g'.generation.toNat = if g.neverWritten then 0 else g.generation.toNat + 1

lemma guardAdvance_advances (h : guardAdvance g writer = some g') : Advances g writer g' := by
  unfold guardAdvance at h
  split at h
  · next hnever =>
    rw [← some.inj h]
    exact ⟨rfl, rfl, by rw [if_pos hnever]; rfl⟩
  next hnever =>
  split at h
  · cases h
  next hmax =>
  rw [← some.inj h]
  refine ⟨rfl, rfl, ?_⟩
  rw [if_neg hnever]
  have hne : g.generation.toNat ≠ 2 ^ 32 - 1 := fun he => hmax (UInt32.toNat_inj.mp he)
  have hlt := g.generation.toNat_lt
  have hone : (1 : UInt32).toNat = 1 := rfl
  rw [UInt32.toNat_add, hone, Nat.mod_eq_of_lt (by omega)]

lemma Advances.rank (h : Advances g writer g') : guardRank g' = guardRank g + 1 := by
  unfold guardRank
  rw [h.written, h.generation]
  split <;> simp_all

lemma guardAccepts_rank {x : Guard} (h : guardAccepts (some x) g) : guardRank x = guardRank g := by
  unfold guardAccepts at h
  dsimp only at h
  split at h
  · cases h
  next hsame =>
  have hsame : x.neverWritten = g.neverWritten := by simpa using hsame
  unfold guardRank
  rw [← hsame]
  split at h
  · next hnever => rw [if_pos hnever, if_pos hnever]
  · grind

/-! ## The guard of a named chunk -/

/-- The guard of chunk `i` of an object, by the object's key. -/
def guardOf (c : Core) (key : ObjKey) (i : ChunkIndex) : Guard :=
  match objectFind c key with
  | none => Chunk.blank.guard
  | some (_, o) => (o.chunks i).guard

section

variable {c c' : Core} {key : ObjKey} {i : ChunkIndex}

lemma guardOf_named (h : c.stock.Inv) (hs : objectKey c.objects s = some key) :
    guardOf c key i = (chunkAt c.objects s i).guard := by
  obtain ⟨o, ho, hkey⟩ := map_eq_some_iff.mp hs
  unfold guardOf
  split
  · next hnone =>
    have := findRow_none.mp hnone s o ho
    simp [hkey] at this
  · next s' o' hfind =>
    obtain rfl := h.key s' s key (objectFind_key hfind) hs
    rw [chunkAt_of (findRow_some hfind).1]

lemma guardOf_unnamed (h : ∀ s, objectKey c.objects s ≠ some key) :
    guardOf c key i = Chunk.blank.guard := by
  unfold guardOf
  split
  · rfl
  · next hfind => exact absurd (objectFind_key hfind) (h _)

lemma guardOf_before (hg : c.stock.Grows c'.stock) (h : c.stock.Inv) (h' : c'.stock.Inv)
    (hs : objectKey c'.objects s = some key) : guardOf c key i = (chunkAt c.objects s i).guard := by
  cases ho : c.objects s with
  | some o =>
    have hold : objectKey c'.objects s = some o.key := hg.key s o.key (objectKey_of ho)
    obtain rfl := some.inj (hold.symm.trans hs)
    exact guardOf_named h (objectKey_of ho)
  | none =>
    -- the object is new: no chunk of it was ever written
    have hblank : chunkAt c.objects s i = Chunk.blank := by
      unfold chunkAt getChunk
      rw [ho]
      rfl
    rw [hblank, guardOf_unnamed]
    intro s' hs'
    obtain rfl := h'.key s' s key (hg.key s' key hs') hs
    unfold objectKey at hs'
    rw [ho] at hs'
    cases hs'

lemma guardOf_congr (hg : c.stock.Grows c'.stock) (h : c.stock.Inv) (h' : c'.stock.Inv)
    (hsame : ∀ s, objectKey c'.objects s = some key →
      (chunkAt c'.objects s i).guard = (chunkAt c.objects s i).guard) :
    guardOf c' key i = guardOf c key i := by
  by_cases hnamed : ∃ s, objectKey c'.objects s = some key
  · obtain ⟨s, hs⟩ := hnamed
    rw [guardOf_named h' hs, hsame s hs, guardOf_before hg h h' hs]
  · rw [not_exists] at hnamed
    rw [guardOf_unnamed hnamed, guardOf_unnamed fun s hs => hnamed s (hg.key s key hs)]

/-! ## Changes and guards -/

lemma Board.Step.guard (h : b.Step act b') (hact : act ≠ .ordinary) (s : ObjectSlot)
    (i : ChunkIndex) : (b'.chunk s i).guard = (b.chunk s i).guard := by
  cases h with
  | idle => rfl
  | write | activate | finalize | commit | rollbackCommitted => exact absurd rfl hact
  | rollback => exact putChunk_field Chunk.guard (by rfl) s i
  | markError | beginRepair | abortRepair
  | commitRepair | clearError | unlock =>
    exact mapChunks_field Chunk.guard (by intro _ _; rfl) _ _ s i
  | prepareRepair => rfl
  | finalizeRepair => rfl
  | handOver => rfl

lemma Board.Moves.guard (h : Board.Moves act b b') (hact : act ≠ .ordinary) (s : ObjectSlot)
    (i : ChunkIndex) : (b'.chunk s i).guard = (b.chunk s i).guard := by
  induction h with
  | refl => rfl
  | tail _ hstep ih => exact (hstep.guard hact s i).trans ih

lemma OrdinaryChange.guard {env : Envelope UInt64} {ordinal : Nat} {a : Admission}
    {status : Status} {core : Core} (hc : OrdinaryChange c env ordinal a status core) :
    (∀ w, env.body ≠ .writeBatch w) ∧
      (∀ s i, (chunkAt core.objects s i).guard = (chunkAt c.objects s i).guard) ∨
    ∃ w e s i, status = .ok ∧ env.body = .writeBatch w ∧ w.entries[ordinal]? = some e ∧
      chunkIndex e.index = some i ∧ objectKey core.objects s = some env.object ∧
      guardAccepts e.expected (chunkAt c.objects s i).guard ∧
      Advances (chunkAt c.objects s i).guard a.writer (chunkAt core.objects s i).guard ∧
      ∀ s' i', ¬ (s' = s ∧ i' = i) →
        (chunkAt core.objects s' i').guard = (chunkAt c.objects s' i').guard := by
  -- every other member puts back a chunk with the guard it had
  have hput : ∀ {s : ObjectSlot} {o : Object} {i : ChunkIndex} {ch : Chunk},
      c.objects s = some o → ch.guard = (o.chunks i).guard → ∀ s' i',
        (chunkAt (setChunk c.objects s i ch) s' i').guard = (chunkAt c.objects s' i').guard := by
    intro s o i ch hs hg s' i'
    rw [chunkAt_setChunk hs]
    refine putChunk_field Chunk.guard ?_ s' i'
    rw [chunkAt_of hs, hg]
  cases hc with
  | @write w e s o fresh objects i guard ti vi ai activate body entry form unowned get index check
      next txn version assoc =>
      obtain ⟨hsame, hs⟩ := chunkAt_objectGet get
      have hch : chunkAt c.objects s i = o.chunks i := by rw [← hsame]; exact chunkAt_of hs i
      have hguard : (writtenChunk c (o.chunks i) guard activate).guard = guard := by
        unfold writtenChunk
        split <;> rfl
      refine .inr ⟨w, e, s, i, rfl, body, entry, index, ?_, ?_, ?_, ?_⟩
      · dsimp only
        rw [setChunk_key]
        exact (objectGet_steps get).2
      · rw [hch]
        exact (writeChunkCheck_none check).2.1
      · dsimp only
        rw [hch, chunkAt_setChunk hs, putChunk_self, hguard]
        exact guardAdvance_advances next
      · intro s' i' hne
        dsimp only
        rw [chunkAt_setChunk hs, putChunk_ne hne, hsame]
  | finalize body => grind
  | commit body row staged admission object => grind
  | rollback body entry found staged admission right object =>
    refine .inl ⟨fun w hw => ?_, hput object rfl⟩
    rw [body] at hw
    cases hw
  | rollbackCommitted body entry found phase right object => grind
  | postcond body => grind

end

/-! ## Accepted writes -/

/-- The entry by which a recorded member wrote chunk `i` of `key`: one that was answered `OK`. -/
def MemberAnswer.writes (ans : MemberAnswer) (key : ObjKey) (i : ChunkIndex) : Option WriteEntry :=
  match ans.env.body with
  | .writeBatch w => (w.entries[ans.ordinal]?).filter fun e =>
    ans.entry.status == Status.ok.code && ans.env.object == key && chunkIndex e.index == some i
  | _ => none

/-- The write of chunk `i` of `key` that an event records as accepted, with its admission. -/
def acceptedWrite (w : World) (e : Event) (key : ObjKey) (i : ChunkIndex) :
    Option (UInt64 × WriteEntry) :=
  (recordedBy w e).bind fun ans => (ans.writes key i).map fun we => (ans.env.admission, we)

lemma MemberAnswer.writes_some {key : ObjKey} {i : ChunkIndex} :
    ans.writes key i = some we ↔ ∃ w, ans.env.body = .writeBatch w ∧
      w.entries[ans.ordinal]? = some we ∧ ans.entry.status = Status.ok.code ∧
      ans.env.object = key ∧ chunkIndex we.index = some i := by
  unfold writes
  split
  · next w hbody =>
    rw [hbody, filter_eq_some_iff]
    simp [and_assoc]
  · grind

lemma MemberAnswer.writes_none {key : ObjKey} {i : ChunkIndex} {w : WriteBatch}
    (hno : ans.writes key i = none) (hbody : ans.env.body = .writeBatch w)
    (hentry : w.entries[ans.ordinal]? = some we) (hok : ans.entry.status = Status.ok.code)
    (hobject : ans.env.object = key) : chunkIndex we.index ≠ some i := by
  intro hi
  have hsome := writes_some.mpr ⟨w, hbody, hentry, hok, hobject, hi⟩
  rw [hno] at hsome
  cases hsome

/-- What an accepted write establishes about the guard it found and the guard it leaves. -/
structure GuardWritten (c c' : Core) (admission : UInt64) (we : WriteEntry) (key : ObjKey)
    (i : ChunkIndex) : Prop where
  accepts : guardAccepts we.expected (guardOf c key i) = true
  advances : ∃ ai a, admissionFind c admission = some (ai, a) ∧
    Advances (guardOf c key i) a.writer (guardOf c' key i)

lemma Records.guard {c c' : Core} (h : Records c ans c') (hc : c.Inv)
    (hst : Stocked c c.receipts.used)
    (key : ObjKey) (i : ChunkIndex) :
    (ans.writes key i = none → guardOf c' key i = guardOf c key i) ∧
      ∀ we, ans.writes key i = some we → GuardWritten c c' ans.env.admission we key i := by
  obtain ⟨hsteps, hst'⟩ := h.stock hc hst
  have hgrows := hsteps.grows
  have hinv := hst.inv
  have hinv' := hst'.inv
  obtain @⟨env, ordinal, entry, slot, status, core, receipt, valid, spare, code, ground, change⟩ :=
    h
  -- a member that is not an accepted write, and leaves every guard alone
  have hstill : (∀ w, env.body = .writeBatch w → entry.status ≠ Status.ok.code) →
      (∀ s i, (chunkAt core.objects s i).guard = (chunkAt c.objects s i).guard) →
      ∀ key i, ((MemberAnswer.mk env ordinal entry).writes key i = none →
        guardOf { core with receipts := c.receipts.set slot receipt } key i = guardOf c key i) ∧
      ∀ we, (MemberAnswer.mk env ordinal entry).writes key i = some we →
        GuardWritten c { core with receipts := c.receipts.set slot receipt } env.admission we
          key i := by
    intro hno hsame key i
    refine ⟨fun _ => guardOf_congr hgrows hinv hinv' fun s _ => hsame s i, fun we hwe => ?_⟩
    obtain ⟨w, hbody, -, hok, -⟩ := writes_some.mp hwe
    exact absurd hok (hno w hbody)
  rcases change with ⟨hrefused, rfl⟩ | change
  · refine hstill (fun w _ hok => hrefused ?_) (fun _ _ => rfl) key i
    exact Status.code_injective (code.symm.trans hok)
  obtain ⟨hmoves, -⟩ := change.sound hc.numbered (used_lt_of_spare (spare_some spare))
    hc.board valid
  cases change with
  | control _ _ change =>
    have hact : env.act entry ≠ .ordinary := by rw [change.act]; exact nofun
    refine hstill (fun w hw => ?_) (hmoves.guard hact) key i
    cases change with
    | recovery body | reap body => rw [body] at hw; cases hw
  | repair body _ change =>
    have hact : env.act entry ≠ .ordinary := by
      unfold Envelope.act
      rw [body]
      exact nofun
    refine hstill (fun w hw => ?_) (hmoves.guard hact) key i
    rw [body] at hw
    cases hw
  | ordinary _ admission change =>
    rcases change.guard with ⟨hno, hsame⟩ | ⟨w, e, s, j, rfl, hbody, hentry, hindex, hkey, haccepts,
      hadvances, hothers⟩
    · exact hstill (fun w hw => absurd hw (hno w)) hsame key i
    · -- the write itself: its place gets the next guard, every other keeps its own
      refine ⟨fun hnone => guardOf_congr hgrows hinv hinv' fun s' hs' => hothers s' i ?_,
        fun we hwe => ?_⟩
      · rintro ⟨rfl, rfl⟩
        obtain rfl := some.inj (hkey.symm.trans hs')
        exact writes_none hnone hbody hentry code rfl hindex
      · obtain ⟨w', hbody', hentry', -, rfl, hi⟩ := writes_some.mp hwe
        obtain rfl : w = w' := Body.writeBatch.inj (hbody.symm.trans hbody')
        obtain rfl : e = we := some.inj (hentry.symm.trans hentry')
        obtain rfl : j = i := some.inj (hindex.symm.trans hi)
        have hnew := guardOf_named (i := j) hinv' hkey
        have hold := guardOf_before (i := j) hgrows hinv hinv' hkey
        obtain ⟨⟨ai, hfound⟩, -⟩ := admissionCheck_ok admission
        refine ⟨?_, ai, _, hfound, ?_⟩
        · rw [hold]
          exact haccepts
        · rw [hold, hnew]
          exact hadvances

/-! ## The guarantee -/

section

variable (h : w.Inv) (hst : Stocked w.store.core w.store.core.receipts.used) (e : Event)
    (key : ObjKey)
  (i : ChunkIndex)

include h hst

lemma step_guard :
    (acceptedWrite w e key i = none →
      guardOf (step w e).store.core key i = guardOf w.store.core key i) ∧
    ∀ admission we, acceptedWrite w e key i = some (admission, we) →
      GuardWritten w.store.core (step w e).store.core admission we key i := by
  unfold acceptedWrite
  have hobjects : ∀ {c : Core}, c.objects = w.store.core.objects →
      guardOf c key i = guardOf w.store.core key i := by
    intro c hc
    unfold guardOf objectFind
    rw [hc]
  refine (step_effect h e).elim (P := fun obs c =>
    ((obs.bind fun ans => (ans.writes key i).map fun we => (ans.env.admission, we)) = none →
      guardOf c key i = guardOf w.store.core key i) ∧
    ∀ admission we, (obs.bind fun ans => (ans.writes key i).map fun we =>
      (ans.env.admission, we)) = some (admission, we) →
      GuardWritten w.store.core c admission we key i) h ?_ ?_ ?_ ?_
  · exact ⟨fun _ => rfl, nofun⟩
  · exact fun _ => ⟨fun _ => hobjects rfl, nofun⟩
  · intro r
    obtain ⟨_, _, _, _, _, _, hframe⟩ := controlLocked_frame w.store.core r
    exact ⟨fun _ => hobjects (by rw [hframe]), nofun⟩
  · intro ans core hrec
    obtain ⟨hnone, hsome⟩ := hrec.guard h.store.core hst key i
    refine ⟨fun hno => hnone (map_eq_none_iff.mp hno), fun admission we hwe => ?_⟩
    obtain ⟨we', hwe', he⟩ := map_eq_some_iff.mp hwe
    obtain ⟨rfl, rfl⟩ := Prod.mk.inj he
    exact hsome we' hwe'

lemma step_guardRank :
    guardRank (guardOf w.store.core key i) ≤ guardRank (guardOf (step w e).store.core key i) := by
  obtain ⟨hnone, hsome⟩ := step_guard h hst e key i
  cases hw : acceptedWrite w e key i with
  | none => rw [hnone hw]
  | some p =>
    obtain ⟨ai, a, -, hadvances⟩ := (hsome p.1 p.2 hw).advances
    rw [hadvances.rank]
    exact Nat.le_succ _

end

lemma Reachable.run_guardRank (h : Reachable w) (es : List Event) (key : ObjKey) (i : ChunkIndex) :
    guardRank (guardOf w.store.core key i) ≤ guardRank
      (guardOf (Machine.run step w es).store.core key i) :=
  (Machine.run_invariant (I := fun w' => Reachable w' ∧
      guardRank (guardOf w.store.core key i) ≤ guardRank (guardOf w'.store.core key i))
    (fun _ e hw => ⟨hw.1.run [e], hw.2.trans (step_guardRank hw.1.inv hw.1.stocked e key i)⟩)
    ⟨h, le_rfl⟩ es).2

/-- **A guard is a linear count of accepted writes.** In any run the guard of a chunk changes at an
accepted write of that chunk only, which leaves generation zero on a chunk never written and the
next generation otherwise, under the writer of its admission; and of two accepted writes of one
chunk that stated the guard they expected, the later one expected another. -/
theorem guard_linear {w : World} (h : Reachable w) (key : ObjKey) (i : ChunkIndex) :
    (∀ e, acceptedWrite w e key i = none →
      guardOf (step w e).store.core key i = guardOf w.store.core key i) ∧
    (∀ e admission we, acceptedWrite w e key i = some (admission, we) →
      ∃ ai a, admissionFind w.store.core admission = some (ai, a) ∧
        Advances (guardOf w.store.core key i) a.writer (guardOf (step w e).store.core key i)) ∧
    ∀ e es e' admission admission' we we', acceptedWrite w e key i = some (admission, we) →
      acceptedWrite (Machine.run step (step w e) es) e' key i = some (admission', we') →
      ∀ x, we.expected = some x → we'.expected ≠ some x := by
  refine ⟨fun e => (step_guard h.inv h.stocked e key i).1, fun e admission we hwe =>
    ((step_guard h.inv h.stocked e key i).2 admission we hwe).advances, ?_⟩
  intro e es e' admission admission' we we' hwe hwe' x hx hx'
  have hnext : Reachable (step w e) := h.run [e]
  have hlater := hnext.run es
  have hfirst := (step_guard h.inv h.stocked e key i).2 admission we hwe
  have hsecond := (step_guard hlater.inv hlater.stocked e' key i).2 admission' we' hwe'
  have haccepts := hfirst.accepts
  have haccepts' := hsecond.accepts
  rw [hx] at haccepts
  rw [hx'] at haccepts'
  have hrank := guardAccepts_rank haccepts
  have hrank' := guardAccepts_rank haccepts'
  obtain ⟨ai, a, -, hadvances⟩ := hfirst.advances
  have hless :
      guardRank (guardOf w.store.core key i) + 1 ≤ guardRank (guardOf w.store.core key i) := by
    calc guardRank (guardOf w.store.core key i) + 1
        = guardRank (guardOf (step w e).store.core key i) := hadvances.rank.symm
      _ ≤ guardRank (guardOf (Machine.run step (step w e) es).store.core key i) :=
          hnext.run_guardRank es key i
      _ = guardRank (guardOf w.store.core key i) := hrank'.symm.trans hrank
  exact absurd hless (Nat.not_succ_le_self _)

/-- The write of the small run, which nothing was written before. -/
theorem guard_linear_small : ∃ admission we ai a,
    acceptedWrite admittedWorld (.advance 1) noObject 0 = some (admission, we) ∧
    admissionFind admittedWorld.store.core admission = some (ai, a) ∧
    Advances (guardOf admittedWorld.store.core noObject 0) a.writer
      (guardOf (step admittedWorld (.advance 1)).store.core noObject 0) := by
  have hwrite : (acceptedWrite admittedWorld (.advance 1) noObject 0).isSome := by
    decide +kernel
  obtain ⟨⟨admission, we⟩, hwe⟩ := isSome_iff_exists.mp hwrite
  obtain ⟨ai, a, hfound, hadvances⟩ :=
    (guard_linear admittedWorld_reachable noObject 0).2.1 _ admission we hwe
  exact ⟨admission, we, ai, a, hwe, hfound, hadvances⟩

end Reffs.D1
