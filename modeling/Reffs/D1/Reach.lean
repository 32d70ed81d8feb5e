import Reffs.D1.Log

/-!
# Reachable worlds

`Store.Inv` is what a journalling store keeps: the state's invariant, a journal at rest, and a log
that replays to exactly the state. `World.Inv` adds what each call in flight knows. Every event
keeps it, so it holds in every world that a newly opened store can reach.
-/

namespace Reffs.D1

open ByteCodec SlotTable Table Machine Option Harness Prod

variable {core : Core} {type : RecordType} {body : Bytes} {st : Staged} {x : Exhaust}

variable {uuid : Uuid} {chunkBytes : UInt32} {maxFileBytes i : UInt64} {c c₀ : Core} {call : Call}
  {s' fresh : Store} {w : World}

/-- The log replays to exactly the state. -/
structure Store.Replays (s : Store) : Prop where
  core : s.core.Inv
  settled : s.journal.Settled
  journaling : s.journaling = true
  poisoned : s.poisoned = false
  storeUuid : s.journal.storeUuid = s.core.uuid
  log : ∃ c₀ last, coreOpen s.core.uuid s.core.chunkBytes s.core.maxFileBytes = some c₀ ∧
    Log c₀ s.journal.buf ⟨s.core, false, last⟩ ∧ s.journal.nextLsn = last + 1

/-- And its next record is stamped with the incarnation it is written in. -/
structure Store.Inv (s : Store) : Prop extends Store.Replays s where
  incarnation : s.journal.incarnation = s.core.incarnation

def Call.Good (c : Core) : Call → Prop
  | .entered env bytes => envelopeEncode env.raw envelopeMax = some bytes
  | .running r out => r.Good ∧ out.entries.length < r.env.memberCount ∧
      Progress c.receipts r.env.object.exportUuid r.env.key r.digest out.entries.length
  | .done _ _ => True

def World.CallsGood (w : World) : Prop :=
  ∀ id call, w.calls id = some call → call.Good w.store.core

structure World.Inv (w : World) : Prop where
  store : w.store.Inv
  calls : w.CallsGood

lemma coreOpen_eq (h : coreOpen uuid chunkBytes maxFileBytes = some c) :
    c.uuid = uuid ∧ c.chunkBytes = chunkBytes ∧ c.maxFileBytes = maxFileBytes ∧
      c.incarnation = 1 := by
  grind [some.inj, coreOpen]

/-! ## What an event of the journal does -/

variable {s : Store}

lemma Store.Inv.armed (h : s.Inv) (n : UInt32) (b : Bool) :
    ({ s with journal := s.journal.armed n b } : Store).Inv :=
  { h with settled := h.settled.armed n b }

lemma Store.Inv.harness (h : s.Inv) (x : Harness) : ({ s with harness := x } : Store).Inv :=
  { h with }

lemma Store.Inv.extended (h : s.Inv) (hcore : core.Inv)
    (hsame : core.uuid = s.core.uuid ∧ core.chunkBytes = s.core.chunkBytes ∧
      core.maxFileBytes = s.core.maxFileBytes ∧ core.incarnation = s.core.incarnation)
    (hfits : recordFits body)
    (hreplay : replayRecord s.core false ⟨type, s.journal.nextLsn, s.core.incarnation, body⟩ =
      .ok core) :
    ({ s with core := core, journal := s.journal.extended type body } : Store).Inv := by
  obtain ⟨c₀, last, hopen, hlog, hnext⟩ := h.log
  refine ⟨⟨hcore, s.journal.extended_settled type body, h.journaling, h.poisoned, ?_, ?_⟩, ?_⟩
  rotate_right
  · exact h.incarnation.trans hsame.2.2.2.symm
  · exact h.storeUuid.trans hsame.1.symm
  · refine ⟨c₀, s.journal.nextLsn, ?_, ?_, rfl⟩
    · rw [hsame.1, hsame.2.1, hsame.2.2.1]
      exact hopen
    have := Log.append ⟨type, s.journal.nextLsn, s.core.incarnation, body⟩ hlog hnext hfits hreplay
    rw [(coreOpen_eq hopen).1, ← h.storeUuid, ← h.incarnation] at this
    exact this

/-! ## One member -/

section Member

variable {s : Store} {r : Request} {n : Nat}

/-- **What one member can do**: answer without a record and change nothing; fail to make its record
durable and change nothing; or record its answer. -/
theorem applyMember_cases (hs : s.Replays) (hr : r.Good) (n : Nat) :
    (∃ complete, coreAttempt s.harness.exhaust s.core r.env n r.digest = .answered complete s.core ∧
      applyMember s r.env r.bytes n r.digest = (complete, s)) ∨
    (∃ a b, applyMember s r.env r.bytes n r.digest =
      (completeIo s.core r.env.key, { s with journal := s.journal.armed a b })) ∨
    (∃ st a b type body, coreAttempt s.harness.exhaust s.core r.env n r.digest = .staged st ∧
      eventRecord r.env r.bytes n r.digest (encCompleteResult st.complete) = (type, body) ∧
      recordFits body ∧ applyMember s r.env r.bytes n r.digest = (st.complete, { s with
        core := st.recorded r.env n r.digest
        harness := st.published.foldl publish s.harness
        journal := (s.journal.extended type body).armed a b })) := by
  unfold applyMember
  cases hatt : coreAttempt s.harness.exhaust s.core r.env n r.digest with
  | answered complete core =>
    obtain rfl := coreAttempt_answered hs.core.board hr.valid hatt
    exact .inl ⟨complete, rfl, rfl⟩
  | staged st =>
    right
    obtain ⟨red, hof⟩ := coreAttempt_staged hatt
    have hback := hof.takesBack hs.core.board hr.valid
    dsimp only
    rw [hs.journaling, hback]
    unfold journalMember
    rw [completeResultEncode_eq _ (by decide)]
    dsimp only
    rw [if_neg hr.bytes_ne]
    cases he : eventRecord r.env r.bytes n r.digest (encCompleteResult st.complete) with
    | mk type body =>
      dsimp only
      rcases journalEvent_cases hs.settled type body with ⟨a, b, hev⟩ | ⟨a, b, hfits, hev⟩
      · rw [hev]
        exact .inl ⟨a, b, rfl⟩
      · rw [hev]
        exact .inr ⟨st, a, b, type, body, rfl, he, hfits, rfl⟩

lemma applyMember_staged (hs : s.journaling) (hr : r.Good) (hready : s.journal.Ready)
    (hst : coreAttempt s.harness.exhaust s.core r.env n r.digest = .staged st)
    (he : eventRecord r.env r.bytes n r.digest (encCompleteResult st.complete) = (type, body))
    (hfits : recordFits body) :
    applyMember s r.env r.bytes n r.digest = (st.complete, { s with
      core := st.recorded r.env n r.digest
      harness := st.published.foldl publish s.harness
      journal := s.journal.extended type body }) := by
  unfold applyMember journalMember
  rw [hst]
  dsimp only
  rw [hs, completeResultEncode_eq _ (by decide)]
  dsimp only
  rw [if_neg hr.bytes_ne, he]
  dsimp only
  rw [hready.journalEvent_eq type hfits]
  rfl

lemma applyMember_receipt (hd : Dense s.core.receipts) {i : Fin maxReceipts} {rc : Receipt}
    (hi : s.core.receipts i = some rc)
    (hof : rc.exportUuid = r.env.object.exportUuid ∧ rc.key = r.env.key ∧ rc.ordinal = n)
    (hbind : bindingOk s.core r.env)
    (hfree : keyConflicts s.core r.env.object.exportUuid r.env.key r.digest = false) :
    applyMember s r.env r.bytes n r.digest = (rc.result, s) := by
  have hfind := hd.receiptFind_eq hi
  rw [hof.1, hof.2.1, hof.2.2] at hfind
  have hatt : coreAttempt s.harness.exhaust s.core r.env n r.digest =
      .answered rc.result s.core := by grind [attempt, coreAttempt]
  unfold applyMember
  rw [hatt]

lemma answered_cases {complete : CompleteResult}
    (h : coreAttempt x c r.env n r.digest = .answered complete core) :
    complete.disposition = Disposition.unrecorded.code ∨
      BoundElsewhere c.receipts r.env.object.exportUuid r.env.key r.digest ∨
      Recorded c.receipts r.env.object.exportUuid r.env.key n := by
  unfold coreAttempt attempt at h
  dsimp only at h
  split at h
  · rw [← (Attempt.answered.inj h).1]
    exact .inl rfl
  split at h
  · next hconf => exact .inr (.inl (keyConflicts_iff.mp hconf))
  split at h
  · next hfind => exact .inr (.inr (receiptFind_isSome.mp (by rw [hfind]; rfl)))
  split at h
  · rw [← (Attempt.answered.inj h).1]
    exact .inl rfl
  split at h
  · rw [← (Attempt.answered.inj h).1]
    exact .inl rfl
  · cases h

lemma Staged.Of.receipts {red : Reduced} (h : st.Of x c r.env n r.digest red) (hb : c.board.Inv)
    (hv : envelopeValidate r.env) : (st.recorded r.env n r.digest).receipts = c.receipts.set st.slot
      ⟨r.env.object.exportUuid, r.env.key, n, r.digest, st.complete⟩ := by
  have hground := h.ground hb hv
  simp only [Core.ground, Prod.mk.injEq] at hground
  unfold Staged.recorded
  rw [hground.2.2.2.2.2.2.2.2.1]

lemma applyMember_inv (hs : s.Inv) (hr : r.Good) (hcount : n < r.env.memberCount)
    (hprog : Progress s.core.receipts r.env.object.exportUuid r.env.key r.digest n) :
    (applyMember s r.env r.bytes n r.digest).2.Inv := by
  rcases applyMember_cases hs.toReplays hr n with ⟨complete, -, he⟩ | ⟨a, b, he⟩ |
    ⟨st, a, b, type, body, hst, hev, hfits, he⟩
  · rw [he]
    exact hs
  · rw [he]
    exact hs.armed a b
  · rw [he]
    obtain ⟨red, hof⟩ := coreAttempt_staged hst
    have hground := hof.ground hs.core.board hr.valid
    simp only [Core.ground, Prod.mk.injEq] at hground
    have hinv := hs.extended (hof.inv hs.core hr.valid hprog)
      ⟨hground.1, hground.2.1, hground.2.2.1, hground.2.2.2.1⟩ hfits
      (replayRecord_member hs.core hr hst hcount hprog _ hev)
    exact (hinv.armed a b).harness _

lemma applyMember_progress (hs : s.Replays) (hr : r.Good) {e : Uuid} {k : OpKey} {d : Digest}
    {m : Nat} (h : Progress s.core.receipts e k d m) :
    Progress (applyMember s r.env r.bytes n r.digest).2.core.receipts e k d m := by
  rcases applyMember_cases hs hr n with ⟨complete, -, he⟩ | ⟨a, b, he⟩ | ⟨st, a, b, type, body, hst,
    -, -, he⟩
  · rw [he]
    exact h
  · rw [he]
    exact h
  · rw [he]
    obtain ⟨red, hof⟩ := coreAttempt_staged hst
    rw [hof.receipts hs.core.board hr.valid]
    exact h.set (spare_some hof.slot) _

lemma applyMember_next (hs : s.Replays) (hr : r.Good)
    (hprog : Progress s.core.receipts r.env.object.exportUuid r.env.key r.digest n)
    (hdone : (applyMember s r.env r.bytes n r.digest).1.disposition ≠ Disposition.unrecorded.code) :
    Progress (applyMember s r.env r.bytes n r.digest).2.core.receipts r.env.object.exportUuid
      r.env.key r.digest (n + 1) := by
  rcases applyMember_cases hs hr n with ⟨complete, hatt, he⟩ | ⟨a, b, he⟩ |
    ⟨st, a, b, type, body, hst, -, -, he⟩
  · rw [he] at hdone ⊢
    rcases answered_cases hatt with hno | hbound | hrec
    · exact absurd hno hdone
    · exact .inr hbound
    · exact hprog.next hrec
  · rw [he] at hdone
    exact absurd rfl hdone
  · rw [he]
    obtain ⟨red, hof⟩ := coreAttempt_staged hst
    rw [hof.receipts hs.core.board hr.valid]
    refine (hprog.set (spare_some hof.slot) _).next ?_
    exact ⟨st.slot, _, set_self _ _ _, rfl, rfl, rfl⟩

end Member

/-! ## One step of a call -/

lemma Store.Inv.activeCalls (h : s.Inv) (n : Nat) : ({ s with activeCalls := n } : Store).Inv :=
  { h with }

section

variable (s : Store) (env : Envelope Handle)

lemma callEnter_store : ∃ n, (callEnter s env).1 = { s with activeCalls := n } := by
  unfold callEnter
  split
  · exact ⟨s.activeCalls, rfl⟩
  split
  · exact ⟨s.activeCalls, rfl⟩
  split
  · exact ⟨s.activeCalls, rfl⟩
  · exact ⟨s.activeCalls + 1, rfl⟩

lemma callEnter_good : (callEnter s env).2.Good s.core := by
  unfold callEnter
  split
  · trivial
  split
  · trivial
  split
  · trivial
  · next henc => exact henc

lemma callCheck_store (bytes : Bytes) :
    ∃ n, (callCheck s env bytes).1 = { s with activeCalls := n } := by
  unfold callCheck
  dsimp only
  split
  · exact ⟨_, rfl⟩
  split
  · exact ⟨_, rfl⟩
  split
  · exact ⟨_, rfl⟩
  · exact ⟨s.activeCalls, rfl⟩

lemma callCheck_progress (bytes : Bytes) :
    (callCheck s env bytes).2.finished ∨ ∃ r out, (callCheck s env bytes).2 = .running r out := by
  unfold callCheck
  dsimp only
  split
  · exact .inl rfl
  split
  · exact .inl rfl
  split
  · exact .inl rfl
  · exact .inr ⟨_, _, rfl⟩

end

lemma callCheck_good {env : Envelope Handle} {bytes : Bytes}
    (henc : envelopeEncode env.raw envelopeMax = some bytes) :
    (callCheck s env bytes).2.Good s.core := by
  unfold callCheck
  dsimp only
  split
  · trivial
  split
  · trivial
  next taken hdec =>
  split
  · trivial
  · have hsame := envelopeDecode_encode henc hdec
    have hgood := Request.Good.taken (hsame ▸ henc) hdec
    refine ⟨hgood, (memberCount_ok hgood.valid).1, ?_⟩
    exact .inl fun m hm => absurd hm (Nat.not_lt_zero m)

lemma callMember_store (s : Store) (r : Request) (out : Result) : ∃ n, (callMember s r out).1 =
      { (applyMember s r.env r.bytes out.entries.length r.digest).2 with activeCalls := n } := by
  unfold callMember
  dsimp only
  split
  · exact ⟨_, rfl⟩
  split
  · exact ⟨_, rfl⟩
  split
  · exact ⟨_, rfl⟩
  · exact ⟨_, rfl⟩

lemma callMember_good (hs : s.Replays) {r : Request} {out : Result}
    (h : (Call.running r out).Good s.core) :
    (callMember s r out).2.Good (callMember s r out).1.core := by
  obtain ⟨hr, hcount, hprog⟩ := h
  have hnext := applyMember_next hs hr hprog
  unfold callMember
  dsimp only
  split
  · trivial
  split
  · trivial
  next hdone =>
  split
  · next hmore =>
    refine ⟨hr, ?_, ?_⟩
    · simpa using hmore
    · simpa using hnext hdone
  · trivial

theorem callStep_inv (hs : s.Inv) (h : call.Good s.core) : (callStep s call).1.Inv := by
  cases call with
  | entered env bytes =>
    obtain ⟨n, hn⟩ := callCheck_store s env bytes
    exact hn ▸ hs.activeCalls n
  | running r out =>
    obtain ⟨n, hn⟩ := callMember_store s r out
    exact hn ▸ (applyMember_inv hs h.1 h.2.1 h.2.2).activeCalls n
  | done status out => exact hs

lemma callStep_good (hs : s.Replays) (h : call.Good s.core) :
    (callStep s call).2.Good (callStep s call).1.core ∧
      ∀ e k d m, Progress s.core.receipts e k d m →
        Progress (callStep s call).1.core.receipts e k d m := by
  cases call with
  | entered env bytes =>
    obtain ⟨n, hn⟩ := callCheck_store s env bytes
    change (callCheck s env bytes).2.Good (callCheck s env bytes).1.core ∧ ∀ e k d m, _ →
      Progress (callCheck s env bytes).1.core.receipts e k d m
    rw [hn]
    exact ⟨callCheck_good h, fun _ _ _ _ hp => hp⟩
  | running r out =>
    refine ⟨callMember_good hs h, fun e k d m hp => ?_⟩
    obtain ⟨n, hn⟩ := callMember_store s r out
    change Progress (callMember s r out).1.core.receipts e k d m
    rw [hn]
    exact applyMember_progress hs h.1 hp
  | done status out => exact ⟨trivial, fun _ _ _ _ hp => hp⟩

/-! ## Fixture calls -/

lemma fixtureControl_inv (hs : s.Inv) {r : ControlRequest} (hcanon : controlCanonical s.core r) :
    (fixtureControl s r).2.Inv ∧ (fixtureControl s r).2.core.receipts = s.core.receipts := by
  unfold fixtureControl
  dsimp only
  split
  · exact ⟨hs, rfl⟩
  next hgiven =>
  rw [Bool.not_eq_true] at hgiven
  rw [if_neg (by rw [hs.journaling]; exact Bool.false_ne_true)]
  obtain ⟨admissions, nextAdmission, custody, nextCustody, versions, certificate, hframe⟩ :=
    controlLocked_frame s.core r
  rcases journalEvent_cases hs.settled .control (controlRecord r (controlLocked s.core r).1) with
    ⟨a, b, hev⟩ | ⟨a, b, hfits, hev⟩
  · rw [hev]
    dsimp only
    rw [controlTakeBack_eq hs.core.issued r hgiven]
    exact ⟨hs.armed a b, rfl⟩
  · rw [hev]
    have hinv := hs.extended (controlLocked_inv hs.core r)
      (by rw [hframe]; exact ⟨rfl, rfl, rfl, rfl⟩) hfits (replayRecord_control hcanon hgiven _)
    refine ⟨hinv.armed a b, ?_⟩
    rw [hframe]

lemma fixtureControl_eq (hs : s.Replays) (hready : s.journal.Ready)
    {r : ControlRequest} (hgiven : (r.body.issues && (controlLocked s.core r).1.id == 0) = false)
    (hfits : recordFits (controlRecord r (controlLocked s.core r).1)) :
    (fixtureControl s r).2 = { s with
      core := (controlLocked s.core r).2
      journal := s.journal.extended .control (controlRecord r (controlLocked s.core r).1) } := by
  unfold fixtureControl
  dsimp only
  rw [hgiven, if_neg Bool.false_ne_true, hs.journaling, if_neg (by decide),
    hready.journalEvent_eq .control hfits]

/-- **A fixture call** runs the control request it makes, or concerns nothing the log determines. -/
theorem fixture_cases (s : Store) (call : FixtureCall) :
    (∃ r, call.request s = some r ∧ controlCanonical s.core r ∧
      fixture s call = (fixtureControl s r).2) ∨ (call.request s = none ∧ ∃ x a b,
      fixture s call = { s with harness := x, journal := s.journal.armed a b }) := by
  have hsame : ∃ x a b, s = { s with harness := x, journal := s.journal.armed a b } :=
    ⟨s.harness, s.journal.failAppendIn, s.journal.failNextFlush, rfl⟩
  have hharness : ∀ x, ∃ y a b, ({ s with harness := x } : Store) =
      { s with harness := y, journal := s.journal.armed a b } :=
    fun x => ⟨x, s.journal.failAppendIn, s.journal.failNextFlush, rfl⟩
  unfold fixture FixtureCall.request
  split
  · exact .inr ⟨rfl, hsame⟩
  cases call with
  | admitUnder object auth => exact .inl ⟨_, rfl, rfl, rfl⟩
  | revoke h | expire h =>
    dsimp only
    split
    · exact .inr ⟨rfl, hsame⟩
    · exact .inl ⟨_, rfl, beq_self_eq_true _, rfl⟩
  | custody h | certificate certificate => exact .inl ⟨_, rfl, beq_self_eq_true noObject, rfl⟩
  | release h =>
    dsimp only
    split
    · exact .inr ⟨rfl, hsame⟩
    · exact .inl ⟨_, rfl, beq_self_eq_true noObject, rfl⟩
  | failAppendIn n => exact .inr ⟨rfl, s.harness, n, s.journal.failNextFlush, rfl⟩
  | failNextFlush => exact .inr ⟨rfl, s.harness, s.journal.failAppendIn, true, rfl⟩
  | staleIndex object index => grind [staleIndex]
  | versionDamage h checksum => grind
  | _ => exact .inr ⟨rfl, hharness _⟩

lemma fixture_inv (hs : s.Inv) (call : FixtureCall) :
    (fixture s call).Inv ∧ (fixture s call).core.receipts = s.core.receipts := by
  rcases fixture_cases s call with ⟨r, -, hcanon, he⟩ | ⟨-, x, a, b, he⟩
  · rw [he]
    exact fixtureControl_inv hs hcanon
  · rw [he]
    exact ⟨(hs.armed a b).harness x, rfl⟩

/-! ## Views -/

lemma viewOpen_harness (s : Store) (object : ObjKey) (admission : Handle) (sel : SelectionSpec)
    (byteBegin byteEnd : UInt64) :
    ∃ x, (viewOpen s object admission sel byteBegin byteEnd).2.2 = { s with harness := x } := by
  unfold viewOpen
  dsimp only
  repeat' split
  all_goals first | exact ⟨s.harness, rfl⟩ | exact ⟨_, rfl⟩

lemma viewClose_harness (s : Store) (view : Fin maxViews) :
    ∃ x, viewClose s view = { s with harness := x } := by
  unfold viewClose
  repeat' split
  all_goals first | exact ⟨s.harness, rfl⟩ | exact ⟨_, rfl⟩

/-! ## Opening and reopening -/

lemma startAppend_ok (h : startAppend s = (.ok, s')) :
    ∃ a b, recordFits (encStart s.core.incarnation) ∧ s' = { s with
      journal := (({ s.journal with incarnation := s.core.incarnation } : Journal).extended .start
        (encStart s.core.incarnation)).armed a b } := by
  unfold startAppend at h
  dsimp only at h
  rcases journalAppend_cases { s.journal with incarnation := s.core.incarnation } .start
    (encStart s.core.incarnation) with ⟨n, he⟩ | ⟨n, hfit, -, he⟩
  · rw [he] at h
    cases h
  · rw [he] at h
    unfold journalFlush at h
    dsimp only at h
    by_cases hflush : s.journal.failNextFlush
    · rw [hflush] at h
      cases h
    · rw [Bool.not_eq_true] at hflush
      rw [hflush] at h
      exact ⟨n, false, hfit, (mk.inj h).2.symm⟩

lemma startAppend_eq (h : s.journal.Ready) : startAppend s = (.ok, { s with
      journal := ({ s.journal with incarnation := s.core.incarnation } : Journal).extended .start
        (encStart s.core.incarnation) }) := by
  have hready : Journal.Ready { s.journal with incarnation := s.core.incarnation } := { h with }
  have hflush : ¬ s.journal.failNextFlush := Bool.eq_false_iff.mp h.flush
  have hfits : recordFits (encStart s.core.incarnation) := by
    unfold recordFits encStart
    simp [journalHeaderBytes, journalTrailerBytes, journalRecordMax]
  unfold startAppend journalFlush
  dsimp only
  rw [hready.journalAppend_eq .start hfits]
  dsimp only
  rw [if_neg hflush]
  rfl

/-- A store whose log replays to the state before the START of its incarnation has, once that START
is durable, everything a journalling store keeps. -/
lemma Store.Inv.start {r : Replayed} (h : startAppend s = (.ok, s')) (hcore : s.core.Inv)
    (hpoisoned : s.poisoned = false) (hstoreUuid : s.journal.storeUuid = s.core.uuid)
    (hopen : coreOpen s.core.uuid s.core.chunkBytes s.core.maxFileBytes = some c₀)
    (hlog : Log c₀ s.journal.buf r) (hnext : s.journal.nextLsn = r.lastLsn + 1)
    (hreplay : replayRecord r.core r.first ⟨.start, s.journal.nextLsn, s.core.incarnation,
      encStart s.core.incarnation⟩ = .ok s.core) :
        ({ s' with journaling := true } : Store).Inv := by
  obtain ⟨a, b, hfits, rfl⟩ := startAppend_ok h
  refine ⟨⟨hcore, (Journal.extended_settled _ _ _).armed a b, rfl, hpoisoned, hstoreUuid,
    c₀, s.journal.nextLsn, hopen, ?_, rfl⟩, rfl⟩
  have hmore := Log.append ⟨.start, s.journal.nextLsn, s.core.incarnation,
    encStart s.core.incarnation⟩ hlog hnext hfits hreplay
  rw [(coreOpen_eq hopen).1, ← hstoreUuid] at hmore
  exact hmore

structure Store.Opened (s : Store) (c₀ : Core) : Prop where
  core : s.core = c₀
  journal : s.journal = journalZero
  journaling : s.journaling = false
  poisoned : s.poisoned = false
  closed : s.closed = false
  activeCalls : s.activeCalls = 0
  pristine : storePristine s = true

lemma storeOpen_opened (h : storeOpen i uuid chunkBytes maxFileBytes = some s) :
    ∃ c₀, coreOpen uuid chunkBytes maxFileBytes = some c₀ ∧ s.Opened c₀ := by
  unfold storeOpen at h
  split at h
  · cases h
  obtain ⟨c₀, hopen, rfl⟩ := map_eq_some_iff.mp h
  refine ⟨c₀, hopen, rfl, rfl, rfl, rfl, rfl, rfl, ?_⟩
  unfold coreOpen at hopen
  split at hopen
  · cases hopen
  split at hopen
  · cases hopen
  rw [← some.inj hopen]
  simp [storePristine, used_empty, clean]

lemma storeOpen_eq (hi : i ≠ 0) (h : coreOpen uuid chunkBytes maxFileBytes = some c₀) :
    ∃ s, storeOpen i uuid chunkBytes maxFileBytes = some s ∧ s.Opened c₀ ∧ s.instance_ = i ∧
      s.harness = clean := by
  have hopen : ∃ s, storeOpen i uuid chunkBytes maxFileBytes = some s ∧ s.instance_ = i ∧
      s.harness = clean := by
    unfold storeOpen
    rw [if_neg hi, h]
    exact ⟨_, rfl, rfl, rfl⟩
  obtain ⟨s, hs, hinst, hclean⟩ := hopen
  obtain ⟨c₁, hc, ho⟩ := storeOpen_opened hs
  obtain rfl : c₁ = c₀ := some.inj (hc.symm.trans h)
  exact ⟨s, hs, ho, hinst, hclean⟩

lemma journalEnable_inv (h : storeOpen i uuid chunkBytes maxFileBytes = some s)
    (he : journalEnable s = (.ok, s')) : s'.Inv := by
  obtain ⟨c₀, hopen, ho⟩ := storeOpen_opened h
  obtain ⟨huuid, hchunk, hmax, hinc⟩ := coreOpen_eq hopen
  unfold journalEnable at he
  rw [if_neg (by simp [ho.journaling, ho.poisoned, ho.closed, ho.pristine]), ho.journal] at he
  dsimp only at he
  split at he
  · next s'' hstart =>
    obtain rfl := (mk.inj he).2
    have hrec : replayRecord c₀ true ⟨.start, 1, s.core.incarnation,
        encStart s.core.incarnation⟩ = .ok s.core := by
      rw [ho.core, hinc]
      unfold replayRecord replayStart
      dsimp only
      rw [(reads_start 1).whole]
      simp [← hinc]
    refine Store.Inv.start (r := ⟨c₀, true, 0⟩) hstart ?_ ho.poisoned ?_ ?_ .nil rfl hrec
    · rw [ho.core]
      exact coreOpen_inv hopen
    · rfl
    · rw [ho.core, huuid, hchunk, hmax]
      exact hopen
  · next status s'' hne hstart => exact absurd (mk.inj he).1 hne

lemma Log.ne_nil {log : Bytes} {r : Replayed} (h : Log c₀ log r) (hfirst : r.first = false) :
    log ≠ [] := by
  cases h with
  | nil => cases hfirst
  | append rec _ _ _ _ =>
    intro hnil
    have hlen := congrArg List.length hnil
    rw [List.length_append, recordFrame_length] at hlen
    have : journalTrailerBytes = 4 := rfl
    rw [List.length_nil] at hlen
    omega

/-- The harness a replay leaves: nothing is armed but what concerns a reopen. -/
def Harness.disarmed (x : Harness) : Harness :=
  { x with
    failNextIndex := false
    failNextSnapshot := false
    exhaust := .none
    overlayActive := false }

section

variable (h : s.Replays)
    (hopen : coreOpen s.core.uuid s.core.chunkBytes s.core.maxFileBytes = some c₀)
  (ho : fresh.Opened c₀)

include h hopen ho

/-- **Replay of the durable bytes** into a store opened with the same parameters rebuilds the
state. -/
theorem Store.Replays.replayLocked :
    ∃ last, s.journal.nextLsn = last + 1 ∧ Log c₀ s.journal.buf ⟨s.core, false, last⟩ ∧
      replayLocked fresh s.journal.durableBytes = (.ok, { fresh with
        core := s.core
        harness := fresh.harness.disarmed
        journal := fresh.journal.armed 0 false
        replayedLsn := last }) := by
  obtain ⟨c₁, last, hopen', hlog, hnext⟩ := h.log
  obtain rfl : c₁ = c₀ := some.inj (hopen'.symm.trans hopen)
  refine ⟨last, hnext, hlog, ?_⟩
  unfold Reffs.D1.replayLocked
  rw [ho.pristine, if_neg (by simp [ho.poisoned, ho.closed, ho.activeCalls]),
    h.settled.durableBytes]
  dsimp only
  rw [ho.core, hlog.replays rfl]
  rfl

lemma Store.Replays.replay :
    ∃ last, s.journal.nextLsn = last + 1 ∧ Log c₀ s.journal.buf ⟨s.core, false, last⟩ ∧
      storeReplay fresh s.journal.durableBytes = (.ok, { fresh with
        core := s.core
        harness := ({ fresh.harness with failReopenStart := .ok } : Harness).disarmed
        journal := fresh.journal.armed 0 false
        replayedLsn := last }) := by
  have ho' : Store.Opened { fresh with
      harness := { fresh.harness with failReopenStart := .ok } } c₀ := { ho with }
  exact h.replayLocked hopen ho'

end

lemma Core.Inv.reincarnated (h : c.Inv) (n : UInt64) : ({ c with incarnation := n } : Core).Inv :=
  ⟨h.board, { h.numbered with }, h.dense, { h.issued with }⟩

section

variable (h : s.Replays)
    (hopen : coreOpen s.core.uuid s.core.chunkBytes s.core.maxFileBytes = some c₀)
  (ho : fresh.Opened c₀)

include h hopen ho

lemma Store.Replays.reopen
        (hr : storeReopen fresh s.journal.durableBytes = (.ok, s')) :
          s'.Inv ∧ s.core.incarnation ≠ uint64Max ∧
      s'.core = { s.core with incarnation := s.core.incarnation + 1 } := by
  obtain ⟨last, hnext, hlog, hreplay⟩ := h.replay hopen ho
  have hne := hlog.ne_nil rfl
  unfold storeReopen at hr
  rw [hreplay, h.settled.durableBytes] at hr
  dsimp only at hr
  rw [if_neg hne] at hr
  unfold journalAdopt at hr
  have hempty : (journalInit s.core.uuid).buf = [] := rfl
  rw [if_neg (not_not.mpr hempty)] at hr
  dsimp only at hr
  split at hr
  · cases hr
  next hmax =>
  split at hr
  · next s'' hstart =>
    obtain rfl := (Prod.mk.inj hr).2
    have hs : s''.core = { s.core with incarnation := s.core.incarnation + 1 } := by
      obtain ⟨a, b, -, rfl⟩ := startAppend_ok hstart
      rfl
    refine ⟨?_, hmax, hs⟩
    cases hx : fresh.harness.failReopenStart <;> rw [hx] at hstart <;>
      exact Store.Inv.start hstart (h.core.reincarnated _) ho.poisoned rfl hopen hlog rfl
        (replayRecord_start s.core _)
  · next status s'' hbad hstart => exact absurd (Prod.mk.inj hr).1 hbad

theorem Store.Replays.reopen_eq
        (harm : fresh.harness.failReopenStart = .ok) (hinc : s.core.incarnation ≠ uint64Max)
    (hlsn : s.journal.nextLsn ≠ 0xffffffffffffffff) :
    ∃ last, storeReopen fresh s.journal.durableBytes = (.ok, { fresh with
      core := { s.core with incarnation := s.core.incarnation + 1 }
      harness := ({ fresh.harness with failReopenStart := .ok } : Harness).disarmed
      journal := ({ journalInit s.core.uuid with
        buf := s.journal.buf
        durable := s.journal.buf.length
        nextLsn := s.journal.nextLsn
        durableLsn := s.journal.nextLsn
        incarnation := s.core.incarnation + 1 } : Journal).extended .start
          (encStart (s.core.incarnation + 1))
      replayedLsn := last
      journaling := true }) := by
  obtain ⟨last, hnext, hlog, hreplay⟩ := h.replay hopen ho
  have hne := hlog.ne_nil rfl
  have hempty : (journalInit s.core.uuid).buf = [] := rfl
  refine ⟨last, ?_⟩
  unfold storeReopen
  rw [hreplay, h.settled.durableBytes]
  dsimp only
  rw [if_neg hne]
  unfold journalAdopt
  rw [if_neg (not_not.mpr hempty)]
  dsimp only
  rw [if_neg hinc, harm, ← hnext]
  dsimp only
  rw [startAppend_eq]
  exact ⟨rfl, rfl, hlsn⟩

end

/-! ## Every event keeps the invariant -/

lemma Call.Good.receipts {c' : Core} (h : call.Good c) (he : c'.receipts = c.receipts) :
    call.Good c' := by
  cases call with
  | entered env bytes => exact h
  | running r out => exact ⟨h.1, h.2.1, he ▸ h.2.2⟩
  | done status out => trivial

lemma World.CallsGood.store_step (h : w.CallsGood)
    (he : s.core.receipts = w.store.core.receipts) : ({ w with store := s } : World).CallsGood :=
  fun id call hcall => (h id call hcall).receipts he

lemma World.CallsGood.put (h : w.CallsGood) {id : Nat} {p : Store × Call}
    (hcall : p.2.Good p.1.core)
    (hkeep : ∀ e k d m, Progress w.store.core.receipts e k d m →
      Progress p.1.core.receipts e k d m) :
    (w.put id p).CallsGood := by
  intro id' call' h'
  unfold World.put at h'
  dsimp only at h'
  by_cases hid : id' = id
  · subst hid
    rw [Function.update_self] at h'
    rw [← some.inj h']
    exact hcall
  · rw [Function.update_of_ne hid] at h'
    have hgood := h id' call' h'
    cases call' with
    | entered env bytes => exact hgood
    | running r out => exact ⟨hgood.1, hgood.2.1, hkeep _ _ _ _ hgood.2.2⟩
    | done status out => trivial

lemma World.Inv.store_step (h : w.Inv) (hs : s.Inv)
    (he : s.core.receipts = w.store.core.receipts) : ({ w with store := s } : World).Inv :=
  ⟨hs, h.calls.store_step he⟩

lemma World.CallsGood.enter (h : w.CallsGood) (id : Nat) (env : Envelope Handle) :
    (w.put id (callEnter w.store env)).CallsGood := by
  obtain ⟨n, hn⟩ := callEnter_store w.store env
  refine h.put ?_ fun e k d m hp => ?_
  · rw [hn]
    exact callEnter_good w.store env
  · rw [hn]
    exact hp

lemma World.Inv.reopen (h : w.Inv) (arm : ReopenStart) : (w.reopen arm).Inv := by
  unfold World.reopen
  dsimp only
  split
  · exact h
  next fresh hfresh =>
  obtain ⟨c₀, hopen, ho⟩ := storeOpen_opened hfresh
  have ho' : Store.Opened { fresh with
      harness := { fresh.harness with failReopenStart := arm } } c₀ := { ho with }
  split
  · next s hs =>
    exact ⟨(h.store.reopen hopen ho' hs).1, fun id call hcall => nomatch hcall⟩
  · exact ⟨h.store, h.calls⟩

lemma step_inv (w : World) (e : Event) (h : w.Inv) : (step w e).Inv := by
  cases e with
  | enter id env =>
    unfold step
    dsimp only
    split
    · obtain ⟨n, hn⟩ := callEnter_store w.store env
      refine ⟨?_, h.calls.enter id env⟩
      change (callEnter w.store env).1.Inv
      exact hn ▸ h.store.activeCalls n
    · exact h
  | advance id =>
    unfold step
    dsimp only
    split
    · exact h
    · next call hcall =>
      have hcall := h.calls id call hcall
      obtain ⟨hgood, hkeep⟩ := callStep_good h.store.toReplays hcall
      exact ⟨callStep_inv h.store hcall, h.calls.put hgood hkeep⟩
  | fixture call =>
    obtain ⟨hs, he⟩ := fixture_inv h.store call
    exact h.store_step hs he
  | viewOpen object admission sel byteBegin byteEnd =>
    obtain ⟨x, hx⟩ := viewOpen_harness w.store object admission sel byteBegin byteEnd
    unfold step
    dsimp only
    rw [hx]
    exact h.store_step (h.store.harness x) rfl
  | viewClose view =>
    obtain ⟨x, hx⟩ := viewClose_harness w.store view
    unfold step
    dsimp only
    rw [hx]
    exact h.store_step (h.store.harness x) rfl
  | close =>
    unfold step storeClose
    dsimp only
    split
    · exact h
    · exact h.store_step { h.store with } rfl
  | reopen arm => exact h.reopen arm

lemma World.open_inv (h : World.open i uuid chunkBytes maxFileBytes = some w) : w.Inv := by
  unfold World.open at h
  split at h
  · cases h
  next s hs =>
  split at h
  · next s' hs' =>
    rw [← some.inj h]
    exact ⟨journalEnable_inv hs hs', fun id call hcall => nomatch hcall⟩
  · cases h

lemma World.open_calls (h : World.open i uuid chunkBytes maxFileBytes = some w) (id : Nat) :
    w.calls id = none := by
  unfold World.open at h
  split at h
  · cases h
  split at h
  · rw [← some.inj h]
  · cases h

theorem Reachable.inv (h : Reachable w) : w.Inv := by
  obtain ⟨i, uuid, chunkBytes, maxFileBytes, w₀, es, hopen, rfl⟩ := h
  exact run_invariant step_inv (World.open_inv hopen) es

lemma Reachable.run (h : Reachable w) (es : List Event) : Reachable (run step w es) := by
  obtain ⟨i, uuid, chunkBytes, maxFileBytes, w₀, fs, hopen, rfl⟩ := h
  exact ⟨i, uuid, chunkBytes, maxFileBytes, w₀, fs ++ es, hopen, (run_append _ _ _).symm⟩

lemma Reachable.opened (h : World.open i uuid chunkBytes maxFileBytes = some w) : Reachable w :=
  ⟨i, uuid, chunkBytes, maxFileBytes, w, [], h, rfl⟩

end Reffs.D1
