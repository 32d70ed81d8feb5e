import Reffs.D1.Soundness
import Reffs.D1.Door

/-!
# Executing what a log asks for

A log that replay accepts is written by a live store that runs the requests of the log, one after
the other (`executeAll`). The first START is the store's own, written when its journal is enabled; a
later one is a reopen. A control record is a fixture call. A member's record is a call that is left
at the member it records: the members before it have receipts already and are answered from those.

The induction is on the log, record by record from the front (`Log`). What it carries is `Live`: a
reachable world whose store holds what replay has rebuilt so far and whose journal is the log read
so far, with nothing armed and with LSNs, incarnations and instances to spare.
-/

namespace Reffs.D1

open ByteCodec ByteCodec.Dec SlotTable List World

variable {s : Store} {q : Request} {n : Nat} {core c₀ : Core} {type : RecordType} {body : Bytes}
  {st : Staged} {chunkBytes : UInt32} {maxFileBytes : UInt64} {ws : List Written} {qs : List Logged}

/-! ## Running a request -/

def ControlRequest.call (instance_ : UInt64) (r : ControlRequest) : FixtureCall :=
  match r.body with
  | .admitUnder auth => .admitUnder r.object auth
  | .revoke admission => .revoke (handleOf instance_ .admission admission)
  | .expire admission => .expire (handleOf instance_ .admission admission)
  | .custody version => .custody (handleOf instance_ .version version)
  | .release version => .release (handleOf instance_ .version version)
  | .certificate certificate => .certificate certificate

/-- The events of one request, under the handles of the store object and the call's name. -/
def Logged.events (instance_ : UInt64) (id : Nat) : Logged → List Event
  | .start => [.reopen .ok]
  | .control r => [.fixture (r.call instance_)]
  -- one step for the door, one for each member before this one, and one for this one
  | .member env n =>
    .enter id (envelopeAdopt instance_ env) :: List.replicate (1 + (n + 1)) (.advance id)

def execute (w : World) (id : Nat) (q : Logged) : World :=
  Machine.run step w (q.events w.store.instance_ id)

/-- Request after request; the `i`-th call is named `id + i`. -/
def executeAll : World → Nat → List Logged → World
  | w, _, [] => w
  | w, id, q :: qs => executeAll (execute w id q) (id + 1) qs

lemma executeAll_concat (qs : List Logged) (q : Logged) : ∀ w id,
    executeAll w id (qs ++ [q]) = execute (executeAll w id qs) (id + qs.length) q := by
  induction qs with
  | nil => intro w id; rfl
  | cons p qs ih =>
    intro w id
    rw [cons_append, executeAll, ih, executeAll, length_cons, Nat.add_right_comm, Nat.add_assoc]

/-! ## The live store -/

/-- A world that has run the first `k` records of a log. -/
structure Live (uuid : Uuid) (w : World) (log : Bytes) (r : Replayed) (k : Nat) : Prop where
  reach : Reachable w
  storeUuid : w.store.journal.storeUuid = uuid
  core : w.store.core = r.core
  buf : w.store.journal.buf = log
  nextLsn : w.store.journal.nextLsn = r.lastLsn + 1
  lastLsn : r.lastLsn.toNat = k
  bounded : 60 * k ≤ log.length
  append : w.store.journal.failAppendIn = 0
  flush : w.store.journal.failNextFlush = false
  exhaust : w.store.harness.exhaust = .none
  closed : w.store.closed = false
  instance_ : w.store.instance_ ≠ 0
  nextInstance : w.nextInstance ≠ 0 ∧ w.nextInstance.toNat ≤ k + 1
  incarnation : r.core.incarnation.toNat ≤ k
  calls : ∀ id, k ≤ id → w.calls id = none

section Step

variable {uuid : Uuid} {w : World} {log : Bytes} {r : Replayed} {k : Nat}

lemma Live.serving (h : Live uuid w log r k) : w.store.serving := by
  unfold Store.serving
  rw [h.reach.inv.store.poisoned, h.closed]
  rfl

lemma Live.ready (h : Live uuid w log r k) (hk : k + 1 < 2 ^ 64 - 1) : w.store.journal.Ready := by
  refine ⟨h.append, h.flush, fun hmax => ?_⟩
  have hsucc : (r.lastLsn + 1).toNat = r.lastLsn.toNat + 1 :=
    toNat_succ h.lastLsn.le (by omega)
  have hnat := congrArg UInt64.toNat (h.nextLsn.symm.trans hmax)
  have : (0xffffffffffffffff : UInt64).toNat = 2 ^ 64 - 1 := rfl
  rw [hsucc, h.lastLsn, this] at hnat
  omega

lemma callRun_receipts (hd : Dense s.core.receipts)
    (hdone : ∀ i rc, s.core.receipts i = some rc →
      rc.result.disposition = Disposition.completed.code)
    (hbind : bindingOk s.core q.env)
    (hfree : keyConflicts s.core q.env.object.exportUuid q.env.key q.digest = false)
    (hn : n < q.env.memberCount)
    (hrec : ∀ m < n, Recorded s.core.receipts q.env.object.exportUuid q.env.key m) (fuel : Nat) :
    ∀ out : Result, out.entries.length + fuel = n → ∃ out' : Result, out'.entries.length = n ∧
      callRun fuel (s, .running q out) = (s, .running q out') := by
  induction fuel with
  | zero => exact fun out hlen => ⟨out, hlen, rfl⟩
  | succ fuel ih =>
    intro out hlen
    obtain ⟨i, rc, hi, hof⟩ := hrec out.entries.length (by omega)
    have happly := applyMember_receipt hd hi hof hbind hfree
    have hstep : ∃ out' : Result, out'.entries.length = out.entries.length + 1 ∧
        callMember s q out = (s, .running q out') := by
      have hbatch : ¬ (q.env.body.isControl || q.env.body.isRepair) := by
        -- a control or a repair has one member, and this is not the last one
        have hcount : 1 < q.env.memberCount := by omega
        unfold Envelope.memberCount at hcount
        revert hcount
        cases q.env.body <;> simp [Body.isControl, Body.isRepair]
      have hcompleted : ¬ rc.result.disposition = Disposition.unrecorded.code := by
        rw [hdone i rc hi]
        decide
      unfold callMember
      dsimp only
      rw [happly]
      dsimp only
      rw [if_neg hbatch, if_neg hcompleted, if_pos (by omega)]
      exact ⟨_, by simp, rfl⟩
    obtain ⟨out₁, hlen₁, hstep⟩ := hstep
    obtain ⟨out', hlen', hrest⟩ := ih out₁ (by omega)
    refine ⟨out', hlen', ?_⟩
    calc callRun (fuel + 1) (s, .running q out) = callRun fuel (callMember s q out) := rfl
      _ = callRun fuel (s, .running q out₁) := by rw [hstep]
      _ = (s, .running q out') := hrest

/-- One more record, written by a step that otherwise changes the state and the calls' own names. -/
lemma Live.extended (h : Live uuid w log r k) (hk : k + 1 < 2 ^ 64 - 1) {w' : World}
    (hreach : Reachable w') (hcore : w'.store.core = core)
    (hjournal : w'.store.journal = w.store.journal.extended type body)
    (hexhaust : w'.store.harness.exhaust = w.store.harness.exhaust)
    (hclosed : w'.store.closed = w.store.closed)
    (hinstance : w'.store.instance_ = w.store.instance_)
    (hnext : w'.nextInstance = w.nextInstance) (hcalls : ∀ id, id ≠ k → w'.calls id = w.calls id)
    (hinc : core.incarnation = r.core.incarnation) :
    Live uuid w' (log ++ recordFrame uuid (r.lastLsn + 1) r.core.incarnation type body)
      ⟨core, false, r.lastLsn + 1⟩ (k + 1) := by
  have hlsn : (r.lastLsn + 1).toNat = k + 1 := by grind [h.lastLsn, h.lastLsn.le, toNat_succ]
  have hstamp : w.store.journal.incarnation = r.core.incarnation := by
    grind [h.core, h.reach.inv.store.incarnation]
  refine ⟨hreach, ?_, hcore, ?_, ?_, hlsn, ?_, ?_, ?_, ?_, ?_, ?_, ?_, ?_, ?_⟩
  · rw [hjournal]
    exact h.storeUuid
  · rw [hjournal, Journal.extended, h.storeUuid, h.nextLsn, hstamp, h.buf]
  · rw [hjournal, Journal.extended, h.nextLsn]
  · rw [length_append, recordFrame_length]
    have hlen := h.bounded
    have : journalHeaderBytes = 56 := rfl
    have : journalTrailerBytes = 4 := rfl
    omega
  · rw [hjournal]
    exact h.append
  · rw [hjournal]
    exact h.flush
  · rw [hexhaust, h.exhaust]
  · rw [hclosed, h.closed]
  · rw [hinstance]
    exact h.instance_
  · rw [hnext]
    exact ⟨h.nextInstance.1, h.nextInstance.2.trans (Nat.le_succ _)⟩
  · rw [hinc]
    exact h.incarnation.trans (Nat.le_succ k)
  · intro id hid
    rw [hcalls id (by omega)]
    exact h.calls id (by omega)

lemma published_exhaust (ps : List Publication) : ∀ x : Harness,
    (ps.foldl Harness.publish x).exhaust = x.exhaust := by
  induction ps with
  | nil => intro x; rfl
  | cons p ps ih =>
    intro x
    rw [foldl_cons, ih]
    unfold Harness.publish
    split <;> rfl

namespace Live

variable (h : Live uuid w log r k)

include h

lemma callRun_eq (hq : q.Good) (hn : n < q.env.memberCount)
    (hprog : Progress r.core.receipts q.env.object.exportUuid q.env.key q.digest n)
    (hst : coreAttempt .none r.core q.env n q.digest = .staged st) :
    ∃ out a, out.entries.length = n ∧ callRun (1 + (n + 1))
      (callEnter w.store (envelopeAdopt w.store.instance_ q.env)) =
        callMember { w.store with activeCalls := a } q out := by
  obtain ⟨red, hof⟩ := coreAttempt_staged hst
  rw [← h.core] at hprog hof
  have hacc := adopted_accepted h.serving h.instance_ hq hof.binding
  have hraw : (envelopeAdopt w.store.instance_ q.env).raw = q.env := envelopeAdopt_raw _ _
  have hbound : ¬ BoundElsewhere w.store.core.receipts q.env.object.exportUuid q.env.key
      q.digest := by
    rw [← keyConflicts_iff, hof.free]
    exact Bool.false_ne_true
  have hcheck : callCheck { w.store with activeCalls := w.store.activeCalls + 1 }
      (envelopeAdopt w.store.instance_ q.env) q.bytes =
        ({ w.store with activeCalls := w.store.activeCalls + 1 },
          .running q (Result.start q.env.key)) := by
    have hfree : keyConflicts w.store.core q.env.object.exportUuid q.env.key
        (requestDigest q.bytes) = false := by
      rw [← hq.digest]
      exact hof.free
    rw [hacc.callCheck_eq, hraw, ← hq.digest]
    rw [← hq.digest] at hfree
    exact if_neg (Bool.eq_false_iff.mp hfree)
  obtain ⟨out, hlen, hrun⟩ := callRun_receipts
    (s := { w.store with activeCalls := w.store.activeCalls + 1 }) h.reach.inv.store.core.dense
    (fun i rc => h.reach.completed) hof.binding hof.free hn (hprog.recorded hbound) n
    (Result.start q.env.key) (Nat.zero_add n)
  refine ⟨out, w.store.activeCalls + 1, hlen, ?_⟩
  rw [callEnter_eq h.serving hacc.encoded, callRun_add, callRun_add n 1]
  change callRun 1 (callRun n (callCheck { w.store with activeCalls := w.store.activeCalls + 1 }
    (envelopeAdopt w.store.instance_ q.env) q.bytes)) = _
  rw [hcheck, hrun]
  rfl

theorem member (hk : k + 1 < 2 ^ 64 - 1) (hq : q.Good) (hn : n < q.env.memberCount)
    (hprog : Progress r.core.receipts q.env.object.exportUuid q.env.key q.digest n)
    (hst : coreAttempt .none r.core q.env n q.digest = .staged st)
    (hrecord : eventRecord q.env q.bytes n q.digest (encCompleteResult st.complete) = (type, body))
    (hfits : recordFits body) : Live uuid (execute w k (.member q.env n))
      (log ++ recordFrame uuid (r.lastLsn + 1) r.core.incarnation type body)
      ⟨st.recorded q.env n q.digest, false, r.lastLsn + 1⟩ (k + 1) := by
  obtain ⟨out, a, hlen, hrun⟩ := h.callRun_eq hq hn hprog hst
  have hstore : ({ w.store with activeCalls := a } : Store).Replays :=
    (h.reach.inv.store.activeCalls a).toReplays
  have hready : ({ w.store with activeCalls := a } : Store).journal.Ready := h.ready hk
  have hatt : coreAttempt ({ w.store with activeCalls := a } : Store).harness.exhaust
      ({ w.store with activeCalls := a } : Store).core q.env n q.digest = .staged st := by
    rw [h.exhaust, h.core]
    exact hst
  have happly := applyMember_staged hstore.journaling hq hready hatt hrecord hfits
  obtain ⟨b, hmember⟩ := callMember_store { w.store with activeCalls := a } q out
  rw [hlen, happly] at hmember
  have hexec : execute w k (.member q.env n) =
      w.put k (callMember { w.store with activeCalls := a } q out) := by
    have hidle : (w.calls k).all Call.finished := by
      rw [h.calls k le_rfl]
      rfl
    unfold execute Logged.events
    rw [Machine.run_cons, ← hrun]
    have henter : step w (.enter k (envelopeAdopt w.store.instance_ q.env)) =
        w.put k (callEnter w.store (envelopeAdopt w.store.instance_ q.env)) := if_pos hidle
    rw [henter]
    exact run_advance w k _ _
  obtain ⟨red, hof⟩ := coreAttempt_staged hst
  have hinc : (st.recorded q.env n q.digest).incarnation = r.core.incarnation := by
    have hground := hof.ground (h.core ▸ h.reach.inv.store.core.board) hq.valid
    simp only [Core.ground, Prod.mk.injEq] at hground
    exact hground.2.2.2.1
  have hput : (execute w k (.member q.env n)).store = _ :=
    (congrArg store hexec).trans hmember
  refine h.extended hk (h.reach.run _) ?_ ?_ ?_ ?_ ?_ ?_ ?_ hinc
  · rw [hput]
  · rw [hput]
  · rw [hput]
    exact published_exhaust _ _
  · rw [hput]
  · rw [hput]
  · rw [hexec]
    rfl
  · intro id hid
    rw [hexec]
    exact put_ne hid

theorem control (hk : k + 1 < 2 ^ 64 - 1) {q : ControlRequest} (hcanon : controlCanonical r.core q)
    (hgiven : (q.body.issues && (controlLocked r.core q).1.id == 0) = false)
    (hfits : recordFits (controlRecord q (controlLocked r.core q).1)) :
    Live uuid (execute w k (.control q))
      (log ++ recordFrame uuid (r.lastLsn + 1) r.core.incarnation .control
        (controlRecord q (controlLocked r.core q).1))
      ⟨(controlLocked r.core q).2, false, r.lastLsn + 1⟩ (k + 1) := by
  have hcall : fixture w.store (q.call w.store.instance_) = (fixtureControl w.store q).2 := by
    rw [← h.core] at hcanon
    have howned := handleOwned_handleOf h.instance_
    obtain ⟨object, body⟩ := q
    unfold fixture ControlRequest.call
    rw [h.serving]
    unfold controlCanonical at hcanon
    cases body with
    | admitUnder auth => rfl
    | revoke admission | expire admission
    | release version => simp [howned, handleOf_raw, ← beq_iff_eq.mp hcanon]
    | custody version => simp [handleRaw_handleOf h.instance_, ← beq_iff_eq.mp hcanon]
    | certificate certificate => simp [← beq_iff_eq.mp hcanon]
  have hput : (execute w k (.control q)).store = _ := hcall.trans
    (fixtureControl_eq h.reach.inv.store.toReplays (h.ready hk) (h.core.symm ▸ hgiven)
      (h.core.symm ▸ hfits))
  obtain ⟨admissions, nextAdmission, custody, nextCustody, versions, certificate, hframe⟩ :=
    controlLocked_frame r.core q
  refine h.extended hk (h.reach.run _) ?_ ?_ ?_ ?_ ?_ rfl (fun _ _ => rfl) ?_
  · rw [hput, h.core]
  · rw [hput, h.core]
  · rw [hput]
  · rw [hput]
  · rw [hput]
  · rw [hframe]

theorem start (hk : k + 2 < 2 ^ 64 - 1) : Live uuid (execute w k .start)
      (log ++ recordFrame uuid (r.lastLsn + 1) (r.core.incarnation + 1) .start
        (encStart (r.core.incarnation + 1)))
      ⟨{ r.core with incarnation := r.core.incarnation + 1 }, false, r.lastLsn + 1⟩ (k + 1) := by
  have hinv := h.reach.inv.store
  obtain ⟨c₀, -, hopen, -, -⟩ := hinv.log
  obtain ⟨fresh, hfresh, ho, hinst, hclean⟩ := storeOpen_eq h.nextInstance.1 hopen
  have hinc : w.store.core.incarnation ≠ uint64Max := by
    intro hmax
    have hle := h.incarnation
    rw [← h.core, hmax] at hle
    have : uint64Max.toNat = 2 ^ 64 - 1 := rfl
    omega
  have hlsn : (r.lastLsn + 1).toNat = k + 1 := by grind [h.lastLsn, h.lastLsn.le, toNat_succ]
  have ho' : Store.Opened { fresh with
      harness := { fresh.harness with failReopenStart := .ok } } c₀ := { ho with }
  obtain ⟨last, hreopen⟩ := hinv.toReplays.reopen_eq hopen ho' rfl hinc (h.ready (by omega)).room
  have hexec : ∀ s, storeReopen { fresh with
      harness := { fresh.harness with failReopenStart := .ok } } w.store.journal.durableBytes =
        (.ok, s) → execute w k .start = ⟨s, w.nextInstance + 1, fun _ => none⟩ := by
    intro s hs
    change w.reopen .ok = _
    unfold reopen
    dsimp only
    rw [hfresh]
    dsimp only
    rw [hs, if_neg h.nextInstance.1]
  have hreach : Reachable (execute w k .start) := h.reach.run _
  rw [hexec _ hreopen] at hreach ⊢
  refine ⟨hreach, ?_, ?_, ?_, ?_, hlsn, ?_, rfl, rfl, ?_, ho.closed, ?_, ?_, ?_, fun _ _ => rfl⟩
  · exact hinv.storeUuid.symm.trans h.storeUuid
  · dsimp only
    rw [h.core]
  · dsimp only
    unfold Journal.extended
    dsimp only
    rw [h.buf, h.nextLsn, h.core, ← h.storeUuid, hinv.storeUuid, ← h.core]
    rfl
  · dsimp only
    unfold Journal.extended
    dsimp only
    rw [h.nextLsn]
  · rw [length_append, recordFrame_length]
    have hlen := h.bounded
    have : journalHeaderBytes = 56 := rfl
    have : journalTrailerBytes = 4 := rfl
    omega
  · rfl
  · dsimp only
    rw [hinst]
    exact h.nextInstance.1
  · have hnext : (w.nextInstance + 1).toNat = w.nextInstance.toNat + 1 :=
      toNat_succ h.nextInstance.2 (by omega)
    refine ⟨fun hzero => ?_, ?_⟩
    · dsimp only at hzero
      rw [hzero] at hnext
      exact absurd hnext (by simp)
    · dsimp only
      rw [hnext]
      exact Nat.succ_le_succ h.nextInstance.2
  · grind [h.incarnation, toNat_succ]

end Live

end Step

/-! ## A whole log -/

variable {uuid : Uuid} {w : World} {log : Bytes} {r : Replayed}

lemma open_live (hopen : coreOpen uuid chunkBytes maxFileBytes = some c₀) :
    ∃ w, World.open 1 uuid chunkBytes maxFileBytes = some w ∧
      Live uuid w (recordFrame uuid 1 1 .start (encStart 1)) ⟨c₀, false, 1⟩ 1 := by
  obtain ⟨huuid, -, -, hinc⟩ := coreOpen_eq hopen
  obtain ⟨s, hs, ho, hinst, hclean⟩ := storeOpen_eq (i := 1) (by decide) hopen
  have henable : journalEnable s = (.ok, { s with
      journal := ({ journalInit uuid with incarnation := 1 } : Journal).extended .start (encStart 1)
      journaling := true }) := by
    unfold journalEnable
    rw [if_neg (by simp [ho.journaling, ho.poisoned, ho.closed, ho.pristine]), ho.journal]
    dsimp only
    rw [startAppend_eq ⟨rfl, rfl, (by decide : (1 : UInt64) ≠ 0xffffffffffffffff)⟩]
    dsimp only
    rw [ho.core, huuid, hinc]
    rfl
  have hworld : ∀ s', journalEnable s = (.ok, s') →
      World.open 1 uuid chunkBytes maxFileBytes = some ⟨s', 1 + 1, fun _ => none⟩ := by
        grind [World.open]
  have hw := hworld _ henable
  refine ⟨_, hw, .opened hw, rfl, ho.core, rfl, rfl, rfl, ?_, rfl, rfl, ?_, ho.closed, ?_, ?_, ?_,
    fun _ _ => rfl⟩
  · rw [recordFrame_length]
    have : journalHeaderBytes = 56 := rfl
    have : journalTrailerBytes = 4 := rfl
    omega
  · dsimp only
    rw [hclean]
    rfl
  · dsimp only
    rw [hinst]
    decide
  · grind
  · dsimp only
    rw [hinc]
    decide

/-- What a log that replays up to `r` is: records that fit, the requests they carry, and the world
that has run those requests. -/
structure Executed (uuid : Uuid) (w : World) (log : Bytes) (r : Replayed) (ws : List Written)
    (qs : List Logged) : Prop where
  frames : log = frames uuid 0 ws
  fits : ∀ x ∈ ws, recordFits x.body
  decoded : (stamped 0 ws).map decodeRecord = (.start :: qs).map some
  first : r.first = false
  live : Live uuid (executeAll w 1 qs) log r (qs.length + 1)

lemma Executed.length (h : Executed uuid w log r ws qs) : ws.length = qs.length + 1 := by
  have hlen := congrArg List.length h.decoded
  rwa [length_map, stamped_length, length_map] at hlen

lemma Executed.append {uuid : Uuid} {w : World} {log : Bytes} {r : Replayed}
    (h : Executed uuid w log r ws qs) {rec : JournalRecord} (hlsn : rec.lsn = r.lastLsn + 1)
    (hfits : recordFits rec.body) (hreplay : replayRecord r.core r.first rec = .ok core)
    (hlen : log.length < 2 ^ 64) :
    ∃ q, Executed uuid w (log ++ recordFrame uuid rec.lsn rec.incarnation rec.type rec.body)
      ⟨core, false, rec.lsn⟩ (ws ++ [⟨rec.type, rec.incarnation, rec.body⟩]) (qs ++ [q]) := by
  have hbound := h.live.bounded
  have hcore : r.core.Inv := h.live.core ▸ h.live.reach.inv.store.core
  obtain ⟨q, hdecode, hwritten⟩ := replayRecord_rewritten hcore hreplay
  have hnumber : UInt64.ofNat (0 + ws.length + 1) = rec.lsn := by
    rw [hlsn, h.length, ← h.live.lastLsn, Nat.zero_add, UInt64.ofNat_add, UInt64.ofNat_toNat]
    rfl
  refine ⟨q, ?_, ?_, ?_, rfl, ?_⟩
  · rw [frames_concat, hnumber, ← h.frames]
  · intro x hx
    rcases mem_append.mp hx with hx | hx
    · exact h.fits x hx
    · rw [mem_singleton.mp hx]
      exact hfits
  · rw [stamped_concat, map_append, h.decoded, hnumber, map_singleton]
    rw [hdecode, ← cons_append, map_append]
    rfl
  · rw [executeAll_concat, Nat.add_comm 1, length_append, hlsn]
    obtain ⟨type, lsn, incarnation, body⟩ := rec
    cases hwritten with
    | start htype hbody hnext =>
      dsimp only at htype hbody hnext
      rw [h.first, if_neg Bool.false_ne_true] at hnext
      subst htype hbody hnext
      exact h.live.start (by omega)
    | control _ hinc htype hcanon hgiven hbody =>
      dsimp only at htype hbody hinc
      subst htype hbody hinc
      exact h.live.control (by omega) hcanon hgiven hfits
    | member _ hinc hgood hcount hprog hstaged hrecord =>
      dsimp only at hinc hrecord
      subst hinc
      exact h.live.member (by omega) hgood hcount hprog hstaged hrecord hfits

theorem Log.executed (hopen : coreOpen uuid chunkBytes maxFileBytes = some c₀)
    (hw : World.open 1 uuid chunkBytes maxFileBytes = some w)
    (h : Log c₀ log r) : log.length < 2 ^ 64 →
      (log = [] ∧ r = ⟨c₀, true, 0⟩) ∨ ∃ ws qs, Executed uuid w log r ws qs := by
  obtain ⟨huuid, -, -, hinc⟩ := coreOpen_eq hopen
  induction h with
  | nil => exact fun _ => .inl ⟨rfl, rfl⟩
  | @append log r core rec _ lsn fits replays ih =>
    intro hlen
    rw [length_append] at hlen
    rw [huuid]
    right
    rcases ih (by omega) with ⟨rfl, rfl⟩ | ⟨ws, qs, hexec⟩
    · -- the first record is the START that enabling the journal writes
      obtain ⟨w', hw', hlive⟩ := open_live hopen
      obtain rfl : w' = w := Option.some.inj (hw'.symm.trans hw)
      obtain ⟨q, hdecode, hwritten⟩ := replayRecord_rewritten (coreOpen_inv hopen) replays
      obtain ⟨type, lsn', incarnation, body⟩ := rec
      dsimp only at lsn fits
      refine ⟨[⟨type, incarnation, body⟩], [], ?_⟩
      cases hwritten with
      | start htype hbody hnext =>
        dsimp only at htype hbody hnext
        rw [if_pos rfl] at hnext
        subst htype hbody hnext lsn
        have hsame : { c₀ with incarnation := 0 + 1 } = c₀ := by
          rw [show (0 + 1 : UInt64) = c₀.incarnation from hinc.symm]
        refine ⟨?_, ?_, ?_, rfl, ?_⟩
        · rw [frames, frames, append_nil]
          rfl
        · intro x hx
          rw [mem_singleton.mp hx]
          exact fits
        · rfl
        · dsimp only
          rw [hsame]
          exact hlive
      | control hfirst | member hfirst => cases hfirst
    · obtain ⟨q, hnext⟩ := hexec.append lsn fits replays (by omega)
      exact ⟨_, _, hnext⟩

/-- A log shorter than its size can tell has LSNs and incarnations left: each record takes sixty
bytes at least, and each incarnation a record. -/
lemma Store.Replays.room (h : s.Replays) (hsize : s.journal.buf.length < 2 ^ 64) :
    s.core.incarnation ≠ uint64Max ∧ 60 * s.journal.nextLsn.toNat ≤ s.journal.buf.length + 60 := by
  obtain ⟨c₀, last, hopen, hlog, hnext⟩ := h.log
  obtain ⟨w, hw, -⟩ := open_live hopen
  rcases hlog.executed hopen hw hsize with ⟨-, hnone⟩ | ⟨ws, qs, hexec⟩
  · cases hnone
  have hlive := hexec.live
  have hbound := hlive.bounded
  have hlast : last.toNat = qs.length + 1 := hlive.lastLsn
  constructor
  · intro hmax
    have hinc : s.core.incarnation.toNat ≤ qs.length + 1 := hlive.incarnation
    rw [hmax] at hinc
    have : uint64Max.toNat = 2 ^ 64 - 1 := rfl
    omega
  · rw [hnext, toNat_succ hlast.le (by omega), hlast]
    omega

/-! ## What replay accepts -/

lemma replayLoop_log (fuel : Nat) : ∀ {log rest : Bytes} {r r' : Replayed},
    Log c₀ log r → replayLoop fuel ⟨rest, c₀.uuid, r.lastLsn⟩ r = .ok r' →
    Log c₀ (log ++ rest) r' := by
  induction fuel with
  | zero => intro log rest r r' _ h; cases h
  | succ fuel ih =>
    intro log rest r r' hlog h
    rw [replayLoop] at h
    split at h
    · next hend =>
      obtain rfl : rest = [] := journalNext_cleanEnd hend
      rw [append_nil, ← Except.ok.inj h]
      exact hlog
    · cases h
    · next rec next hread =>
      obtain ⟨hrest, hlsn, huuid, hlast, hfits⟩ := journalNext_record hread
      split at h
      · cases h
      · next core hcore =>
        dsimp only at hrest hlsn huuid
        have hmore := Log.append rec hlog hlsn hfits hcore
        have hnext : next = ⟨next.rest, c₀.uuid, rec.lsn⟩ := by
          rw [← huuid, ← hlast]
        rw [hnext] at h
        rw [hrest, ← append_assoc]
        exact ih hmore h

/-- **Replay soundness.** Let replay accept a log into a store as it was opened. The log then reads
as records with LSNs 1, 2, 3 and so on to its last byte, each record decodes to a request, the first
is a START, and a live store of that UUID and geometry that runs the requests after it in order has,
byte for byte, that log as its durable journal, and the state that replay has rebuilt. -/
theorem storeReplay_executed {i : UInt64} {uuid : Uuid} {chunkBytes : UInt32}
    {maxFileBytes : UInt64} {s s' : Store} {log : Bytes}
    (hopen : storeOpen i uuid chunkBytes maxFileBytes = some s) (hsize : log.length < 2 ^ 64)
    (h : storeReplay s log = (.ok, s')) :
    ∃ w records qs, World.open 1 uuid chunkBytes maxFileBytes = some w ∧
      journalReadAll uuid log = (records, true) ∧
      records.map (·.lsn.toNat) = List.range' 1 records.length ∧
      records.map decodeRecord = (.start :: qs).map some ∧
      (executeAll w 1 qs).store.journal.durableBytes = log ∧
      (executeAll w 1 qs).store.core = s'.core := by
  obtain ⟨c₀, hc, ho⟩ := storeOpen_opened hopen
  obtain ⟨w, hw, -⟩ := open_live hc
  have huuid : c₀.uuid = uuid := (coreOpen_eq hc).1
  obtain ⟨r, hloop, hfirst, hcore⟩ := storeReplay_ok h
  rw [ho.core] at hloop
  have hlog : Log c₀ log r := @replayLoop_log c₀ _ [] log ⟨c₀, true, 0⟩ r .nil hloop
  rcases hlog.executed hc hw hsize with ⟨-, rfl⟩ | ⟨ws, qs, hexec⟩
  · cases hfirst
  have hread := journalReadAll_frames uuid ws hexec.fits
  have hshort := length_le_frames uuid ws 0
  rw [← hexec.frames] at hread hshort
  refine ⟨w, stamped 0 ws, qs, hw, hread, ?_, hexec.decoded, ?_, ?_⟩
  · rw [stamped_length]
    exact stamped_lsns ws 0 (Nat.zero_add _) (by omega)
  · rw [hexec.live.reach.inv.store.settled.durableBytes, hexec.live.buf]
  · rw [hexec.live.core, hcore]

theorem storeReplay_executed_small : ∃ s s', storeOpen 1 (zeros 16) 4096 1000000 = some s ∧
    storeReplay s smallWorld.store.journal.durableBytes = (.ok, s') ∧
    ∃ w records qs, World.open 1 (zeros 16) 4096 1000000 = some w ∧
      journalReadAll (zeros 16) smallWorld.store.journal.durableBytes = (records, true) ∧
      records.map (·.lsn.toNat) = List.range' 1 records.length ∧
      records.map decodeRecord = (.start :: qs).map some ∧
      (executeAll w 1 qs).store.journal.durableBytes = smallWorld.store.journal.durableBytes ∧
      (executeAll w 1 qs).store.core = s'.core := by
  obtain ⟨c₀, -, hopen, -, -⟩ := smallWorld_reachable.inv.store.log
  have hgeometry : smallWorld.store.core.uuid = zeros 16 ∧ smallWorld.store.core.chunkBytes = 4096 ∧
      smallWorld.store.core.maxFileBytes = 1000000 := by decide +kernel
  obtain ⟨s, hs, ho, -, -⟩ := storeOpen_eq (i := 1) (by decide) hopen
  obtain ⟨_, -, -, hreplay⟩ := smallWorld_reachable.inv.store.replay hopen ho
  rw [hgeometry.1, hgeometry.2.1, hgeometry.2.2] at hs
  exact ⟨s, _, hs, hreplay, storeReplay_executed hs (by decide +kernel) hreplay⟩

end Reffs.D1
