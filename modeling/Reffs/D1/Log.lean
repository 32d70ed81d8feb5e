import Reffs.D1.Invariant
import Reffs.D1.System

/-!
# The durable log

A journal at rest has nothing past its durable prefix (`Journal.Settled`); an event either appends
one record to it or leaves it as it was. `Log c₀ log r` says that `log` is a sequence of records
each of which replays on the state the ones before it rebuilt, starting at `c₀` and ending at `r`;
reading and replaying such a log gives `r` (`Log.replays`).
-/

namespace Reffs.D1

open ByteCodec ByteCodec.Dec SlotTable List Bool

variable {j : Journal} {body log bytes : Bytes} {c₀ : Core}

/-! ## The journal at rest -/

structure Journal.Settled (j : Journal) : Prop where
  durable : j.durable = j.buf.length
  lsn : j.durableLsn = j.nextLsn

def Journal.armed (j : Journal) (failAppendIn : UInt32) (failNextFlush : Bool) : Journal :=
  { j with failAppendIn := failAppendIn, failNextFlush := failNextFlush }

def Journal.extended (j : Journal) (type : RecordType) (body : Bytes) : Journal :=
  let buf := j.buf ++ recordFrame j.storeUuid j.nextLsn j.incarnation type body
  { j with
    buf := buf, durable := buf.length, durableLsn := j.nextLsn + 1, nextLsn := j.nextLsn + 1 }

lemma Journal.Settled.armed (h : j.Settled) (n : UInt32) (b : Bool) : (j.armed n b).Settled :=
  ⟨h.durable, h.lsn⟩

lemma Journal.extended_settled (j : Journal) (type : RecordType) (body : Bytes) :
    (j.extended type body).Settled := ⟨rfl, rfl⟩

lemma Journal.Settled.durableBytes (h : j.Settled) : j.durableBytes = j.buf := by
  rw [Journal.durableBytes, h.durable, take_length]

/-- **An event appends one record, or leaves the journal as it was** up to its arms. -/
theorem journalEvent_cases (h : j.Settled) (type : RecordType) (body : Bytes) :
    (∃ n b, journalEvent j type body = (false, j.armed n b)) ∨ (∃ n b, recordFits body ∧
        journalEvent j type body = (true, (j.extended type body).armed n b)) := by
  have hback : ∀ buf' next n b, (j.buf <+: buf') → journalRollback { j with
      buf := buf', nextLsn := next, failAppendIn := n, failNextFlush := b } = j.armed n b := by
    rintro buf' next n b ⟨more, rfl⟩
    unfold journalRollback Journal.armed
    simp [h.durable, h.lsn]
  unfold journalEvent
  rcases journalAppend_cases j type body with ⟨n, he⟩ | ⟨n, hfit, -, he⟩
  · grind
  · rw [he]
    unfold journalFlush
    dsimp only
    by_cases hflush : j.failNextFlush
    · grind
    · rw [not_eq_true] at hflush
      rw [hflush]
      exact .inr ⟨n, false, hfit, rfl⟩

structure Journal.Ready (j : Journal) : Prop where
  append : j.failAppendIn = 0
  flush : j.failNextFlush = false
  room : j.nextLsn ≠ 0xffffffffffffffff

lemma Journal.Ready.journalAppend_eq (h : j.Ready) (type : RecordType) (hfits : recordFits body) :
    journalAppend j type body = (true, { j with
      buf := j.buf ++ recordFrame j.storeUuid j.nextLsn j.incarnation type body
      nextLsn := j.nextLsn + 1 }) := by
  grind [decide, h.append, h.room, journalAppend, recordFits]

lemma Journal.Ready.journalEvent_eq (h : j.Ready) (type : RecordType) (hfits : recordFits body) :
    journalEvent j type body = (true, j.extended type body) := by
  have hflush : ¬ j.failNextFlush := eq_false_iff.mp h.flush
  unfold journalEvent journalFlush
  rw [h.journalAppend_eq type hfits]
  dsimp only
  rw [if_neg hflush]
  rfl

/-! ## A log that replays -/

inductive Log (c₀ : Core) : Bytes → Replayed → Prop where
  | nil : Log c₀ [] ⟨c₀, true, 0⟩
  | append {log : Bytes} {r : Replayed} {core : Core} (rec : JournalRecord) (log_ : Log c₀ log r)
      (lsn : rec.lsn = r.lastLsn + 1) (fits : recordFits rec.body)
      (replays : replayRecord r.core r.first rec = .ok core) :
      Log c₀ (log ++ recordFrame c₀.uuid rec.lsn rec.incarnation rec.type rec.body)
        ⟨core, false, rec.lsn⟩

lemma Log.loop {r : Replayed} (h : Log c₀ log r) :
    ∃ n ≤ log.length, ∀ fuel rest, replayLoop (fuel + n) ⟨log ++ rest, c₀.uuid, 0⟩ ⟨c₀, true, 0⟩ =
      replayLoop fuel ⟨rest, c₀.uuid, r.lastLsn⟩ r := by
  induction h with
  | nil => exact ⟨0, le_rfl, fun _ _ => rfl⟩
  | @append log r core rec _ lsn fits replays ih =>
    obtain ⟨n, hn, hloop⟩ := ih
    refine ⟨n + 1, ?_, fun fuel rest => ?_⟩
    · rw [length_append, recordFrame_length]
      have : journalTrailerBytes = 4 := rfl
      omega
    · rw [show fuel + (n + 1) = fuel + 1 + n by omega, append_assoc, hloop]
      rw [replayLoop, journalNext_frame _ _ _ _ _ fits rest lsn]
      dsimp only
      rw [show (⟨rec.type, rec.lsn, rec.incarnation, rec.body⟩ : JournalRecord) = rec from rfl,
        replays]

theorem Log.replays {r : Replayed} (h : Log c₀ log r) (hfirst : r.first = false) :
    replayLog c₀ log = .ok r := by
  obtain ⟨n, hn, hloop⟩ := h.loop
  have hend := hloop (log.length - n + 1) []
  rw [append_nil, show log.length - n + 1 + n = log.length + 1 by omega] at hend
  have hclean : replayLoop (log.length - n + 1) ⟨[], c₀.uuid, r.lastLsn⟩ r = .ok r := by
    rw [replayLoop, journalNext, if_pos rfl]
  unfold replayLog journalCursorInit
  rw [hend, hclean]
  dsimp only
  rw [hfirst]
  rfl

/-! ## What was written replays -/

structure Request.Good (r : Request) : Prop where
  encoded : envelopeEncode r.env envelopeMax = some r.bytes
  decoded : envelopeDecode r.bytes = some r.env
  digest : r.digest = requestDigest r.bytes

lemma Request.Good.taken {env : Envelope UInt64}
    (henc : envelopeEncode env envelopeMax = some bytes)
    (hdec : envelopeDecode bytes = some env) : Request.Good ⟨env, bytes, requestDigest bytes⟩ := by
  constructor
  · exact henc
  · exact hdec
  · dsimp only

variable {r : Request}

lemma Request.Good.valid (h : r.Good) : envelopeValidate r.env :=
  envelopeDecode_validate h.decoded

lemma Request.Good.envelopeDigest_eq (h : r.Good) :
    envelopeDigest r.env envelopeMax = some r.digest := by
  rw [envelopeDigest, h.encoded, h.digest]
  rfl

lemma Request.Good.bytes_length (h : r.Good) : r.bytes.length ≤ envelopeMax := by
  have he := h.encoded
  unfold envelopeEncode at he
  split at he
  · grind
  · cases he

lemma Request.Good.bytes_ne (h : r.Good) : r.bytes ≠ [] := by
  intro hnil
  have hd := h.decoded
  have hnone : envelopeDecode [] = none := rfl
  rw [hnil, hnone] at hd
  cases hd

lemma reads_memberFields {result : Bytes} (hbytes : bytes.length ≤ envelopeMax)
    (hresult : result.length ≤ loggedCap) {ordinal : Dec UInt32} {ordBytes : Bytes} {n : UInt32}
    (hord : Reads ordinal ordBytes n) (digest : Digest) :
    Reads (decMemberFields ordinal) (encBytes bytes ++ (ordBytes ++ (encRaw digest ++
      encBytes result))) (bytes, n, digest, result) :=
  (reads_bytes hbytes (hbytes.trans_lt (by decide))).bind <| hord.bind <| .field <|
    (reads_bytes hresult (hresult.trans_lt (by decide))).last rfl

lemma encCompleteResult_loggedCap (r : CompleteResult) : (encCompleteResult r).length ≤ loggedCap :=
  (encCompleteResult_length r).trans (by decide)

lemma memberRecord_eq (h : r.Good) {complete : CompleteResult}
    (hshort : complete.entry.memberTxn.length ≤ batchEntriesMax) (n : UInt32) :
    memberRecord (r.bytes, n, r.digest, encCompleteResult complete) =
      some ⟨r.env, n.toNat, r.digest,
        { complete with entry := { complete.entry with disposition := 0 } }⟩ := by
  unfold memberRecord
  rw [h.decoded, completeResultDecode_enc hshort]

section Member

variable {c : Core} {r : Request} {x : Exhaust} {ordinal : Nat} {st : Staged}

lemma replayMember_eq (h : r.Good)
    (hst : coreAttempt x c r.env ordinal r.digest = .staged st) {logged : CompleteResult}
    (hlogged : logged = { st.complete with entry := { st.complete.entry with disposition := 0 } }) :
    replayMember c r.env ordinal r.digest logged = .ok (st.recorded r.env ordinal r.digest) := by
  obtain ⟨red, hof⟩ := coreAttempt_staged hst
  have hbefore : recordReceipt c r.env ordinal = false := by
    unfold recordReceipt
    rw [hof.fresh]
    rfl
  have hafter : recordReceipt (st.recorded r.env ordinal r.digest) r.env ordinal := by
    refine receiptFind_isSome.mpr ⟨st.slot, _, Table.set_self _ _ _, ?_, ?_, ?_⟩ <;> rfl
  have hequal : completeResultEqual st.complete logged := by
    rw [completeResultEqual_iff, hlogged]
  unfold replayMember replayAttempt
  simp [h.envelopeDigest_eq, coreAttempt_unarmed hst, hbefore, hafter, hequal]

section

variable (hc : c.Inv) (h : r.Good)

include hc h

lemma replayEntry_eq (hst : coreAttempt x c r.env ordinal r.digest = .staged st)
    (hord : r.env.body.isOrdinary) (hcount : ordinal < r.env.memberCount)
    (hprog : Progress c.receipts r.env.object.exportUuid r.env.key r.digest ordinal) :
    replayEntry c (encBytes r.bytes ++ encU32 (UInt32.ofNat ordinal) ++ encRaw r.digest ++
      encBytes (encCompleteResult st.complete)) = .ok (st.recorded r.env ordinal r.digest) := by
  obtain ⟨red, hof⟩ := coreAttempt_staged hst
  have hn : (UInt32.ofNat ordinal).toNat = ordinal :=
    UInt32_ofNat_toNat (hcount.trans_le ((memberCount_ok h.valid).2) |>.trans (by decide))
  have hfree : ¬ BoundElsewhere c.receipts r.env.object.exportUuid r.env.key r.digest := by
    rw [← keyConflicts_iff, hof.free]
    exact Bool.false_ne_true
  have hkey := hc.dense.keyRecorded_eq hfree (receiptFind_none.mp hof.fresh) hprog
  have hread := (reads_memberFields h.bytes_length (encCompleteResult_loggedCap st.complete)
    (reads_u32 (UInt32.ofNat ordinal)) r.digest).whole
  simp only [append_assoc]
  unfold replayEntry
  rw [hread, Option.bind_some, memberRecord_eq h (hof.loggable hc.board h.valid).1]
  simp only [hord, hn, hkey, Bool.not_true, Bool.false_eq_true, if_false, not_le.mpr hcount, ne_eq,
    not_true_eq_false]
  exact replayMember_eq h hst rfl

lemma replayCohort_eq (hst : coreAttempt x c r.env 0 r.digest = .staged st)
    (hrepair : r.env.body.isRepair) : replayCohort c (encBytes r.bytes ++ encRaw r.digest ++
      encBytes (encCompleteResult st.complete)) = .ok (st.recorded r.env 0 r.digest) := by
  obtain ⟨red, hof⟩ := coreAttempt_staged hst
  have hread := (reads_memberFields h.bytes_length (encCompleteResult_loggedCap st.complete)
    (Reads.pure 0) r.digest).whole
  rw [nil_append] at hread
  rw [append_assoc]
  unfold replayCohort
  rw [hread, Option.bind_some, memberRecord_eq h (hof.loggable hc.board h.valid).1]
  simp only [hrepair, Bool.not_true, Bool.false_eq_true, if_false]
  exact replayMember_eq h hst rfl

lemma replayControl_eq (hst : coreAttempt x c r.env 0 r.digest = .staged st)
    (hcontrol : r.env.body.isControl) :
    replayControl c (encU32 ctlEnvelope ++ encBytes r.bytes ++ encRaw r.digest ++
      encBytes (encCompleteResult st.complete)) = .ok (st.recorded r.env 0 r.digest) := by
  obtain ⟨red, hof⟩ := coreAttempt_staged hst
  have hfields := reads_memberFields h.bytes_length (encCompleteResult_loggedCap st.complete)
    (Reads.pure 0) r.digest
  rw [nil_append] at hfields
  have hread :
      decControlRecord.whole (encU32 ctlEnvelope ++ (encBytes r.bytes ++ (encRaw r.digest ++
      encBytes (encCompleteResult st.complete)))) =
        some (ctlEnvelope, r.bytes, 0, r.digest, encCompleteResult st.complete) := by
    have hctl : decControlFields ctlEnvelope = decMemberFields (pure 0) := if_pos rfl
    rw [← hctl] at hfields
    refine Reads.whole ((reads_u32 ctlEnvelope).bind (hfields.last ?_))
    rfl
  simp only [append_assoc]
  unfold replayControl
  rw [hread]
  simp only [if_true, memberRecord_eq h (hof.loggable hc.board h.valid).1, hcontrol, Bool.not_true,
    Bool.false_eq_true, if_false]
  exact replayMember_eq h hst rfl

theorem replayRecord_member (hst : coreAttempt x c r.env ordinal r.digest = .staged st)
    (hcount : ordinal < r.env.memberCount)
    (hprog : Progress c.receipts r.env.object.exportUuid r.env.key r.digest ordinal) (lsn : UInt64)
    {type : RecordType}
    (he : eventRecord r.env r.bytes ordinal r.digest (encCompleteResult st.complete) =
      (type, body)) :
    replayRecord c false ⟨type, lsn, c.incarnation, body⟩ =
      .ok (st.recorded r.env ordinal r.digest) := by
  have hzero : r.env.memberCount = 1 → ordinal = 0 := by omega
  unfold eventRecord at he
  unfold replayRecord
  split at he
  · next hbody =>
    obtain rfl : ordinal = 0 := hzero (by unfold Envelope.memberCount; rw [hbody])
    cases he
    simp only [false_eq_true, if_false, ne_eq, not_true_eq_false]
    exact replayCohort_eq hc h hst (by rw [hbody]; rfl)
  iterate 2
    · next hbody =>
      obtain rfl : ordinal = 0 := hzero (by unfold Envelope.memberCount; rw [hbody])
      cases he
      simp only [false_eq_true, if_false, ne_eq, not_true_eq_false]
      exact replayControl_eq hc h hst (by rw [hbody]; rfl)
  · next hrepair hrecovery hreap =>
    cases he
    simp only [false_eq_true, if_false, ne_eq, not_true_eq_false]
    refine replayEntry_eq hc h hst ?_ hcount hprog
    cases hbody : r.env.body with
    | writeBatch w => rfl
    | finalizeBatch l => rfl
    | commitBatch l => rfl
    | rollbackBatch rb => rfl
    | repair op rb => exact absurd hbody (hrepair op rb)
    | recoveryAdmit k => exact absurd hbody (hrecovery k)
    | leaseReap k => exact absurd hbody (hreap k)
    | unknown op =>
      have hv := h.valid
      unfold envelopeValidate at hv
      rw [hbody] at hv
      cases hv

end

end Member

lemma encControlRequest_length (r : ControlRequest) : (encControlRequest r).length ≤ 132 := by
  have hbody : (encControlBody r.body).length ≤ 96 := by
    cases r.body with
    | admitUnder auth => simp [encControlBody, encAuthority]
    | certificate certificate => cases certificate <;> simp [encControlBody, encOpt]
    | _ => simp [encControlBody]
  simp only [encControlRequest, length_append, encU32_length, encObjKey_length]
  omega

lemma kind_range (b : ControlBody) : b.kind ≠ ctlEnvelope ∧ (2 ≤ b.kind ∧ b.kind ≤ 7) := by
  cases b <;> simp only [ControlBody.kind] <;> decide

lemma controlRecord_whole (r : ControlRequest) (result : ControlResult) :
    decControlRecord.whole (controlRecord r result) =
      some (r.body.kind, encControlRequest r, 0, zeros 32, encControlResult result) := by
  have hkind := kind_range r.body
  have hreq := encControlRequest_length r
  have hres : (encControlResult result).length = 12 := by simp [encControlResult]
  have hfields : Reads (decControlFields r.body.kind)
      (encBytes (encControlRequest r) ++ encBytes (encControlResult result))
      (encControlRequest r, 0, zeros 32, encControlResult result) := by
    unfold decControlFields
    rw [if_neg hkind.1]
    refine (reads_bytes (hreq.trans (by decide)) (hreq.trans_lt (by decide))).bind <|
      Reads.require (decide_eq_true hkind.2) <|
      (reads_bytes (hres.le.trans (by decide)) (hres.le.trans_lt (by decide))).last rfl
  rw [controlRecord, append_assoc]
  refine Reads.whole (.field (hfields.last ?_))
  rfl

/-- **A control request that was journalled replays on the state it was journalled in.** -/
theorem replayRecord_control {c : Core} {r : ControlRequest} (hcanon : controlCanonical c r)
    (hgiven : (r.body.issues && (controlLocked c r).1.id == 0) = false) (lsn : UInt64) :
    replayRecord c false ⟨.control, lsn, c.incarnation, controlRecord r (controlLocked c r).1⟩ =
      .ok (controlLocked c r).2 := by
  have hkind := (kind_range r.body).1
  unfold replayRecord replayControl
  simp only [false_eq_true, if_false, ne_eq, not_true_eq_false, controlRecord_whole,
    if_neg hkind, (reads_controlRequest r).whole, (reads_controlResult _).whole]
  unfold replayFixture
  simp [hcanon, hgiven]

lemma replayRecord_start (c : Core) (lsn : UInt64) :
    replayRecord c false ⟨.start, lsn, c.incarnation + 1, encStart (c.incarnation + 1)⟩ =
      .ok { c with incarnation := c.incarnation + 1 } := by
  unfold replayRecord replayStart
  dsimp only
  rw [(reads_start (c.incarnation + 1)).whole]
  simp

end Reffs.D1
