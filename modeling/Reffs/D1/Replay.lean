import Reffs.D1.View

/-!
# Opening, replay and reopen

`d1_store_open`, `d1_store_journal_enable`, `d1_replay_locked` with the four kinds of record it
replays, `d1_store_replay` and `d1_store_reopen`. A record carries the request and the answer:
replay decodes the request, runs it again on the state rebuilt so far, and refuses the log unless
the answer comes out the same.

A log that is refused poisons the store; a poisoned store answers nothing, so what it holds then is
not modelled.
-/

namespace Reffs.D1

open ByteCodec ByteCodec.Dec SlotTable

/-! ## START records -/

variable (s : Store) (c : Core) (body : Bytes) (env : Envelope UInt64) (log : Bytes) (ordinal : Nat)

def encStart (incarnation : UInt64) : Bytes :=
  encU64 (incarnation - 1) ++ encU64 incarnation ++ encRaw (verifierOf incarnation)

structure StartPayload where
  previous : UInt64
  fresh : UInt64
  verifier : Verifier

def decStart : Dec StartPayload := do
  let previous ← decU64
  let fresh ← decU64
  let verifier ← decRaw 8
  pure ⟨previous, fresh, verifier⟩

lemma reads_start (incarnation : UInt64) : Reads decStart (encStart incarnation)
    ⟨incarnation - 1, incarnation, verifierOf incarnation⟩ := by
  simp only [encStart, List.append_assoc]
  exact .field <| .field <| (reads_raw _).last rfl

lemma accepts_start : Accepts decStart fun used p =>
    used = encU64 p.previous ++ encU64 p.fresh ++ encRaw p.verifier := by
  refine .field fun _ => .field fun _ => .field fun _ => .pure ?_
  simp

/-- `d1_start_append`; what a failed flush leaves in the buffer is not rolled back here. -/
def startAppend : Status × Store :=
  let j := { s.journal with incarnation := s.core.incarnation }
  let (appended, j) := journalAppend j .start (encStart s.core.incarnation)
  if !appended then (.io, { s with journal := j })
  else
    let (flushed, j) := journalFlush j
    (if flushed then .ok else .io, { s with journal := j })

/-! ## Opening -/

def journalZero : Journal :=
  { journalInit (zeros 16) with nextLsn := 0, durableLsn := 0 }

def storeOpen (instance_ : UInt64) (uuid : Uuid) (chunkBytes : UInt32) (maxFileBytes : UInt64) :
    Option Store :=
  if instance_ = 0 then none
  else (coreOpen uuid chunkBytes maxFileBytes).map fun core => {
    core := core
    instance_ := instance_
    harness := Harness.clean
    journal := journalZero
    replayedLsn := 0
    journaling := false
    poisoned := false
    closed := false
    activeCalls := 0 }

def storePristine : Bool :=
  let c := s.core
  c.incarnation == 1 && c.indexEpoch == 0 && c.nextTxn == 1 && c.nextVersion == 1 &&
    c.nextAdmission == 1 && c.nextCustody == 1 && c.nextRepair == 1 && c.nextPostcond == 1 &&
    c.nextEpisode == 1 && !s.journaling && s.replayedLsn == 0 && c.objects.used == 0 &&
    c.admissions.used == 0 && c.txns.used == 0 && c.versions.used == 0 && c.receipts.used == 0 &&
    c.custody.used == 0 && c.repairs.used == 0 && c.postconds.used == 0 && c.episodes.used == 0 &&
    c.owners.used == 0 && s.harness.views.used == 0

def journalEnable : Status × Store :=
  if s.journaling || s.poisoned || s.closed || !storePristine s then (.invalid, s)
  else
    let fresh := { journalInit s.core.uuid with
      failAppendIn := s.journal.failAppendIn
      failNextFlush := s.journal.failNextFlush }
    match startAppend { s with journal := fresh } with
    | (.ok, s) => (.ok, { s with journaling := true })
    | (status, s) => (status, { s with journal := journalZero })

/-! ## Replaying one record -/

def replayStart (headerIncarnation : UInt64) (first : Bool) : Except Status Core :=
  match decStart.whole body with
  | none => .error .invalid
  | some p =>
    if p.fresh ≠ p.previous + 1 ∨ p.fresh ≠ headerIncarnation then .error .invalid
    else if p.previous ≠ (if first then 0 else c.incarnation) then .error .invalid
    else if p.verifier ≠ verifierOf p.fresh then .error .invalid
    else .ok { c with incarnation := p.fresh }

def recordReceipt : Bool :=
  (receiptFind c env.object.exportUuid env.key ordinal).isSome

def replayAttempt (digest : Digest) : CompleteResult × Core :=
  match coreAttempt .none c env ordinal digest with
  | .answered complete core => (complete, core)
  | .staged st => (st.complete, st.recorded env ordinal digest)

/-- What replaying an entry, a cohort record and a control envelope have in common once the record
has been taken apart: the digest is the request's, the member has no receipt before and has one
after, and the answer is the one that was logged. -/
def replayMember (loggedDigest : Digest) (logged : CompleteResult) : Except Status Core :=
  match envelopeDigest env envelopeMax with
  | none => .error .invalid
  | some digest =>
    if digest ≠ loggedDigest then .error .invalid
    else if recordReceipt c env ordinal then .error .invalid
    else
      let (computed, core) := replayAttempt c env ordinal digest
      if !recordReceipt core env ordinal then .error .invalid
      else if !completeResultEqual computed logged then .error .invalid
      else .ok core

structure MemberRecord where
  env : Envelope UInt64
  ordinal : Nat
  digest : Digest
  logged : CompleteResult

/-- The answer is kept in at most 4096 bytes. -/
def loggedCap : Nat := 4096

/-- The fields of a member's record; only an entry carries its ordinal. -/
def decMemberFields (ordinal : Dec UInt32) : Dec (Bytes × UInt32 × Digest × Bytes) := do
  let envBytes ← decBytesRef envelopeMax
  let ordinal ← ordinal
  let digest ← decRaw 32
  let resultBytes ← decBytesRef loggedCap
  pure (envBytes, ordinal, digest, resultBytes)

def memberRecord (f : Bytes × UInt32 × Digest × Bytes) : Option MemberRecord :=
  match envelopeDecode f.1, completeResultDecode f.2.2.2 with
  | some env, some logged => some ⟨env, f.2.1.toNat, f.2.2.1, logged⟩
  | _, _ => none

def Body.isOrdinary {H : Type} : Body H → Bool
  | .writeBatch _ => true
  | .finalizeBatch _ => true
  | .commitBatch _ => true
  | .rollbackBatch _ => true
  | _ => false

def Body.isControl {H : Type} : Body H → Bool
  | .recoveryAdmit _ => true
  | .leaseReap _ => true
  | _ => false

def Body.isRepair {H : Type} : Body H → Bool
  | .repair _ _ => true
  | _ => false

def replayEntry : Except Status Core :=
  match ((decMemberFields decU32).whole body).bind memberRecord with
  | none => .error .invalid
  | some r =>
    if !r.env.body.isOrdinary then .error .invalid
    else if r.env.memberCount ≤ r.ordinal then .error .invalid
    else if r.ordinal ≠ keyRecorded c r.env.object.exportUuid r.env.key then .error .invalid
    else replayMember c r.env r.ordinal r.digest r.logged

def replayCohort : Except Status Core :=
  match ((decMemberFields (pure 0)).whole body).bind memberRecord with
  | none => .error .invalid
  | some r =>
    if !r.env.body.isRepair then .error .invalid
    else replayMember c r.env 0 r.digest r.logged

/-- `d1_control_canonical`: the object a control record names is the one the request is about. -/
def controlCanonical (r : ControlRequest) : Bool :=
  match r.body with
  | .admitUnder _ => true
  | .revoke admission => r.object == admissionObject c admission
  | .expire admission => r.object == admissionObject c admission
  | _ => r.object == noObject

def replayFixture (kind : UInt32) (r : ControlRequest) (logged : ControlResult) :
    Except Status Core :=
  if r.body.kind ≠ kind then .error .invalid
  else if !controlCanonical c r then .error .invalid
  else if r.body.issues && logged.id == 0 then .error .invalid
  else
    let (computed, core) := controlLocked c r
    if computed ≠ logged then .error .invalid else .ok core

/-- The two shapes of a control record, told apart by the kind it starts with. -/
def decControlFields (kind : UInt32) : Dec (Bytes × UInt32 × Digest × Bytes) :=
  if kind = ctlEnvelope then decMemberFields (pure 0)
  else do
    let requestBytes ← decBytesRef envelopeMax
    Dec.require (2 ≤ kind ∧ kind ≤ 7)
    let resultBytes ← decBytesRef loggedCap
    pure (requestBytes, 0, zeros 32, resultBytes)

def decControlRecord : Dec (UInt32 × Bytes × UInt32 × Digest × Bytes) := do
  let kind ← decU32
  let fields ← decControlFields kind
  pure (kind, fields)

def replayControl : Except Status Core :=
  match decControlRecord.whole body with
  | none => .error .invalid
  | some (kind, fields) =>
    if kind = ctlEnvelope then match memberRecord fields with
      | none => .error .invalid
      | some r =>
        if !r.env.body.isControl then .error .invalid
        else replayMember c r.env 0 r.digest r.logged
    else match decControlRequest.whole fields.1, decControlResult.whole fields.2.2.2 with
      | some r, some logged => replayFixture c kind r logged
      | _, _ => .error .invalid

/-- One record of the log; `first` says that no START has been read yet. -/
def replayRecord (first : Bool) (r : JournalRecord) : Except Status Core :=
  match r.type with
  | .start => replayStart c r.body r.incarnation first
  | type =>
    if first then .error .invalid
    else if r.incarnation ≠ c.incarnation then .error .invalid
    else match type with
      | .entry => replayEntry c r.body
      | .control => replayControl c r.body
      | _ => replayCohort c r.body

/-! ## Replaying a log -/

/-- The state of a replay: what has been rebuilt, whether no START has been read yet, and the last
LSN. -/
structure Replayed where
  core : Core
  first : Bool
  lastLsn : UInt64

/-- Read and replay record after record. A record has at least its header, so a log of `n` bytes
has fewer than `n` records and `n + 1` rounds reach its end. -/
def replayLoop : Nat → JournalCursor → Replayed → Except Status Replayed
  | 0, _, _ => .error .io
  | fuel + 1, cursor, r => match journalNext cursor with
    | .cleanEnd => .ok r
    | .corrupt => .error .io
    | .record rec next => match replayRecord r.core r.first rec with
      | .error status => .error status
      | .ok core => replayLoop fuel next ⟨core, false, rec.lsn⟩

/-- `d1_replay_locked` on a store that is fit for it: the state a log rebuilds. -/
def replayLog : Except Status Replayed :=
  match replayLoop (log.length + 1) (journalCursorInit log c.uuid) ⟨c, true, 0⟩ with
  | .error status => .error status
  | .ok r => if r.first then .error .invalid else .ok r

def replayLocked : Status × Store :=
  if s.poisoned || s.closed || !storePristine s || s.activeCalls != 0 then (.invalid, s)
  else
    let s := { s with
      harness := { s.harness with
        failNextIndex := false
        failNextSnapshot := false
        exhaust := .none
        overlayActive := false }
      journal := { s.journal with failAppendIn := 0, failNextFlush := false } }
    match replayLog s.core log with
    | .error status => (status, { s with poisoned := true })
    | .ok r => (.ok, { s with core := r.core, replayedLsn := r.lastLsn })

def storeReplay : Status × Store :=
  replayLocked { s with harness := { s.harness with failReopenStart := .ok } } log

/-- `d1_store_reopen`: replay the log, take it over, and open the next incarnation. -/
def storeReopen : Status × Store :=
  let arm := s.harness.failReopenStart
  match storeReplay s log with
  | (.ok, s) =>
    match (if log = [] then some (journalInit s.core.uuid)
        else journalAdopt (journalInit s.core.uuid) log (s.replayedLsn + 1)) with
    | none => (.nospc, { s with poisoned := true })
    | some j =>
      if s.core.incarnation = uint64Max then (.nospc, { s with poisoned := true })
      else
        let j := match arm with
          | .ok => j
          | .append => { j with failAppendIn := 1 }
          | .flush => { j with failNextFlush := true }
        let core := { s.core with incarnation := s.core.incarnation + 1 }
        match startAppend { s with core := core, journal := j } with
        | (.ok, s) => (.ok, { s with journaling := true })
        | (status, _) => (status, { s with journal := journalZero, poisoned := true })
  | (status, s) => (status, s)

/-- `d1_fixture_restore_journal`: replay the log and take it over. No START is written, and the
journal is as `d1_journal_init` and `d1_journal_adopt` leave it. -/
def restoreJournal : Status × Store :=
  if log = [] then (.invalid, s)
  else match replayLocked s log with
    | (.ok, s) => match journalAdopt (journalInit s.core.uuid) log (s.replayedLsn + 1) with
      | none => (.nospc, { s with journal := journalZero, poisoned := true })
      | some j => (.ok, { s with journal := j, journaling := true })
    | (status, s) => (status, { s with poisoned := true })

end Reffs.D1
