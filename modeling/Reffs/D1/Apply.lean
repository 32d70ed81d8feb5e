import Reffs.D1.Journal
import Reffs.D1.Control

/-!
# Applying one member

`d1_apply_one`, `d1_apply_control` and `d1_apply_repair` share one shape: find out whether the key
was answered before, reserve a receipt, check the admission, run a reducer, take it back if it
refused, journal the answer and record it, and take everything back if the journal failed. That
shape is `attempt` (up to the journal) and `applyMember` (from there on); the three functions are
its instances.

`attempt` reads and changes `Core` only, so replaying a journal record runs the same function.
-/

namespace Reffs.D1

open ByteCodec SlotTable

/-! ## What a reducer hands to the shared part -/

variable (x : Exhaust) (c : Core) (env : Envelope UInt64) (ordinal : Nat) (res : EntryResult)
    (digest : Digest)

/-- The outcome of a reducer, with its undo record as the function that applies it. -/
structure Reduced where
  status : Status
  res : EntryResult
  core : Core
  undo : Core → Core
  keep : Bool
  published : List Publication

def Outcome.reduced (o : Outcome) : Reduced :=
  ⟨o.status, o.res, o.core, fun c => undoApply c o.undo, o.undo.keep, o.published⟩

def RepairOutcome.reduced (o : RepairOutcome) : Reduced :=
  ⟨o.status, o.res, o.core, fun c => repairUndoApply c o.undo, o.undo.keep, o.published⟩

def ControlOutcome.reduced (o : ControlOutcome) : Reduced :=
  ⟨o.status, o.res, o.core, fun c => controlUndoApply c o.undo, false, []⟩

def admissionCheck (need : UInt32) : Except Status Admission :=
  match admissionFind c env.admission with
  | none => .error .staleAuth
  | some (_, a) =>
    if a.revoked ∨ a.expired then .error .staleAuth
    else if a.object ≠ env.object then .error .staleAuth
    else if !hasRight a.rights need then .error .staleAuth
    else if a.incarnation ≠ c.incarnation then .error .staleAuth
    else if env.incarnation ≠ c.incarnation then .error .staleAuth
    else .ok a

def opRights {H : Type} (body : Body H) : UInt32 :=
  match body with
  | .writeBatch _ => rightWrite
  | .finalizeBatch _ => rightWrite
  | .commitBatch _ => rightWrite
  | .rollbackBatch _ => 0
  | .recoveryAdmit _ => rightControl
  | .leaseReap _ => rightControl
  | .repair _ _ => rightRepair
  | .unknown _ => rightRepair

/-- Run the entry a member's ordinal names. The ordinal is below the member count on every path
here; a body without such an entry is answered `INVALID`. -/
def reduceOrdinary (a : Admission) (res : EntryResult) : Outcome :=
  let lifecycle (l : LifecycleBatch UInt64) (commit : Bool) : Outcome :=
    if !verifierMatches c l.priorVerifier then refuse c .staleAuth res
    else match l.entries[ordinal]? with
      | none => refuse c .invalid res
      | some e => doLifecycleEntry x c env l e a commit res
  match env.body with
  | .writeBatch w => match w.entries[ordinal]? with
    | none => refuse c .invalid res
    | some e => doWriteEntry x c env w e a res
  | .rollbackBatch r => match r.entries[ordinal]? with
    | none => refuse c .invalid res
    | some e => doRollbackEntry x c env r e a res
  | .finalizeBatch l => lifecycle l false
  | .commitBatch l => lifecycle l true
  | _ => refuse c .invalid res

def reduceOne : Reduced :=
  match admissionCheck c env (opRights env.body) with
  | .error status => (refuse c status res).reduced
  | .ok a => (reduceOrdinary x c env ordinal a res).reduced

/-- A `lease_reap` whose origin is all zero bytes is the store's own and needs no admission. -/
def reduceControl : Reduced :=
  let run (reap : Bool) (k : ControlBatch UInt64) : Reduced :=
    if reap ∧ env.key.origin = zeros 16 then (doControl c env reap k res).reduced
    else match admissionCheck c env (opRights env.body) with
      | .error status => (refuseControl c status res).reduced
      | .ok _ => (doControl c env reap k res).reduced
  match env.body with
  | .recoveryAdmit k => run false k
  | .leaseReap k => run true k
  | _ => (refuseControl c .invalid res).reduced

def runRepair : RepairOutcome :=
  match env.body with
  | .repair op rb => match admissionCheck c env (opRights env.body) with
    | .error status => refuseRepair c status res
    | .ok a => doRepair x c env op rb a res
  | _ => refuseRepair c .invalid res

/-- An answer names the member it is about only in a refusal, and the members' transactions only
otherwise. -/
def RepairOutcome.trimmed (r : RepairOutcome) : Reduced :=
  if r.status = .ok then { r with res := { r.res with member := none } }.reduced
  else { r with res := { r.res with memberTxn := [] } }.reduced

def reduceRepair : Reduced :=
  (runRepair x c env res).trimmed

/-! ## Up to the journal -/

def completeStart (key : OpKey) : CompleteResult where
  key := key
  indexEpoch := 0
  eof := 0
  disposition := Disposition.completed.code
  entry := { EntryResult.zero with
    stability := fileSync
    disposition := Disposition.completed.code
    verifier := verifierOf c.incarnation }

def CompleteResult.withStatus (r : CompleteResult) (status : Status) : CompleteResult :=
  { r with entry := { r.entry with status := status.code } }

def CompleteResult.unrecorded (r : CompleteResult) (status : Status) : CompleteResult :=
  { r with
    disposition := Disposition.unrecorded.code
    entry := { r.entry with
      status := status.code
      disposition := Disposition.unrecorded.code } }

def completeIo (key : OpKey) : CompleteResult :=
  (completeStart c key).unrecorded .io

/-- A member that is ready to be recorded: its answer, the state with its effects, how to take them
back, and the receipt slot it reserved. -/
structure Staged where
  complete : CompleteResult
  core : Core
  undo : Core → Core
  slot : Fin maxReceipts
  published : List Publication

inductive Attempt where
  /-- Answered without a record. -/
  | answered (complete : CompleteResult) (core : Core)
  | staged (st : Staged)

def bindingOk : Bool :=
  (admissionFind c env.admission).any fun p => p.2.object == env.object

/-- The shared part of the three apply functions, up to the journal. The source also asks here, as
it did at its door, whether the envelope's handles are this store's; an adopted envelope passes that
test (`envelopeOwned_adopt`). -/
def attempt (reduce : EntryResult → Reduced) : Attempt :=
  let complete := completeStart c env.key
  if !bindingOk c env then .answered (complete.unrecorded .staleAuth) c
  else if keyConflicts c env.object.exportUuid env.key digest then
    .answered (complete.withStatus .replayConflict) c
  else match receiptFind c env.object.exportUuid env.key ordinal with
    | some (_, r) => .answered r.result c
    | none => match c.receipts.spare with
      | none => .answered (complete.unrecorded .nospc) c
      | some slot =>
        let r := reduce complete.entry
        if r.status = .nospc ∨ r.status = .io then
          .answered ({ complete with entry := r.res }.unrecorded r.status) (r.undo r.core)
        else
          let core := if r.status ≠ .ok ∧ !r.keep then r.undo r.core else r.core
          .staged {
            complete := { complete with
              entry := { r.res with status := r.status.code }
              indexEpoch := core.indexEpoch
              eof := eofLocked core env.object }
            core := core
            undo := r.undo
            slot := slot
            published := r.published }

/-- The state once the member's receipt is written. -/
def Staged.recorded (st : Staged) (env : Envelope UInt64) (ordinal : Nat) (digest : Digest) :
    Core :=
  let receipt : Receipt := ⟨env.object.exportUuid, env.key, ordinal, digest, st.complete⟩
  { st.core with receipts := st.core.receipts.set st.slot receipt }

def reduceEnvelope : Reduced :=
  match env.body with
  | .repair _ _ => reduceRepair x c env res
  | .recoveryAdmit _ => reduceControl c env res
  | .leaseReap _ => reduceControl c env res
  | _ => reduceOne x c env ordinal res

/-- One member of an envelope, as far as it goes without the journal. -/
def coreAttempt : Attempt :=
  attempt c env ordinal digest (reduceEnvelope x c env ordinal)

/-! ## The store -/

structure IndexRow where
  materialized : Option UInt64
  stale : Bool
  deriving DecidableEq, Repr

/-- A read view: the extents of the object when it was opened, and the versions it pinned. -/
structure View where
  object : Option ObjectSlot
  rangeBegin : UInt64
  rangeEnd : UInt64
  eof : UInt64
  indexEpoch : UInt64
  extent : ChunkIndex → Option Nat
  version : ChunkIndex → Option UInt64

inductive ReopenStart where
  | ok | append | flush
  deriving DecidableEq, Repr

/-- What the journal does not determine: fault arms, the materialised index, views and their pins,
and the checksums a fixture damaged (which the source writes over the version row's own). -/
structure Harness where
  failNextIndex : Bool
  failNextSnapshot : Bool
  overlayActive : Bool
  exhaust : Exhaust
  failReopenStart : ReopenStart
  index : ObjectSlot → ChunkIndex → IndexRow
  damaged : UInt64 → Option Checksum
  pins : UInt64 → Nat
  views : Table maxViews View

def Harness.clean : Harness where
  failNextIndex := false
  failNextSnapshot := false
  overlayActive := false
  exhaust := .none
  failReopenStart := .ok
  index := fun _ _ => ⟨none, false⟩
  damaged := fun _ => none
  pins := fun _ => 0
  views := Table.empty

structure Store where
  core : Core
  /-- Which store object this is; handles of another object name nothing here. -/
  instance_ : UInt64
  harness : Harness
  journal : Journal
  replayedLsn : UInt64
  journaling : Bool
  poisoned : Bool
  closed : Bool
  activeCalls : Nat

def Store.serving (s : Store) : Bool := !s.poisoned && !s.closed

/-- The materialised half of `d1_publish_visible`: an armed index fault leaves the index stale. -/
def Harness.publish (h : Harness) (p : Publication) : Harness :=
  let row := h.index p.object p.index
  let put (r : IndexRow) : ObjectSlot → ChunkIndex → IndexRow :=
    Function.update h.index p.object (Function.update (h.index p.object) p.index r)
  if h.failNextIndex then
    { h with
      failNextIndex := false
      overlayActive := true
      index := put { row with stale := true } }
  else { h with index := put { row with materialized := some p.version } }

/-! ## The journal events -/

/-- Append a record and make it durable, or leave the journal without it. -/
def journalEvent (j : Journal) (type : RecordType) (body : Bytes) : Bool × Journal :=
  let (appended, j) := journalAppend j type body
  if !appended then (false, journalRollback j)
  else
    let (flushed, j) := journalFlush j
    if flushed then (true, j) else (false, journalRollback j)

def resultCap : Nat := 512

def ctlEnvelope : UInt32 := 1

/-- The record of a member: type and body. The record buffer of the source holds as much as a
journal record may; a longer body is refused, here by the journal itself. -/
def eventRecord (bytes : Bytes) (ordinal : Nat) (digest : Digest)
    (result : Bytes) : RecordType × Bytes :=
  match env.body with
  | .repair _ _ => (.cohort, encBytes bytes ++ encRaw digest ++ encBytes result)
  | .recoveryAdmit _ =>
    (.control, encU32 ctlEnvelope ++ encBytes bytes ++ encRaw digest ++ encBytes result)
  | .leaseReap _ =>
    (.control, encU32 ctlEnvelope ++ encBytes bytes ++ encRaw digest ++ encBytes result)
  | _ => (.entry, encBytes bytes ++ encU32 (UInt32.ofNat ordinal) ++ encRaw digest ++
      encBytes result)

/-- Journal a member's answer: `d1_journal_entry_event`, `d1_journal_control_event` and
`d1_journal_cohort_event`. -/
def journalMember (j : Journal) (env : Envelope UInt64) (bytes : Bytes) (ordinal : Nat)
    (digest : Digest) (complete : CompleteResult) : Bool × Journal :=
  match completeResultEncode complete resultCap with
  | none => (false, j)
  | some result =>
    if bytes = [] then (false, j)
    else
      let (type, body) := eventRecord env bytes ordinal digest result
      journalEvent j type body

/-! ## One member of a call -/

/-- Run one member under the store's lock: `d1_apply_one`, `d1_apply_control` or
`d1_apply_repair`, by the envelope's operation. -/
def applyMember (s : Store) (env : Envelope UInt64) (bytes : Bytes) (ordinal : Nat)
    (digest : Digest) : CompleteResult × Store :=
  match coreAttempt s.harness.exhaust s.core env ordinal digest with
  | .answered complete core => (complete, { s with core := core })
  | .staged st =>
    let done := { s with
      core := st.recorded env ordinal digest
      harness := st.published.foldl Harness.publish s.harness }
    if !s.journaling then (st.complete, done)
    else match journalMember s.journal env bytes ordinal digest st.complete with
      | (true, j) => (st.complete, { done with journal := j })
      | (false, j) =>
        (completeIo s.core env.key, { s with core := st.undo st.core, journal := j })

end Reffs.D1
