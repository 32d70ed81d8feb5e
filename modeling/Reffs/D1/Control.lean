import Reffs.D1.Repair

/-!
# Control operations: recovery_admit and lease_reap

`d1_do_control`. A control operation names transactions of one admission. `recovery_admit` moves
them to a new admission of the same principal and revokes the old one; `lease_reap` rolls back the
ordinary transactions of an expired admission.
-/

namespace Reffs.D1

open SlotTable

/-! ## The undo record -/

variable (c : Core) (env : Envelope UInt64) (reap : Bool) (s : ObjectSlot)

/-- What one named transaction needs to be put back, and what was changed on its behalf. -/
structure ControlUndoEntry where
  txn : Fin maxTxns
  phase : Phase
  admission : UInt64
  readEpoch : UInt64
  chunk : Option (ObjectSlot × ChunkIndex × Chunk)
  cohort : Option (Fin maxRepairs × UInt64)

structure ControlUndo where
  entries : List ControlUndoEntry
  old : Option (Fin maxAdmissions × Bool)

def ControlUndo.none : ControlUndo := ⟨[], Option.none⟩

def controlUndoEntry (u : ControlUndoEntry) : Core :=
  { c with
    txns := c.txns.modify u.txn fun t =>
      { t with phase := u.phase, admission := u.admission, readEpoch := u.readEpoch }
    objects := match u.chunk with
      | .none => c.objects
      | some (s, i, ch) => setChunk c.objects s i ch
    repairs := match u.cohort with
      | .none => c.repairs
      | some (i, admission) => c.repairs.modify i fun r => { r with admission := admission } }

def controlUndoApply (u : ControlUndo) : Core :=
  let c := u.entries.foldl controlUndoEntry c
  match u.old with
  | .none => c
  | some (i, revoked) =>
    { c with admissions := c.admissions.modify i fun a => { a with revoked := revoked } }

structure ControlOutcome where
  status : Status
  res : EntryResult
  core : Core
  undo : ControlUndo

def refuseControl (status : Status) (res : EntryResult) : ControlOutcome :=
  ⟨status, res, c, .none⟩

/-! ## Cohorts of named transactions -/

def repairOfMember (txn : UInt64) : Option (Fin maxRepairs × Repair) :=
  c.repairs.findRow fun r => r.members.any fun m => m.txn == txn

def repairStillHeld (cohort : Repair) : Bool :=
  cohort.phase = .committed && cohort.members.any fun m =>
    match getChunk c.objects cohort.object m.index with
    | none => false
    | some ch => ch.repairLocked && ch.repair == some cohort.id

def repairMemberUnfinished (txn : UInt64) : Bool :=
  (repairOfMember c txn).any fun p => repairStillHeld c p.2

/-! ## The operations -/

/-- Whether a named transaction is one the operation may take. -/
def controlTxnCheck (old : Admission) (t : Txn) : Option Status :=
  if t.object ≠ s then some .invalid
  else if reap ∧ t.mode ≠ .ordinary then some .invalid
  else if t.phase ≠ .prepared ∧ t.phase ≠ .finalized ∧
      ¬ (t.mode = .repair ∧ (t.phase = .admitted ∨
        (t.phase = .committed ∧ repairMemberUnfinished c t.id))) then some .badPhase
  else if t.admission ≠ old.id then some .ownerConflict
  else none

/-- The rows of the named transactions, or the refusal of the first that cannot be taken. -/
def controlNamed (c : Core) (reap : Bool) (s : ObjectSlot) (old : Admission) :
    List UInt64 → Except Status (List (Fin maxTxns × Txn))
  | [] => .ok []
  | raw :: rest => match txnFind c raw with
    | none => .error .invalid
    | some (ti, t) => match controlTxnCheck c reap s old t with
      | some status => .error status
      | none => match controlNamed c reap s old rest with
        | .error status => .error status
        | .ok named => .ok ((ti, t) :: named)

def ControlUndoEntry.ofTxn (p : Fin maxTxns × Txn) : ControlUndoEntry :=
  ⟨p.1, p.2.phase, p.2.admission, p.2.readEpoch, none, none⟩

/-- The tests of the admission a `recovery_admit` moves to. -/
def recoveryFreshCheck (old fresh : Admission) (readEpoch : UInt64) : Option Status :=
  if fresh.revoked ∨ fresh.expired then some .staleAuth
  else if fresh.object ≠ env.object then some .staleAuth
  else if fresh.writer ≠ old.writer then some .staleAuth
  else if fresh.incarnation ≠ c.incarnation then some .staleAuth
  else if fresh.issuer ≠ old.issuer ∨ fresh.principal ≠ old.principal then some .staleAuth
  else if readEpoch > c.indexEpoch then some .invalid
  else none

/-- Move each named transaction to the new admission, and with a repair transaction its cohort.
The cohort's old admission is remembered at the first transaction that changes it. -/
def recoveryMove (fresh readEpoch : UInt64) :
    List (Fin maxTxns × Txn) → Core → List ControlUndoEntry → Core × List ControlUndoEntry
  | [], c, done => (c, done)
  | (ti, t) :: rest, c, done =>
    let entry := ControlUndoEntry.ofTxn (ti, t)
    let moved := { c with
      txns := c.txns.modify ti fun t => { t with admission := fresh, readEpoch := readEpoch } }
    match (if t.mode = .repair then repairOfMember c t.id else none) with
    | none => recoveryMove fresh readEpoch rest moved (done ++ [entry])
    | some (ri, cohort) =>
      let seen := done.any fun d => d.cohort.any fun p => p.1 = ri
      recoveryMove fresh readEpoch rest
        { moved with repairs := c.repairs.modify ri fun r => { r with admission := fresh } }
        (done ++ [{ entry with cohort := if seen then none else some (ri, cohort.admission) }])

def reapMove (s : ObjectSlot) :
    List (Fin maxTxns × Txn) → Core → List ControlUndoEntry → Core × List ControlUndoEntry
  | [], c, done => (c, done)
  | (ti, t) :: rest, c, done =>
    let entry := { ControlUndoEntry.ofTxn (ti, t) with
      chunk := (getChunk c.objects s t.index).map fun ch => (s, t.index, ch) }
    reapMove s rest
      { c with
        objects := modifyChunk c.objects s t.index (·.dropPending t.id)
        txns := c.txns.modify ti fun t => { t with phase := .rolledBack } }
      (done ++ [entry])

def doRecoveryAdmit (k : ControlBatch UInt64)
    (oi : Fin maxAdmissions) (old : Admission) (named : List (Fin maxTxns × Txn))
    (res : EntryResult) : ControlOutcome :=
  let u : ControlUndo := ⟨named.map ControlUndoEntry.ofTxn, some (oi, old.revoked)⟩
  match k.newAdmission.bind (admissionFind c) with
  | none => ⟨.staleAuth, res, c, u⟩
  | some (_, fresh) =>
    let readEpoch := k.readEpoch.getD 0
    match recoveryFreshCheck c env old fresh readEpoch with
    | some status => ⟨status, res, c, u⟩
    | none =>
      let (moved, entries) := recoveryMove fresh.id readEpoch named c []
      ⟨.ok, { res with verifier := verifierOf c.incarnation },
        { moved with
          admissions := c.admissions.modify oi fun a => { a with revoked := true } },
        { u with entries := entries }⟩

def doLeaseReap (oi : Fin maxAdmissions) (old : Admission)
    (named : List (Fin maxTxns × Txn)) (res : EntryResult) : ControlOutcome :=
  let (reaped, entries) := reapMove s named c []
  ⟨.ok, { res with phase := Phase.rolledBack.code, verifier := verifierOf c.incarnation },
    reaped, ⟨entries, some (oi, old.revoked)⟩⟩

/-- `reap` tells `lease_reap` from `recovery_admit`. -/
def doControl (k : ControlBatch UInt64) (res : EntryResult) : ControlOutcome :=
  match objectFind c env.object with
  | none => refuseControl c .invalid res
  | some (s, _) => match admissionFind c k.oldAdmission with
    | none => refuseControl c .staleAuth res
    | some (oi, old) =>
      if old.object ≠ env.object then refuseControl c .staleAuth res
      else if reap ∧ !old.expired then refuseControl c .staleAuth res
      else match controlNamed c reap s old k.txns with
        | .error status => refuseControl c status res
        | .ok named =>
          if reap then doLeaseReap c s oi old named res
          else doRecoveryAdmit c env k oi old named res

end Reffs.D1
