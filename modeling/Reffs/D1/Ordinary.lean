import Reffs.D1.Store

/-!
# Ordinary members: write, finalize, commit, rollback

`d1_do_write_entry`, `d1_do_lifecycle_entry` and `d1_do_rollback_entry`, with the undo record that
reverses a member when its journal record cannot be made durable. Each reducer returns the state as
it left it, refused or not, together with the undo record as far as it was filled in; taking the
state back is `undoApply`, which the caller runs.
-/

namespace Reffs.D1

open SlotTable

/-! ## The undo record -/

structure Undo where
  /-- The chunk that was changed, as it was before. -/
  chunk : Option (ObjectSlot × ChunkIndex × Chunk)
  /-- The transaction that was changed: its phase and admission before. -/
  txn : Option (Fin maxTxns × Phase × UInt64)
  freshObject : Option ObjectSlot
  freshTxn : Option (Fin maxTxns)
  freshVersion : Option (Fin maxVersions)
  freshAssoc : Option (Fin maxOwners)
  freshPostcond : Option (Fin maxPostconds)
  /-- A refusal that keeps what it did. -/
  keep : Bool
  epochBefore : UInt64
  nextTxnBefore : UInt64
  nextVersionBefore : UInt64
  nextPostcondBefore : UInt64

variable (x : Exhaust) (c : Core) (e : RollbackEntry UInt64) (a : Admission) (s : ObjectSlot)
    (i : ChunkIndex) (ch : Chunk)

def undoBegin : Undo where
  chunk := none
  txn := none
  freshObject := none
  freshTxn := none
  freshVersion := none
  freshAssoc := none
  freshPostcond := none
  keep := false
  epochBefore := c.indexEpoch
  nextTxnBefore := c.nextTxn
  nextVersionBefore := c.nextVersion
  nextPostcondBefore := c.nextPostcond

/-- Mark the row of a slot unused, when the undo record names one. -/
def dropFresh {n : Nat} {α : Type} (slot : Option (Fin n)) (t : Table n α) : Table n α :=
  match slot with
  | none => t
  | some i => t.clear i

def undoObjects (u : Undo) (objects : Table maxObjects Object) : Table maxObjects Object :=
  dropFresh u.freshObject <| match u.chunk with
    | none => objects
    | some (s, i, before) => setChunk objects s i before

def undoTxns (u : Undo) (txns : Table maxTxns Txn) : Table maxTxns Txn :=
  dropFresh u.freshTxn <| match u.txn with
    | none => txns
    | some (i, phase, admission) =>
      txns.modify i fun t => { t with phase := phase, admission := admission }

def undoApply (u : Undo) : Core :=
  { c with
    objects := undoObjects u c.objects
    txns := undoTxns u c.txns
    versions := dropFresh u.freshVersion c.versions
    owners := dropFresh u.freshAssoc c.owners
    postconds := dropFresh u.freshPostcond c.postconds
    nextPostcond := u.nextPostcondBefore
    indexEpoch := u.epochBefore
    nextTxn := u.nextTxnBefore
    nextVersion := u.nextVersionBefore }

/-- What a reducer hands back: its answer, the state as it left it, how to take it back, and the
places whose visible pointer it moved. -/
structure Outcome where
  status : Status
  res : EntryResult
  core : Core
  undo : Undo
  published : List Publication

/-- Answer `status` without having touched anything. -/
def refuse (status : Status) (res : EntryResult) : Outcome :=
  ⟨status, res, c, undoBegin c, []⟩

/-! ## Counters as an operation sees them -/

def nextTxnSeen : UInt64 := if x.ids then uint64Max else c.nextTxn
def nextVersionSeen : UInt64 := if x.ids then uint64Max else c.nextVersion
def nextPostcondSeen : UInt64 :=
  if x.ids then uint64Max else c.nextPostcond
def nextEpisodeSeen : UInt64 := if x.ids then uint64Max else c.nextEpisode
def indexEpochSeen : UInt64 := if x.epoch then uint64Max else c.indexEpoch

lemma room_of_seen {exhausted : Bool} {next : UInt64}
    (h : (if exhausted then uint64Max else next) ≠ uint64Max) : next ≠ uint64Max := by
  cases exhausted with
  | true => exact absurd rfl h
  | false => exact h

/-! ## Shared tests -/

def hasRight (rights need : UInt32) : Bool := rights &&& need == need

def chunkWritable : Bool :=
  ch.error.isNone && ch.repair.isNone && !ch.repairLocked

def chunkReadable : Bool := ch.error.all (·.cleared)

def chunkEmpty : Bool := ch.visible.isNone && ch.pending.isNone

/-- The chunk once transaction `txn` holds it no longer. -/
def Chunk.dropPending (txn : UInt64) : Chunk :=
  { ch with pending := if ch.pending = some txn then none else ch.pending }

def activationAskedWrongly (singleWriter flag : Bool) : Bool := flag && !singleWriter

def activationAllowed (flag : Bool) (stability : UInt32) (empty : Bool) : Bool :=
  flag && stability != unstable && empty

/-! ## Write -/

/-- The tests of a write that need no object: geometry, authority, form and checksum. -/
def writeFormCheck (w : WriteBatch) (e : WriteEntry) (a : Admission) : Option Status :=
  let singleWriter := a.rights &&& rightSingleWriter != 0
  let fits := match mulU64 e.index c.chunkBytes.toUInt64 with
    | none => false
    | some start => match addU64 start (UInt64.ofNat e.payload.length) with
      | none => false
      | some stop => stop ≤ c.maxFileBytes
  if !fits then some .invalid
  else if e.payload.length < 1 ∨ c.chunkBytes.toNat < e.payload.length then some .invalid
  else if e.owner.writer ≠ a.writer then some .staleAuth
  else if e.owner.writer = writerReservedLow ∨
    e.owner.writer = writerReservedHigh then some .invalid
  else if e.expected.isNone && !singleWriter then some .invalid
  else if activationAskedWrongly singleWriter w.activate then some .invalid
  else if !checksumVerify e.checksum e.payload then some .checksum
  else none

def guardAccepts (expected : Option Guard) (g : Guard) : Bool :=
  match expected with
  | none => true
  | some x =>
    if x.neverWritten != g.neverWritten then false
    else if x.neverWritten then x.generation == 0 && x.writer == 0
    else x.generation == g.generation && x.writer == g.writer

def writeChunkCheck (e : WriteEntry) : Option Status :=
  if !chunkWritable ch then some .quarantined
  else if !guardAccepts e.expected ch.guard then some .guarded
  else if ch.pending.isSome then some .guarded
  else none

/-- The guard after one more write; none when the generation would wrap. -/
def guardAdvance (g : Guard) (writer : UInt32) : Option Guard :=
  if g.neverWritten then some ⟨0, writer, false⟩
  else if g.generation = uint32Max then none
  else some ⟨g.generation + 1, writer, false⟩

/-- `d1_object_find`, or a new row for the key; the flag says the row is new. -/
def objectGet (key : ObjKey) : Option (ObjectSlot × Object × Bool × Table maxObjects Object) :=
  match objectFind c key with
  | some (s, o) => some (s, o, false, c.objects)
  | none => match c.objects.spare with
    | none => none
    | some s => some (s, Object.fresh key, true, c.objects.set s (Object.fresh key))

/-- The rows a write stages once every test has passed: the version, the transaction and the owner
association, then the chunk's guard and its visible or pending pointer. -/
def writeStage (env : Envelope UInt64) (w : WriteBatch) (e : WriteEntry) (a : Admission)
    (u : Undo) (s : ObjectSlot) (i : ChunkIndex) (ch : Chunk) (activate : Bool)
    (ti : Fin maxTxns) (vi : Fin maxVersions) (res : EntryResult) : Outcome :=
  let version := c.nextVersion
  let txn := c.nextTxn
  let ver : Version := {
    id := version, object := s, index := i, bytes := e.payload, checksum := e.checksum
    owner := e.owner, predecessor := ch.visible, released := false }
  let row : Txn := {
    id := txn, object := s, index := i, owner := e.owner, admission := a.id, version := version
    phase := if activate then .committed else .prepared
    mode := .ordinary, stability := w.stability, readEpoch := 0, predecessor := ch.visible
    guard := Guard.zero }
  let c := { c with
    versions := c.versions.set vi ver
    txns := c.txns.set ti row
    nextVersion := c.nextVersion + 1
    nextTxn := c.nextTxn + 1 }
  let u := { u with freshVersion := some vi, freshTxn := some ti }
  match c.owners.spare with
  | none => ⟨.nospc, res, c, u, []⟩
  | some ai =>
    let c := { c with owners := c.owners.set ai ⟨env.object.exportUuid, e.owner, s, i, version⟩ }
    let u := { u with freshAssoc := some ai, chunk := some (s, i, ch) }
    match guardAdvance ch.guard a.writer with
    | none => ⟨.nospc, res, c, u, []⟩
    | some guard =>
      let ch := if activate then { ch with guard := guard, visible := some version }
        else { ch with guard := guard, pending := some txn }
      let c := { c with
        objects := setChunk c.objects s i ch
        txns := c.txns.set ti { row with guard := guard }
        indexEpoch := if activate then c.indexEpoch + 1 else c.indexEpoch }
      ⟨.ok, { res with
          version := some version
          txn := some txn
          guard := guard
          owner := e.owner
          activated := activate
          phase := row.phase.code },
        c, u, if activate then [⟨s, i, version⟩] else []⟩

def doWriteEntry (env : Envelope UInt64) (w : WriteBatch) (e : WriteEntry)
    (a : Admission) (res : EntryResult) : Outcome :=
  match writeFormCheck c w e a with
  | some status => refuse c status res
  | none => match ownerFind c env.object.exportUuid e.owner with
    | some (_, assoc) => refuse c .ownerConflict { res with guard := ownerGuard c assoc }
    | none => match objectGet c env.object with
      | none => refuse c .nospc res
      | some (s, o, fresh, objects) =>
        let u := { undoBegin c with freshObject := if fresh then some s else none }
        let c := { c with objects := objects }
        match chunkIndex e.index with
        | none => ⟨.nospc, res, c, u, []⟩
        | some i =>
          let ch := o.chunks i
          let res := { res with guard := ch.guard }
          match writeChunkCheck ch e with
          | some status => ⟨status, res, c, u, []⟩
          | none =>
            let activate := activationAllowed w.activate w.stability (chunkEmpty ch)
            if nextTxnSeen x c = uint64Max ∨ nextVersionSeen x c = uint64Max then
              ⟨.nospc, res, c, u, []⟩
            else if activate ∧ indexEpochSeen x c = uint64Max then ⟨.nospc, res, c, u, []⟩
            else match c.txns.spare, c.versions.spare with
              | some ti, some vi => writeStage c env w e a u s i ch activate ti vi res
              | _, _ => ⟨.nospc, res, c, u, []⟩

/-! ## Finalize and commit -/

/-- The tests of the transaction an entry names, before its phase is asked about. -/
def lifecycleTxnCheck (t : Txn) (s : ObjectSlot) (i : ChunkIndex) (owner : Owner) (a : Admission) :
    Option Status :=
  if t.index ≠ i ∨ t.object ≠ s then some .invalid
  else if t.owner ≠ owner then some .ownerConflict
  else if t.mode ≠ .ordinary then some .invalid
  else if t.admission ≠ a.id then some .staleAuth
  else none

def lifecyclePhase (commit : Bool) : Phase := if commit then .finalized else .prepared

def finalizeTxn (ti : Fin maxTxns) (t : Txn) (res : EntryResult) : Outcome :=
  ⟨.ok, { res with phase := Phase.finalized.code },
    { c with txns := c.txns.set ti { t with phase := .finalized } },
    { undoBegin c with txn := some (ti, t.phase, t.admission) }, []⟩

def commitTxn (ti : Fin maxTxns) (t : Txn) (res : EntryResult) : Outcome :=
  match versionFind c t.version with
  | none => refuse c .invalid res
  | some (_, ver) =>
    if t.predecessor ≠ ch.visible then refuse c .ownerConflict res
    else if indexEpochSeen x c = uint64Max then refuse c .nospc res
    else
      ⟨.ok, { res with phase := Phase.committed.code },
        { c with
          txns := c.txns.set ti { t with phase := .committed }
          objects := setChunk c.objects s i { ch with visible := some ver.id, pending := none }
          indexEpoch := c.indexEpoch + 1 },
        { undoBegin c with
          txn := some (ti, t.phase, t.admission)
          chunk := some (s, i, ch) },
        [⟨s, i, ver.id⟩]⟩

def doLifecycleEntry (env : Envelope UInt64) (l : LifecycleBatch UInt64)
    (e : LifecycleEntry UInt64) (a : Admission) (commit : Bool) (res : EntryResult) : Outcome :=
  match objectFind c env.object, chunkIndex e.index with
  | some (s, o), some i =>
    if e.index < l.rangeBegin ∨ l.rangeEnd ≤ e.index then refuse c .invalid res
    else
      let ch := o.chunks i
      let res := { res with guard := ch.guard }
      match txnFind c e.txn with
      | none => refuse c (if chunkWritable ch then .invalid else .quarantined) res
      | some (ti, t) =>
        if t.object = s ∧ t.index = i ∧ t.mode ≠ .ordinary then refuse c .invalid res
        else if !chunkWritable ch then refuse c .quarantined res
        else match lifecycleTxnCheck t s i e.owner a with
          | some status => refuse c status res
          | none =>
            let res := { res with
              owner := t.owner
              txn := some t.id
              version := some t.version }
            if t.phase ≠ lifecyclePhase commit then refuse c .badPhase res
            else if t.predecessor ≠ e.predecessor then refuse c .noPredecessor res
            else if commit then commitTxn x c s i ch ti t res
            else finalizeTxn c ti t res
  | _, _ => refuse c .invalid res

/-! ## Rollback -/

def rollbackStaged (ti : Fin maxTxns) (t : Txn) (res : EntryResult) : Outcome :=
  if t.mode ≠ .ordinary then refuse c .invalid res
  else if !hasRight a.rights rightWrite then refuse c .staleAuth res
  else if t.admission ≠ a.id then refuse c .staleAuth res
  else if e.custody.isSome then refuse c .invalid res
  else if e.visible ≠ ch.visible then refuse c .ownerConflict res
  else if t.predecessor ≠ e.predecessor then refuse c .noPredecessor res
  else
    ⟨.ok, { res with phase := Phase.rolledBack.code },
      { c with
        txns := c.txns.set ti { t with phase := .rolledBack }
        objects := setChunk c.objects s i (ch.dropPending t.id) },
      { undoBegin c with
        chunk := some (s, i, ch)
        txn := some (ti, t.phase, t.admission) }, []⟩

/-- The refusal that leaves a postcondition behind: the predecessor is gone or released. -/
def rollbackPostcond (t : Txn)
    (ver : Version) (pred : Option Version) (custody : UInt64) (res : EntryResult) : Outcome :=
  match c.postconds.spare with
  | none => refuse c .nospc res
  | some pi =>
    if nextPostcondSeen x c = uint64Max then refuse c .nospc res
    else
      ⟨.noPredecessor, { res with postcond := some c.nextPostcond, phase := t.phase.code },
        { c with
          postconds := c.postconds.set pi {
            id := c.nextPostcond, object := s, index := i, successor := ver.id
            owner := ver.owner, predecessor := ver.predecessor
            predecessorReleased := pred.isSome, custody := custody, consumed := false }
          nextPostcond := c.nextPostcond + 1 },
        { undoBegin c with freshPostcond := some pi, keep := true }, []⟩

/-- Rolling back a committed version, under custody of it. -/
def rollbackCommitted (ti : Fin maxTxns) (t : Txn) (res : EntryResult) : Outcome :=
  match e.custody with
  | none => refuse c .staleAuth res
  | some custodyRaw =>
    if !hasRight a.rights rightRepair then refuse c .staleAuth res
    else if e.visible ≠ ch.visible then refuse c .ownerConflict res
    else match custodyFind c custodyRaw with
      | none => refuse c .staleAuth res
      | some (_, custody) =>
        if ch.visible ≠ some custody.version then refuse c .ownerConflict res
        else if ch.visible ≠ some t.version then refuse c .ownerConflict res
        else if ch.pending.isSome then refuse c .guarded res
        else match versionFind c t.version with
          | none => refuse c .invalid res
          | some (_, ver) =>
            let res := { res with version := some ver.id }
            if ver.predecessor ≠ e.predecessor then refuse c .noPredecessor res
            else
              let pred := (ver.predecessor.bind (versionFind c)).map Prod.snd
              match pred.filter (!·.released) with
              | none => rollbackPostcond x c s i t ver pred custodyRaw res
              | some p =>
                if indexEpochSeen x c = uint64Max then refuse c .nospc res
                else
                  ⟨.ok, { res with
                      version := some p.id
                      phase := Phase.rolledBack.code },
                    { c with
                      txns := c.txns.set ti { t with phase := .rolledBack }
                      objects := setChunk c.objects s i { ch with visible := some p.id }
                      indexEpoch := c.indexEpoch + 1 },
                    { undoBegin c with
                      chunk := some (s, i, ch)
                      txn := some (ti, t.phase, t.admission) },
                    [⟨s, i, p.id⟩]⟩

def doRollbackEntry (env : Envelope UInt64) (r : RollbackBatch UInt64)
    (e : RollbackEntry UInt64) (a : Admission) (res : EntryResult) : Outcome :=
  match objectFind c env.object, chunkIndex e.index with
  | some (s, o), some i =>
    if e.index < r.rangeBegin ∨ r.rangeEnd ≤ e.index then refuse c .invalid res
    else
      let ch := o.chunks i
      let res := { res with guard := ch.guard }
      match txnFind c e.txn with
      | none => refuse c (if chunkWritable ch then .invalid else .quarantined) res
      | some (ti, t) =>
        if t.object = s ∧ t.index = i ∧ t.mode ≠ .ordinary ∧
            (t.phase = .admitted ∨ t.phase = .prepared ∨ t.phase = .finalized) then
          refuse c .invalid res
        else if !chunkWritable ch then refuse c .quarantined res
        else if t.index ≠ i ∨ t.object ≠ s then refuse c .invalid res
        else if t.owner ≠ e.owner then refuse c .ownerConflict res
        else
          let res := { res with owner := t.owner, txn := some t.id }
          if t.phase = .prepared ∨ t.phase = .finalized then
            rollbackStaged c e a s i ch ti t res
          else if t.phase ≠ .committed then refuse c .badPhase res
          else rollbackCommitted x c e a s i ch ti t res
  | _, _ => refuse c .invalid res

end Reffs.D1
