import Reffs.D1.Ordinary

/-!
# Repair operations

`d1_do_mark_error` to `d1_do_unlock`: a repair captures a vector of chunks into a cohort
(`begin_repair`), stages a replacement for each (`prepare_repair`), moves through `finalize_repair`
and `commit_repair`, which switches every member at once, and is released by `unlock`. ERROR
members also go through `mark_error` and `clear_error`.

The source walks its vectors with loops that may return in the middle. Here a test loop is a
recursion that answers the first refusal, and a staging loop is a recursion over the members whose
state carries the tables and the undo record as far as they got.
-/

namespace Reffs.D1

open SlotTable

/-! ## The undo record -/

variable (x : Exhaust) (c : Core) (env : Envelope UInt64) (s : ObjectSlot) (rb : RepairBatch UInt64)
    (ri : Fin maxRepairs) (cohort : Repair)

/-- What to put back. Each list holds a row at most once; its entries are the values before the
operation. The fixed arrays of the source hold as many entries as a batch has members, which is the
most any operation records. -/
structure RepairUndo where
  keep : Bool
  fresh : Option (Fin maxRepairs)
  cohort : Option (Fin maxRepairs × Repair)
  chunks : List (ObjectSlot × ChunkIndex × Chunk)
  freshEpisode : Option (Fin maxEpisodes)
  freshVersions : List (Fin maxVersions)
  freshTxns : List (Fin maxTxns)
  dropVersions : List (Fin maxVersions × Version)
  dropTxns : List (Fin maxTxns × Txn)
  /-- Phase and version of a changed transaction. -/
  txns : List (Fin maxTxns × Phase × UInt64)
  /-- An association as it was; `none` for a slot that was unused. -/
  owners : List (Fin maxOwners × Option OwnerAssoc)
  postconds : List (Fin maxPostconds × Postcond)
  epochBefore : UInt64
  nextVersionBefore : UInt64
  nextTxnBefore : UInt64
  nextRepairBefore : UInt64
  nextEpisodeBefore : UInt64

def repairUndoBegin : RepairUndo where
  keep := false
  fresh := none
  cohort := none
  chunks := []
  freshEpisode := none
  freshVersions := []
  freshTxns := []
  dropVersions := []
  dropTxns := []
  txns := []
  owners := []
  postconds := []
  epochBefore := c.indexEpoch
  nextVersionBefore := c.nextVersion
  nextTxnBefore := c.nextTxn
  nextRepairBefore := c.nextRepair
  nextEpisodeBefore := c.nextEpisode

namespace RepairUndo

/-- `d1_repair_undo_chunk`: remember a chunk as it stands, once. -/
def noteChunk (u : RepairUndo) (objects : Table maxObjects Object) (s : ObjectSlot)
    (i : ChunkIndex) : RepairUndo :=
  if u.chunks.any fun p => p.1 = s ∧ p.2.1 = i then u
  else match getChunk objects s i with
    | none => u
    | some ch => { u with chunks := u.chunks ++ [(s, i, ch)] }

/-- `d1_repair_undo_txn`. -/
def noteTxn (u : RepairUndo) (i : Fin maxTxns) (t : Txn) : RepairUndo :=
  if u.txns.any fun p => p.1 = i then u
  else { u with txns := u.txns ++ [(i, t.phase, t.version)] }

/-- `d1_repair_undo_owner`. -/
def noteOwner (u : RepairUndo) (owners : Table maxOwners OwnerAssoc) (i : Fin maxOwners) :
    RepairUndo :=
  if u.owners.any fun p => p.1 = i then u
  else { u with owners := u.owners ++ [(i, owners i)] }

/-- `d1_repair_undo_postcond`. -/
def notePostcond (u : RepairUndo) (i : Fin maxPostconds) (p : Postcond) : RepairUndo :=
  if u.postconds.any fun q => q.1 = i then u
  else { u with postconds := u.postconds ++ [(i, p)] }

/-- `d1_repair_undo_cohort`. -/
def noteCohort (u : RepairUndo) (i : Fin maxRepairs) (r : Repair) : RepairUndo :=
  if u.cohort.isSome then u else { u with cohort := some (i, r) }

end RepairUndo

/-- Write a slot as it was, unused slots included. -/
def putSlot {n : Nat} {α : Type} (t : Table n α) (i : Fin n) : Option α → Table n α
  | none => t.clear i
  | some r => t.set i r

def restoreChunks (l : List (ObjectSlot × ChunkIndex × Chunk)) (objects : Table maxObjects Object) :
    Table maxObjects Object :=
  l.foldl (fun objects p => setChunk objects p.1 p.2.1 p.2.2) objects

def restoreRows {n : Nat} {α : Type} (l : List (Fin n × α)) (t : Table n α) : Table n α :=
  l.foldl (fun t p => t.set p.1 p.2) t

def dropRows {n : Nat} {α : Type} (l : List (Fin n)) (t : Table n α) : Table n α :=
  l.foldl (fun t i => t.clear i) t

def restoreTxns (l : List (Fin maxTxns × Phase × UInt64)) (txns : Table maxTxns Txn) :
    Table maxTxns Txn :=
  l.foldl (fun txns p => txns.modify p.1 fun t => { t with phase := p.2.1, version := p.2.2 }) txns

def restoreOwners (l : List (Fin maxOwners × Option OwnerAssoc))
    (owners : Table maxOwners OwnerAssoc) : Table maxOwners OwnerAssoc :=
  l.foldl (fun owners p => putSlot owners p.1 p.2) owners

def restoreCohort (cohort : Option (Fin maxRepairs × Repair)) (repairs : Table maxRepairs Repair) :
    Table maxRepairs Repair :=
  match cohort with
  | none => repairs
  | some (i, r) => repairs.set i r

def repairUndoApply (u : RepairUndo) : Core :=
  { c with
    objects := restoreChunks u.chunks c.objects
    repairs := dropFresh u.fresh (restoreCohort u.cohort c.repairs)
    episodes := dropFresh u.freshEpisode c.episodes
    versions := dropRows u.freshVersions (restoreRows u.dropVersions c.versions)
    txns := restoreTxns u.txns (dropRows u.freshTxns (restoreRows u.dropTxns c.txns))
    owners := restoreOwners u.owners c.owners
    postconds := restoreRows u.postconds c.postconds
    indexEpoch := u.epochBefore
    nextVersion := u.nextVersionBefore
    nextTxn := u.nextTxnBefore
    nextRepair := u.nextRepairBefore
    nextEpisode := u.nextEpisodeBefore }

structure RepairOutcome where
  status : Status
  res : EntryResult
  core : Core
  undo : RepairUndo
  published : List Publication

def refuseRepair (status : Status) (res : EntryResult) : RepairOutcome :=
  ⟨status, res, c, repairUndoBegin c, []⟩

/-- Ask `check` of every member in turn; the first refusal answers. -/
def checkMembers {α : Type} (check : Nat → α → EntryResult → Option Status × EntryResult) :
    Nat → List α → EntryResult → Option Status × EntryResult
  | _, [], res => (none, res)
  | n, e :: rest, res => match check n e res with
    | (some status, res) => (some status, res)
    | (none, res) => checkMembers check (n + 1) rest res

/-- Note which member an answer is about, and the guard of its chunk. -/
def EntryResult.atMember (res : EntryResult) (n : Nat) (guard : Guard) : EntryResult :=
  { res with member := some (UInt32.ofNat n), guard := guard }

/-! ## mark_error -/

/-- What `mark_error` and `begin_repair` both ask of a member's captured state, once the chunk is
free: the visible version is the one named, custody covers it, and its predecessor is as captured.
-/
def capturedCheck (ch : Chunk) (e : RepairEntry UInt64) : Option Status :=
  if ch.visible.isNone ∨ ch.visible ≠ e.successor then some .ownerConflict
  else match e.custody.bind (custodyFind c) with
    | none => some .staleAuth
    | some (_, custody) =>
      if ch.visible ≠ some custody.version then some .ownerConflict
      else match ch.visible.bind (versionFind c) with
        | none => some .invalid
        | some (_, ver) => if ver.predecessor ≠ e.predecessor then some .noPredecessor else none

def markErrorCheck (o : Object) (n : Nat) (e : RepairEntry UInt64) (res : EntryResult) :
    Option Status × EntryResult :=
  match chunkIndex e.index with
  | none => (some .invalid, res)
  | some i =>
    let ch := o.chunks i
    let res := res.atMember n ch.guard
    if ch.error.isSome then (some .badPhase, res)
    else if ch.pending.isSome ∨ ch.repair.isSome then (some .guarded, res)
    else (capturedCheck c ch e, res)

def markErrorStage (s : ObjectSlot) (episode : UInt64) :
    List (RepairEntry UInt64) → Table maxObjects Object → RepairUndo →
      Table maxObjects Object × RepairUndo
  | [], objects, u => (objects, u)
  | e :: rest, objects, u => match chunkIndex e.index with
    | none => markErrorStage s episode rest objects u
    | some i =>
      markErrorStage s episode rest
        (modifyChunk objects s i fun ch => { ch with
          error := some ⟨episode, e.custody.getD 0, ch.visible.getD 0, false⟩ })
        (u.noteChunk objects s i)

def doMarkError (s : ObjectSlot) (o : Object) (res : EntryResult) : RepairOutcome :=
  match checkMembers (markErrorCheck c o) 0 rb.entries res with
  | (some status, res) => refuseRepair c status res
  | (none, res) => match c.episodes.spare with
    | none => refuseRepair c .nospc res
    | some ei =>
      if nextEpisodeSeen x c = uint64Max then refuseRepair c .nospc res
      else
        let id := c.nextEpisode
        let u := { repairUndoBegin c with freshEpisode := some ei }
        let (objects, u) := markErrorStage s id rb.entries c.objects u
        ⟨.ok, { res with phase := Phase.admitted.code, episode := some id },
          { c with
            episodes := c.episodes.set ei ⟨id, s, rb.entries.filterMap (chunkIndex ·.index)⟩
            nextEpisode := c.nextEpisode + 1
            objects := objects },
          u, []⟩

/-! ## begin_repair -/

/-- The authority a NOPRE member repairs under: an unconsumed postcondition of the successor. -/
def nopreCheck (s : ObjectSlot) (i : ChunkIndex) (ch : Chunk)
    (n : Nat) (e : RepairEntry UInt64) : Option Status :=
  if ch.error.isSome then some .badPhase
  else if (rb.entries.take n).any fun f => f.postcond.isSome && f.postcond == e.postcond then
    some .invalid
  else match e.postcond.bind (postcondFind c) with
    | none => some .staleAuth
    | some (_, p) =>
      if p.consumed then some .badPhase
      else if p.object ≠ s ∨ p.index ≠ i then some .invalid
      else if ch.visible ≠ some p.successor then some .ownerConflict
      else if e.custody ≠ some p.custody then some .staleAuth
      else none

/-- The authority an ERROR member repairs under: the episode the chunk was marked in. -/
def errorCheck (ch : Chunk) (episode : Option Episode) (e : RepairEntry UInt64) : Option Status :=
  match ch.error with
  | none => some .badPhase
  | some mark =>
    if episode.all fun ep => ep.id ≠ mark.episode then some .badPhase
    else if e.custody ≠ some mark.custody then some .staleAuth
    else if ch.visible ≠ some mark.version then some .ownerConflict
    else none

/-- Whether the owner of a member is taken: by an earlier member, whose chunk's guard is then the
answer, or by an association of the export. -/
def ownerTaken (exportUuid : Uuid) (rb : RepairBatch UInt64) (o : Object) (n : Nat)
    (owner : Owner) : Option Guard :=
  match (rb.entries.take n).find? fun f => f.owner == owner with
  | some f => some (match chunkIndex f.index with
      | none => Chunk.blank.guard
      | some j => (o.chunks j).guard)
  | none => (ownerFind c exportUuid owner).map fun p => ownerGuard c p.2

def beginRepairCheck (a : Admission)
    (s : ObjectSlot) (o : Object) (episode : Option Episode) (n : Nat) (e : RepairEntry UInt64)
    (res : EntryResult) : Option Status × EntryResult :=
  match chunkIndex e.index with
  | none => (some .invalid, res)
  | some i =>
    let ch := o.chunks i
    let res := res.atMember n ch.guard
    if e.owner.writer ≠ a.writer then (some .staleAuth, res)
    else if ch.repair.isSome ∨ ch.repairLocked then (some .quarantined, res)
    else if ch.pending.isSome then (some .guarded, res)
    else match capturedCheck c ch e with
      | some status => (some status, res)
      | none =>
        let authority := if e.mode = repairNopre then nopreCheck c rb s i ch n e
          else errorCheck ch episode e
        match authority with
        | some status => (some status, res)
        | none => match ownerTaken c env.object.exportUuid rb o n e.owner with
          | some guard => (some .ownerConflict, { res with guard := guard })
          | none => (none, res)

/-- What the staging loop of `begin_repair` has built so far. -/
structure BeginState where
  core : Core
  undo : RepairUndo
  members : List RepairMember

def beginRow (o : Object) (e : RepairEntry UInt64) (i : ChunkIndex) (txn : UInt64) : Txn where
  id := txn
  object := s
  index := i
  owner := e.owner
  admission := env.admission
  version := 0
  phase := .admitted
  mode := .repair
  stability := fileSync
  readEpoch := 0
  predecessor := some (e.successor.getD 0)
  guard := (o.chunks i).guard

/-- The member of an entry: the state captured, and nothing staged. -/
def beginVector (e : RepairEntry UInt64) (i : ChunkIndex) (txn : UInt64) : RepairMember where
  index := i
  mode := e.mode
  owner := e.owner
  custody := e.custody.getD 0
  successor := e.successor.getD 0
  predecessor := e.predecessor
  staged := false
  version := 0
  txn := txn

def beginTxn (o : Object) (e : RepairEntry UInt64)
    (i : ChunkIndex) (ti : Fin maxTxns) (b : BeginState) : BeginState :=
  let c := b.core
  { core := { c with
      txns := c.txns.set ti (beginRow env s o e i c.nextTxn)
      nextTxn := c.nextTxn + 1 }
    undo := { b.undo with freshTxns := b.undo.freshTxns ++ [ti] }
    members := b.members ++ [beginVector e i c.nextTxn] }

def beginOwner (e : RepairEntry UInt64) (i : ChunkIndex)
    (ai : Fin maxOwners) (b : BeginState) : BeginState :=
  { b with
    core := { b.core with
      owners := b.core.owners.set ai ⟨env.object.exportUuid, e.owner, s, i, 0⟩ }
    undo := b.undo.noteOwner b.core.owners ai }

def beginConsume (e : RepairEntry UInt64) (b : BeginState) : Option BeginState :=
  if e.mode ≠ repairNopre then some b
  else match e.postcond.bind (postcondFind b.core) with
    | none => none
    | some (pi, p) => some { b with
        core := { b.core with
          postconds := b.core.postconds.set pi { p with consumed := true } }
        undo := b.undo.notePostcond pi p }

def beginChunk (i : ChunkIndex) (repair : UInt64) (b : BeginState) : BeginState :=
  { b with
    core := { b.core with
      objects := modifyChunk b.core.objects s i fun ch => { ch with repair := some repair } }
    undo := b.undo.noteChunk b.core.objects s i }

/-- Stage one member: its repair transaction, its owner association, the postcondition it consumes
and the chunk's repair pointer. -/
def beginMember (repair : UInt64) (o : Object)
    (e : RepairEntry UInt64) (i : ChunkIndex) (b : BeginState) : Status × BeginState :=
  match b.core.txns.spare with
  | none => (.nospc, b)
  | some ti =>
    let b := beginTxn env s o e i ti b
    match b.core.owners.spare with
    | none => (.nospc, b)
    | some ai =>
      let b := beginOwner env s e i ai b
      match beginConsume e b with
      | none => (.invalid, b)
      | some b => (.ok, beginChunk s i repair b)

def beginStage (env : Envelope UInt64) (s : ObjectSlot) (repair : UInt64) (o : Object) :
    List (RepairEntry UInt64) → BeginState → Status × BeginState
  | [], b => (.ok, b)
  | e :: rest, b => match chunkIndex e.index with
    | none => (.invalid, b)
    | some i => match beginMember env s repair o e i b with
      | (.ok, b) => beginStage env s repair o rest b
      | (status, b) => (status, b)

def beginRepairGo (s : ObjectSlot) (o : Object) (res : EntryResult) : RepairOutcome :=
  match c.repairs.spare with
  | none => refuseRepair c .nospc res
  | some ri =>
    if c.txns.free < rb.entries.length then refuseRepair c .nospc res
    else if nextTxnSeen x c = uint64Max then refuseRepair c .nospc res
    else if c.owners.free < rb.entries.length then refuseRepair c .nospc res
    else
      let id := c.nextRepair
      let row : Repair := ⟨id, s, env.admission, .admitted, []⟩
      let start : BeginState := {
        core := { c with nextRepair := c.nextRepair + 1 }
        undo := { repairUndoBegin c with fresh := some ri }
        members := [] }
      let (status, b) := beginStage env s id o rb.entries start
      let core := { b.core with repairs := b.core.repairs.set ri { row with members := b.members } }
      let res := { res with memberTxn := b.members.map (·.txn) }
      ⟨status, if status = .ok then
          { res with cohort := some id, phase := Phase.admitted.code } else res,
        core, b.undo, []⟩

def doBeginRepair
    (a : Admission) (s : ObjectSlot) (o : Object) (res : EntryResult) : RepairOutcome :=
  let go (episode : Option Episode) : RepairOutcome :=
    match checkMembers (beginRepairCheck c env rb a s o episode) 0 rb.entries res with
    | (some status, res) => refuseRepair c status res
    | (none, res) => beginRepairGo x c env rb s o res
  match rb.episode with
  | none => go none
  | some raw => match episodeFind c raw with
    | none => refuseRepair c .staleAuth res
    | some (_, episode) =>
      if episode.object ≠ s then refuseRepair c .invalid res else go (some episode)

/-! ## abort_repair -/

/-- `d1_repair_member_drop`: the version and the transaction a member holds go unused. -/
def memberDrop (m : RepairMember) (u : RepairUndo) : Core × RepairMember × RepairUndo :=
  let ver := versionFind c m.version
  let txn := txnFind c m.txn
  ({ c with
      versions := dropFresh (ver.map Prod.fst) c.versions
      txns := dropFresh (txn.map Prod.fst) c.txns },
    { m with staged := false, version := 0, txn := 0 },
    { u with
      dropVersions := u.dropVersions ++ ver.toList
      dropTxns := u.dropTxns ++ txn.toList })

/-- Release every member: the chunk leaves the repair and what was staged for it is dropped. -/
def dropMembers (s : ObjectSlot) :
    List RepairMember → Core → RepairUndo → Core × List RepairMember × RepairUndo
  | [], c, u => (c, [], u)
  | m :: rest, c, u =>
    let u := u.noteChunk c.objects s m.index
    let c := { c with
      objects := modifyChunk c.objects s m.index fun ch => { ch with repair := none } }
    let (c, m, u) := memberDrop c m u
    let (c, ms, u) := dropMembers s rest c u
    (c, m :: ms, u)

/-- Abort the cohort in slot `ri`: what `abort_repair` does, and a `prepare_repair` that refuses. -/
def abortCohort (u : RepairUndo) : Core × RepairUndo :=
  let (c, members, u) := dropMembers cohort.object cohort.members c u
  ({ c with repairs := c.repairs.set ri { cohort with members := members, phase := .aborted } }, u)

def EntryResult.ofCohort (res : EntryResult) (id : UInt64) (phase : Phase) : EntryResult :=
  { res with cohort := some id, phase := phase.code }

def doAbortRepair (res : EntryResult) : RepairOutcome :=
  if cohort.phase = .committed ∨ cohort.phase = .aborted then refuseRepair c .badPhase res
  else
    let (core, u) := abortCohort c ri cohort ((repairUndoBegin c).noteCohort ri cohort)
    ⟨.ok, res.ofCohort cohort.id .aborted, core, u, []⟩

/-! ## prepare_repair -/

/-- What the staging loop of `prepare_repair` has built so far. -/
structure PrepareState where
  core : Core
  undo : RepairUndo
  res : EntryResult
  /-- The members already gone through, staged or not. -/
  members : List RepairMember

/-- Stage the replacement of one member, whose chunk is `ch`. -/
def prepareMember (exportUuid : Uuid) (s : ObjectSlot) (ch : Chunk) (n : Nat)
    (e : RepairEntry UInt64) (m : RepairMember) (p : PrepareState) : Status × PrepareState :=
  let p := { p with res := p.res.atMember n ch.guard }
  let payload := e.payload.getD ⟨[], ⟨0, 0, ByteCodec.zeros 4⟩⟩
  if ch.visible ≠ some m.successor then (.ownerConflict, p)
  else if !checksumVerify payload.checksum payload.payload then (.checksum, p)
  else
    let c := p.core
    match c.versions.spare, txnFind c m.txn with
    | some vi, some (ti, txn) =>
      let version := c.nextVersion
      let ver : Version := {
        id := version, object := s, index := m.index, bytes := payload.payload
        checksum := payload.checksum, owner := m.owner, predecessor := some m.successor
        released := false }
      let u := p.undo.noteTxn ti txn
      let u := { u with freshVersions := u.freshVersions ++ [vi] }
      let c := { c with
        versions := c.versions.set vi ver
        nextVersion := c.nextVersion + 1
        txns := c.txns.set ti { txn with version := version, phase := .prepared } }
      let (c, u) := match ownerFind c exportUuid m.owner with
        | none => (c, u)
        | some (ai, assoc) =>
          ({ c with owners := c.owners.set ai { assoc with version := version } },
            u.noteOwner c.owners ai)
      (.ok, { p with
        core := c
        undo := u
        members := p.members ++ [{ m with staged := true, version := version }] })
    | _, _ => (.nospc, p)

/-- Stage member after member; the first that cannot be staged ends the loop, and the members from
it on stay as they were. -/
def prepareStage (exportUuid : Uuid) (s : ObjectSlot) (o : Object) :
    Nat → List (RepairEntry UInt64 × RepairMember) → PrepareState → Status × PrepareState
  | _, [], p => (.ok, p)
  | n, (e, m) :: rest, p => match prepareMember exportUuid s (o.chunks m.index) n e m p with
    | (.ok, p) => prepareStage exportUuid s o (n + 1) rest p
    | (status, p) => (status, { p with members := p.members ++ m :: rest.map Prod.snd })

def doPrepareRepair (s : ObjectSlot) (o : Object) (res : EntryResult) : RepairOutcome :=
  if cohort.phase ≠ .admitted then refuseRepair c .badPhase res
  else if c.versions.free < cohort.members.length then refuseRepair c .nospc res
  else if nextVersionSeen x c = uint64Max then refuseRepair c .nospc res
  else
    let start : PrepareState :=
      ⟨c, (repairUndoBegin c).noteCohort ri cohort, res, []⟩
    let (status, p) := prepareStage env.object.exportUuid s o 0
      (rb.entries.zip cohort.members) start
    let row := { cohort with members := p.members }
    let withRow (phase : Phase) : Core :=
      { p.core with repairs := p.core.repairs.set ri { row with phase := phase } }
    match status with
    | .ok => ⟨.ok, p.res.ofCohort cohort.id .prepared, withRow .prepared, p.undo, []⟩
    | .nospc => ⟨.nospc, p.res, withRow .admitted, p.undo, []⟩
    | status =>
      let (core, u) := abortCohort (withRow .admitted) ri row p.undo
      ⟨status, p.res.ofCohort cohort.id .aborted, core, { u with keep := true }, []⟩

/-! ## finalize_repair and commit_repair -/

def doFinalizeRepair (res : EntryResult) : RepairOutcome :=
  if cohort.phase ≠ .prepared then refuseRepair c .badPhase res
  else ⟨.ok, res.ofCohort cohort.id .finalized,
    { c with repairs := c.repairs.set ri { cohort with phase := .finalized } },
    (repairUndoBegin c).noteCohort ri cohort, []⟩

def commitRepairCheck (o : Object) (n : Nat) (m : RepairMember) (res : EntryResult) :
    Option Status × EntryResult :=
  let ch := o.chunks m.index
  let res := res.atMember n ch.guard
  if !m.staged then (some .invalid, res)
  else if ch.visible ≠ some m.successor then (some .ownerConflict, res)
  else match custodyFind c m.custody with
    | none => (some .staleAuth, res)
    | some (_, custody) =>
      if custody.version ≠ m.successor then (some .staleAuth, res) else (none, res)

def commitStage (s : ObjectSlot) : List RepairMember → Core → RepairUndo → Core × RepairUndo
  | [], c, u => (c, u)
  | m :: rest, c, u =>
    let txn := txnFind c m.txn
    let u := u.noteChunk c.objects s m.index
    let c := { c with objects := modifyChunk c.objects s m.index fun ch =>
      { ch with visible := some m.version, repairLocked := true } }
    let (c, u) := match txn with
      | none => (c, u)
      | some (ti, t) =>
        ({ c with txns := c.txns.set ti { t with phase := .committed } }, u.noteTxn ti t)
    commitStage s rest c u

def doCommitRepair (s : ObjectSlot) (o : Object) (res : EntryResult) : RepairOutcome :=
  if cohort.phase ≠ .finalized then refuseRepair c .badPhase res
  else match checkMembers (commitRepairCheck c o) 0 cohort.members res with
    | (some status, res) => refuseRepair c status res
    | (none, res) =>
      if indexEpochSeen x c = uint64Max then refuseRepair c .nospc res
      else
        let (core, u) := commitStage s cohort.members c ((repairUndoBegin c).noteCohort ri cohort)
        ⟨.ok, res.ofCohort cohort.id .committed,
          { core with
            indexEpoch := core.indexEpoch + 1
            repairs := core.repairs.set ri { cohort with phase := .committed } },
          u, cohort.members.map fun m => ⟨s, m.index, m.version⟩⟩

/-! ## clear_error and unlock -/

def clearErrorCheck (o : Object) (episode : Episode) (n : Nat) (m : RepairMember)
    (res : EntryResult) : Option Status × EntryResult :=
  let ch := o.chunks m.index
  let res := res.atMember n ch.guard
  if m.mode ≠ repairError then (none, res)
  else match ch.error with
    | none => (some .badPhase, res)
    | some mark =>
      if mark.cleared then (some .badPhase, res)
      else if mark.episode ≠ episode.id then (some .badPhase, res)
      else if mark.custody ≠ m.custody then (some .staleAuth, res)
      else if mark.version ≠ m.successor then (some .ownerConflict, res)
      else (none, res)

/-- Change the chunk of every member in turn, remembering how it was. -/
def changeChunks (s : ObjectSlot) (f : Chunk → Chunk) :
    List RepairMember → Table maxObjects Object → RepairUndo → Table maxObjects Object × RepairUndo
  | [], objects, u => (objects, u)
  | m :: rest, objects, u =>
    changeChunks s f rest (modifyChunk objects s m.index f) (u.noteChunk objects s m.index)

def doClearError (s : ObjectSlot) (o : Object) (res : EntryResult) : RepairOutcome :=
  if cohort.phase ≠ .committed then refuseRepair c .badPhase res
  else match rb.episode.bind (episodeFind c) with
    | none => refuseRepair c .staleAuth res
    | some (_, episode) =>
      if c.certificate.isNone ∨ c.certificate ≠ rb.certificate then refuseRepair c .staleAuth res
      else match checkMembers (clearErrorCheck o episode) 0 cohort.members res with
        | (some status, res) => refuseRepair c status res
        | (none, res) =>
          let errors := cohort.members.filter (·.mode = repairError)
          if errors = [] then refuseRepair c .invalid res
          else
            let (objects, u) := changeChunks s
              (fun ch => { ch with error := ch.error.map ({ · with cleared := true }) })
              errors c.objects (repairUndoBegin c)
            ⟨.ok, res.ofCohort cohort.id cohort.phase, { c with objects := objects }, u, []⟩

/-- A chunk as `unlock` leaves it: out of the repair and of its ERROR episode. -/
def Chunk.unlocked (ch : Chunk) : Chunk :=
  { ch with repairLocked := false, repair := none, error := none }

/-- The test asks whether the chunk is locked, not whether this cohort holds the lock. -/
def unlockCheck (o : Object) (n : Nat) (m : RepairMember) (res : EntryResult) :
    Option Status × EntryResult :=
  let ch := o.chunks m.index
  let res := res.atMember n ch.guard
  if !ch.repairLocked then (some .badPhase, res)
  else if m.mode = repairError ∧ !ch.error.any (·.cleared) then (some .badPhase, res)
  else (none, res)

def doUnlock (s : ObjectSlot) (o : Object) (res : EntryResult) : RepairOutcome :=
  if cohort.phase ≠ .committed then refuseRepair c .badPhase res
  else match checkMembers (unlockCheck o) 0 cohort.members res with
    | (some status, res) => refuseRepair c status res
    | (none, res) =>
      let (objects, u) := changeChunks s Chunk.unlocked cohort.members c.objects
        (repairUndoBegin c)
      ⟨.ok, res.ofCohort cohort.id cohort.phase, { c with objects := objects }, u, []⟩

/-! ## Dispatch -/

/-- `d1_repair_of_episode`: the cohort that holds, as an ERROR member, the first named chunk that
is under repair in the episode. -/
def repairOfEpisode (c : Core) (s : ObjectSlot) (o : Object) (episode : UInt64) :
    List (RepairEntry UInt64) → Option (Fin maxRepairs × Repair)
  | [] => none
  | e :: rest => match chunkIndex e.index with
    | none => none
    | some i =>
      let ch := o.chunks i
      match ch.repair with
      | none => repairOfEpisode c s o episode rest
      | some repair =>
        if (ch.error.map (·.episode)).getD 0 ≠ episode then
          repairOfEpisode c s o episode rest
        else
          (c.repairs.findRow fun r => r.id == repair && decide (r.object = s)).filter fun p =>
            p.2.members.any fun m => decide (m.index = i) && m.mode == repairError

lemma repairOfEpisode_some {c : Core} {s : ObjectSlot} {o : Object} {episode : UInt64}
    {entries : List (RepairEntry UInt64)} {ri : Fin maxRepairs} {cohort : Repair}
    (h : repairOfEpisode c s o episode entries = some (ri, cohort)) :
    c.repairs ri = some cohort := by
  induction entries with
  | nil => cases h
  | cons e rest ih =>
    unfold repairOfEpisode at h
    split at h
    · cases h
    · dsimp only at h
      split at h
      · exact ih h
      · split at h
        · exact ih h
        · exact (Table.findRow_some (Option.mem_filter_iff.mp h).1).1

/-- What every later repair call asks of a member: that it names the cohort's own vector. -/
def memberNamed (n : Nat) (em : RepairEntry UInt64 × RepairMember) (res : EntryResult) :
    Option Status × EntryResult :=
  let (e, m) := em
  let res := { res with member := some (UInt32.ofNat n) }
  if m.index.val ≠ e.index.toNat then (some .invalid, res)
  else if m.owner ≠ e.owner then (some .ownerConflict, res)
  else if e.txn.any (· ≠ m.txn) then (some .invalid, res)
  else if e.custody.any (· ≠ m.custody) then (some .staleAuth, res)
  else if e.predecessor.any (· ≠ m.successor) then (some .noPredecessor, res)
  else (none, res)

/-- The operations on a cohort that exists, once its admission, verifier, phase and vector have been
checked. -/
def repairOnCohort (op : RepairOp)
    (rb : RepairBatch UInt64) (a : Admission) (s : ObjectSlot) (o : Object) (ri : Fin maxRepairs)
    (cohort : Repair) (res : EntryResult) : RepairOutcome :=
  if cohort.object ≠ s then refuseRepair c .invalid res
  else if cohort.admission ≠ a.id then refuseRepair c .staleAuth res
  else if cohort.members.length ≠ rb.entries.length then refuseRepair c .invalid res
  else if rb.priorVerifier.any (!verifierMatches c ·) then refuseRepair c .staleAuth res
  else if rb.phase.any (· ≠ cohort.phase.code) then
    refuseRepair c .badPhase (res.ofCohort cohort.id cohort.phase)
  else match checkMembers memberNamed 0 (rb.entries.zip cohort.members) res with
    | (some status, res) => refuseRepair c status res
    | (none, res) => match op with
      | .prepareRepair => doPrepareRepair x c env rb ri cohort s o res
      | .finalizeRepair => doFinalizeRepair c ri cohort res
      | .commitRepair => doCommitRepair x c ri cohort s o res
      | .abortRepair => doAbortRepair c ri cohort res
      | .clearError => doClearError c rb cohort s o res
      | .unlock => doUnlock c cohort s o res
      | _ => refuseRepair c .unsupported res

def doRepair (op : RepairOp)
    (rb : RepairBatch UInt64) (a : Admission) (res : EntryResult) : RepairOutcome :=
  match objectFind c env.object with
  | none => refuseRepair c .invalid res
  | some (s, o) => match op with
    | .markError => doMarkError x c rb s o res
    | .beginRepair => doBeginRepair x c env rb a s o res
    | op => match rb.cohort with
      | some raw => match repairFind c raw with
        | none => refuseRepair c .invalid res
        | some (ri, cohort) => repairOnCohort x c env op rb a s o ri cohort res
      | none => match rb.episode.bind (episodeFind c) with
        | none => refuseRepair c .staleAuth res
        | some (_, episode) => match repairOfEpisode c s o episode.id rb.entries with
          | none => refuseRepair c .invalid res
          | some (ri, cohort) => repairOnCohort x c env op rb a s o ri cohort res

end Reffs.D1
