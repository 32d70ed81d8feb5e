import Reffs.Lib.Machine
import Mathlib.Algebra.Order.Ring.Nat

/-!
# Layouts on a fixed inventory

A data store with a fixed inventory serves one file. A durable record
(`ffv2_fixed_inventory_record`) says whether that file has the inventory and whether a client may
have written through a layout that was neither committed nor returned; the barrier of the inode says
in memory whose layout that is. The handlers of `LAYOUTGET`, `LAYOUTCOMMIT`, `LAYOUTRETURN`,
`LAYOUTERROR` and of every operation that needs the file's attributes run at the same time. What one
of them does under `i_layout_sync_mutex` (and the lock of the inventory) is one step here;
`fixed_layout_retire` is a step of its own, since it is called after these were given up. Beside the
state stand the write layouts that were granted, with what was accepted of them since.
-/

namespace Reffs.Layout

inductive InventoryState where
  | free | claimed | assigned | retired | fenced
  deriving DecidableEq

inductive MetadataState where
  | clean | dirty | committed
  deriving DecidableEq

/-- The owner of an inventory. Inode numbers start at one. -/
structure File where
  sb : Nat
  ino : Nat
  ino_ne : ino ≠ 0
  deriving DecidableEq

/-- The one segment of a file: what the record repeats of it (offset, length, stripe unit, type and
checksum algorithm), and the data files. -/
structure Segment where
  shape : Nat
  files : Nat
  deriving DecidableEq

structure Record where
  state : InventoryState
  metadata : MetadataState
  epoch : UInt64
  owner : Option File
  shape : Nat
  deriving DecidableEq

/-- The file is in service, and no client may have written to it. -/
def Record.Clean (r : Record) : Prop := r.state = .assigned ∧ r.metadata = .clean

instance (r : Record) : Decidable r.Clean := inferInstanceAs (Decidable (_ ∧ _))

/-- `ffv2_fixed_inventory_transition` -/
def Record.transition (r : Record) (next : InventoryState) (owner : File) : Option Record :=
  let allowed := match r.state, next with
    | .free, .claimed => true
    | .claimed, .assigned | .claimed, .retired | .claimed, .fenced => true
    | .assigned, .retired | .assigned, .fenced => true
    | _, _ => false
  if !allowed then none
  else if next ≠ .free ∧ owner.ino = 0 then none
  else if r.state ≠ .free ∧ !r.owner.any (fun o => o.ino == owner.ino && o.sb == owner.sb) then none
  else some { r with
    state := next
    owner := some owner
    metadata := if next = .retired ∨ next = .fenced then .clean else r.metadata }

/-- `ffv2_fixed_metadata_transition` -/
def Record.metadataTransition (r : Record) (next : MetadataState) : Option Record :=
  if r.state ≠ .assigned then none
  else match r.metadata, next with
    | .clean, .dirty => some { r with metadata := .dirty, epoch := r.epoch + 1 }
    | .dirty, .committed | .committed, .clean => some { r with metadata := next }
    | _, _ => none

/-- A stateid as it is on the wire; `other` is the number of the stateid it names. -/
structure Stateid where
  seqid : UInt32
  other : Nat
  deriving DecidableEq

/-- `ffv2_layout_barrier` -/
structure Barrier where
  active : Bool
  dirtyEpoch : UInt64
  uncertain : Bool
  commitSeen : Bool
  returnSeen : Bool
  recallInFlight : Bool
  recallAcked : Bool
  recallSent : Bool
  fenced : Bool
  /-- A recall has set `deadline_ns`. -/
  deadline : Bool
  client : Nat
  stateid : Stateid
  latestGrant : UInt32
  recallSeqid : UInt32
  deriving DecidableEq

def Barrier.none : Barrier :=
  ⟨false, 0, false, false, false, false, false, false, false, false, 0, ⟨0, 0⟩, 0, 0⟩

/-- A layout stateid. One that was freed is no longer hashed. -/
structure Stid where
  client : Nat
  seqid : UInt32
  read : Bool
  rw : Bool
  hashed : Bool
  deriving DecidableEq

/-- A write layout that a client was granted under stateid `other`. -/
structure Grant where
  other : Nat
  committed : Bool
  returned : Bool
  deriving DecidableEq

def Grant.Owed (g : Grant) : Prop := ¬ (g.committed = true ∧ g.returned = true)

instance (g : Grant) : Decidable g.Owed := inferInstanceAs (Decidable (¬ _))

structure Shared where
  serving : Bool
  record : Record
  disk : Record
  segments : List Segment
  barrier : Barrier
  stids : List Stid
  grants : List Grant
  deriving DecidableEq

/-- `ffv2_fixed_inventory_save`: all of the record is on disk, or nothing of it. -/
def Shared.save (s : Shared) (r : Record) (ok : Bool) : Shared :=
  { s with record := r, disk := if ok then r else s.disk }

def Shared.setStid (s : Shared) (other : Nat) (f : Stid → Stid) : Shared :=
  { s with stids := s.stids.modify other f }

def Shared.stateidFind (s : Shared) (other : Nat) : Option Stid := s.stids[other]?.filter (·.hashed)

inductive Nfsstat where
  | ok | delay | io | badStateid | inval | layoutUnavailable | recallConflict | returnConflict
      | tooSmall
  deriving DecidableEq

inductive Iomode where
  | read | rw | any
  deriving DecidableEq

/-- A recall that was sent, as its callback remembers it. -/
structure Recall where
  epoch : UInt64
  client : Nat
  sid : Stateid
  deriving DecidableEq

inductive Pc where
  | idle
  /-- `LAYOUTGET`: the inventory is assigned, and the outstanding writer is to be asked for. -/
  | test (rw : Bool) (client : Nat)
  | find (rw : Bool) (client : Nat)
  | bump (rw : Bool) (client other : Nat)
  | build (rw : Bool) (client : Nat) (sid : Stateid)
  | begin (client : Nat) (sid : Stateid)
  | publish (rw : Bool) (sid : Stateid)
  /-- `LAYOUTRETURN`: the barrier was seen to be active. -/
  | returning (sid : Stateid) (mode : Iomode)
  /-- `last` says that no layout was left when the bits were cleared. -/
  | finish (other : Nat) (last : Bool)
  | recalling (r : Recall)
  /-- `fixed_layout_retire` is still to be called. -/
  | retire (status : Nfsstat)
  deriving DecidableEq

inductive Next where
  | done (status : Nfsstat)
  | goto (pc : Pc)
  deriving DecidableEq

/-! ## The steps -/

section

variable (file : File) (expected : Segment)

/-- `fixed_layout_retire` -/
def retire (s : Shared) (ok : Bool) : Shared :=
  if (s.record.state = .claimed ∨ s.record.state = .assigned) ∧ s.record.owner = some file then
    match s.record.transition .fenced file with
    | some r => s.save r ok
    | none => s
  else s

/-- `fixed_inventory_fence` -/
def inventoryFence (s : Shared) (ok : Bool) : Shared :=
  if s.record.state ≠ .claimed ∧ s.record.state ≠ .assigned then s
  else match s.record.transition .fenced file with
    | some r => s.save r ok
    | none => s

/-- What the surroundings answer to an assignment: whether the prototype snapshot is the one,
whether the file still has a link, whether there is memory, and the saves in their order. -/
structure AssignEnv where
  selected : Bool
  linked : Bool
  memory : Bool
  claimSave : Bool
  fenceSave : Bool
  assignSave : Bool
  deriving DecidableEq

/-- `ffv2_fixed_layout_assign` from the segment of the record on. -/
def assignSegment (s : Shared) (e : AssignEnv) : Bool × Shared :=
  if s.record.shape ≠ expected.shape then (false, inventoryFence file s e.fenceSave)
  else if s.segments = [] ∧ !e.memory then (false, s)
  else if s.segments ≠ [] ∧ s.segments ≠ [expected] then (false, inventoryFence file s e.fenceSave)
  else
    let s := { s with segments := [expected] }
    let granted := { s with barrier := { s.barrier with active := true } }
    if s.record.state = .claimed then
      match s.record.transition .assigned file with
      | none => (false, s)
      | some r => if e.assignSave then (true, granted.save r true) else (false, s.save r false)
    else (true, granted)

/-- `ffv2_fixed_layout_assign`, with whether the inventory is the file's now. -/
def assign (s : Shared) (e : AssignEnv) : Bool × Shared :=
  if !e.selected then (false, s)
  else if s.record.state = .retired ∨ s.record.state = .fenced then (false, s)
  else if s.record.state ≠ .free ∧ s.record.owner ≠ some file then (false, s)
  else if !e.linked then (false, s)
  else if s.record.state = .free then
    if s.segments ≠ [] then (false, s)
    else match s.record.transition .claimed file with
      | none => (false, s)
      | some r =>
        let s := s.save { r with shape := expected.shape } e.claimSave
        if e.claimSave then assignSegment file expected s e else (false, s)
  else assignSegment file expected s e

/-- `fixed_record_owner_equal` -/
def Record.OwnedBy (r : Record) (file : File) : Prop := r.state = .assigned ∧ r.owner = some file

instance (r : Record) : Decidable (r.OwnedBy file) := inferInstanceAs (Decidable (_ ∧ _))

/-- The file is given up, as soon as `fixed_layout_retire` is called. -/
def condemn (s : Shared) : Next × Shared := (.goto (.retire .io), s)

/-- `nfs4_fixed_layout_barrier_begin` up to where the locks are given up. -/
def barrierBegin (s : Shared) (client : Nat) (sid : Stateid) (ok : Bool) : Next × Shared :=
  if ¬ s.record.OwnedBy file ∨ s.record.metadata ≠ .clean ∨ s.barrier.uncertain then condemn s
  else match s.record.metadataTransition .dirty with
    | none => condemn s
    | some r =>
      let s := s.save r ok
      if !ok then condemn s
      else (.goto (.publish true sid), { s with
        barrier := { Barrier.none with
          active := true
          dirtyEpoch := r.epoch
          uncertain := true
          client := client
          stateid := sid
          latestGrant := sid.seqid }
        grants := ⟨sid.other, false, false⟩ :: s.grants })

/-- `fixed_layout_next_seqid` -/
def nextSeqid (seqid : UInt32) : UInt32 := if seqid + 1 = 0 then 1 else seqid + 1

/-- `nfs4_fixed_layout_grant_publish_locked`, where the read layout is one of the barrier's stateid.
-/
def grantPublish (s : Shared) (sid : Stateid) : Shared :=
  let b := s.barrier
  if b.active ∧ b.uncertain ∧ b.stateid.other = sid.other ∧
      0 < sid.seqid - b.latestGrant ∧ (sid.seqid - b.latestGrant).toNat < 2 ^ 31 then
    { s with barrier := { b with latestGrant := sid.seqid } }
  else s

/-- `fixed_barrier_commit_stateid_equal` -/
def Barrier.commitStateidEqual (b : Barrier) (sid : Stateid) : Bool :=
  sid.seqid != 0 && sid.other == b.stateid.other && (sid.seqid == b.stateid.seqid ||
    sid.seqid == b.latestGrant || (b.recallSent && sid.seqid == b.recallSeqid))

/-- `fixed_barrier_return_stateid_equal` -/
def Barrier.returnStateidEqual (b : Barrier) (sid : Stateid) : Bool :=
  sid.seqid != 0 && sid.other == b.stateid.other &&
    sid.seqid == (if b.recallSent then b.recallSeqid else b.latestGrant)

def Shared.accept (s : Shared) (other : Nat) (f : Grant → Grant) : Shared :=
  { s with grants := s.grants.map fun g => if g.other = other then f g else g }

/-- `fixed_layoutcommit`; `valid` says that the new size is one. Where the barrier is not active,
the request is another function's. -/
def layoutcommit (s : Shared) (client : Option Nat) (sid : Stateid) (valid ok : Bool) :
    Next × Shared :=
  let b := s.barrier
  let accepted := fun s : Shared => s.accept sid.other ({ · with committed := true })
  if !b.active then (.done .ok, s)
  else if ¬ s.record.OwnedBy file ∨ !b.uncertain ∨ !b.commitStateidEqual sid ∨
    client ≠ some b.client then
    (.done .badStateid, s)
  else if b.commitSeen then
    if s.record.metadata ≠ .committed ∨ s.record.epoch ≠ b.dirtyEpoch then (.done .io, s)
    else (.done .ok, accepted s)
  else if s.record.metadata ≠ .dirty ∨ s.record.epoch ≠ b.dirtyEpoch then (.done .io, s)
  else if !valid then (.done .inval, s)
  else match s.record.metadataTransition .committed with
    | none => condemn { s with barrier := { b with fenced := true } }
    | some r =>
      let s := s.save r ok
      if !ok then condemn { s with barrier := { b with fenced := true } }
      else (.done .ok, accepted { s with barrier := { b with commitSeen := true } })

def Stid.clear (t : Stid) (mode : Iomode) : Stid :=
  { t with read := t.read && mode == .rw, rw := t.rw && mode == .read }

def Stid.empty (t : Stid) : Bool := !t.read && !t.rw

/-- The bits are cleared, and what is left to do is to free the stateid or to number it anew. -/
def clearBits (s : Shared) (other : Nat) (mode : Iomode) : Next × Shared :=
  (.goto (.finish other (s.stids[other]?.all fun t => (t.clear mode).empty)),
    s.setStid other (·.clear mode))

/-- `nfs4_op_layoutreturn` up to the test of the barrier, and on to the bits where the barrier is
not active or no write layout is returned. -/
def layoutreturn (s : Shared) (client : Option Nat) (sid : Stateid) (mode : Iomode) :
    Next × Shared :=
  match s.stateidFind sid.other with
  | none => (.done .badStateid, s)
  | some t =>
    if client.any (· ≠ t.client) then (.done .badStateid, s)
    else if mode = .read then clearBits s sid.other mode
    else if s.barrier.active then (.goto (.returning sid mode), s)
    else clearBits (s.accept sid.other ({ · with returned := true })) sid.other mode

/-- `nfs4_op_layoutreturn` of a write layout, under the locks. -/
def returnFixed (s : Shared) (sid : Stateid) (mode : Iomode) (ok : Bool) : Next × Shared :=
  let b := s.barrier
  if !b.uncertain ∨ !b.returnStateidEqual sid ∨ ¬ s.record.OwnedBy file then (.done .badStateid, s)
  else if !b.commitSeen ∨ s.record.metadata ≠ .committed ∨ s.record.epoch ≠ b.dirtyEpoch then
    (.done .delay, s)
  else
    let (next, s) := clearBits s sid.other mode
    let b := { b with returnSeen := true }
    match s.record.metadataTransition .clean with
    | none => condemn { s with barrier := { b with fenced := true } }
    | some r =>
      let s := s.save r ok
      if !ok then condemn { s with barrier := { b with fenced := true } }
      else (next, Shared.accept { s with barrier := { b with
        uncertain := b.uncertain && !b.commitSeen
        recallInFlight := b.recallInFlight && !b.commitSeen } } sid.other ({ · with returned :=
          true }))

/-- `nfs4_fixed_layout_recall_advance_locked` of a barrier that is active and uncertain. -/
def recallAdvance (s : Shared) : Option (Stateid × Shared) :=
  let b := s.barrier
  if b.recallSent then some (⟨b.recallSeqid, b.stateid.other⟩, s)
  else match s.stateidFind b.stateid.other with
    | none => none
    | some t =>
      if t.client ≠ b.client then none
      else
        let seqid := nextSeqid t.seqid
        some (⟨seqid, b.stateid.other⟩, { s.setStid b.stateid.other ({ · with seqid := seqid }) with
          barrier := { b with recallSeqid := seqid, recallSent := true } })

/-- `nfs4_layout_metadata_barrier_inode`; `late` says that a deadline has passed. -/
def metadataBarrier (s : Shared) (late : Bool) : Next × Shared :=
  let b := s.barrier
  if !b.active ∨ !b.uncertain then (.done .ok, s)
  else if b.commitSeen ∧ b.returnSeen then
    (.done .ok, { s with barrier := { b with uncertain := false, recallInFlight := false } })
  else if b.fenced ∨ (b.deadline ∧ late) then
    condemn { s with barrier := { b with fenced := true, recallInFlight := false } }
  else if b.recallInFlight then (.done .delay, s)
  else match recallAdvance s with
    | none => condemn { s with barrier := { b with fenced := true } }
    | some (sid, s) =>
      (.goto (.recalling ⟨b.dirtyEpoch, b.client, sid⟩),
        { s with barrier := { s.barrier with recallInFlight := true, deadline := true } })

/-- `fixed_recall_matches` -/
def Barrier.matches (b : Barrier) (r : Recall) : Bool :=
  b.active && b.dirtyEpoch == r.epoch && b.client == r.client && b.recallSeqid == r.sid.seqid &&
    b.stateid.other == r.sid.other

/-- What became of a callback: the client took the recall, it is to be asked again (it was, or will
be), the callback failed, or there was no session to send it on. -/
inductive Callback where
  | acked | again | lost | unsent
  deriving DecidableEq

/-- `nfs4_layout_barrier_resume`, and what follows where a recall could not be sent at all. -/
def barrierResume (s : Shared) (r : Recall) (cb : Callback) (late : Bool) : Next × Shared :=
  let b := s.barrier
  let completed := b.commitSeen && b.returnSeen
  let expired := b.deadline && late
  let fenced := { s with barrier := { b with fenced := true, recallInFlight := false } }
  if !b.matches r then (.done (if cb = .unsent then .delay else .ok), s)
  else if cb = .unsent then condemn fenced
  else if cb = .again ∧ !completed ∧ !b.fenced ∧ !expired then (.goto (.recalling r), s)
  else if completed then (.done .ok, s)
  else if cb ≠ .acked ∨ expired ∨ b.fenced then condemn fenced
  else (.done .ok, { s with barrier := { b with recallAcked := true } })

/-- What a restart finds: the inode of the owner, memory, and whether the record can be saved. -/
structure RestartEnv where
  found : Bool
  memory : Bool
  ok : Bool
  deriving DecidableEq

/-- `fixed_recovery_transition` on the record that was loaded. -/
def Shared.recoveryTransition (s : Shared) (next : InventoryState) (ok : Bool) : Shared :=
  match s.record.owner.bind (s.record.transition next) with
  | none => s
  | some r => s.save r ok

/-- `dstore_fixed_inventory_recover` in a server that has just started; `serving` is that it
returned zero. -/
def recover (s : Shared) (e : RestartEnv) : Shared :=
  let s : Shared := { s with
    serving := false
    record := s.disk
    barrier := .none
    stids := s.stids.map ({ · with hashed := false }) }
  let own : Segment := ⟨s.record.shape, expected.files⟩
  match s.record.state with
  | .free => { s with serving := true }
  | .retired | .fenced => s
  | .claimed =>
    if !e.found then s.recoveryTransition .retired e.ok
    else if s.segments = [] ∧ !e.memory then s
    else if s.segments ≠ [] ∧ s.segments ≠ [own] then s.recoveryTransition .fenced e.ok
    else { { s with segments := [own] }.recoveryTransition .assigned e.ok with serving := e.ok }
  | .assigned =>
    if !e.found then s.recoveryTransition .retired e.ok
    else if s.segments ≠ [own] ∨ s.record.metadata ≠ .clean then s.recoveryTransition .fenced e.ok
    else { s with
      serving := true
      barrier := { s.barrier with active := true, dirtyEpoch := s.record.epoch } }

/-! ## Handlers that run at the same time -/

inductive Request where
  | layoutget (rw : Bool) (client : Nat) (e : AssignEnv)
  | layoutcommit (client : Option Nat) (sid : Stateid) (valid ok : Bool)
  | layoutreturn (client : Option Nat) (sid : Stateid) (mode : Iomode)
  | layouterror
  | metadata (late : Bool)

def Request.run (s : Shared) : Request → Next × Shared
  | .layoutget rw client e =>
    let (assigned, s) := assign file expected s e
    (if assigned then .goto (.test rw client) else .done .layoutUnavailable, s)
  | .layoutcommit client sid valid ok => Layout.layoutcommit file s client sid valid ok
  | .layoutreturn client sid mode => Layout.layoutreturn s client sid mode
  | .layouterror =>
    if !s.barrier.active then (.done .ok, s)
    else (.goto (.retire .ok), { s with
      barrier := { s.barrier with fenced := true, recallInFlight := false } })
  | .metadata late => metadataBarrier s late

/-- What the surroundings answer to a step of a handler: the stateid the client has, that memory,
the body and the save went well, what became of a callback, and that a deadline has passed. -/
structure Choice where
  found : Option Nat
  ok : Bool
  cb : Callback
  late : Bool
  deriving DecidableEq

def Pc.run (s : Shared) (c : Choice) : Pc → Next × Shared
  | .idle => (.goto .idle, s)
  | .test rw client =>
    let s := { s with barrier := { s.barrier with active := true } }
    (if rw && s.barrier.uncertain then .done .delay else .goto (.find rw client), s)
  | .find rw client =>
    match c.found with
    | some other =>
      (.goto (if (s.stateidFind other).any (·.client = client) then .bump rw client other
        else .find rw client), s)
    | none =>
      if c.ok then (.goto (.bump rw client s.stids.length),
        { s with stids := s.stids ++ [⟨client, 0, false, false, true⟩] })
      else (.done .delay, s)
  | .bump rw client other =>
    if s.barrier.recallInFlight then
      (.done (if s.barrier.recallAcked then .returnConflict else .recallConflict), s)
    else
      let seqid := nextSeqid ((s.stids[other]?.map (·.seqid)).getD 0)
      (.goto (.build rw client ⟨seqid, other⟩), s.setStid other ({ · with seqid := seqid }))
  | .build rw client sid =>
    (if !c.ok then .done .tooSmall else .goto
      (if rw then .begin client sid else .publish false sid), s)
  | .begin client sid => barrierBegin file s client sid c.ok
  | .publish rw sid =>
    let s := if rw then s else grantPublish s sid
    (.done .ok, s.setStid sid.other fun t => { t with read := t.read || !rw, rw := t.rw || rw })
  | .returning sid mode => returnFixed file s sid mode c.ok
  | .finish other last =>
    (.done .ok, s.setStid other fun t =>
      if last then { t with hashed := false } else { t with seqid := t.seqid + 1 })
  | .recalling r => barrierResume s r c.cb c.late
  | .retire status => (.done status, Layout.retire file s c.ok)

variable {ι : Type} [DecidableEq ι]

structure World (ι : Type) where
  shared : Shared
  pc : ι → Pc
  reply : ι → Option Nfsstat

inductive Act (ι : Type) where
  | request (i : ι) (r : Request)
  | advance (i : ι) (c : Choice)
  | restart (e : RestartEnv)

/-- Handler `i` has made a step. -/
def World.take (w : World ι) (i : ι) : Next × Shared → World ι
  | (.done status, s) => ⟨s, Function.update w.pc i .idle, Function.update w.reply i (some status)⟩
  | (.goto pc, s) => { w with shared := s, pc := Function.update w.pc i pc }

/-- A new request is taken by a handler that is idle, while the store is in service. -/
def step (w : World ι) : Act ι → World ι
  | .request i r =>
    if w.shared.serving ∧ w.pc i = .idle then w.take i (r.run file expected w.shared) else w
  | .advance i c => w.take i ((w.pc i).run file w.shared c)
  | .restart e => ⟨recover expected w.shared e, fun _ => .idle, fun _ => none⟩

end

end Reffs.Layout
