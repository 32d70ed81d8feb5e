import Reffs.Lib.Machine
import Reffs.D1.Replay

/-!
# The store as a system

`d1_store_apply` takes the store's lock once to look at the request and once more for each member,
so calls interleave between members. Here a call is a small state machine (`Call`), each of whose
steps is one such critical section, and a `World` is a journalling store with its calls in flight.
An event lets one call take one step, or is one of the calls that hold the lock throughout: fixture
calls, views, close, and a reopen of the durable bytes by a new store object.

`storeApply` is the sequential call: the steps of one call, nothing in between.

Leaving a call is part of its last step. In the source it is a critical section of its own; all that
can happen in between is that a close finds the call still counted and answers `BUSY`.
-/

namespace Reffs.D1

open ByteCodec SlotTable

/-! ## Whose handles -/

variable (instance_ : UInt64) (s : Store) (env : Envelope Handle)

/-- `d1_envelope_owned`: the handles an envelope names are this store's. -/
def envelopeOwned : Bool :=
  let owns := handleOwned instance_
  let control (k : ControlBatch Handle) : Bool :=
    k.txns.length ≤ batchEntriesMax && k.txns.all (owns .txn) &&
      owns .admission k.oldAdmission && k.newAdmission.all (owns .admission)
  let lifecycle (l : LifecycleBatch Handle) : Bool :=
    l.entries.length ≤ batchEntriesMax &&
      l.entries.all fun e => owns .txn e.txn && e.predecessor.all (owns .version)
  owns .admission env.admission && match env.body with
    | .writeBatch _ => true
    | .finalizeBatch l => lifecycle l
    | .commitBatch l => lifecycle l
    | .rollbackBatch r =>
      r.entries.length ≤ batchEntriesMax && r.entries.all fun e =>
        owns .txn e.txn && e.visible.all (owns .version) && e.predecessor.all (owns .version) &&
          e.custody.all (owns .custody)
    | .recoveryAdmit k => control k
    | .leaseReap k => control k
    -- The transactions and postconditions of members and the episode are not asked about.
    | .repair _ r =>
      r.entries.length ≤ batchEntriesMax && (r.entries.all fun e =>
        e.custody.all (owns .custody) && e.successor.all (owns .version) &&
          e.predecessor.all (owns .version)) && r.cohort.all (owns .repair)
    | .unknown _ => false

/-- `d1_envelope_adopt`: give the numbers of a decoded envelope this store's handles. -/
def envelopeAdopt (env : Envelope UInt64) : Envelope Handle :=
  env.map (handleOf instance_)

lemma handleOf_raw (kind : HandleKind) (raw : UInt64) :
    (handleOf instance_ kind raw).raw = raw := by
  unfold handleOf
  split
  · next hraw => exact hraw.symm
  · rfl

lemma envelopeAdopt_raw (env : Envelope UInt64) : (envelopeAdopt instance_ env).raw = env := by
  unfold envelopeAdopt Envelope.raw
  rw [Envelope.map_map]
  simp only [handleOf_raw]
  exact env.map_id

lemma handleOwned_handleOf {instance_ : UInt64} (h : instance_ ≠ 0) (kind : HandleKind)
    (raw : UInt64) : handleOwned instance_ kind (handleOf instance_ kind raw) := by
  unfold handleOf
  split
  · rfl
  · next hraw => simp [handleOwned, handleOurs, hraw, h]

lemma handleRaw_handleOf {instance_ : UInt64} (h : instance_ ≠ 0) (kind : HandleKind)
    (raw : UInt64) : handleRaw instance_ kind (handleOf instance_ kind raw) = raw := by
  unfold handleOf
  split
  · next hraw => exact hraw.symm
  · next hraw => simp [handleRaw, handleOurs, hraw, h]

theorem envelopeOwned_adopt {instance_ : UInt64} (h : instance_ ≠ 0) {env : Envelope UInt64}
    (hv : envelopeValidate env) : envelopeOwned instance_ (envelopeAdopt instance_ env) := by
  have hown : ∀ kind raw, handleOwned instance_ kind (handleOf instance_ kind raw) :=
    handleOwned_handleOf h
  have hopt : ∀ kind (o : Option UInt64),
      (o.map (handleOf instance_ kind)).all (handleOwned instance_ kind) := by
    intro kind o
    cases o with
    | none => rfl
    | some raw => exact hown kind raw
  unfold envelopeValidate at hv
  unfold envelopeOwned envelopeAdopt Envelope.map
  cases hbody : env.body with
  | writeBatch w => simp [Body.map, hown]
  | finalizeBatch l | commitBatch l =>
    rw [hbody] at hv
    simp only [validateLifecycle, Bool.and_eq_true, countOk_iff] at hv
    simp [Body.map, LifecycleBatch.map, LifecycleEntry.map, hown, hopt, hv.1.1.1.1.2]
  | rollbackBatch r =>
    rw [hbody] at hv
    simp only [validateRollback, Bool.and_eq_true, countOk_iff] at hv
    simp [Body.map, RollbackEntry.map, hown, hopt, hv.1.1.1.1.2]
  | recoveryAdmit k | leaseReap k =>
    rw [hbody] at hv
    simp only [validateControl, Bool.and_eq_true, countOk_iff] at hv
    simp [Body.map, hown, hopt, hv.1.1.1.1.2]
  | repair op r =>
    rw [hbody] at hv
    simp only [validateRepair, Bool.and_eq_true, countOk_iff] at hv
    simp [Body.map, RepairEntry.map, hown, hopt, hv.1.1.1.1.1.1.1.1.1.1.2]
  | unknown op =>
    rw [hbody] at hv
    cases hv

/-! ## A call -/

/-- A request the store has taken: the envelope its own bytes decode to, those bytes, their
digest. -/
structure Request where
  env : Envelope UInt64
  bytes : Bytes
  digest : Digest
  deriving DecidableEq, Repr

inductive Call where
  /-- Counted in, encoded, not yet looked at. -/
  | entered (env : Envelope Handle) (bytes : Bytes)
  /-- Taken; the entries answered so far are in `out`. -/
  | running (r : Request) (out : Result)
  | done (status : Status) (out : Result)
  deriving DecidableEq, Repr

def Result.start (key : OpKey) : Result := ⟨key, 0, 0, Disposition.unrecorded.code, []⟩

def refusedEntry (status : UInt32) (d : Disposition) : EntryResult :=
  { EntryResult.zero with
    status := status
    stability := fileSync
    disposition := d.code
    verifier := if s.serving then verifierOf s.core.incarnation else zeros 8 }

def callLeave : Store := { s with activeCalls := s.activeCalls - 1 }

/-- Up to the first critical section: snapshot the request and count the call in. -/
def callEnter : Store × Call :=
  let out := Result.start env.key
  if !s.serving then (s, .done .invalid out)
  else match env.body.op with
    | none => (s, .done .unsupported out)
    | some _ => match envelopeEncode env.raw envelopeMax with
      | none => (s, .done .invalid out)
      | some bytes => ({ s with activeCalls := s.activeCalls + 1 }, .entered env bytes)

/-- The critical section that looks at the request: whose handles it names, what its bytes decode
to, and whether its key is bound to another request. -/
def callCheck (bytes : Bytes) : Store × Call :=
  let out := Result.start env.key
  let bound := { env.raw with admission := handleRaw s.instance_ .admission env.admission }
  let all (status : Status) (d : Disposition) : Store × Call :=
    (callLeave s, .done .ok { out with
      disposition := d.code
      entries := List.replicate env.memberCount (refusedEntry s status.code d) })
  if !(envelopeOwned s.instance_ env && bindingOk s.core bound) then all .staleAuth .unrecorded
  else match envelopeDecode bytes with
    | none => (callLeave s, .done .invalid out)
    | some taken =>
      let digest := requestDigest bytes
      if keyConflicts s.core taken.object.exportUuid taken.key digest then
        all .replayConflict .completed
      else (s, .running ⟨taken, bytes, digest⟩ out)

/-- The critical section of one member. A member that was not recorded ends the call; the members
after it are answered like it. -/
def callMember (r : Request) (out : Result) : Store × Call :=
  let n := out.entries.length
  let (complete, s) := applyMember s r.env r.bytes n r.digest
  let entries := out.entries ++ [complete.entry]
  let out := { out with
    indexEpoch := complete.indexEpoch
    eof := complete.eof
    entries := entries }
  let first (entries : List EntryResult) : UInt32 := (entries.head?.map (·.disposition)).getD 0
  if r.env.body.isControl || r.env.body.isRepair then
    (callLeave s, .done .ok { out with disposition := complete.disposition })
  else if complete.disposition = Disposition.unrecorded.code then
    let entries := entries ++ List.replicate (r.env.memberCount - (n + 1))
      { refusedEntry s complete.entry.status .unrecorded with
        verifier := verifierOf s.core.incarnation }
    (callLeave s, .done .ok { out with disposition := first entries, entries := entries })
  else if n + 1 < r.env.memberCount then (s, .running r out)
  else (callLeave s, .done .ok { out with disposition := first entries })

def callStep : Call → Store × Call
  | .entered env bytes => callCheck s env bytes
  | .running r out => callMember s r out
  | .done status out => (s, .done status out)

def callRun : Nat → Store × Call → Store × Call
  | 0, p => p
  | fuel + 1, p => callRun fuel (callStep p.1 p.2)

/-- `d1_store_apply`, with no other call in between: the request is looked at once, and then once
for each member. -/
def storeApply : Store × Call :=
  callRun (1 + env.memberCount) (callEnter s env)

/-! ## The system -/

structure World where
  store : Store
  /-- The instance token the next store object gets. -/
  nextInstance : UInt64
  calls : Nat → Option Call

inductive Event where
  /-- A new call under a name no unfinished call has. -/
  | enter (id : Nat) (env : Envelope Handle)
  | advance (id : Nat)
  | fixture (call : FixtureCall)
  | viewOpen (object : ObjKey) (admission : Handle) (sel : SelectionSpec)
      (byteBegin byteEnd : UInt64)
  | viewClose (view : Fin maxViews)
  | close
  /-- A new store object takes over the durable bytes; calls of the old one are gone. A reopen that
  fails leaves nothing but the bytes as they were. -/
  | reopen (arm : ReopenStart)
  deriving DecidableEq, Repr

def storeClose : Status × Store :=
  if s.activeCalls ≠ 0 ∨ s.harness.views.used ≠ 0 then (.busy, s)
  else (.ok, { s with closed := true })

def Call.finished : Call → Bool
  | .done _ _ => true
  | _ => false

/-- Put the outcome of a step of call `id` back. -/
def World.put (w : World) (id : Nat) (p : Store × Call) : World :=
  { w with store := p.1, calls := Function.update w.calls id (some p.2) }

def World.reopen (w : World) (arm : ReopenStart) : World :=
  let c := w.store.core
  let next := if w.nextInstance = 0 then 0 else w.nextInstance + 1
  match storeOpen w.nextInstance c.uuid c.chunkBytes c.maxFileBytes with
  | none => w
  | some fresh =>
    let armed := { fresh with harness := { fresh.harness with failReopenStart := arm } }
    match storeReopen armed w.store.journal.durableBytes with
    | (.ok, s) => ⟨s, next, fun _ => none⟩
    | _ => { w with nextInstance := next }

def step (w : World) : Event → World
  | .enter id env =>
    if (w.calls id).all Call.finished then w.put id (callEnter w.store env) else w
  | .advance id => match w.calls id with
    | none => w
    | some call => w.put id (callStep w.store call)
  | .fixture call => { w with store := fixture w.store call }
  | .viewOpen object admission sel byteBegin byteEnd =>
    { w with store := (viewOpen w.store object admission sel byteBegin byteEnd).2.2 }
  | .viewClose view => { w with store := viewClose w.store view }
  | .close => { w with store := (storeClose w.store).2 }
  | .reopen arm => w.reopen arm

def World.open (uuid : Uuid) (chunkBytes : UInt32) (maxFileBytes : UInt64) : Option World :=
  match storeOpen instance_ uuid chunkBytes maxFileBytes with
  | none => none
  | some s => match journalEnable s with
    | (.ok, s) => some ⟨s, instance_ + 1, fun _ => none⟩
    | _ => none

/-- What the events of a run can make of a newly opened store. -/
def Reachable (w : World) : Prop :=
  ∃ instance_ uuid chunkBytes maxFileBytes w₀ es,
    World.open instance_ uuid chunkBytes maxFileBytes = some w₀ ∧ w = Machine.run step w₀ es

end Reffs.D1
