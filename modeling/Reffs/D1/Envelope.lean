import Reffs.D1.Codec
import Reffs.D1.Digest

/-!
# The request envelope

`d1_envelope.c`. An envelope is the object key, the admission, the incarnation, the operation key
and one body. It is generic in what names a row: callers write `Envelope Handle`, and the canonical
form that is encoded, digested and decoded is `Envelope UInt64`, where only the number of a handle
is left. A member that may be absent is an `Option`, and a counted vector is a list.
-/

namespace Reffs.D1

open ByteCodec ByteCodec.Dec List Bool

/-! ## Bodies -/

structure WriteEntry where
  index : UInt64
  payloadId : UInt32
  owner : Owner
  /-- The guard this write expects; absent when it does not check one. -/
  expected : Option Guard
  payload : Bytes
  checksum : Checksum
  deriving DecidableEq, Repr

structure WriteBatch where
  entries : List WriteEntry
  stability : UInt32
  activate : Bool
  deriving DecidableEq, Repr

structure LifecycleEntry (H : Type) where
  index : UInt64
  owner : Owner
  txn : H
  predecessor : Option H
  deriving DecidableEq, Repr

structure LifecycleBatch (H : Type) where
  rangeBegin : UInt64
  rangeEnd : UInt64
  entries : List (LifecycleEntry H)
  priorVerifier : Verifier
  deriving DecidableEq, Repr

structure RollbackEntry (H : Type) where
  index : UInt64
  owner : Owner
  txn : H
  visible : Option H
  predecessor : Option H
  custody : Option H
  deriving DecidableEq, Repr

structure RollbackBatch (H : Type) where
  rangeBegin : UInt64
  rangeEnd : UInt64
  entries : List (RollbackEntry H)
  deriving DecidableEq, Repr

/-- The replacement a member of `prepare_repair` stages. -/
structure RepairPayload where
  payload : Bytes
  checksum : Checksum
  deriving DecidableEq, Repr

structure RepairEntry (H : Type) where
  index : UInt64
  mode : UInt32
  owner : Owner
  txn : Option H
  custody : Option H
  postcond : Option H
  successor : Option H
  predecessor : Option H
  payload : Option RepairPayload
  deriving DecidableEq, Repr

structure RepairBatch (H : Type) where
  rangeBegin : UInt64
  rangeEnd : UInt64
  entries : List (RepairEntry H)
  cohort : Option H
  episode : Option H
  phase : Option UInt32
  priorVerifier : Option Verifier
  certificate : Option Certificate
  deriving DecidableEq, Repr

structure ControlBatch (H : Type) where
  txns : List H
  oldAdmission : H
  newAdmission : Option H
  readEpoch : Option UInt64
  deriving DecidableEq, Repr

inductive Body (H : Type) where
  | writeBatch (w : WriteBatch)
  | finalizeBatch (l : LifecycleBatch H)
  | commitBatch (l : LifecycleBatch H)
  | rollbackBatch (r : RollbackBatch H)
  | repair (op : RepairOp) (r : RepairBatch H)
  | recoveryAdmit (k : ControlBatch H)
  | leaseReap (k : ControlBatch H)
  /-- A tag that is no operation. -/
  | unknown (op : UInt32)
  deriving DecidableEq, Repr

structure Envelope (H : Type) where
  object : ObjKey
  admission : H
  incarnation : UInt64
  key : OpKey
  body : Body H
  deriving DecidableEq, Repr

def Body.op {H : Type} : Body H → Option Op
  | writeBatch _ => some .writeBatch
  | finalizeBatch _ => some .finalizeBatch
  | commitBatch _ => some .commitBatch
  | rollbackBatch _ => some .rollbackBatch
  | repair op _ => some (.repair op)
  | recoveryAdmit _ => some .recoveryAdmit
  | leaseReap _ => some .leaseReap
  | unknown _ => none

/-- `d1_envelope_member_count`: a control or repair operation answers once for the whole of it. -/
def Envelope.memberCount {H : Type} (env : Envelope H) : Nat :=
  match env.body with
  | .writeBatch w => w.entries.length
  | .finalizeBatch l => l.entries.length
  | .commitBatch l => l.entries.length
  | .rollbackBatch r => r.entries.length
  | .repair _ _ => 1
  | .recoveryAdmit _ => 1
  | .leaseReap _ => 1
  | .unknown _ => 0

section Map

variable {H K : Type} (f : HandleKind → H → K)

def LifecycleEntry.map (e : LifecycleEntry H) : LifecycleEntry K :=
  { e with txn := f .txn e.txn, predecessor := e.predecessor.map (f .version) }

def RollbackEntry.map (e : RollbackEntry H) : RollbackEntry K :=
  { e with
    txn := f .txn e.txn
    visible := e.visible.map (f .version)
    predecessor := e.predecessor.map (f .version)
    custody := e.custody.map (f .custody) }

def RepairEntry.map (e : RepairEntry H) : RepairEntry K :=
  { e with
    txn := e.txn.map (f .txn)
    custody := e.custody.map (f .custody)
    postcond := e.postcond.map (f .postcond)
    successor := e.successor.map (f .version)
    predecessor := e.predecessor.map (f .version) }

def LifecycleBatch.map (l : LifecycleBatch H) : LifecycleBatch K :=
  { l with entries := l.entries.map (·.map f) }

def Body.map : Body H → Body K
  | writeBatch w => .writeBatch w
  | finalizeBatch l => .finalizeBatch (l.map f)
  | commitBatch l => .commitBatch (l.map f)
  | rollbackBatch r => .rollbackBatch { r with entries := r.entries.map (·.map f) }
  | repair op r => .repair op { r with
      entries := r.entries.map (·.map f)
      cohort := r.cohort.map (f .repair)
      episode := r.episode.map (f .episode) }
  | recoveryAdmit k => .recoveryAdmit { k with
      txns := k.txns.map (f .txn)
      oldAdmission := f .admission k.oldAdmission
      newAdmission := k.newAdmission.map (f .admission) }
  | leaseReap k => .leaseReap { k with
      txns := k.txns.map (f .txn)
      oldAdmission := f .admission k.oldAdmission
      newAdmission := k.newAdmission.map (f .admission) }
  | unknown op => .unknown op

/-- Rename every handle; `f` sees which table the handle's place names. -/
def Envelope.map (env : Envelope H) : Envelope K :=
  { env with admission := f .admission env.admission, body := env.body.map f }

end Map

lemma Body.map_map {H K L : Type} (f : HandleKind → H → K) (g : HandleKind → K → L) (b : Body H) :
    (b.map f).map g = b.map fun kind x => g kind (f kind x) := by
  cases b <;> simp [Body.map, LifecycleBatch.map, LifecycleEntry.map, RollbackEntry.map,
    RepairEntry.map, Function.comp_def]

lemma Body.map_id {H : Type} (b : Body H) : (b.map fun _ x => x) = b := by
  cases b <;> simp [Body.map, LifecycleBatch.map, LifecycleEntry.map, RollbackEntry.map,
    RepairEntry.map]

lemma Envelope.map_map {H K L : Type} (f : HandleKind → H → K) (g : HandleKind → K → L)
    (env : Envelope H) : (env.map f).map g = env.map fun kind x => g kind (f kind x) := by
  unfold Envelope.map
  dsimp only
  rw [Body.map_map]

lemma Envelope.map_id {H : Type} (env : Envelope H) : (env.map fun _ x => x) = env := by
  unfold Envelope.map
  rw [Body.map_id]

/-- The canonical value of a caller's envelope: the numbers of its handles. -/
def Envelope.raw (env : Envelope Handle) : Envelope UInt64 := env.map fun _ h => h.raw

/-! ## Which envelopes the canonical form can express -/

def countOk (count : Nat) : Bool := batchEntriesMin ≤ count && count ≤ batchEntriesMax

lemma countOk_iff {n : Nat} : countOk n ↔ 0 < n ∧ n ≤ batchEntriesMax := by
  unfold countOk
  rw [and_eq_true, decide_eq_true_eq, decide_eq_true_eq]
  rfl

def stabilityOk (stability : UInt32) : Bool :=
  stability == unstable || stability == dataSync || stability == fileSync

def checksumShapeOk (s : Checksum) : Bool :=
  (s.alg == cksumCrc32 || s.alg == cksumCrc32c) && s.len == 4

def writerOk (writer : UInt32) : Bool :=
  writer != writerReservedLow && writer != writerReservedHigh

def ownerOk (o : Owner) : Bool := o.cohort != 0 && writerOk o.writer

def payloadOk (payload : Bytes) : Bool :=
  chunkBytesMin ≤ payload.length && payload.length ≤ chunkBytesMax

def phaseOk (phase : UInt32) : Bool :=
  [Phase.admitted, .prepared, .finalized, .committed, .aborted, .rolledBack].any (·.code == phase)

/-- An option that is present names something. -/
def optLive : Option UInt64 → Bool
  | none => true
  | some raw => raw != 0

def validateWrite (w : WriteBatch) : Bool :=
  countOk w.entries.length && stabilityOk w.stability &&
    w.entries.all (fun e => payloadOk e.payload && checksumShapeOk e.checksum && ownerOk e.owner) &&
    decide ((w.entries.map (·.payload.length)).sum ≤ batchPayloadMax) &&
    decide (w.entries.map (·.index)).Nodup

def validateLifecycle (l : LifecycleBatch UInt64) : Bool :=
  countOk l.entries.length && decide (l.rangeBegin < l.rangeEnd) &&
    l.entries.all (fun e => decide (l.rangeBegin ≤ e.index) && decide (e.index < l.rangeEnd) &&
      e.txn != 0 && ownerOk e.owner && optLive e.predecessor) &&
    decide (l.entries.map (·.index)).Nodup && decide (l.entries.map (·.txn)).Nodup

def validateRollback (r : RollbackBatch UInt64) : Bool :=
  countOk r.entries.length && decide (r.rangeBegin < r.rangeEnd) &&
    r.entries.all (fun e => decide (r.rangeBegin ≤ e.index) && decide (e.index < r.rangeEnd) &&
      e.txn != 0 && ownerOk e.owner && optLive e.visible && optLive e.predecessor &&
      optLive e.custody) &&
    decide (r.entries.map (·.index)).Nodup && decide (r.entries.map (·.txn)).Nodup

/-- `recovery` tells `recovery_admit` from `lease_reap`. -/
def validateControl (recovery : Bool) (k : ControlBatch UInt64) : Bool :=
  countOk k.txns.length && k.oldAdmission != 0 && k.txns.all (· != 0) && decide k.txns.Nodup &&
    if recovery then
      k.newAdmission.any (fun new => new != 0 && new != k.oldAdmission) && k.readEpoch.isSome
    else k.newAdmission.isNone && k.readEpoch.isNone

/-- The members of one repair operation: which options it wants is decided by the operation. -/
def validateRepairEntry (op : RepairOp) (r : RepairBatch UInt64) (e : RepairEntry UInt64) : Bool :=
  let wantsMode := op == .beginRepair
  let wantsCustody := op != .prepareRepair
  let wantsTxn := op == .prepareRepair || op == .finalizeRepair || op == .commitRepair
  let wantsState := op == .markError || op == .beginRepair
  let wantsPredecessor := op == .finalizeRepair || op == .commitRepair
  let wantsPayload := op == .prepareRepair
  decide (r.rangeBegin ≤ e.index) && decide (e.index < r.rangeEnd) && ownerOk e.owner &&
    (if wantsMode then e.mode == repairError || e.mode == repairNopre else e.mode == 0) &&
    e.custody.isSome == wantsCustody && optLive e.custody &&
    e.txn.isSome == wantsTxn && optLive e.txn &&
    e.postcond.isSome == (wantsMode && e.mode == repairNopre) && optLive e.postcond &&
    e.successor.isSome == wantsState && optLive e.successor &&
    (if wantsPredecessor then e.predecessor.isSome
      else wantsState || e.predecessor.isNone) && optLive e.predecessor &&
    e.payload.isSome == wantsPayload &&
    e.payload.all (fun p => payloadOk p.payload && checksumShapeOk p.checksum)

/-- No aggregate payload limit is asked here, unlike in `decRepair`. -/
def validateRepair (op : RepairOp) (r : RepairBatch UInt64) : Bool :=
  let wantsCohort := op != .markError && op != .beginRepair
  let wantsEpisode := op == .clearError ||
    (op == .beginRepair && r.entries.any (·.mode == repairError))
  let wantsVerifier := op == .finalizeRepair || op == .commitRepair
  countOk r.entries.length && decide (r.rangeBegin < r.rangeEnd) &&
    (if op == .unlock then r.cohort.isSome != r.episode.isSome
      else r.cohort.isSome == wantsCohort && r.episode.isSome == wantsEpisode) &&
    optLive r.cohort && optLive r.episode &&
    r.certificate.isSome == (op == .clearError) &&
    r.phase.isSome == (op == .abortRepair) && r.phase.all phaseOk &&
    r.priorVerifier.isSome == wantsVerifier &&
    r.entries.all (validateRepairEntry op r) &&
    decide (r.entries.map (·.index)).Nodup

def envelopeValidate (env : Envelope UInt64) : Bool :=
  match env.body with
  | .writeBatch w => validateWrite w
  | .finalizeBatch l => validateLifecycle l
  | .commitBatch l => validateLifecycle l
  | .rollbackBatch r => validateRollback r
  | .recoveryAdmit k => validateControl true k
  | .leaseReap k => validateControl false k
  | .repair op r => validateRepair op r
  | .unknown _ => false

variable {env : Envelope UInt64} {bs : Bytes} {α : Type} {l : List α}

lemma validateRepair_of_envelope {op : RepairOp} {rb : RepairBatch UInt64}
    (h : envelopeValidate env) (body : env.body = .repair op rb) : validateRepair op rb := by
  unfold envelopeValidate at h
  rwa [body] at h

lemma memberCount_ok (h : envelopeValidate env) :
    0 < env.memberCount ∧ env.memberCount ≤ batchEntriesMax := by
  unfold envelopeValidate at h
  unfold Envelope.memberCount
  split at h <;> rename_i hbody <;> rw [hbody]
  · unfold validateWrite at h
    simp only [and_eq_true] at h
    exact countOk_iff.mp h.1.1.1.1
  · unfold validateLifecycle at h
    simp only [and_eq_true] at h
    exact countOk_iff.mp h.1.1.1.1
  · unfold validateLifecycle at h
    simp only [and_eq_true] at h
    exact countOk_iff.mp h.1.1.1.1
  · unfold validateRollback at h
    simp only [and_eq_true] at h
    exact countOk_iff.mp h.1.1.1.1
  · exact ⟨Nat.one_pos, (by decide : 1 ≤ batchEntriesMax)⟩
  · exact ⟨Nat.one_pos, (by decide : 1 ≤ batchEntriesMax)⟩
  · exact ⟨Nat.one_pos, (by decide : 1 ≤ batchEntriesMax)⟩
  · cases h

/-! ## The canonical form -/

def encCount {α : Type} (l : List α) : Bytes := encU32 (UInt32.ofNat l.length)

def encWriteEntry (e : WriteEntry) : Bytes :=
  encU64 e.index ++ encU32 e.payloadId ++ encOwner e.owner ++ encOpt encGuard e.expected ++
    encBytes e.payload ++ encChecksum e.checksum

def encWrite (w : WriteBatch) : Bytes :=
  encCount w.entries ++ w.entries.flatMap encWriteEntry ++ encU32 w.stability ++
    encBool w.activate

def encLifecycleEntry (e : LifecycleEntry UInt64) : Bytes :=
  encU64 e.index ++ encOwner e.owner ++ encU64 e.txn ++ encOptU64 e.predecessor

def encLifecycle (l : LifecycleBatch UInt64) : Bytes :=
  encU64 l.rangeBegin ++ encU64 l.rangeEnd ++ encCount l.entries ++
    l.entries.flatMap encLifecycleEntry ++ encRaw l.priorVerifier

def encRollbackEntry (e : RollbackEntry UInt64) : Bytes :=
  encU64 e.index ++ encOwner e.owner ++ encU64 e.txn ++ encOptU64 e.visible ++
    encOptU64 e.predecessor ++ encOptU64 e.custody

def encRollback (r : RollbackBatch UInt64) : Bytes :=
  encU64 r.rangeBegin ++ encU64 r.rangeEnd ++ encCount r.entries ++
    r.entries.flatMap encRollbackEntry

def encRepairPayload (p : RepairPayload) : Bytes := encBytes p.payload ++ encChecksum p.checksum

def encRepairEntry (e : RepairEntry UInt64) : Bytes :=
  encU64 e.index ++ encU32 e.mode ++ encOwner e.owner ++ encOptU64 e.txn ++ encOptU64 e.custody ++
    encOptU64 e.postcond ++ encOptU64 e.successor ++ encOptU64 e.predecessor ++
    encOpt encRepairPayload e.payload

def encRepair (r : RepairBatch UInt64) : Bytes :=
  encU64 r.rangeBegin ++ encU64 r.rangeEnd ++ encCount r.entries ++
    r.entries.flatMap encRepairEntry ++ encOptU64 r.cohort ++ encOptU64 r.episode ++
    encOptU32 r.phase ++ encOpt encRaw r.priorVerifier ++ encOpt encRaw r.certificate

def encControl (k : ControlBatch UInt64) : Bytes :=
  encCount k.txns ++ k.txns.flatMap encU64 ++ encU64 k.oldAdmission ++
    encOptU64 k.newAdmission ++ encOptU64 k.readEpoch

def encBody : Body UInt64 → Bytes
  | .writeBatch w => encU32 Op.writeBatch.code ++ encWrite w
  | .finalizeBatch l => encU32 Op.finalizeBatch.code ++ encLifecycle l
  | .commitBatch l => encU32 Op.commitBatch.code ++ encLifecycle l
  | .rollbackBatch r => encU32 Op.rollbackBatch.code ++ encRollback r
  | .repair op r => encU32 op.code ++ encRepair r
  | .recoveryAdmit k => encU32 Op.recoveryAdmit.code ++ encControl k
  | .leaseReap k => encU32 Op.leaseReap.code ++ encControl k
  | .unknown op => encU32 op

def encEnvelope (env : Envelope UInt64) : Bytes :=
  encObjKey env.object ++ encU64 env.admission ++ encU64 env.incarnation ++ encOpKey env.key ++
    encBody env.body

def envelopeMax : Nat := batchPayloadMax + 65536

/-- `d1_envelope_encode`; `none` for an envelope the form cannot express or that does not fit. -/
def envelopeEncode (env : Envelope UInt64) (cap : Nat) : Option Bytes :=
  if envelopeValidate env && decide ((encEnvelope env).length ≤ cap) then some (encEnvelope env)
  else none

lemma envelopeEncode_valid {cap : Nat}
    (h : envelopeEncode env cap = some bs) : envelopeValidate env := by
  unfold envelopeEncode at h
  split at h
  · next hok => exact (and_eq_true_iff.mp hok).1
  · cases h

def envelopeDigest (env : Envelope UInt64) (cap : Nat) : Option Digest :=
  (envelopeEncode env cap).map requestDigest

/-! ## Reading it back -/

def decCount : Dec Nat := do
  let count ← decU32
  Dec.require (countOk count.toNat)
  pure count.toNat

/-- `k` entries whose payloads, added up in `aggregate`, stay within the batch limit. -/
def decBounded {α : Type} (d : Dec α) (payloadLen : α → Nat) : Nat → Nat → Dec (List α)
  | 0, _ => pure []
  | k + 1, aggregate => do
    let e ← d
    Dec.require (aggregate + payloadLen e ≤ batchPayloadMax)
    let es ← decBounded d payloadLen k (aggregate + payloadLen e)
    pure (e :: es)

def decWriteEntry : Dec WriteEntry := do
  let index ← decU64
  let payloadId ← decU32
  let owner ← decOwner
  let expected ← decOpt decGuard
  let payload ← decBytesRef chunkBytesMax
  let checksum ← decChecksum
  pure { index, payloadId, owner, expected, payload, checksum }

def decWrite : Dec WriteBatch := do
  let count ← decCount
  let entries ← decBounded decWriteEntry (·.payload.length) count 0
  let stability ← decU32
  let activate ← decBool
  Dec.require (unstable ≤ stability ∧ stability ≤ fileSync)
  pure { entries, stability, activate }

def decLifecycleEntry : Dec (LifecycleEntry UInt64) := do
  let index ← decU64
  let owner ← decOwner
  let txn ← decU64
  let predecessor ← decOptU64
  pure { index, owner, txn, predecessor }

def decLifecycle : Dec (LifecycleBatch UInt64) := do
  let rangeBegin ← decU64
  let rangeEnd ← decU64
  let count ← decCount
  let entries ← Dec.many decLifecycleEntry count
  let priorVerifier ← decRaw 8
  pure { rangeBegin, rangeEnd, entries, priorVerifier }

def decRollbackEntry : Dec (RollbackEntry UInt64) := do
  let index ← decU64
  let owner ← decOwner
  let txn ← decU64
  let visible ← decOptU64
  let predecessor ← decOptU64
  let custody ← decOptU64
  pure { index, owner, txn, visible, predecessor, custody }

def decRollback : Dec (RollbackBatch UInt64) := do
  let rangeBegin ← decU64
  let rangeEnd ← decU64
  let count ← decCount
  let entries ← Dec.many decRollbackEntry count
  pure { rangeBegin, rangeEnd, entries }

def decRepairPayload : Dec RepairPayload := do
  let payload ← decBytesRef chunkBytesMax
  let checksum ← decChecksum
  pure { payload, checksum }

def decRepairEntry : Dec (RepairEntry UInt64) := do
  let index ← decU64
  let mode ← decU32
  let owner ← decOwner
  let txn ← decOptU64
  let custody ← decOptU64
  let postcond ← decOptU64
  let successor ← decOptU64
  let predecessor ← decOptU64
  let payload ← decOpt decRepairPayload
  pure { index, mode, owner, txn, custody, postcond, successor, predecessor, payload }

def RepairEntry.payloadLen {H : Type} (e : RepairEntry H) : Nat :=
  (e.payload.map (·.payload.length)).getD 0

def decRepair : Dec (RepairBatch UInt64) := do
  let rangeBegin ← decU64
  let rangeEnd ← decU64
  let count ← decCount
  let entries ← decBounded decRepairEntry RepairEntry.payloadLen count 0
  let cohort ← decOptU64
  let episode ← decOptU64
  let phase ← decOptU32
  let priorVerifier ← decOpt (decRaw 8)
  let certificate ← decOpt (decRaw 32)
  pure { rangeBegin, rangeEnd, entries, cohort, episode, phase, priorVerifier, certificate }

def decControl : Dec (ControlBatch UInt64) := do
  let count ← decCount
  let txns ← Dec.many decU64 count
  let oldAdmission ← decU64
  let newAdmission ← decOptU64
  let readEpoch ← decOptU64
  pure { txns, oldAdmission, newAdmission, readEpoch }

def decBody : Dec (Body UInt64) := do
  let op ← decU32
  match Op.ofCode op with
  | some .writeBatch => do
    let w ← decWrite
    pure (.writeBatch w)
  | some .finalizeBatch => do
    let l ← decLifecycle
    pure (.finalizeBatch l)
  | some .commitBatch => do
    let l ← decLifecycle
    pure (.commitBatch l)
  | some .rollbackBatch => do
    let r ← decRollback
    pure (.rollbackBatch r)
  | some .recoveryAdmit => do
    let k ← decControl
    pure (.recoveryAdmit k)
  | some .leaseReap => do
    let k ← decControl
    pure (.leaseReap k)
  | some (.repair op) => do
    let r ← decRepair
    pure (.repair op r)
  | none => Dec.fail

def decEnvelope : Dec (Envelope UInt64) := do
  let object ← decObjKey
  let admission ← decU64
  let incarnation ← decU64
  let key ← decOpKey
  let body ← decBody
  pure { object, admission, incarnation, key, body }

/-- `d1_envelope_decode`: exactly one canonical encoding of one valid envelope. -/
def envelopeDecode (bs : Bytes) : Option (Envelope UInt64) :=
  (decEnvelope.whole bs).filter envelopeValidate

lemma envelopeDecode_validate (h : envelopeDecode bs = some env) : envelopeValidate env := by
  unfold envelopeDecode at h
  exact (Option.filter_eq_some_iff.mp h).2

/-! ## The round trip

`decRepair` limits the payloads of a batch together and `validateRepair` does not, so there are
repair envelopes whose encoding does not decode. An encoding that decodes decodes to what was
encoded, and it does decode when the payloads stay within the limit. -/

lemma reads_count (h : countOk l.length) : Reads decCount (encCount l) l.length := by
  have hn : (UInt32.ofNat l.length).toNat = l.length := by
    unfold countOk at h
    rw [and_eq_true, decide_eq_true_eq, decide_eq_true_eq] at h
    exact UInt32_ofNat_toNat (h.2.trans_lt (by decide))
  refine (reads_u32 _).checked ?_
  rw [hn]
  exact Reads.require h (Reads.pure _)

lemma reads_bounded {d : Dec α} {e : α → Bytes} {len : α → Nat}
    (h : ∀ a ∈ l, Reads d (e a) a) {aggregate : Nat}
    (hsum : aggregate + (l.map len).sum ≤ batchPayloadMax) :
    Reads (decBounded d len l.length aggregate) (l.flatMap e) l := by
  induction l generalizing aggregate with
  | nil => exact Reads.pure []
  | cons a l ih =>
    rw [map_cons, sum_cons] at hsum
    have hl := ih (fun b hb => h b (mem_cons_of_mem _ hb))
      (show aggregate + len a + (l.map len).sum ≤ batchPayloadMax by omega)
    exact (h a mem_cons_self).bind
      (.require (decide_eq_true (by omega)) (hl.last rfl))

lemma yields_bounded {d : Dec α} {e : α → Bytes} {len : α → Nat}
    (h : ∀ a ∈ l, Yields d (e a) a) (aggregate : Nat) :
    Yields (decBounded d len l.length aggregate) (l.flatMap e) l := by
  induction l generalizing aggregate with
  | nil => exact (Reads.pure []).yields
  | cons a l ih =>
    have hl := ih (fun b hb => h b (mem_cons_of_mem _ hb)) (aggregate + len a)
    exact (h a mem_cons_self).bind (.require (hl.last rfl))

lemma reads_payload {payload : Bytes} (h : payloadOk payload) :
    Reads (decBytesRef chunkBytesMax) (encBytes payload) payload := by
  unfold payloadOk at h
  rw [and_eq_true, decide_eq_true_eq, decide_eq_true_eq] at h
  exact reads_bytes h.2 (h.2.trans_lt (by decide))

lemma checksumShape_len {s : Checksum} (h : checksumShapeOk s) : s.len = 4 := by
  unfold checksumShapeOk at h
  rw [and_eq_true, beq_iff_eq] at h
  exact h.2

lemma reads_writeEntry {e : WriteEntry} (h : payloadOk e.payload ∧ checksumShapeOk e.checksum) :
    Reads decWriteEntry (encWriteEntry e) e := by
  simp only [encWriteEntry, append_assoc]
  exact .field <| .field <| .field <|
    .field <| (reads_payload h.1).bind <|
    (reads_checksum (checksumShape_len h.2)).last rfl

lemma stabilityOk_range {stability : UInt32} (h : stabilityOk stability) :
    unstable ≤ stability ∧ stability ≤ fileSync := by
  unfold stabilityOk at h
  simp only [or_eq_true, beq_iff_eq] at h
  rcases h with (rfl | rfl) | rfl <;> decide

lemma reads_write {w : WriteBatch} (h : validateWrite w) : Reads decWrite (encWrite w) w := by
  unfold validateWrite at h
  simp only [and_eq_true, all_eq_true, decide_eq_true_eq] at h
  obtain ⟨⟨⟨⟨hcount, hstable⟩, hentries⟩, hsum⟩, -⟩ := h
  simp only [encWrite, append_assoc]
  refine (reads_count hcount).bind <|
    (reads_bounded (fun e he => reads_writeEntry (hentries e he).1) (by omega)).bind <|
    .field <| (reads_bool _).checked ?_
  exact Reads.require (decide_eq_true (stabilityOk_range hstable)) (Reads.pure _)

lemma reads_lifecycleEntry (e : LifecycleEntry UInt64) :
    Reads decLifecycleEntry (encLifecycleEntry e) e := by
  simp only [encLifecycleEntry, append_assoc]
  exact .field <| .field <| .field <| (Codec.reads _).last rfl

lemma reads_lifecycle {l : LifecycleBatch UInt64} (h : validateLifecycle l) :
    Reads decLifecycle (encLifecycle l) l := by
  unfold validateLifecycle at h
  simp only [and_eq_true] at h
  obtain ⟨⟨⟨⟨hcount, -⟩, -⟩, -⟩, -⟩ := h
  simp only [encLifecycle, append_assoc]
  exact .field <| .field <| (reads_count hcount).bind <|
    (Reads.many fun e _ => reads_lifecycleEntry e).bind <| (reads_raw _).last rfl

lemma reads_rollbackEntry (e : RollbackEntry UInt64) :
    Reads decRollbackEntry (encRollbackEntry e) e := by
  simp only [encRollbackEntry, append_assoc]
  exact .field <| .field <| .field <|
    .field <| .field <| (Codec.reads _).last rfl

lemma reads_rollback {r : RollbackBatch UInt64} (h : validateRollback r) :
    Reads decRollback (encRollback r) r := by
  unfold validateRollback at h
  simp only [and_eq_true] at h
  obtain ⟨⟨⟨⟨hcount, -⟩, -⟩, -⟩, -⟩ := h
  simp only [encRollback, append_assoc]
  exact .field <| .field <| (reads_count hcount).bind <|
    (Reads.many fun e _ => reads_rollbackEntry e).last rfl

lemma reads_control {recovery : Bool} {k : ControlBatch UInt64}
    (h : validateControl recovery k) : Reads decControl (encControl k) k := by
  unfold validateControl at h
  simp only [and_eq_true] at h
  obtain ⟨⟨⟨⟨hcount, -⟩, -⟩, -⟩, -⟩ := h
  simp only [encControl, append_assoc]
  exact (reads_count hcount).bind <| (Reads.many fun v _ => reads_u64 v).bind <|
    .field <| .field <| (Codec.reads _).last rfl

lemma reads_repairEntry {e : RepairEntry UInt64}
    (h : ∀ p, e.payload = some p → payloadOk p.payload ∧ checksumShapeOk p.checksum) :
    Reads decRepairEntry (encRepairEntry e) e := by
  have hpayload : ∀ p, e.payload = some p → Reads decRepairPayload (encRepairPayload p) p := by
    intro p hp
    exact (reads_payload (h p hp).1).bind ((reads_checksum (checksumShape_len (h p hp).2)).last rfl)
  simp only [encRepairEntry, append_assoc]
  exact .field <| .field <| .field <| .field <|
    .field <| .field <| .field <|
    .field <| (reads_opt hpayload).last rfl

section Repair

variable {op : RepairOp} {r : RepairBatch UInt64}

lemma validateRepair_reads (h : validateRepair op r) : countOk r.entries.length ∧
      ∀ e ∈ r.entries, Reads decRepairEntry (encRepairEntry e) e := by
  unfold validateRepair at h
  simp only [and_eq_true, all_eq_true] at h
  obtain ⟨⟨⟨⟨⟨⟨⟨⟨⟨⟨hcount, -⟩, -⟩, -⟩, -⟩, -⟩, -⟩, -⟩, -⟩, hentries⟩, -⟩ := h
  refine ⟨hcount, fun e he => reads_repairEntry fun p hp => ?_⟩
  have hpayload := hentries e he
  unfold validateRepairEntry at hpayload
  simp only [and_eq_true] at hpayload
  have := hpayload.2
  rw [hp, Option.all_some, and_eq_true] at this
  exact this

lemma reads_repair (h : validateRepair op r)
    (hsum : (r.entries.map RepairEntry.payloadLen).sum ≤ batchPayloadMax) :
    Reads decRepair (encRepair r) r := by
  obtain ⟨hcount, hread⟩ := validateRepair_reads h
  simp only [encRepair, append_assoc]
  exact .field <| .field <| (reads_count hcount).bind <|
    (reads_bounded hread (by omega)).bind <| .field <| .field <|
    .field <| .field <|
    (Codec.reads _).last rfl

lemma yields_repair (h : validateRepair op r) : Yields decRepair (encRepair r) r := by
  obtain ⟨hcount, hread⟩ := validateRepair_reads h
  simp only [encRepair, append_assoc]
  exact (reads_u64 _).yields.bind <| (reads_u64 _).yields.bind <|
    (reads_count hcount).yields.bind <|
    (yields_bounded (fun e he => (hread e he).yields) 0).bind <| (Codec.reads _).yields.bind <|
    (Codec.reads _).yields.bind <| (Codec.reads _).yields.bind <|
    (reads_opt fun v _ => reads_raw v).yields.bind <|
    (reads_opt fun v _ => reads_raw v).yields.last rfl

end Repair

def Envelope.payloadBytes {H : Type} (env : Envelope H) : Nat :=
  match env.body with
  | .writeBatch w => (w.entries.map (·.payload.length)).sum
  | .repair _ r => (r.entries.map RepairEntry.payloadLen).sum
  | _ => 0

section

variable (h : envelopeValidate env = true)

include h

lemma reads_body (hsum : env.payloadBytes ≤ batchPayloadMax) :
    Reads decBody (encBody env.body) env.body := by
  unfold envelopeValidate at h
  unfold Envelope.payloadBytes at hsum
  cases hbody : env.body with
  | writeBatch w =>
    rw [hbody] at h
    exact .field ((reads_write h).last rfl)
  | finalizeBatch l | commitBatch l =>
    rw [hbody] at h
    exact .field ((reads_lifecycle h).last rfl)
  | rollbackBatch r =>
    rw [hbody] at h
    exact .field ((reads_rollback h).last rfl)
  | repair op r =>
    rw [hbody] at h hsum
    refine .field ?_
    cases op <;> exact (reads_repair h hsum).last rfl
  | recoveryAdmit k | leaseReap k =>
    rw [hbody] at h
    exact .field ((reads_control h).last rfl)
  | unknown op =>
    rw [hbody] at h
    cases h

lemma payloadBytes_le_of_not_repair
    (hno : ∀ op r, env.body ≠ .repair op r) : env.payloadBytes ≤ batchPayloadMax := by
  unfold envelopeValidate at h
  unfold Envelope.payloadBytes
  cases hbody : env.body with
  | writeBatch w =>
    rw [hbody] at h
    dsimp only at h
    unfold validateWrite at h
    simp only [and_eq_true, decide_eq_true_eq] at h
    exact h.1.2
  | repair op r => exact absurd hbody (hno op r)
  | _ => exact Nat.zero_le _

lemma yields_body : Yields decBody (encBody env.body) env.body := by
  by_cases hrep : ∃ op r, env.body = .repair op r
  · obtain ⟨op, r, hbody⟩ := hrep
    unfold envelopeValidate at h
    rw [hbody] at h ⊢
    refine (reads_u32 _).yields.bind ?_
    cases op <;> exact (yields_repair h).last rfl
  · refine (reads_body h (payloadBytes_le_of_not_repair h fun op r hbody => ?_)).yields
    exact hrep ⟨op, r, hbody⟩

end

theorem envelopeDecode_encode {env' : Envelope UInt64} {cap : Nat}
    (h : envelopeEncode env cap = some bs) (h' : envelopeDecode bs = some env') : env' = env := by
  unfold envelopeEncode at h
  split at h
  · next hok =>
    cases h
    rw [and_eq_true] at hok
    have hyields : Yields decEnvelope (encEnvelope env) env := by
      simp only [encEnvelope, append_assoc]
      exact (Codec.reads _).yields.bind <| (reads_u64 _).yields.bind <|
        (reads_u64 _).yields.bind <| (Codec.reads _).yields.bind <| (yields_body hok.1).last rfl
    exact hyields.whole (Option.filter_eq_some_iff.mp h').1
  · cases h

end Reffs.D1
