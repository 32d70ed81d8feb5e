import Reffs.Lib.Bytes

/-!
# The D1 storage model: shared types

The enumerations, handles and small records of `d1_types.h`, and the answer records of `d1_store.h`.
A status, a phase or an operation the store itself produces is an inductive type with its wire
number as `code`; a number that a caller or a journal may fill with anything stays a machine word.
-/

namespace Reffs.D1

open ByteCodec

/-! ## Limits -/

def chunkBytesMin : Nat := 1
def chunkBytesMax : Nat := 1048576
def batchEntriesMin : Nat := 1
def batchEntriesMax : Nat := 16
def batchPayloadMax : Nat := 4 * 1024 * 1024
def journalRecordMax : Nat := 8 * 1024 * 1024

abbrev maxObjects : Nat := 4
abbrev maxChunks : Nat := 64
abbrev maxTxns : Nat := 256
abbrev maxVersions : Nat := 256
abbrev maxReceipts : Nat := 256
abbrev maxAdmissions : Nat := 32
abbrev maxOwners : Nat := 256
abbrev maxCustody : Nat := 32
abbrev maxRepairs : Nat := 8
abbrev maxPostconds : Nat := 32
abbrev maxEpisodes : Nat := 16
abbrev maxViews : Nat := 32

/-! ## Enumerations -/

inductive Status where
  | ok | invalid | guarded | ownerConflict | staleAuth | badPhase | noPredecessor
  | quarantined | checksum | nospc | io | replayConflict | unsupported | busy
  deriving DecidableEq, Repr

def Status.code : Status → UInt32
  | ok => 1
  | invalid => 2
  | guarded => 3
  | ownerConflict => 4
  | staleAuth => 5
  | badPhase => 6
  | noPredecessor => 7
  | quarantined => 8
  | checksum => 9
  | nospc => 10
  | io => 11
  | replayConflict => 12
  | unsupported => 13
  | busy => 14

lemma Status.code_injective : Function.Injective Status.code := by
  intro a b h
  cases a <;> cases b <;> first | rfl | (revert h; decide)

inductive Disposition where
  | completed | unrecorded
  deriving DecidableEq, Repr

def Disposition.code : Disposition → UInt32
  | completed => 1
  | unrecorded => 2

inductive Phase where
  | admitted | prepared | finalized | committed | aborted | rolledBack
  deriving DecidableEq, Repr

def Phase.code : Phase → UInt32
  | admitted => 1
  | prepared => 2
  | finalized => 3
  | committed => 4
  | aborted => 5
  | rolledBack => 6

inductive Mode where
  | ordinary | repair
  deriving DecidableEq, Repr

/-- `D1_UNSTABLE`, `D1_DATA_SYNC` and `D1_FILE_SYNC`, as the wire spells them. -/
def unstable : UInt32 := 1
def dataSync : UInt32 := 2
def fileSync : UInt32 := 3

def cksumCrc32 : UInt32 := 1
def cksumCrc32c : UInt32 := 2

def repairError : UInt32 := 1
def repairNopre : UInt32 := 2

def writerReservedLow : UInt32 := 0
def writerReservedHigh : UInt32 := 0xffffffff

def rightRead : UInt32 := 0x01
def rightWrite : UInt32 := 0x02
def rightRepair : UInt32 := 0x04
def rightControl : UInt32 := 0x08
def rightSingleWriter : UInt32 := 0x10

inductive RecordType where
  | start | control | entry | cohort
  deriving DecidableEq, Repr

def RecordType.code : RecordType → UInt16
  | start => 1
  | control => 2
  | entry => 3
  | cohort => 4

/-- The eight operations that share the repair batch. -/
inductive RepairOp where
  | markError | beginRepair | prepareRepair | finalizeRepair | commitRepair | abortRepair
  | clearError | unlock
  deriving DecidableEq, Repr

inductive Op where
  | writeBatch | finalizeBatch | commitBatch | rollbackBatch
  | repair (op : RepairOp)
  | recoveryAdmit | leaseReap
  deriving DecidableEq, Repr

def RepairOp.code : RepairOp → UInt32
  | markError => 5
  | beginRepair => 6
  | prepareRepair => 7
  | finalizeRepair => 8
  | commitRepair => 9
  | abortRepair => 10
  | clearError => 11
  | unlock => 12

def Op.code : Op → UInt32
  | writeBatch => 1
  | finalizeBatch => 2
  | commitBatch => 3
  | rollbackBatch => 4
  | repair op => op.code
  | recoveryAdmit => 13
  | leaseReap => 14

/-- `d1_op_known`, with the operation it names. -/
def Op.ofCode (code : UInt32) : Option Op :=
  if code = 1 then some .writeBatch
  else if code = 2 then some .finalizeBatch
  else if code = 3 then some .commitBatch
  else if code = 4 then some .rollbackBatch
  else if code = 5 then some (.repair .markError)
  else if code = 6 then some (.repair .beginRepair)
  else if code = 7 then some (.repair .prepareRepair)
  else if code = 8 then some (.repair .finalizeRepair)
  else if code = 9 then some (.repair .commitRepair)
  else if code = 10 then some (.repair .abortRepair)
  else if code = 11 then some (.repair .clearError)
  else if code = 12 then some (.repair .unlock)
  else if code = 13 then some .recoveryAdmit
  else if code = 14 then some .leaseReap
  else none

@[simp] lemma Op.ofCode_code (op : Op) : Op.ofCode op.code = some op := by
  cases op with
  | repair op => cases op <;> rfl
  | _ => rfl

/-! ## Handles -/

abbrev Uuid := FixedBytes 16
abbrev Verifier := FixedBytes 8
abbrev Digest := FixedBytes 32
abbrev Certificate := FixedBytes 32

inductive HandleKind where
  | none | admission | txn | version | custody | repair | postcond | episode
  deriving DecidableEq, Repr

/-- A handle: the number a table row carries, the table it may name, and the live store object that
issued it. -/
structure Handle where
  raw : UInt64
  kind : HandleKind
  instance_ : UInt64
  deriving DecidableEq, Repr

def Handle.absent : Handle := ⟨0, .none, 0⟩

/-! ## Small records -/

structure Guard where
  generation : UInt32
  writer : UInt32
  neverWritten : Bool
  deriving DecidableEq, Repr

structure Owner where
  cohort : UInt64
  writer : UInt32
  coId : UInt32
  deriving DecidableEq, Repr

structure OpKey where
  origin : Uuid
  sequence : UInt64
  ordinal : UInt32
  deriving DecidableEq, Repr

structure Checksum where
  alg : UInt32
  len : UInt32
  digest : FixedBytes 4
  deriving DecidableEq, Repr

structure ObjKey where
  exportUuid : Uuid
  objectUuid : Uuid
  deriving DecidableEq, Repr

/-! ## Answers -/

structure EntryResult where
  status : UInt32
  version : Option UInt64
  txn : Option UInt64
  cohort : Option UInt64
  memberTxn : List UInt64
  postcond : Option UInt64
  episode : Option UInt64
  member : Option UInt32
  guard : Guard
  owner : Owner
  stability : UInt32
  activated : Bool
  phase : UInt32
  verifier : Verifier
  disposition : UInt32
  deriving DecidableEq, Repr

def Guard.zero : Guard := ⟨0, 0, false⟩
def Owner.zero : Owner := ⟨0, 0, 0⟩

def EntryResult.zero : EntryResult where
  status := 0
  version := none
  txn := none
  cohort := none
  memberTxn := []
  postcond := none
  episode := none
  member := none
  guard := Guard.zero
  owner := Owner.zero
  stability := 0
  activated := false
  phase := 0
  verifier := zeros 8
  disposition := 0

/-- One recorded answer, complete enough to be given again: what a receipt keeps. -/
structure CompleteResult where
  key : OpKey
  indexEpoch : UInt64
  eof : UInt64
  disposition : UInt32
  entry : EntryResult
  deriving DecidableEq, Repr

structure Result where
  key : OpKey
  indexEpoch : UInt64
  eof : UInt64
  disposition : UInt32
  entries : List EntryResult
  deriving DecidableEq, Repr

end Reffs.D1
