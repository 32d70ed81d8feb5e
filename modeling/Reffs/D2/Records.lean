import Reffs.D1.Digest
import Reffs.Lib.Sealed

/-!
# The records of a store on disk

`d2_format.h` and the field lists of `d2_format.c`: the superblock, the header of a log record, the
bodies of START, CONTROL, ENTRY and COHORT records, and the payload object. A number that the format
fixes is a number here, since a decoder meets others as well. An array with a count beside it is a
list, and what lies beyond the count is no part of the value.
-/

namespace Reffs.D2

open ByteCodec ByteCodec.Dec
open Reffs.D1 (Uuid Digest crc32c sha256)

/-! ## Numbers of the format -/

abbrev formatVersion : UInt32 := 2
abbrev walHeaderBytes : Nat := 72
abbrev sbRecordBytes : Nat := 360
abbrev sbSlotBytes : Nat := 4096
abbrev payloadHeaderBytes : Nat := 136
abbrev payloadAlign : Nat := 4096
abbrev startRecordBytes : Nat := 197
abbrev controlPrefixBytes : Nat := 136
abbrev entryRecordBytes : Nat := 540
abbrev cohortPrefixBytes : Nat := 256
abbrev cohortMemberBytes : Nat := 244
abbrev maxControlBodyBytes : Nat := 3076
abbrev maxRecordBytes : Nat := 4236
abbrev maxHandleBytes : Nat := 128
abbrev maxChecksumBytes : Nat := 64
abbrev maxBatchEntries : Nat := 16
abbrev maxCountedEntries : Nat := 64
abbrev minWalBytes : Nat := 3352972
abbrev maxIncarnation : UInt64 := 0x00ffffff

abbrev sbMagic : UInt32 := 0x44325342
abbrev walMagic : UInt32 := 0x4432574c
abbrev payloadMagic : UInt32 := 0x44325059

/-- Record types, which are families in the log. -/
abbrev sbSlot : UInt16 := 1
abbrev payloadData : UInt16 := 1
abbrev recStart : UInt16 := 1
abbrev recControl : UInt16 := 2
abbrev recEntry : UInt16 := 3
abbrev recCohort : UInt16 := 4

def domainBytes (name : String) : Bytes := name.toList.map fun c => UInt8.ofNat c.toNat

def sbDomain : Bytes := domainBytes "FFV2-D2-SB-v1"
def walDomain : Bytes := domainBytes "FFV2-D2-WAL-v1"
def payDomain : Bytes := domainBytes "FFV2-D2-PAY-v1"

@[irreducible] def crc32cDomain (domain buf : Bytes) : UInt32 := crc32c (domain ++ buf)

@[irreducible] def hashDomain (domain buf : Bytes) : Digest := sha256 (domain ++ buf)

def fileKey (handle : Bytes) : Digest :=
  if maxHandleBytes < handle.length then zeros 32
  else hashDomain (domainBytes "FFV2-D2-FILEKEY-v1") (encU32 (UInt32.ofNat handle.length) ++ handle)

def operationKey (session : Uuid) (slot sequence ordinal : UInt32) : Digest :=
  hashDomain (domainBytes "FFV2-D2-OPKEY-v1")
    (encRaw session ++ encU32 slot ++ encU32 sequence ++ encU32 ordinal)

def isZero (bs : Bytes) : Bool := bs.all (· == 0)

/-! ## The common prologue -/

def encCommon (magic : UInt32) (type : UInt16) (headerBytes totalBytes : UInt32)
    (storeUuid : Uuid) : Bytes :=
  encU32 magic ++ encU16 formatVersion.toUInt16 ++ encU16 type ++ encU32 headerBytes ++
    encU32 totalBytes ++ encU32 (~~~totalBytes) ++ encRaw storeUuid

/-- An expected id that is not given matches all. -/
def equalOrUnspecified (got : Uuid) (expected : Option Uuid) : Bool :=
  expected.all fun e => e == got

def decCommon (magic : UInt32) (type : UInt16) (headerBytes totalBytes : UInt32)
    (expectedStore : Option Uuid) : Dec Uuid := do
  let gotMagic ← decU32
  let version ← decU16
  let gotType ← decU16
  let gotHeader ← decU32
  let gotTotal ← decU32
  let complement ← decU32
  let storeUuid ← decRaw 16
  Dec.require (gotMagic == magic && version == formatVersion.toUInt16 && gotType == type &&
    gotHeader == headerBytes && gotTotal == totalBytes && (gotTotal ^^^ complement) == 0xffffffff &&
    equalOrUnspecified storeUuid expectedStore)
  pure storeUuid

/-! ## The superblock -/

structure Superblock where
  storeUuid : Uuid
  generation : UInt64
  fsUuid : FixedBytes 16
  fsDevHint : UInt64
  rootHandleType : UInt16
  rootHandleLen : UInt16
  rootHandle : FixedBytes 128
  exportUuid : FixedBytes 16
  dsIncarnation : UInt64
  verifierEpoch : UInt64
  writeVerifier : FixedBytes 8
  walUuid : FixedBytes 16
  payloadUuid : FixedBytes 16
  bindingTokenDigest : FixedBytes 32
  walDurableLsn : UInt64
  walDurableBytes : UInt64
  payloadDurableBytes : UInt64
  capacityWalBytes : UInt64
  capacityPayloadBytes : UInt64
  state : UInt32
  formatFloor : UInt32
  deriving DecidableEq

/-- The body of a slot, after the prologue. The last word is reserved. -/
def encSuperblock (sb : Superblock) : Bytes :=
  encU64 sb.generation ++ encRaw sb.fsUuid ++ encU64 sb.fsDevHint ++ encU16 sb.rootHandleType ++
    encU16 sb.rootHandleLen ++ encRaw sb.rootHandle ++ encRaw sb.exportUuid ++
    encU64 sb.dsIncarnation ++ encU64 sb.verifierEpoch ++ encRaw sb.writeVerifier ++
    encRaw sb.walUuid ++ encRaw sb.payloadUuid ++ encRaw sb.bindingTokenDigest ++
    encU64 sb.walDurableLsn ++ encU64 sb.walDurableBytes ++ encU64 sb.payloadDurableBytes ++
    encU64 sb.capacityWalBytes ++ encU64 sb.capacityPayloadBytes ++ encU32 sb.state ++
    encU32 sb.formatFloor ++ encU32 0

def decSuperblock (storeUuid : Uuid) : Dec Superblock := do
  let generation ← decU64
  let fsUuid ← decRaw 16
  let fsDevHint ← decU64
  let rootHandleType ← decU16
  let rootHandleLen ← decU16
  let rootHandle ← decRaw 128
  let exportUuid ← decRaw 16
  let dsIncarnation ← decU64
  let verifierEpoch ← decU64
  let writeVerifier ← decRaw 8
  let walUuid ← decRaw 16
  let payloadUuid ← decRaw 16
  let bindingTokenDigest ← decRaw 32
  let walDurableLsn ← decU64
  let walDurableBytes ← decU64
  let payloadDurableBytes ← decU64
  let capacityWalBytes ← decU64
  let capacityPayloadBytes ← decU64
  let state ← decU32
  let formatFloor ← decU32
  let reserved ← decU32
  Dec.require (reserved == 0)
  pure ⟨storeUuid, generation, fsUuid, fsDevHint, rootHandleType, rootHandleLen, rootHandle,
    exportUuid, dsIncarnation, verifierEpoch, writeVerifier, walUuid, payloadUuid,
    bindingTokenDigest, walDurableLsn, walDurableBytes, payloadDurableBytes, capacityWalBytes,
    capacityPayloadBytes, state, formatFloor⟩

/-! ## The header of a log record -/

structure WalHeader where
  family : UInt16
  totalBytes : UInt32
  storeUuid : Uuid
  walUuid : Uuid
  lsn : UInt64
  dsIncarnation : UInt64
  deriving DecidableEq

/-- The size is the one of the record, not the one in the header that is given. -/
def encWalHeader (h : WalHeader) (total : UInt32) : Bytes :=
  encCommon walMagic h.family 72 total h.storeUuid ++ encRaw h.walUuid ++ encU64 h.lsn ++
    encU64 h.dsIncarnation ++ encU32 0

/-- The fields of a header; the log's decoder checks them together with the checksum of the record.
-/
def decWalHeader (expectedStore expectedWal : Option Uuid) (len : Nat) : Dec WalHeader := do
  let magic ← decU32
  let version ← decU16
  let family ← decU16
  let header ← decU32
  let total ← decU32
  let complement ← decU32
  let store ← decRaw 16
  let walUuid ← decRaw 16
  let lsn ← decU64
  let dsIncarnation ← decU64
  let reserved ← decU32
  Dec.require (magic == walMagic && version == formatVersion.toUInt16 &&
    decide (recStart ≤ family) && decide (family ≤ recCohort) && header == 72 &&
    decide (walHeaderBytes + 4 ≤ total.toNat) && decide (total.toNat ≤ maxRecordBytes) &&
    decide (total.toNat ≤ len) && (total ^^^ complement) == 0xffffffff && reserved == 0 &&
    equalOrUnspecified store expectedStore && equalOrUnspecified walUuid expectedWal && lsn != 0 &&
    dsIncarnation != 0 && decide (dsIncarnation ≤ maxIncarnation))
  pure ⟨family, total, store, walUuid, lsn, dsIncarnation⟩

/-! ## START -/

structure Start where
  dsIncarnation : UInt64
  prevIncarnation : UInt64
  verifierEpoch : UInt64
  verifierChanged : Bool
  recoveryDecision : UInt32
  truncatedBytes : UInt64
  lastValidLsnBefore : UInt64
  walAppendCursor : UInt64
  payloadAppendCursor : UInt64
  capacityWalBytes : UInt64
  capacityPayloadBytes : UInt64
  exportUuid : FixedBytes 16
  liveTxnWalReserved : UInt64
  liveTxnPayloadOutstanding : UInt64
  liveTxnPayloadStaged : UInt64
  deriving DecidableEq

/-- The body begins with the version of the format. -/
def encStart (s : Start) : Bytes :=
  encU32 formatVersion ++ encU64 s.dsIncarnation ++ encU64 s.prevIncarnation ++
    encU64 s.verifierEpoch ++ encBool s.verifierChanged ++ encU32 s.recoveryDecision ++
    encU64 s.truncatedBytes ++ encU64 s.lastValidLsnBefore ++ encU64 s.walAppendCursor ++
    encU64 s.payloadAppendCursor ++ encU64 s.capacityWalBytes ++ encU64 s.capacityPayloadBytes ++
    encRaw s.exportUuid ++ encU64 s.liveTxnWalReserved ++ encU64 s.liveTxnPayloadOutstanding ++
    encU64 s.liveTxnPayloadStaged

def decStart : Dec Start := do
  let format ← decU32
  let dsIncarnation ← decU64
  let prevIncarnation ← decU64
  let verifierEpoch ← decU64
  let verifierChanged ← decBool
  let recoveryDecision ← decU32
  let truncatedBytes ← decU64
  let lastValidLsnBefore ← decU64
  let walAppendCursor ← decU64
  let payloadAppendCursor ← decU64
  let capacityWalBytes ← decU64
  let capacityPayloadBytes ← decU64
  let exportUuid ← decRaw 16
  let liveTxnWalReserved ← decU64
  let liveTxnPayloadOutstanding ← decU64
  let liveTxnPayloadStaged ← decU64
  Dec.require (format == formatVersion)
  pure ⟨dsIncarnation, prevIncarnation, verifierEpoch, verifierChanged, recoveryDecision,
    truncatedBytes, lastValidLsnBefore, walAppendCursor, payloadAppendCursor, capacityWalBytes,
    capacityPayloadBytes, exportUuid, liveTxnWalReserved, liveTxnPayloadOutstanding,
    liveTxnPayloadStaged⟩

/-! ## The key and the admission of a request -/

structure KeyBlock where
  session : FixedBytes 16
  slot : UInt32
  sequence : UInt32
  compoundOrdinal : UInt32
  operationKey : FixedBytes 32
  requestDigest : FixedBytes 32
  deriving DecidableEq

def encKeyBlock (k : KeyBlock) : Bytes :=
  encRaw k.session ++ encU32 k.slot ++ encU32 k.sequence ++ encU32 k.compoundOrdinal ++
    encRaw k.operationKey ++ encRaw k.requestDigest

/-- A key belongs to a session and is the digest of the rest. -/
def KeyBlock.ok (k : KeyBlock) : Bool :=
  !isZero (encRaw k.session) &&
    D2.operationKey k.session k.slot k.sequence k.compoundOrdinal == k.operationKey

def decKeyBlock : Dec KeyBlock := do
  let session ← decRaw 16
  let slot ← decU32
  let sequence ← decU32
  let compoundOrdinal ← decU32
  let operationKey ← decRaw 32
  let requestDigest ← decRaw 32
  let k : KeyBlock := ⟨session, slot, sequence, compoundOrdinal, operationKey, requestDigest⟩
  Dec.require k.ok
  pure k

structure Admission where
  session : FixedBytes 16
  principal : FixedBytes 16
  issuer : FixedBytes 16
  authorityEpoch : UInt64
  fenceSequence : UInt64
  leaseEpoch : UInt64
  clientId : UInt64
  stateidSeqid : UInt32
  stateidOther : FixedBytes 12
  writer : UInt32
  rights : UInt32
  deriving DecidableEq

def encAdmission (a : Admission) : Bytes :=
  encRaw a.session ++ encRaw a.principal ++ encRaw a.issuer ++ encU64 a.authorityEpoch ++
    encU64 a.fenceSequence ++ encU64 a.leaseEpoch ++ encU64 a.clientId ++ encU32 a.stateidSeqid ++
    encRaw a.stateidOther ++ encU32 a.writer ++ encU32 a.rights

def decAdmission : Dec Admission := do
  let session ← decRaw 16
  let principal ← decRaw 16
  let issuer ← decRaw 16
  let authorityEpoch ← decU64
  let fenceSequence ← decU64
  let leaseEpoch ← decU64
  let clientId ← decU64
  let stateidSeqid ← decU32
  let stateidOther ← decRaw 12
  let writer ← decU32
  let rights ← decU32
  pure ⟨session, principal, issuer, authorityEpoch, fenceSequence, leaseEpoch, clientId,
    stateidSeqid, stateidOther, writer, rights⟩

/-! ## CONTROL -/

structure Control where
  subtype : UInt32
  transition : UInt32
  status : UInt32
  key : KeyBlock
  admissionIssuer : Uuid
  admissionAuthorityEpoch : UInt64
  admissionClientId : UInt64
  body : Bytes
  deriving DecidableEq

/-- The key block stands in another order than in the other records. -/
def encControl (c : Control) : Bytes :=
  encU32 c.subtype ++ encU32 c.transition ++ encU32 c.status ++ encRaw c.key.operationKey ++
    encRaw c.key.requestDigest ++ encRaw c.key.session ++ encU32 c.key.slot ++
      encU32 c.key.sequence ++
    encU32 c.key.compoundOrdinal ++ encRaw c.admissionIssuer ++ encU64 c.admissionAuthorityEpoch ++
    encU64 c.admissionClientId ++ c.body

def decControl (bodyLen : Nat) : Dec Control := do
  let subtype ← decU32
  let transition ← decU32
  let status ← decU32
  let operationKey ← decRaw 32
  let requestDigest ← decRaw 32
  let session ← decRaw 16
  let slot ← decU32
  let sequence ← decU32
  let compoundOrdinal ← decU32
  let admissionIssuer ← decRaw 16
  let admissionAuthorityEpoch ← decU64
  let admissionClientId ← decU64
  let body ← decTake bodyLen
  pure ⟨subtype, transition, status,
    ⟨session, slot, sequence, compoundOrdinal, operationKey, requestDigest⟩, admissionIssuer,
    admissionAuthorityEpoch, admissionClientId, body⟩

/-! ## ENTRY -/

structure Entry where
  transition : UInt32
  status : UInt32
  disposition : UInt32
  stability : UInt32
  batchOrdinal : UInt32
  batchCount : UInt32
  fileKey : FixedBytes 32
  chunkIndex : UInt64
  txnId : UInt64
  key : KeyBlock
  admission : Admission
  ownerCohort : UInt64
  ownerClientId : UInt32
  ownerCoId : UInt32
  generation : UInt32
  predecessorPresent : Bool
  predecessorObjectId : UInt64
  predecessorGeneration : UInt32
  postcondPresent : Bool
  postcondId : UInt64
  payloadObjectId : UInt64
  writerPayloadId : UInt32
  payloadObjectOffset : UInt64
  payloadContentLen : UInt32
  extentKind : UInt32
  extentHighWater : UInt64
  extentHighestIndex : UInt64
  indexGeneration : UInt64
  resultVerifier : FixedBytes 8
  resultActivated : Bool
  resultVisibleObjectId : UInt64
  resultEffectiveLen : UInt32
  resultCkAlg : UInt32
  resultCkLen : UInt32
  resultCk : FixedBytes 64
  resultGuardNeverWritten : Bool
  resultGuardGeneration : UInt32
  resultGuardWriter : UInt32
  deriving DecidableEq

def encEntry (e : Entry) : Bytes :=
  encU32 e.transition ++ encU32 e.status ++ encU32 e.disposition ++ encU32 e.stability ++
    encU32 e.batchOrdinal ++ encU32 e.batchCount ++ encRaw e.fileKey ++ encU64 e.chunkIndex ++
    encU64 e.txnId ++ encKeyBlock e.key ++ encAdmission e.admission ++ encU64 e.ownerCohort ++
    encU32 e.ownerClientId ++ encU32 e.ownerCoId ++ encU32 e.generation ++
    encBool e.predecessorPresent ++ encU64 e.predecessorObjectId ++
    encU32 e.predecessorGeneration ++ encBool e.postcondPresent ++ encU64 e.postcondId ++
    encU64 e.payloadObjectId ++ encU32 e.writerPayloadId ++ encU64 e.payloadObjectOffset ++
    encU32 e.payloadContentLen ++ encU32 e.extentKind ++ encU64 e.extentHighWater ++
    encU64 e.extentHighestIndex ++ encU64 e.indexGeneration ++ encRaw e.resultVerifier ++
    encBool e.resultActivated ++ encU64 e.resultVisibleObjectId ++ encU32 e.resultEffectiveLen ++
    encU32 e.resultCkAlg ++ encU32 e.resultCkLen ++ encRaw e.resultCk ++
    encBool e.resultGuardNeverWritten ++ encU32 e.resultGuardGeneration ++
    encU32 e.resultGuardWriter

def decEntry : Dec Entry := do
  let transition ← decU32
  let status ← decU32
  let disposition ← decU32
  let stability ← decU32
  let batchOrdinal ← decU32
  let batchCount ← decU32
  let fileKey ← decRaw 32
  let chunkIndex ← decU64
  let txnId ← decU64
  let key ← decKeyBlock
  let admission ← decAdmission
  let ownerCohort ← decU64
  let ownerClientId ← decU32
  let ownerCoId ← decU32
  let generation ← decU32
  let predecessorPresent ← decBool
  let predecessorObjectId ← decU64
  let predecessorGeneration ← decU32
  let postcondPresent ← decBool
  let postcondId ← decU64
  let payloadObjectId ← decU64
  let writerPayloadId ← decU32
  let payloadObjectOffset ← decU64
  let payloadContentLen ← decU32
  let extentKind ← decU32
  let extentHighWater ← decU64
  let extentHighestIndex ← decU64
  let indexGeneration ← decU64
  let resultVerifier ← decRaw 8
  let resultActivated ← decBool
  let resultVisibleObjectId ← decU64
  let resultEffectiveLen ← decU32
  let resultCkAlg ← decU32
  let resultCkLen ← decU32
  let resultCk ← decRaw 64
  let resultGuardNeverWritten ← decBool
  let resultGuardGeneration ← decU32
  let resultGuardWriter ← decU32
  pure ⟨transition, status, disposition, stability, batchOrdinal, batchCount, fileKey, chunkIndex,
    txnId, key, admission, ownerCohort, ownerClientId, ownerCoId, generation, predecessorPresent,
    predecessorObjectId, predecessorGeneration, postcondPresent, postcondId, payloadObjectId,
    writerPayloadId, payloadObjectOffset, payloadContentLen, extentKind, extentHighWater,
    extentHighestIndex, indexGeneration, resultVerifier, resultActivated, resultVisibleObjectId,
    resultEffectiveLen, resultCkAlg, resultCkLen, resultCk, resultGuardNeverWritten,
    resultGuardGeneration, resultGuardWriter⟩

/-! ## COHORT -/

structure Member where
  repairMode : UInt32
  fileKey : FixedBytes 32
  chunkIndex : UInt64
  memberTxnId : UInt64
  ownerCohort : UInt64
  ownerClientId : UInt32
  ownerCoId : UInt32
  custodyId : UInt64
  postcondPresent : Bool
  postcondId : UInt64
  successorObjectId : UInt64
  predecessorPresent : Bool
  predecessorObjectId : UInt64
  predecessorGeneration : UInt32
  payloadObjectId : UInt64
  payloadObjectOffset : UInt64
  payloadContentLen : UInt32
  staged : Bool
  memberStatus : UInt32
  extentKind : UInt32
  extentHighWater : UInt64
  extentHighestIndex : UInt64
  resultVisibleObjectId : UInt64
  resultEffectiveLen : UInt32
  resultCkAlg : UInt32
  resultCkLen : UInt32
  resultCk : FixedBytes 64
  resultGuardNeverWritten : Bool
  resultGuardGeneration : UInt32
  resultGuardWriter : UInt32
  deriving DecidableEq

def encMember (m : Member) : Bytes :=
  encU32 m.repairMode ++ encRaw m.fileKey ++ encU64 m.chunkIndex ++ encU64 m.memberTxnId ++
    encU64 m.ownerCohort ++ encU32 m.ownerClientId ++ encU32 m.ownerCoId ++ encU64 m.custodyId ++
    encBool m.postcondPresent ++ encU64 m.postcondId ++ encU64 m.successorObjectId ++
    encBool m.predecessorPresent ++ encU64 m.predecessorObjectId ++
    encU32 m.predecessorGeneration ++ encU64 m.payloadObjectId ++ encU64 m.payloadObjectOffset ++
    encU32 m.payloadContentLen ++ encBool m.staged ++ encU32 m.memberStatus ++
    encU32 m.extentKind ++ encU64 m.extentHighWater ++ encU64 m.extentHighestIndex ++
    encU64 m.resultVisibleObjectId ++ encU32 m.resultEffectiveLen ++ encU32 m.resultCkAlg ++
    encU32 m.resultCkLen ++ encRaw m.resultCk ++ encBool m.resultGuardNeverWritten ++
    encU32 m.resultGuardGeneration ++ encU32 m.resultGuardWriter

def decMember : Dec Member := do
  let repairMode ← decU32
  let fileKey ← decRaw 32
  let chunkIndex ← decU64
  let memberTxnId ← decU64
  let ownerCohort ← decU64
  let ownerClientId ← decU32
  let ownerCoId ← decU32
  let custodyId ← decU64
  let postcondPresent ← decBool
  let postcondId ← decU64
  let successorObjectId ← decU64
  let predecessorPresent ← decBool
  let predecessorObjectId ← decU64
  let predecessorGeneration ← decU32
  let payloadObjectId ← decU64
  let payloadObjectOffset ← decU64
  let payloadContentLen ← decU32
  let staged ← decBool
  let memberStatus ← decU32
  let extentKind ← decU32
  let extentHighWater ← decU64
  let extentHighestIndex ← decU64
  let resultVisibleObjectId ← decU64
  let resultEffectiveLen ← decU32
  let resultCkAlg ← decU32
  let resultCkLen ← decU32
  let resultCk ← decRaw 64
  let resultGuardNeverWritten ← decBool
  let resultGuardGeneration ← decU32
  let resultGuardWriter ← decU32
  pure ⟨repairMode, fileKey, chunkIndex, memberTxnId, ownerCohort, ownerClientId, ownerCoId,
    custodyId, postcondPresent, postcondId, successorObjectId, predecessorPresent,
    predecessorObjectId, predecessorGeneration, payloadObjectId, payloadObjectOffset,
    payloadContentLen, staged, memberStatus, extentKind, extentHighWater, extentHighestIndex,
    resultVisibleObjectId, resultEffectiveLen, resultCkAlg, resultCkLen, resultCk,
    resultGuardNeverWritten, resultGuardGeneration, resultGuardWriter⟩

structure Cohort where
  transition : UInt32
  status : UInt32
  disposition : UInt32
  cohortId : UInt64
  episodeUuid : Uuid
  flags : UInt32
  key : KeyBlock
  admission : Admission
  indexGeneration : UInt64
  resultVerifier : FixedBytes 8
  members : List Member
  deriving DecidableEq

def encCohort (co : Cohort) : Bytes :=
  encU32 co.transition ++ encU32 co.status ++ encU32 co.disposition ++ encU64 co.cohortId ++
    encRaw co.episodeUuid ++ encU32 co.flags ++ encKeyBlock co.key ++ encAdmission co.admission ++
    encU64 co.indexGeneration ++ encRaw co.resultVerifier ++ encU32
      (UInt32.ofNat co.members.length) ++
    co.members.flatMap encMember

def decMemberIf (acceptMember : Member → Bool) : Dec Member := do
  let m ← decMember
  Dec.require (acceptMember m)
  pure m

/-- The members are read once `accept` has seen what comes before them. -/
def decCohort (accept : Cohort → Nat → Bool) (acceptMember : Member → Bool) : Dec Cohort := do
  let transition ← decU32
  let status ← decU32
  let disposition ← decU32
  let cohortId ← decU64
  let episodeUuid ← decRaw 16
  let flags ← decU32
  let key ← decKeyBlock
  let admission ← decAdmission
  let indexGeneration ← decU64
  let resultVerifier ← decRaw 8
  let memberCount ← decU32
  let co : Cohort := ⟨transition, status, disposition, cohortId, episodeUuid, flags, key, admission,
    indexGeneration, resultVerifier, []⟩
  Dec.require (accept co memberCount.toNat)
  let members ← many (decMemberIf acceptMember) memberCount.toNat
  pure { co with members := members }

/-! ## The payload object -/

structure PayloadObject where
  storeUuid : Uuid
  payloadObjectId : UInt64
  contentCrc32c : UInt32
  contentAlg : UInt32
  contentCkLen : UInt32
  contentCk : FixedBytes 64
  objectBytes : UInt64
  content : Bytes
  /-- The length of the content is a word. -/
  content_lt : content.length < 2 ^ 32

def PayloadObject.contentLen (o : PayloadObject) : UInt32 := UInt32.ofNat o.content.length

def encPayloadHeader (o : PayloadObject) (total : UInt32) (objectBytes : UInt64) : Bytes :=
  encCommon payloadMagic payloadData 136 total o.storeUuid ++ encU64 o.payloadObjectId ++
    encU32 (crc32c o.content) ++ encU32 o.contentAlg ++ encU32 o.contentCkLen ++
      encRaw o.contentCk ++
    encU32 o.contentLen ++ encU64 objectBytes ++ encU32 0

structure PayloadHeader where
  storeUuid : Uuid
  payloadObjectId : UInt64
  storedCrc : UInt32
  contentAlg : UInt32
  contentCkLen : UInt32
  contentCk : FixedBytes 64
  contentLen : UInt32
  objectBytes : UInt64

def decPayloadHeader (total : UInt32) (expectedStore : Option Uuid) : Dec PayloadHeader := do
  let store ← decCommon payloadMagic payloadData 136 total expectedStore
  let payloadObjectId ← decU64
  let storedCrc ← decU32
  let contentAlg ← decU32
  let contentCkLen ← decU32
  let contentCk ← decRaw 64
  let contentLen ← decU32
  let objectBytes ← decU64
  let reserved ← decU32
  Dec.require (reserved == 0)
  pure ⟨store, payloadObjectId, storedCrc, contentAlg, contentCkLen, contentCk, contentLen,
    objectBytes⟩

end Reffs.D2
