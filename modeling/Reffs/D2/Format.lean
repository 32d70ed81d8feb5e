import Reffs.D2.Records

/-!
# Encoding and decoding records

`d2_format.c`: what an encoder refuses to write, what a decoder refuses to read, and the bytes of a
whole record with its checksum. Encoders and decoders do not ask the same: a decoder checks every
rule of the format, an encoder only some of them.

An array that the source takes by its size is a string of bytes whose length is asked for first. The
buffer for a record of variable size has `cap` bytes. Memory is always there.
-/

namespace Reffs.D2

open ByteCodec ByteCodec.Dec
open Reffs.D1 (Uuid Digest Status crc32 crc32c sha256)

/-! ## The superblock -/

variable (sb : Superblock) (bs : Bytes) (subtype : UInt32) (h : WalHeader) (incarnation : UInt64)
    (body : Bytes) (expectedStore : Option Uuid)

abbrev sbClean : UInt32 := 1
abbrev sbNeedsRecovery : UInt32 := 2
abbrev sbFenced : UInt32 := 3
abbrev sbRetired : UInt32 := 4

def superRecord : Bytes :=
  encCommon sbMagic sbSlot 36 360 sb.storeUuid ++ encSuperblock sb

def superEncode : Option Bytes :=
  if maxHandleBytes < sb.rootHandleLen.toNat ∨ sb.state < sbClean ∨ sbRetired < sb.state ∨
      formatVersion < sb.formatFloor then none
  else some (addSeal (crc32cDomain sbDomain) (superRecord sb) ++
    List.replicate (sbSlotBytes - sbRecordBytes) 0)

def Superblock.ok : Bool :=
  decide (sb.rootHandleLen.toNat ≤ maxHandleBytes) &&
  isZero ((encRaw sb.rootHandle).drop sb.rootHandleLen.toNat) &&
  decide (sbClean ≤ sb.state) && decide (sb.state ≤ sbRetired) &&
  sb.formatFloor == formatVersion && sb.generation != 0 &&
  decide (sb.dsIncarnation ≤ maxIncarnation) &&
  decide (sb.walDurableBytes ≤ sb.capacityWalBytes) &&
  decide (sb.payloadDurableBytes ≤ sb.capacityPayloadBytes) &&
  decide (minWalBytes ≤ sb.capacityWalBytes.toNat) &&
  decide (payloadAlign * 2 ≤ sb.capacityPayloadBytes.toNat) &&
  decide (sb.capacityPayloadBytes.toNat % payloadAlign = 0)

def superDecode : Option Superblock :=
  if bs.length ≠ sbSlotBytes ∨ sealOk (crc32cDomain sbDomain) bs sbRecordBytes = false ∨
      isZero (bs.drop sbRecordBytes) = false then none
  else do
    let sb ← whole (do
      let store ← decCommon sbMagic sbSlot 36 360 expectedStore
      decSuperblock store) (bs.take (sbRecordBytes - 4))
    if sb.ok then some sb else none

/-! ## The payload object -/

def payloadObjectBytes (contentLen : Nat) : Nat :=
  (payloadHeaderBytes + contentLen + 4 + (payloadAlign - 1)) / payloadAlign * payloadAlign

/-- The number in four bytes, the lowest first. -/
def getLe32 : Nat := readBe 0 bs.reverse

def fletcher4 : Nat → Bytes → UInt64 × UInt64 × UInt64 × UInt64 → UInt64 × UInt64 × UInt64 × UInt64
  | 0, _, acc => acc
  | n + 1, bs, (a, b, c, d) =>
    let a := a + UInt64.ofNat (getLe32 (bs.take 4))
    let b := b + a
    let c := c + b
    let d := d + c
    fletcher4 n (bs.drop 4) (a, b, c, d)

def contentChecksum (alg : UInt32) (content : Bytes) : Option Bytes :=
  if alg = 0 then some []
  else if alg = 1 then some (encU32 (crc32 content))
  else if alg = 2 then some (encU32 (crc32c content))
  else if alg = 3 then
    if content.length % 4 ≠ 0 then none
    else
      let (a, b, c, d) := fletcher4 (content.length / 4) content (0, 0, 0, 0)
      some (encU64 a ++ encU64 b ++ encU64 c ++ encU64 d)
  else if alg = 4 then some (encRaw (sha256 content))
  else none

def contentChecksumOk (alg ckLen : UInt32) (ck : FixedBytes 64) (content : Bytes) : Bool :=
  match contentChecksum alg content with
  | none => false
  | some computed =>
    decide (computed.length = ckLen.toNat) && decide
      ((encRaw ck).take computed.length = computed) &&
      isZero ((encRaw ck).drop computed.length)

def payloadEncode (o : PayloadObject) (cap : Nat) : Option Bytes :=
  if maxChecksumBytes < o.contentCkLen.toNat ∨
      2 ^ 32 - 1 - payloadHeaderBytes - 4 < o.content.length ∨
      contentChecksumOk o.contentAlg o.contentCkLen o.contentCk o.content = false then none
  else
    let objectBytes := payloadObjectBytes o.content.length
    if cap < objectBytes ∨ (o.objectBytes ≠ 0 ∧ o.objectBytes.toNat ≠ objectBytes) then none
    else
      let total := payloadHeaderBytes + o.content.length + 4
      let header := encPayloadHeader o (UInt32.ofNat total) (UInt64.ofNat objectBytes)
      -- the checksum behind the content covers the header
      some (header ++ o.content ++ encU32 (crc32cDomain payDomain header) ++
        List.replicate (objectBytes - total) 0)

/-- The object that begins with `bs`, and whether its content is what its checksums say. -/
def payloadDecodeContent : Option (PayloadObject × Bool) :=
  if bs.length < payloadHeaderBytes + 4 then none
  else
    let total := readBe 0 ((bs.drop 12).take 4)
    if total < payloadHeaderBytes + 4 ∨ bs.length < total then none
    else do
      let h ← whole (decPayloadHeader (UInt32.ofNat total) expectedStore)
          (bs.take payloadHeaderBytes)
      if maxChecksumBytes < h.contentCkLen.toNat ∨
          isZero ((encRaw h.contentCk).drop h.contentCkLen.toNat) = false ∨
          total ≠ (payloadHeaderBytes + h.contentLen.toNat + 4) % 2 ^ 32 ∨
          h.objectBytes.toNat ≠ payloadObjectBytes h.contentLen.toNat ∨
          bs.length < h.objectBytes.toNat ∨
          readBe 0 ((bs.drop (total - 4)).take 4) ≠
            (crc32cDomain payDomain (bs.take payloadHeaderBytes)).toNat ∨
          isZero ((bs.drop total).take (h.objectBytes.toNat - total)) = false then none
      else
        let content := (bs.drop payloadHeaderBytes).take h.contentLen.toNat
        some (⟨h.storeUuid, h.payloadObjectId, h.storedCrc, h.contentAlg, h.contentCkLen,
          h.contentCk,
            h.objectBytes, content,
            lt_of_le_of_lt (List.length_take_le ..) h.contentLen.toNat_lt⟩,
          h.storedCrc == crc32c content &&
            contentChecksumOk h.contentAlg h.contentCkLen h.contentCk content)

def payloadDecode : Option PayloadObject := do
  let (o, contentOk) ← payloadDecodeContent bs expectedStore
  if contentOk then some o else none

/-! ## Records of the log -/

/-- A record of the log: a header with the size of the record, a body and the checksum of both. -/
def walRecord : Bytes :=
  addSeal (crc32cDomain walDomain)
    (encWalHeader h (UInt32.ofNat (walHeaderBytes + body.length + 4)) ++ body)

def walHeaderDecode (expectedStore expectedWal : Option Uuid) : Option WalHeader :=
  if bs.length < walHeaderBytes then none
  else do
    let h ← whole (decWalHeader expectedStore expectedWal bs.length) (bs.take walHeaderBytes)
    if sealOk (crc32cDomain walDomain) bs h.totalBytes.toNat then some h else none

def walBody (bodyLen : Nat) : Bytes := (bs.drop walHeaderBytes).take bodyLen

/-! ## START -/

abbrev rdFirstProvision : UInt32 := 1
abbrev rdCleanScan : UInt32 := 2
abbrev rdTruncatedTail : UInt32 := 4
abbrev rdDiscardedUnstable : UInt32 := 8
abbrev rdAdminClearedFence : UInt32 := 16
abbrev rdTruncatedNonzeroTail : UInt32 := 32

def startDecisionOk (s : Start) : Bool :=
  let d := s.recoveryDecision
  let scan := d &&& (rdCleanScan ||| rdTruncatedTail ||| rdDiscardedUnstable)
  if d &&& ~~~(rdFirstProvision ||| rdCleanScan ||| rdTruncatedTail ||| rdDiscardedUnstable |||
      rdAdminClearedFence ||| rdTruncatedNonzeroTail) ≠ 0 then false
  else if d &&& rdFirstProvision ≠ 0 then
    d == rdFirstProvision && s.prevIncarnation == 0 && s.lastValidLsnBefore == 0 &&
      s.truncatedBytes == 0
  else if scan = 0 ∨
      (d &&& rdCleanScan ≠ 0 ∧ d &&& (rdTruncatedTail ||| rdDiscardedUnstable) ≠ 0) then false
  else if d &&& rdAdminClearedFence ≠ 0 ∧ scan = 0 then false
  else if d &&& rdTruncatedNonzeroTail ≠ 0 ∧ d &&& rdTruncatedTail = 0 then false
  else if (s.truncatedBytes != 0) != (d &&& rdTruncatedTail != 0) then false
  else s.verifierChanged == (d &&& (rdDiscardedUnstable ||| rdTruncatedNonzeroTail) != 0)

def startEncode (s : Start) : Option Bytes :=
  if h.family ≠ recStart ∨ h.dsIncarnation ≠ s.dsIncarnation ∨ startDecisionOk s = false then none
  else some (walRecord h (encStart s))

def startDecode : Option Start :=
  if h.family ≠ recStart ∨ h.totalBytes.toNat ≠ startRecordBytes ∨
    bs.length < h.totalBytes.toNat then
    none
  else do
    let s ← whole decStart (walBody bs (startRecordBytes - walHeaderBytes - 4))
    if s.dsIncarnation == h.dsIncarnation && startDecisionOk s then some s else none

/-! ## CONTROL -/

abbrev ctlFileRegister : UInt32 := 1
abbrev ctlFileTombstone : UInt32 := 2
abbrev ctlAuthorityAdmit : UInt32 := 3
abbrev ctlAuthorityRevoke : UInt32 := 4
abbrev ctlTrustStateid : UInt32 := 5
abbrev ctlRevokeStateid : UInt32 := 6
abbrev ctlLeaseReap : UInt32 := 7
abbrev ctlRecoveryAdmit : UInt32 := 8
abbrev ctlEpisodeMark : UInt32 := 9
abbrev ctlCustody : UInt32 := 11
abbrev ctlCoordinatorCompletion : UInt32 := 12
abbrev ctlExportTombstone : UInt32 := 13
abbrev ctlPostcond : UInt32 := 14
abbrev ctlLeaseExpire : UInt32 := 15
abbrev ctlCertificateInstall : UInt32 := 16

/-- The number in the `k` bytes from `i` on. -/
def beAt (i k : Nat) : Nat := readBe 0 ((bs.drop i).take k)

/-- The body of a registration: key, handle and geometry of a file. -/
def fileRegisterOk : Bool :=
  let handleType := beAt body 32 2
  let handleLen := beAt body 34 2
  let chunkBytes := beAt body 164 4
  let maxChunks := beAt body 168 8
  let logicalEof := beAt body 176 8
  if body.length ≠ 184 then false
  else if handleType ≠ 0 ∨ handleLen ≠ 32 ∨
      isZero ((body.drop (36 + handleLen)).take (maxHandleBytes - handleLen)) = false ∨
      chunkBytes < 4096 ∨ 1024 * 1024 < chunkBytes ∨ chunkBytes % 4096 ≠ 0 ∨ maxChunks = 0 ∨
      logicalEof ≠ 0 ∨ chunkBytes * maxChunks % 2 ^ 64 / chunkBytes ≠ maxChunks then false
  else decide (encRaw (fileKey ((body.drop 36).take handleLen)) = body.take 32)

/-- Entries of `each` bytes whose first `keyLen` bytes rise. -/
def keysRise (entries : Bytes) (each keyLen : Nat) : Nat → Bool
  | 0 => true
  | 1 => true
  | count + 2 =>
    decide (entries.take keyLen < (entries.drop each).take keyLen) &&
      keysRise (entries.drop each) each keyLen (count + 1)

/-- A body of `fixed` bytes, with a count in it, and so many entries. -/
def countedOk (fixed countAt each keyLen : Nat) : Bool :=
  let count := beAt body countAt 4
  if body.length < fixed then false
  else if maxCountedEntries < count ∨ (subtype ≠ ctlAuthorityAdmit ∧ count = 0) ∨
      body.length ≠ fixed + count * each then false
  else if keyLen = 0 then decide (count ≤ maxBatchEntries)
  else keysRise (body.drop fixed) each keyLen count

def controlBodySize : Bool :=
  if subtype < ctlFileRegister ∨ ctlCertificateInstall < subtype then false
  else if subtype = ctlFileRegister then fileRegisterOk body
  else if subtype = ctlFileTombstone then decide (body.length = 36)
  else if subtype = ctlAuthorityRevoke then decide (body.length = 28)
  else if subtype = ctlTrustStateid then decide (body.length = 84)
  else if subtype = ctlRevokeStateid then decide (body.length = 60)
  else if subtype = ctlCustody then
    decide (body.length = 36) && decide (1 ≤ beAt body 16 4) && decide (beAt body 16 4 ≤ 3)
  else if subtype = ctlCoordinatorCompletion then decide (body.length = 100)
  else if subtype = ctlExportTombstone then decide (body.length = 12)
  else if subtype = ctlPostcond then
    decide (body.length = 68) && decide (1 ≤ beAt body 64 4) && decide (beAt body 64 4 ≤ 3)
  else if subtype = ctlLeaseExpire then decide (body.length = 52)
  else if subtype = ctlCertificateInstall then
    decide (body.length = 56) && !isZero (body.take 16) && !isZero ((body.drop 16).take 8) &&
      !isZero ((body.drop 24).take 32)
  else if subtype = ctlAuthorityAdmit then countedOk subtype body 28 24 16 16
  else if subtype = ctlLeaseReap then countedOk subtype body 4 0 48 8
  else if subtype = ctlRecoveryAdmit then countedOk subtype body 4 0 40 8
  else if subtype = ctlEpisodeMark then countedOk subtype body 68 64 24 0
  else countedOk subtype body 64 28 40 0

def storeGenerated : Bool :=
  subtype == ctlFileRegister || subtype == ctlFileTombstone || subtype == ctlLeaseReap ||
    subtype == ctlExportTombstone || subtype == ctlPostcond

/-- The key of a control that the store itself makes: its incarnation and a sequence number. -/
def generatedKey (sequence : UInt32) : Digest :=
  fixedOfBytes 32 (encU64 incarnation ++ encU32 0 ++ encU32 sequence)

def controlKeyOk (c : Control) (incarnation : UInt64) : Bool :=
  if storeGenerated c.subtype = false then c.key.ok
  else if isZero (encRaw c.key.session) = false ∨ c.key.slot ≠ 0 ∨ c.key.compoundOrdinal ≠ 0 ∨
      isZero (encRaw c.key.requestDigest) = false ∨ c.key.sequence = 0 then false
  else generatedKey incarnation c.key.sequence == c.key.operationKey

def controlEncode (c : Control) (cap : Nat) : Option Bytes :=
  if h.family ≠ recControl ∨ controlBodySize c.subtype c.body = false ∨
      controlKeyOk c h.dsIncarnation = false then none
  else if cap < walHeaderBytes + controlPrefixBytes + c.body.length + 4 then none
  else some (walRecord h (encControl c))

abbrev trAdmitted : UInt32 := 1
abbrev trPrepared : UInt32 := 2
abbrev trFinalized : UInt32 := 3
abbrev trCommitted : UInt32 := 4
abbrev trAborted : UInt32 := 5
abbrev trRolledBack : UInt32 := 6
abbrev trRefused : UInt32 := 7
abbrev trUnlocked : UInt32 := 8

def controlOutcomeOk (transition status : UInt32) : Bool :=
  (transition == trCommitted || transition == trRefused) &&
  decide (Status.ok.code ≤ status) && decide (status ≤ Status.replayConflict.code) &&
  ((transition == trCommitted && status == Status.ok.code) ||
    (transition == trRefused && status != Status.ok.code && status != Status.nospc.code &&
      status != Status.io.code))

def controlDecode : Option Control :=
  if h.family ≠ recControl ∨ bs.length < h.totalBytes.toNat ∨
      h.totalBytes.toNat < walHeaderBytes + controlPrefixBytes + 4 then none
  else
    let bodyLen := h.totalBytes.toNat - walHeaderBytes - controlPrefixBytes - 4
    if maxControlBodyBytes < bodyLen then none
    else do
      let c ← whole (decControl bodyLen) (walBody bs (controlPrefixBytes + bodyLen))
      if controlBodySize c.subtype c.body && controlKeyOk c h.dsIncarnation &&
          controlOutcomeOk c.transition c.status then some c
      else none

/-! ## ENTRY -/

abbrev extentUnchanged : UInt32 := 1
abbrev extentShrink : UInt32 := 3

def resultCkOk (len : UInt32) (ck : FixedBytes 64) : Bool :=
  decide (len.toNat ≤ maxChecksumBytes) && isZero ((encRaw ck).drop len.toNat)

def payloadRefOk (id offset recordIncarnation : UInt64) : Bool :=
  if id = 0 then offset == 0
  else
    let allocatingIncarnation := id >>> 40
    allocatingIncarnation != 0 && decide (allocatingIncarnation ≤ recordIncarnation) &&
      decide (payloadAlign ≤ offset.toNat) && decide (offset.toNat % payloadAlign = 0)

def recordedRefusal (status : UInt32) : Bool :=
  status == Status.invalid.code || status == Status.guarded.code ||
    status == Status.ownerConflict.code || status == Status.staleAuth.code ||
    status == Status.badPhase.code || status == Status.noPredecessor.code ||
    status == Status.quarantined.code || status == Status.checksum.code

def entryPair (transition status : UInt32) : Bool :=
  if transition = trPrepared ∨ transition = trFinalized ∨ transition = trCommitted ∨
      transition = trRolledBack then status == Status.ok.code
  else if transition = trAborted then
    status == Status.guarded.code || status == Status.ownerConflict.code ||
      status == Status.staleAuth.code || status == Status.noPredecessor.code ||
      status == Status.quarantined.code || status == Status.checksum.code
  else transition == trRefused && recordedRefusal status

def cohortTriple (transition status : UInt32) (keep : Bool) : Bool :=
  if transition = trAdmitted ∨ transition = trPrepared ∨ transition = trFinalized ∨
      transition = trCommitted ∨ transition = trUnlocked then status == Status.ok.code && !keep
  else if transition = trAborted then
    (!keep && status == Status.ok.code) ||
      (keep && (status == Status.ownerConflict.code || status == Status.checksum.code))
  else transition == trRefused && !keep && recordedRefusal status

def entryEncode (e : Entry) : Option Bytes :=
  if h.family ≠ recEntry ∨ entryPair e.transition e.status = false ∨
      (e.payloadObjectId = 0 ∧ e.writerPayloadId ≠ 0) ∨
      (e.predecessorPresent = false ∧ (e.predecessorObjectId ≠ 0 ∨ e.predecessorGeneration ≠ 0)) ∨
      (e.postcondPresent = false ∧ e.postcondId ≠ 0) ∨
      resultCkOk e.resultCkLen e.resultCk = false then none
  else some (walRecord h (encEntry e))

def Entry.ok (e : Entry) (incarnation : UInt64) : Bool :=
  decide (1 ≤ e.batchCount) && decide (e.batchCount.toNat ≤ maxBatchEntries) &&
  decide (e.batchOrdinal < e.batchCount) && entryPair e.transition e.status &&
  decide (Status.ok.code ≤ e.status) && decide (e.status ≤ Status.replayConflict.code) &&
  e.disposition == D1.Disposition.completed.code && decide (1 ≤ e.stability) &&
  decide (e.stability ≤ 3) && decide (extentUnchanged ≤ e.extentKind) &&
  decide (e.extentKind ≤ extentShrink) &&
  (e.predecessorPresent || (e.predecessorObjectId == 0 && e.predecessorGeneration == 0)) &&
  (e.postcondPresent || e.postcondId == 0) &&
  (e.payloadObjectId != 0 || e.writerPayloadId == 0) &&
  payloadRefOk e.payloadObjectId e.payloadObjectOffset incarnation &&
  resultCkOk e.resultCkLen e.resultCk

def entryDecode : Option Entry :=
  if h.family ≠ recEntry ∨ h.totalBytes.toNat ≠ entryRecordBytes ∨
    bs.length < h.totalBytes.toNat then
    none
  else do
    let e ← whole decEntry (walBody bs (entryRecordBytes - walHeaderBytes - 4))
    if e.ok h.dsIncarnation then some e else none

/-! ## COHORT -/

def cohortEncode (co : Cohort) (cap : Nat) : Option Bytes :=
  if h.family ≠ recCohort ∨ co.members.length < 1 ∨ maxBatchEntries < co.members.length ∨
      co.flags &&& ~~~3 ≠ 0 ∨
      cohortTriple co.transition co.status (co.flags &&& 2 != 0) = false then none
  else if ∃ m ∈ co.members, resultCkOk m.resultCkLen m.resultCk = false then none
  else if cap < walHeaderBytes + cohortPrefixBytes + co.members.length * cohortMemberBytes +
    4 then none
  else some (walRecord h (encCohort co))

/-- What the decoder asks of a cohort before it reads so many members. -/
def cohortPrefixOk (total : Nat) (co : Cohort) (memberCount : Nat) : Bool :=
  decide (1 ≤ memberCount) && decide (memberCount ≤ maxBatchEntries) && co.flags &&& ~~~3 == 0 &&
  decide (walHeaderBytes + cohortPrefixBytes + memberCount * cohortMemberBytes + 4 = total) &&
  cohortTriple co.transition co.status (co.flags &&& 2 != 0) &&
  co.disposition == D1.Disposition.completed.code &&
  ((co.flags &&& 1 != 0) == !isZero (encRaw co.episodeUuid))

def memberOk (m : Member) : Bool :=
  resultCkOk m.resultCkLen m.resultCk && decide (extentUnchanged ≤ m.extentKind) &&
  decide (m.extentKind ≤ extentShrink) &&
  payloadRefOk m.payloadObjectId m.payloadObjectOffset incarnation

def cohortDecode : Option Cohort :=
  if h.family ≠ recCohort ∨
      h.totalBytes.toNat < walHeaderBytes + cohortPrefixBytes + cohortMemberBytes + 4 ∨
      bs.length < h.totalBytes.toNat then none
  else
    whole (decCohort (cohortPrefixOk h.totalBytes.toNat) (memberOk h.dsIncarnation))
      (walBody bs (h.totalBytes.toNat - walHeaderBytes - 4))

end Reffs.D2
