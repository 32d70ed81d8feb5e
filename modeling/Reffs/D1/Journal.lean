import Reffs.D1.Codec
import Reffs.D1.Digest

/-!
# The journal

`d1_journal.c`: framed records in a growing buffer. An append writes a record past the durable
prefix, a flush makes everything written durable, and a rollback drops what was not. A cursor reads
the durable bytes back one record at a time.
-/

namespace Reffs.D1

open ByteCodec ByteCodec.Dec List RecordType

def journalMagic : UInt32 := 0x44314a31
def journalFormat : UInt16 := 2
def journalHeaderBytes : Nat := 56
def journalTrailerBytes : Nat := 4

structure Journal where
  /-- What has been written; `len` of the source is its length. -/
  buf : Bytes
  durable : Nat
  durableLsn : UInt64
  nextLsn : UInt64
  incarnation : UInt64
  storeUuid : Uuid
  failAppendIn : UInt32
  failNextFlush : Bool
  deriving DecidableEq, Repr

def journalInit (storeUuid : Uuid) : Journal where
  buf := []
  durable := 0
  durableLsn := 1
  nextLsn := 1
  incarnation := 0
  storeUuid := storeUuid
  failAppendIn := 0
  failNextFlush := false

def Journal.durableBytes (j : Journal) : Bytes := j.buf.take j.durable

/-! ## Records on the wire -/

/-- The 56 header bytes of a record whose body has `len` bytes. -/
def recordHeader (storeUuid : Uuid) (lsn incarnation : UInt64) (type : RecordType) (len : Nat) :
    Bytes :=
  let total := UInt32.ofNat (journalHeaderBytes + len + journalTrailerBytes)
  encU32 journalMagic ++ encU16 journalFormat ++ encU16 type.code ++
    encU32 (UInt32.ofNat journalHeaderBytes) ++ encU32 total ++ encU32 (~~~total) ++
    encRaw storeUuid ++ encU64 lsn ++ encU64 incarnation ++ encU32 0

def recordPrologue (storeUuid : Uuid) (lsn incarnation : UInt64) (type : RecordType)
    (body : Bytes) : Bytes :=
  recordHeader storeUuid lsn incarnation type body.length ++ body

def recordFrame (storeUuid : Uuid) (lsn incarnation : UInt64) (type : RecordType)
    (body : Bytes) : Bytes :=
  recordPrologue storeUuid lsn incarnation type body ++
    encU32 (crc32c (recordPrologue storeUuid lsn incarnation type body))

def journalAppend (j : Journal) (type : RecordType) (body : Bytes) : Bool × Journal :=
  if j.failAppendIn = 1 then (false, { j with failAppendIn := 0 })
  else
    -- An armed countdown goes down by one; an unarmed one stays at zero.
    let j := { j with failAppendIn := if j.failAppendIn = 0 then 0 else j.failAppendIn - 1 }
    if journalHeaderBytes + body.length + journalTrailerBytes > journalRecordMax then (false, j)
    else if j.nextLsn = 0xffffffffffffffff then (false, j)
    else
      (true, { j with
        buf := j.buf ++ recordFrame j.storeUuid j.nextLsn j.incarnation type body
        nextLsn := j.nextLsn + 1 })

def recordFits (body : Bytes) : Prop :=
  journalHeaderBytes + body.length + journalTrailerBytes ≤ journalRecordMax

lemma journalAppend_cases (j : Journal) (type : RecordType) (body : Bytes) :
    (∃ n, journalAppend j type body = (false, { j with failAppendIn := n })) ∨
      (∃ n, recordFits body ∧ j.nextLsn ≠ 0xffffffffffffffff ∧
        journalAppend j type body = (true, { j with
          failAppendIn := n
          buf := j.buf ++ recordFrame j.storeUuid j.nextLsn j.incarnation type body
          nextLsn := j.nextLsn + 1 })) := by
  unfold journalAppend
  split
  · exact .inl ⟨_, rfl⟩
  dsimp only
  split
  · exact .inl ⟨_, rfl⟩
  next hfit =>
  split
  · exact .inl ⟨_, rfl⟩
  next hlsn => exact .inr ⟨_, by unfold recordFits; omega, hlsn, rfl⟩

def journalAdopt (j : Journal) (log : Bytes) (nextLsn : UInt64) : Option Journal :=
  if j.buf ≠ [] then none
  else some { j with
    buf := log
    durable := log.length
    nextLsn := nextLsn
    durableLsn := nextLsn }

def journalFlush (j : Journal) : Bool × Journal :=
  if j.failNextFlush then (false, { j with failNextFlush := false })
  else (true, { j with durable := j.buf.length, durableLsn := j.nextLsn })

def journalRollback (j : Journal) : Journal :=
  { j with buf := j.buf.take j.durable, nextLsn := j.durableLsn }

/-! ## Reading back -/

/-- A reader of durable bytes: what is left to read and the LSN of the record before it. -/
structure JournalCursor where
  rest : Bytes
  expectUuid : Uuid
  lastLsn : UInt64
  deriving DecidableEq, Repr

def journalCursorInit (log : Bytes) (expectUuid : Uuid) : JournalCursor := ⟨log, expectUuid, 0⟩

structure JournalRecord where
  type : RecordType
  lsn : UInt64
  incarnation : UInt64
  body : Bytes
  deriving DecidableEq, Repr

inductive JournalRead where
  | record (r : JournalRecord) (next : JournalCursor)
  | cleanEnd
  | corrupt
  deriving DecidableEq, Repr

def RecordType.ofCode (code : UInt16) : Option RecordType :=
  if code = 1 then some .start
  else if code = 2 then some .control
  else if code = 3 then some .entry
  else if code = 4 then some .cohort
  else none

structure RecordHeader where
  type : RecordType
  total : UInt32
  lsn : UInt64
  incarnation : UInt64

/-- The header, with every check that does not need the rest of the record. -/
def decRecordHeader (expectUuid : Uuid) (remaining : Nat) : Dec RecordHeader := do
  let magic ← decU32
  Dec.require (magic == journalMagic)
  let format ← decU16
  Dec.require (format == journalFormat)
  let rtype ← decU16
  let headerBytes ← decU32
  Dec.require (headerBytes == UInt32.ofNat journalHeaderBytes)
  let total ← decU32
  let complement ← decU32
  Dec.require (complement == ~~~total)
  Dec.require (journalHeaderBytes + journalTrailerBytes ≤ total.toNat ∧
    total.toNat ≤ journalRecordMax ∧ total.toNat ≤ remaining)
  let uuid ← decRaw 16
  Dec.require (uuid == expectUuid)
  let lsn ← decU64
  let incarnation ← decU64
  let reserved ← decU32
  Dec.require (reserved == 0)
  match RecordType.ofCode rtype with
  | some type => pure ⟨type, total, lsn, incarnation⟩
  | none => Dec.fail

def journalNext (c : JournalCursor) : JournalRead :=
  if c.rest = [] then .cleanEnd
  else if c.rest.length < journalHeaderBytes + journalTrailerBytes then .corrupt
  else match (decRecordHeader c.expectUuid c.rest.length).run c.rest with
    | none => .corrupt
    | some (h, _) =>
      if h.lsn ≠ c.lastLsn + 1 then .corrupt
      else
        let record := c.rest.take h.total.toNat
        let covered := record.take (h.total.toNat - journalTrailerBytes)
        let stored := record.drop (h.total.toNat - journalTrailerBytes)
        if encU32 (crc32c covered) ≠ stored then .corrupt
        else .record ⟨h.type, h.lsn, h.incarnation, covered.drop journalHeaderBytes⟩
          { c with rest := c.rest.drop h.total.toNat, lastLsn := h.lsn }

/-! ## What was written reads back -/

@[simp] lemma RecordType.ofCode_code (t : RecordType) : ofCode t.code = some t := by
  cases t <;> rfl

section Frame

variable (uuid : Uuid) (lsn incarnation : UInt64) (type : RecordType) (body : Bytes)

lemma recordHeader_length (len : Nat) :
    (recordHeader uuid lsn incarnation type len).length = journalHeaderBytes := by
  simp [recordHeader, journalHeaderBytes]

lemma recordPrologue_length :
    (recordPrologue uuid lsn incarnation type body).length = journalHeaderBytes + body.length := by
  rw [recordPrologue, length_append, recordHeader_length]

lemma recordFrame_length : (recordFrame uuid lsn incarnation type body).length =
    journalHeaderBytes + body.length + journalTrailerBytes := by
  rw [recordFrame, length_append, recordPrologue_length, encU32_length]
  rfl

lemma total_toNat {len : Nat}
    (h : journalHeaderBytes + len + journalTrailerBytes ≤ journalRecordMax) :
    (UInt32.ofNat (journalHeaderBytes + len + journalTrailerBytes)).toNat =
      journalHeaderBytes + len + journalTrailerBytes :=
  UInt32_ofNat_toNat (h.trans_lt (by decide))

lemma reads_recordHeader {len remaining : Nat}
    (h : journalHeaderBytes + len + journalTrailerBytes ≤ journalRecordMax)
    (hr : journalHeaderBytes + len + journalTrailerBytes ≤ remaining) :
    Reads (decRecordHeader uuid remaining) (recordHeader uuid lsn incarnation type len)
      ⟨type, UInt32.ofNat (journalHeaderBytes + len + journalTrailerBytes), lsn, incarnation⟩ := by
  simp only [recordHeader, append_assoc]
  refine .field <| Reads.require (beq_self_eq_true _) <|
    .field <| Reads.require (beq_self_eq_true _) <| .field <|
    .field <| Reads.require (beq_self_eq_true _) <| .field <|
    .field <| Reads.require (beq_self_eq_true _) <| Reads.require ?_ <|
    .field <| Reads.require (beq_self_eq_true _) <| .field <|
    .field <| (reads_u32 _).last ?_
  · rw [total_toNat h]
    exact decide_eq_true ⟨by omega, h, hr⟩
  · cases type <;> rfl

theorem journalNext_frame (h : journalHeaderBytes + body.length + journalTrailerBytes ≤
    journalRecordMax) (rest : Bytes) {last : UInt64} (hlsn : lsn = last + 1) :
    journalNext ⟨recordFrame uuid lsn incarnation type body ++ rest, uuid, last⟩ =
      .record ⟨type, lsn, incarnation, body⟩ ⟨rest, uuid, lsn⟩ := by
  have hlen := recordFrame_length uuid lsn incarnation type body
  have hpro := recordPrologue_length uuid lsn incarnation type body
  have hall : (recordFrame uuid lsn incarnation type body ++ rest).length =
      journalHeaderBytes + body.length + journalTrailerBytes + rest.length := by grind
  have hne : ¬ recordFrame uuid lsn incarnation type body ++ rest = [] := by
    intro hnil
    rw [hnil, length_nil] at hall
    have : journalHeaderBytes = 56 := rfl
    omega
  have hhdr := reads_recordHeader uuid lsn incarnation type h (Nat.le_add_right _ rest.length)
    (body ++ (encU32 (crc32c (recordPrologue uuid lsn incarnation type body)) ++ rest))
  have hcat : recordHeader uuid lsn incarnation type body.length ++ (body ++
      (encU32 (crc32c (recordPrologue uuid lsn incarnation type body)) ++ rest)) =
        recordFrame uuid lsn incarnation type body ++ rest := by
          grind [append_assoc, recordFrame, recordPrologue]
  rw [hcat, ← hall] at hhdr
  have hcov : journalHeaderBytes + body.length + journalTrailerBytes - journalTrailerBytes =
      (recordPrologue uuid lsn incarnation type body).length := by
    rw [hpro]; omega
  have hbody : (recordPrologue uuid lsn incarnation type body).drop journalHeaderBytes = body := by
    rw [recordPrologue, ← recordHeader_length uuid lsn incarnation type body.length,
      drop_left]
  simp only [journalNext, hhdr, if_neg hne, total_toNat h]
  rw [if_neg (by rw [hall]; omega), if_neg (by simp [hlsn]), hcov, ← hlen, take_left,
    drop_left]
  simp [recordFrame, hbody]

end Frame

/-! ## What reads was written -/

lemma RecordType.code_of_ofCode {code : UInt16} {t : RecordType}
    (h : ofCode code = some t) : t.code = code := by
  unfold ofCode at h
  iterate 4
    rcases ite_eq_iff.mp h with ⟨rfl, ht⟩ | ⟨-, h⟩
    · cases ht
      rfl
  cases h

lemma accepts_recordHeader (uuid : Uuid) (remaining : Nat) :
    Accepts (decRecordHeader uuid remaining) fun used h =>
      ∃ len, used = recordHeader uuid h.lsn h.incarnation h.type len ∧
        h.total.toNat = journalHeaderBytes + len + journalTrailerBytes ∧
        h.total.toNat ≤ journalRecordMax ∧ h.total.toNat ≤ remaining := by
  refine .field fun magic => .require fun hmagic => .field fun format =>
    .require fun hformat => .field fun rtype => .field fun headerBytes =>
    .require fun hheader => .field fun total => .field fun complement =>
    .require fun hcomp => .require fun hbound => .field fun id => .require fun hid =>
    .field fun lsn => .field fun incarnation => .field fun reserved =>
    .require fun hreserved => ?_
  cases htype : ofCode rtype with
  | none => exact .fail
  | some type =>
    obtain rfl := code_of_ofCode htype
    obtain rfl := eq_of_beq hmagic
    obtain rfl := eq_of_beq hformat
    obtain rfl := eq_of_beq hheader
    obtain rfl := eq_of_beq hcomp
    obtain rfl := eq_of_beq hid
    obtain rfl := eq_of_beq hreserved
    obtain ⟨hlow, hmax, hrem⟩ := of_decide_eq_true hbound
    have htotal : journalHeaderBytes + (total.toNat - (journalHeaderBytes + journalTrailerBytes)) +
        journalTrailerBytes = total.toNat := by omega
    refine .pure ⟨_, ?_, htotal.symm, hmax, hrem⟩
    rw [recordHeader, htotal, UInt32.ofNat_toNat]
    simp

lemma recordFrame_of_cut {uuid : Uuid} {lsn incarnation : UInt64} {type : RecordType}
    {len total : Nat} {tail : Bytes}
    (htotal : total = journalHeaderBytes + len + journalTrailerBytes)
    (hlen : total ≤ (recordHeader uuid lsn incarnation type len ++ tail).length)
    {record covered : Bytes}
    (hrecord : record = (recordHeader uuid lsn incarnation type len ++ tail).take total)
    (hcovered : covered = record.take (total - journalTrailerBytes))
    (hcrc : encU32 (crc32c covered) = record.drop (total - journalTrailerBytes)) :
    (covered.drop journalHeaderBytes).length = len ∧
      record = recordFrame uuid lsn incarnation type (covered.drop journalHeaderBytes) := by
  have hsize : covered.length = journalHeaderBytes + len := by
    rw [hcovered, hrecord, take_take, length_take, Nat.min_eq_left]
    · omega
    · exact (Nat.min_le_right _ _).trans hlen
  have hbody : (covered.drop journalHeaderBytes).length = len := by
    rw [length_drop, hsize, Nat.add_sub_cancel_left]
  have hhead : covered.take journalHeaderBytes = recordHeader uuid lsn incarnation type len := by
    have hmin : min (min journalHeaderBytes (total - journalTrailerBytes)) total =
        journalHeaderBytes := by omega
    rw [hcovered, hrecord, take_take, take_take, hmin,
      ← recordHeader_length uuid lsn incarnation type len, take_left]
  have hprologue : recordPrologue uuid lsn incarnation type (covered.drop journalHeaderBytes) =
      covered := by
    rw [recordPrologue, hbody, ← hhead, take_append_drop]
  refine ⟨hbody, ?_⟩
  rw [recordFrame, hprologue, hcrc, hcovered, take_append_drop]

lemma journalNext_cleanEnd {c : JournalCursor} (h : journalNext c = .cleanEnd) : c.rest = [] := by
  unfold journalNext at h
  split at h
  · next hnil => exact hnil
  · grind

theorem journalNext_record {c next : JournalCursor} {r : JournalRecord}
    (h : journalNext c = .record r next) :
    c.rest = recordFrame c.expectUuid r.lsn r.incarnation r.type r.body ++ next.rest ∧
      r.lsn = c.lastLsn + 1 ∧ next.expectUuid = c.expectUuid ∧ next.lastLsn = r.lsn ∧
      journalHeaderBytes + r.body.length + journalTrailerBytes ≤ journalRecordMax := by
  unfold journalNext at h
  split at h
  · cases h
  · split at h
    · cases h
    · split at h
      · cases h
      · next hd tail hrun =>
        split at h
        · cases h
        · next hlsn =>
          dsimp only at h
          split at h
          · cases h
          · next hcrc =>
            obtain ⟨rfl, rfl⟩ := JournalRead.record.inj h
            obtain ⟨used, hrest, len, rfl, htotal, hmax, hrem⟩ :=
              accepts_recordHeader _ _ _ _ _ hrun
            rw [hrest] at hcrc hrem ⊢
            obtain ⟨hlen, hframe⟩ := recordFrame_of_cut htotal hrem rfl rfl
              (not_not.mp hcrc)
            refine ⟨?_, not_not.mp hlsn, rfl, rfl, ?_⟩
            · dsimp only
              rw [← hframe, take_append_drop]
            · grind

end Reffs.D1
