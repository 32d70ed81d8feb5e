import Reffs.D2.Canonical

/-!
# The superblock and the payload object

Both fill whole blocks, with zeros behind the record, and both are canonical like the records of the
log. What an encoder writes for a superblock is read back when its fields are in order; a payload
object is read back when it names the checksum and the size that its content has. `codecs_canonical`
puts all six together.
-/

namespace Reffs.D2

open ByteCodec ByteCodec.Dec List PayloadHeader
open Reffs.D1 (Uuid crc32c)

variable {bs : Bytes} {sb : Superblock}

lemma isZero_iff : isZero bs ↔ bs = replicate bs.length 0 := by
  grind [all_eq_true, eq_replicate_iff, isZero]

@[simp] lemma isZero_replicate (n : Nat) : isZero (replicate n 0) := by
  rw [isZero_iff, length_replicate]

/-! ## The superblock -/

def superSlot (sb : Superblock) : Bytes :=
  addSeal (crc32cDomain sbDomain) (superRecord sb) ++ List.replicate (sbSlotBytes - sbRecordBytes) 0

@[simp] lemma superRecord_length (sb : Superblock) : (superRecord sb).length = 356 := by
  simp [superRecord]

@[simp] lemma superSlot_length (sb : Superblock) : (superSlot sb).length = 4096 := by
  unfold superSlot
  rw [length_append, addSeal_length, superRecord_length, length_replicate]
  rfl

def Superblock.Writable (sb : Superblock) : Prop :=
  sb.rootHandleLen.toNat ≤ maxHandleBytes ∧ sbClean ≤ sb.state ∧ sb.state ≤ sbRetired ∧
    sb.formatFloor ≤ formatVersion

lemma superEncode_iff : superEncode sb = some bs ↔ sb.Writable ∧ bs = superSlot sb := by
  unfold superEncode Superblock.Writable
  rw [unless_iff]
  push Not
  simp only [UInt32.not_lt]
  rfl

lemma Superblock.writable_of_ok (hok : sb.ok) : sb.Writable := by
  simp only [Superblock.ok, Bool.and_eq_true, decide_eq_true_iff, beq_iff_eq] at hok
  obtain ⟨⟨⟨⟨⟨⟨⟨⟨⟨⟨⟨hlen, -⟩, hlo⟩, hhi⟩, hfloor⟩, -⟩, -⟩, -⟩, -⟩, -⟩, -⟩, -⟩ := hok
  refine ⟨hlen, hlo, hhi, ?_⟩
  rw [hfloor]
  exact UInt32.le_refl _

def decSuperRecord (expectedStore : Option Uuid) : Dec Superblock := do
  let store ← decCommon sbMagic sbSlot 36 360 expectedStore
  decSuperblock store

lemma accepts_superRecord (expectedStore : Option Uuid) :
    Accepts (decSuperRecord expectedStore) fun used sb =>
      used = superRecord sb ∧ equalOrUnspecified sb.storeUuid expectedStore := by
  unfold decSuperRecord
  refine (accepts_common sbMagic sbSlot 36 360 expectedStore).bind fun store used hstore => ?_
  refine (accepts_superblock store).mono fun more sb hsb => ?_
  obtain ⟨hmore, rfl⟩ := hsb
  have hused : used ++ more = superRecord sb := by rw [hstore.1, hmore, superRecord]
  exact And.intro hused hstore.2

lemma reads_superRecord {expectedStore : Option Uuid}
    (h : equalOrUnspecified sb.storeUuid expectedStore) :
    Reads (decSuperRecord expectedStore) (superRecord sb) sb :=
  (reads_common _ _ _ _ h).bind (reads_superblock sb)

lemma superDecode_iff {expectedStore : Option Uuid} : superDecode bs expectedStore = some sb ↔
      bs = superSlot sb ∧ sb.ok ∧ equalOrUnspecified sb.storeUuid expectedStore := by
  have hread : ∀ bs', ((whole (decSuperRecord expectedStore) bs').bind fun b =>
      if b.ok then some b else none) = some sb ↔ bs' = superRecord sb ∧
        equalOrUnspecified sb.storeUuid expectedStore ∧ sb.ok := fun bs' =>
    whole_check_iff (accepts_superRecord expectedStore) fun _ h => reads_superRecord h
  unfold superDecode
  rw [Option.ite_none_left_eq_some]
  push Not
  simp only [Bool.ne_false_iff]
  constructor
  · rintro ⟨⟨hlen, hseal, hzero⟩, hdec⟩
    obtain ⟨hrec, hstore, hok⟩ := (hread _).mp hdec
    refine ⟨?_, hok, hstore⟩
    have htail := isZero_iff.mp hzero
    rw [length_drop, hlen] at htail
    calc bs = bs.take sbRecordBytes ++ bs.drop sbRecordBytes := (take_append_drop _ bs).symm
      _ = superSlot sb := by rw [addSeal_of_sealOk hseal, hrec, htail, superSlot]
  · rintro ⟨rfl, hok, hstore⟩
    have hseal := sealOk_addSeal (crc32cDomain sbDomain) (superRecord sb)
      (replicate (sbSlotBytes - sbRecordBytes) 0)
    rw [superRecord_length] at hseal
    have hdrop : (superSlot sb).drop sbRecordBytes = replicate (sbSlotBytes - sbRecordBytes) 0 :=
      drop_left' (by rw [addSeal_length, superRecord_length])
    have htake : (superSlot sb).take (sbRecordBytes - 4) = superRecord sb := by
      unfold superSlot addSeal
      rw [append_assoc]
      exact take_left' (superRecord_length sb)
    exact ⟨⟨superSlot_length sb, hseal, by rw [hdrop, isZero_replicate]⟩,
      (hread _).mpr ⟨htake, hstore, hok⟩⟩

/-! ## The payload object -/

section Payload

variable {o : PayloadObject} {cap : Nat} {bs : Bytes} {expectedStore : Option Uuid}

lemma total_le_objectBytes (n : Nat) : 136 + n + 4 ≤ payloadObjectBytes n := by
  unfold payloadObjectBytes payloadHeaderBytes payloadAlign
  omega

lemma objectBytes_lt {n : Nat} (h : n < 2 ^ 32) : payloadObjectBytes n < 2 ^ 64 := by
  unfold payloadObjectBytes payloadHeaderBytes payloadAlign
  omega

def payloadBytes (o : PayloadObject) : Bytes :=
  let objectBytes := payloadObjectBytes o.content.length
  let total := payloadHeaderBytes + o.content.length + 4
  let header := encPayloadHeader o (UInt32.ofNat total) (UInt64.ofNat objectBytes)
  header ++ o.content ++ encU32 (crc32cDomain payDomain header) ++ List.replicate
    (objectBytes - total) 0

def PayloadObject.Writable (o : PayloadObject) : Prop :=
  o.contentCkLen.toNat ≤ 64 ∧ o.content.length ≤ 2 ^ 32 - 141 ∧
    contentChecksumOk o.contentAlg o.contentCkLen o.contentCk o.content = true ∧
    (o.objectBytes = 0 ∨ o.objectBytes.toNat = payloadObjectBytes o.content.length)

lemma payloadEncode_iff : payloadEncode o cap = some bs ↔
    o.Writable ∧ payloadObjectBytes o.content.length ≤ cap ∧ bs = payloadBytes o := by
  unfold payloadEncode PayloadObject.Writable
  dsimp only
  rw [Option.ite_none_left_eq_some, unless_iff]
  push Not
  simp only [Bool.ne_false_iff, ← or_iff_not_imp_left, and_assoc]
  rw [and_left_comm (a := payloadObjectBytes o.content.length ≤ cap)]
  rfl

def PayloadObject.header (o : PayloadObject) : PayloadHeader :=
  ⟨o.storeUuid, o.payloadObjectId, crc32c o.content, o.contentAlg, o.contentCkLen, o.contentCk,
    o.contentLen, UInt64.ofNat (payloadObjectBytes o.content.length)⟩

lemma contentLen_toNat (o : PayloadObject) : o.contentLen.toNat = o.content.length :=
  UInt32_ofNat_toNat o.content_lt

lemma encPayloadHeader_eq (o : PayloadObject) (total : UInt32) :
    encPayloadHeader o total (UInt64.ofNat (payloadObjectBytes o.content.length)) =
      o.header.bytes total := rfl

/-- A header, the content, the checksum of the header, and zeros up to the end of the last block. -/
def payloadLayout (h : PayloadHeader) (content : Bytes) : Bytes :=
  h.bytes (UInt32.ofNat (136 + content.length + 4)) ++ (content ++
    (encU32 (crc32cDomain payDomain (h.bytes (UInt32.ofNat (136 + content.length + 4)))) ++
      List.replicate (payloadObjectBytes content.length - (136 + content.length + 4)) 0))

lemma payloadBytes_eq (o : PayloadObject) : payloadBytes o = payloadLayout o.header o.content := by
  unfold payloadBytes payloadLayout
  dsimp only
  rw [encPayloadHeader_eq, append_assoc, append_assoc]

lemma header_bytes_length (h : PayloadHeader) (total : UInt32) : (h.bytes total).length = 136 := by
  unfold bytes
  simp [encCommon_length]

lemma header_bytes_total (h : PayloadHeader) {total : Nat} (ht : total < 2 ^ 32) (rest : Bytes) :
    readBe 0 (((h.bytes (UInt32.ofNat total) ++ rest).drop 12).take 4) = total := by
  have hword :
      ((h.bytes (UInt32.ofNat total) ++ rest).drop 12).take 4 = encU32 (UInt32.ofNat total) := by
    unfold bytes encCommon
    simp only [append_assoc]
    rw [← append_assoc, ← append_assoc, ← append_assoc, drop_left' (by simp),
      take_left' (by simp)]
  rw [hword, encU32, readBe_encBe, UInt32_ofNat_toNat ht]
  simpa using ht

structure PayloadHeader.Fits (h : PayloadHeader) (content : Bytes) (expectedStore : Option Uuid) :
    Prop where
  contentLen : h.contentLen.toNat = content.length
  small : 136 + content.length + 4 < 2 ^ 32
  objectBytes : h.objectBytes.toNat = payloadObjectBytes content.length
  ckLen : h.contentCkLen.toNat ≤ 64
  ckZero : isZero ((encRaw h.contentCk).drop h.contentCkLen.toNat) = true
  store : equalOrUnspecified h.storeUuid expectedStore = true

def PayloadHeader.object (h : PayloadHeader) (content : Bytes) (hlt : content.length < 2 ^ 32) :
    PayloadObject :=
  ⟨h.storeUuid, h.payloadObjectId, h.storedCrc, h.contentAlg, h.contentCkLen, h.contentCk,
    h.objectBytes, content, hlt⟩

/-- Whether a content is what the checksums in its header say. -/
def PayloadHeader.contentOk (h : PayloadHeader) (content : Bytes) : Bool :=
  h.storedCrc == crc32c content && contentChecksumOk h.contentAlg h.contentCkLen h.contentCk content

lemma word_eq_of_readBe {w : Bytes} {v : UInt32} (hlen : w.length = 4) (h : readBe 0 w = v.toNat) :
    w = encU32 v := by
  have hback := encBe_readBe w 0
  rw [hlen, h] at hback
  exact hback.symm

lemma payloadDecodeContent_some {flag : Bool}
    (hdec : payloadDecodeContent bs expectedStore = some (o, flag)) :
    ∃ h : PayloadHeader, h.Fits o.content expectedStore ∧ o = h.object o.content o.content_lt ∧
      flag = h.contentOk o.content ∧
      bs.take (payloadObjectBytes o.content.length) = payloadLayout h o.content := by
  unfold payloadDecodeContent at hdec
  split at hdec
  · cases hdec
  dsimp only at hdec
  split at hdec
  · cases hdec
  next hshort htotal =>
  push Not at htotal
  obtain ⟨h, hread, hrest⟩ := Option.bind_eq_some_iff.mp hdec
  split at hrest
  · cases hrest
  next hargs =>
  push Not at hargs
  obtain ⟨hck, hckZero, hsum, hobj, hroom, hcrc, hzero⟩ := hargs
  obtain ⟨hbytes, hstore⟩ := (accepts_payloadHeader _ _).whole hread
  obtain ⟨ho, hflag⟩ := Prod.mk.inj (Option.some.inj hrest)
  generalize htot : readBe 0 ((bs.drop 12).take 4) = total at *
  have hmin : 136 + 4 ≤ total := htotal.1
  have hlen32 := h.contentLen.toNat_lt
  -- the sum of the sizes did not wrap, since the size is no less than a header
  have htotal' : total = 136 + h.contentLen.toNat + 4 := by grind
  have hword : total < 2 ^ 32 := by grind
  have hcontent : o.content = (bs.drop 136).take h.contentLen.toNat := by rw [← ho]
  have hlen : o.content.length = h.contentLen.toNat := by grind
  have hcrcBytes :
      (bs.drop (total - 4)).take 4 = encU32 (crc32cDomain payDomain (bs.take 136)) := by
    refine word_eq_of_readBe ?_ hcrc
    rw [length_take, length_drop]
    omega
  have hobj' : h.objectBytes.toNat = payloadObjectBytes o.content.length := by rw [hlen]; exact hobj
  have hblocks := total_le_objectBytes o.content.length
  have htail : (bs.drop total).take (h.objectBytes.toNat - total) =
      replicate (h.objectBytes.toNat - total) 0 := by
    have hz := isZero_iff.mp (Bool.eq_true_of_not_eq_false hzero)
    rw [length_take, length_drop, Nat.min_eq_left (by omega)] at hz
    exact hz
  refine ⟨h, ⟨hlen.symm, by omega, hobj', hck, Bool.eq_true_of_not_eq_false hckZero, hstore⟩,
    ?_, ?_, ?_⟩
  · rw [← ho]
    rfl
  · rw [← hflag, hcontent]
    rfl
  · have htot32 : 136 + o.content.length + 4 = total := by omega
    unfold payloadLayout
    rw [htot32, ← hbytes, ← hcrcBytes, ← hobj', ← htail, hcontent]
    -- the string is cut at the places where its parts begin
    have h1 : bs.take h.objectBytes.toNat =
        bs.take 136 ++ (bs.drop 136).take (h.objectBytes.toNat - 136) := by
      rw [← take_add, show 136 + (h.objectBytes.toNat - 136) = h.objectBytes.toNat by omega]
    have h2 :
        (bs.drop 136).take (h.objectBytes.toNat - 136) = (bs.drop 136).take h.contentLen.toNat ++
          (bs.drop (total - 4)).take (h.objectBytes.toNat - (total - 4)) := by
      rw [show h.objectBytes.toNat - 136 =
        h.contentLen.toNat + (h.objectBytes.toNat - (total - 4)) by omega, take_add,
        drop_drop, show 136 + h.contentLen.toNat = total - 4 by omega]
    have h3 : (bs.drop (total - 4)).take (h.objectBytes.toNat - (total - 4)) =
        (bs.drop (total - 4)).take 4 ++ (bs.drop total).take (h.objectBytes.toNat - total) := by
      rw [show h.objectBytes.toNat - (total - 4) = 4 + (h.objectBytes.toNat - total) by omega,
        take_add, drop_drop, show total - 4 + 4 = total by omega]
    rw [h1, h2, h3]

lemma payloadDecodeContent_layout {h : PayloadHeader} {content : Bytes}
    (hfits : h.Fits content expectedStore) (hlt : content.length < 2 ^ 32) :
    payloadDecodeContent (payloadLayout h content) expectedStore =
      some (h.object content hlt, h.contentOk content) := by
  have hblocks := total_le_objectBytes content.length
  have hsmall := hfits.small
  unfold payloadLayout
  generalize hH : h.bytes (UInt32.ofNat (136 + content.length + 4)) = head
  have hhead : head.length = 136 := by rw [← hH, header_bytes_length]
  generalize hZ : replicate (payloadObjectBytes content.length - (136 + content.length + 4))
    (0 : UInt8) = tail
  have htailLen : tail.length = payloadObjectBytes content.length - (136 + content.length + 4) := by
    grind
  generalize hC : encU32 (crc32cDomain payDomain head) = crc
  have hcrcLen : crc.length = 4 := by rw [← hC, encU32_length]
  have hlen : (head ++ (content ++ (crc ++ tail))).length = payloadObjectBytes content.length := by
    simp only [length_append]
    omega
  have htotal : readBe 0 (((head ++ (content ++ (crc ++ tail))).drop 12).take 4) =
      136 + content.length + 4 := by
    rw [← hH]
    exact header_bytes_total h hsmall _
  have htake : (head ++ (content ++ (crc ++ tail))).take 136 = head := take_left' hhead
  have hcontent :
      ((head ++ (content ++ (crc ++ tail))).drop 136).take content.length = content := by grind
  have hcrc : ((head ++ (content ++ (crc ++ tail))).drop (136 + content.length)).take 4 = crc := by
    grind
  have htail : (head ++ (content ++ (crc ++ tail))).drop (136 + content.length + 4) = tail := by
    grind [append_assoc, drop_left', length_append]
  generalize head ++ (content ++ (crc ++ tail)) = bs at *
  have hread : whole (decPayloadHeader (UInt32.ofNat (136 + content.length + 4)) expectedStore)
      (bs.take 136) = some h := by
    rw [htake, ← hH]
    exact (reads_payloadHeader hfits.store).whole
  unfold payloadDecodeContent payloadHeaderBytes
  dsimp only
  rw [htotal, if_neg (by omega), if_neg (by omega), hread]
  show (if _ then _ else _) = _
  rw [if_neg]
  · have hpart : (bs.drop 136).take h.contentLen.toNat = content := by
      rw [hfits.contentLen]
      exact hcontent
    simp only [hpart]
    rfl
  · push Not
    refine ⟨hfits.ckLen, ?_, ?_, ?_, ?_, ?_, ?_⟩
    · rw [hfits.ckZero]
      exact Bool.noConfusion
    · rw [hfits.contentLen, Nat.mod_eq_of_lt hsmall]
    · rw [hfits.objectBytes, hfits.contentLen]
    · rw [hfits.objectBytes, hlen]
    · rw [show 136 + content.length + 4 - 4 = 136 + content.length by omega, hcrc, htake, ← hC]
      rw [encU32, readBe_encBe, Nat.zero_mul, Nat.zero_add]
      exact Nat.mod_eq_of_lt (UInt32.toNat_lt _)
    · grind [take_length, hfits.objectBytes, isZero_replicate]

lemma PayloadObject.header_fits (hw : o.Writable)
    (hstore : equalOrUnspecified o.storeUuid expectedStore) :
    o.header.Fits o.content expectedStore where
  contentLen := contentLen_toNat o
  small := by
    have hlen := hw.2.1
    omega
  objectBytes := by
    show (UInt64.ofNat _).toNat = _
    rw [UInt64.toNat_ofNat', Nat.mod_eq_of_lt (objectBytes_lt o.content_lt)]
  ckLen := hw.1
  ckZero := by
    have hsum := hw.2.2.1
    unfold contentChecksumOk at hsum
    split at hsum
    · cases hsum
    · rw [Bool.and_eq_true, Bool.and_eq_true, decide_eq_true_iff] at hsum
      show isZero ((encRaw o.contentCk).drop o.contentCkLen.toNat)
      rw [← hsum.1.1]
      exact hsum.2
  store := hstore

lemma payloadDecode_some (hdec : payloadDecode bs expectedStore = some o) :
    payloadDecodeContent bs expectedStore = some (o, true) := by
  obtain ⟨⟨o', flag⟩, hcontent, hcheck⟩ := Option.bind_eq_some_iff.mp hdec
  obtain ⟨rfl, ho⟩ := Option.ite_none_right_eq_some.mp hcheck
  rwa [← Option.some.inj ho]

theorem payloadEncode_of_decode (hdec : payloadDecode bs expectedStore = some o)
    (hcap : payloadObjectBytes o.content.length ≤ cap) :
    payloadEncode o cap = some (bs.take (payloadObjectBytes o.content.length)) := by
  obtain ⟨h, hfits, ho, hflag, hbytes⟩ := payloadDecodeContent_some (payloadDecode_some hdec)
  have hok := hflag.symm
  unfold contentOk at hok
  rw [Bool.and_eq_true, beq_iff_eq] at hok
  have hcrc : h.storedCrc = crc32c o.content := hok.1
  -- what the header says is what the encoder would say
  have hheader : o.header = h := by
    have hfields : o.storeUuid = h.storeUuid ∧ o.payloadObjectId = h.payloadObjectId ∧
        o.contentAlg = h.contentAlg ∧ o.contentCkLen = h.contentCkLen ∧
          o.contentCk = h.contentCk := by
      rw [ho]
      exact ⟨rfl, rfl, rfl, rfl, rfl⟩
    obtain ⟨h1, h2, h3, h4, h5⟩ := hfields
    have h6 : o.contentLen = h.contentLen :=
      UInt32.toNat_inj.mp (by rw [contentLen_toNat, hfits.contentLen])
    have h7 : UInt64.ofNat (payloadObjectBytes o.content.length) = h.objectBytes := by
      grind [UInt64.ofNat_toNat, hfits.objectBytes]
    unfold PayloadObject.header
    rw [h1, h2, h3, h4, h5, h6, h7, ← hcrc]
  refine payloadEncode_iff.mpr ⟨⟨?_, ?_, ?_, ?_⟩, hcap, ?_⟩
  · rw [ho]
    exact hfits.ckLen
  · have hsmall := hfits.small
    omega
  · rw [ho]
    exact hok.2
  · refine .inr ?_
    rw [← hfits.objectBytes, ho]
    rfl
  · rw [hbytes, payloadBytes_eq, hheader]

/-- **An object that is written is read back exactly when it names the checksum and the size that
its content has.** -/
theorem payloadDecode_of_encode (henc : payloadEncode o cap = some bs) :
    payloadDecode bs expectedStore = some o ↔ o.contentCrc32c = crc32c o.content ∧
        o.objectBytes.toNat = payloadObjectBytes o.content.length ∧
        equalOrUnspecified o.storeUuid expectedStore := by
  obtain ⟨hw, -, rfl⟩ := payloadEncode_iff.mp henc
  constructor
  · intro hdec
    obtain ⟨h, hfits, ho, hflag, -⟩ := payloadDecodeContent_some (payloadDecode_some hdec)
    have hok := hflag.symm
    unfold contentOk at hok
    rw [Bool.and_eq_true, beq_iff_eq] at hok
    refine ⟨?_, ?_, ?_⟩
    · rw [← hok.1, ho]
      rfl
    · rw [← hfits.objectBytes, ho]
      rfl
    · rw [ho]
      exact hfits.store
  · rintro ⟨hcrc, hobj, hstore⟩
    have hlayout := payloadDecodeContent_layout (PayloadObject.header_fits hw hstore) o.content_lt
    have hobject : o.header.object o.content o.content_lt = o := by
      have hsize : UInt64.ofNat (payloadObjectBytes o.content.length) = o.objectBytes := by
        grind [UInt64.ofNat_toNat]
      unfold object PayloadObject.header
      dsimp only
      rw [hsize, ← hcrc]
    have hflag : o.header.contentOk o.content := by
      unfold contentOk
      rw [Bool.and_eq_true, beq_iff_eq]
      exact ⟨rfl, hw.2.2.1⟩
    rw [payloadBytes_eq]
    unfold payloadDecode
    rw [hlayout, hobject, hflag]
    rfl

end Payload

/-! ## All codecs -/

/-- Every record that is read is written again with the same bytes. -/
def LogCodec.Canonical {α : Type} (c : LogCodec α) : Prop :=
  ∀ bs expectedStore expectedWal h x cap, c.read bs expectedStore expectedWal = some (h, x) →
    h.totalBytes.toNat ≤ cap → c.encode h x cap = some (bs.take h.totalBytes.toNat)

/-- A record that is written is read back, as the same header and value, if and only if the header
has the size of the record and passes the log's checks, and the value passes the decoder's. -/
def LogCodec.ReadsBack {α : Type} (c : LogCodec α) : Prop :=
  ∀ h x cap bs expectedStore expectedWal, c.encode h x cap = some bs →
    (c.read bs expectedStore expectedWal = some (h, x) ↔
      h.totalBytes.toNat = bs.length ∧ h.ok bs.length expectedStore expectedWal = true ∧ c.ok h x)

/-- **The six codecs are canonical**, and each reads back what it writes exactly when the fields
meet what its decoder asks. -/
theorem codecs_canonical :
    (∀ bs expectedStore sb, superDecode bs expectedStore = some sb → superEncode sb = some bs) ∧
    (∀ sb bs expectedStore, superEncode sb = some bs → (superDecode bs expectedStore = some sb ↔
        sb.ok = true ∧ equalOrUnspecified sb.storeUuid expectedStore = true)) ∧
    (∀ bs expectedStore o cap, payloadDecode bs expectedStore = some o →
      payloadObjectBytes o.content.length ≤ cap →
      payloadEncode o cap = some (bs.take (payloadObjectBytes o.content.length))) ∧
    (∀ o cap bs expectedStore, payloadEncode o cap = some bs →
      (payloadDecode bs expectedStore = some o ↔
        o.contentCrc32c = crc32c o.content ∧
          o.objectBytes.toNat = payloadObjectBytes o.content.length ∧
          equalOrUnspecified o.storeUuid expectedStore = true)) ∧
    startCodec.Canonical ∧ startCodec.ReadsBack ∧ controlCodec.Canonical ∧ controlCodec.ReadsBack ∧
    entryCodec.Canonical ∧ entryCodec.ReadsBack ∧ cohortCodec.Canonical ∧
      cohortCodec.ReadsBack := by
  have hlog : ∀ {α : Type} (c : LogCodec α), c.Canonical ∧ c.ReadsBack := fun c =>
    ⟨fun _ _ _ _ _ _ hread hcap => c.encode_of_read hread hcap, fun _ _ _ _ _ _ henc =>
      c.read_of_encode henc⟩
  refine ⟨?_, ?_, fun _ _ _ _ hdec hcap => payloadEncode_of_decode hdec hcap,
    fun _ _ _ _ henc => payloadDecode_of_encode henc, (hlog _).1, (hlog _).2, (hlog _).1,
      (hlog _).2,
    (hlog _).1, (hlog _).2, (hlog _).1, (hlog _).2⟩
  · intro bs expectedStore sb hdec
    obtain ⟨rfl, hok, -⟩ := superDecode_iff.mp hdec
    exact superEncode_iff.mpr ⟨Superblock.writable_of_ok hok, rfl⟩
  · intro sb bs expectedStore henc
    obtain ⟨-, rfl⟩ := superEncode_iff.mp henc
    rw [superDecode_iff]
    exact ⟨fun h => h.2, fun h => ⟨rfl, h⟩⟩

def leastSuper (generation : UInt64) : Superblock where
  storeUuid := zeros 16
  generation := generation
  fsUuid := zeros 16
  fsDevHint := 0
  rootHandleType := 0
  rootHandleLen := 0
  rootHandle := zeros 128
  exportUuid := zeros 16
  dsIncarnation := 0
  verifierEpoch := 0
  writeVerifier := zeros 8
  walUuid := zeros 16
  payloadUuid := zeros 16
  bindingTokenDigest := zeros 32
  walDurableLsn := 0
  walDurableBytes := 0
  payloadDurableBytes := 0
  capacityWalBytes := 3352972
  capacityPayloadBytes := 8192
  state := sbClean
  formatFloor := formatVersion

lemma leastSuper_ok : (leastSuper 1).ok := by decide +kernel

theorem leastSuper_readsBack : superDecode (superSlot (leastSuper 1)) none = some (leastSuper 1) :=
  (codecs_canonical.2.1 (leastSuper 1) (superSlot (leastSuper 1)) none
    (superEncode_iff.mpr ⟨Superblock.writable_of_ok leastSuper_ok, rfl⟩)).mpr ⟨leastSuper_ok, rfl⟩

/-- A superblock of generation 0 is written, and refused when it is read. -/
theorem generationZero_refused : ∃ bs, superEncode (leastSuper 0) = some bs ∧
    superDecode bs none ≠ some (leastSuper 0) := by
  have hwritable : (leastSuper 0).Writable := by
    unfold Superblock.Writable
    decide
  refine ⟨superSlot (leastSuper 0), superEncode_iff.mpr ⟨hwritable, rfl⟩, fun hdec => ?_⟩
  have hok := (superDecode_iff.mp hdec).2.1
  exact absurd hok (by decide +kernel)

end Reffs.D2
