import Reffs.D2.Format

/-!
# What the field lists spell

The encoder and the decoder of a record name its fields one by one. Each decoder reads what the
encoder beside it writes, and accepts nothing else, so the two lists agree field by field. Only the
key of a request is checked while it is read.
-/

namespace Reffs.D2

open ByteCodec ByteCodec.Dec List
open Reffs.D1 (Uuid Digest crc32c)

/-! ## The common prologue -/

lemma xor_eq_ones {a b : UInt32} : a ^^^ b = 0xffffffff ↔ b = ~~~a := by
  constructor
  · intro h
    have hback : a ^^^ (a ^^^ b) = b := by rw [← UInt32.xor_assoc, UInt32.xor_self, UInt32.zero_xor]
    rw [← hback, h]
    exact UInt32.xor_neg_one
  · rintro rfl
    rw [UInt32.xor_not, UInt32.xor_self]
    rfl

section

variable (magic : UInt32) (type : UInt16) (header total : UInt32)

include header total

@[simp] lemma encCommon_length (store : Uuid) :
    (encCommon magic type header total store).length = 36 := by
  simp [encCommon]

lemma accepts_common (expected : Option Uuid) :
    Accepts (decCommon magic type header total expected) fun used store =>
      used = encCommon magic type header total store ∧ equalOrUnspecified store expected := by
  unfold decCommon
  repeat refine .field fun _ => ?_
  refine .require fun h => .pure ?_
  simp only [Bool.and_eq_true, beq_iff_eq, xor_eq_ones] at h
  obtain ⟨⟨⟨⟨⟨⟨rfl, rfl⟩, rfl⟩, rfl⟩, rfl⟩, rfl⟩, hstore⟩ := h
  exact ⟨by simp [encCommon], hstore⟩

lemma reads_common {store : Uuid} {expected : Option Uuid} (h : equalOrUnspecified store expected) :
    Reads (decCommon magic type header total expected) (encCommon magic type header total store)
      store := by
  refine .ended ?_
  simp only [encCommon, append_assoc]
  repeat refine .field ?_
  refine .require ?_ (.pure _)
  simp [xor_eq_ones, h]

end

/-! ## The superblock -/

@[simp] lemma encSuperblock_length (sb : Superblock) : (encSuperblock sb).length = 320 := by
  unfold encSuperblock
  simp

lemma accepts_superblock (store : Uuid) :
    Accepts (decSuperblock store) fun used sb => used = encSuperblock sb ∧
      sb.storeUuid = store := by
  unfold decSuperblock
  repeat refine .field fun _ => ?_
  refine .require fun hzero => .pure ⟨?_, rfl⟩
  obtain rfl := eq_of_beq hzero
  unfold encSuperblock
  simp

lemma reads_superblock (sb : Superblock) :
    Reads (decSuperblock sb.storeUuid) (encSuperblock sb) sb := by
  refine .ended ?_
  unfold encSuperblock
  simp only [append_assoc]
  repeat refine .field ?_
  exact .require rfl (.pure _)

/-! ## The header of a log record -/

@[simp] lemma encWalHeader_length (h : WalHeader) (total : UInt32) :
    (encWalHeader h total).length = 72 := by
  simp [encWalHeader]

def WalHeader.ok (h : WalHeader) (len : Nat) (expectedStore expectedWal : Option Uuid) : Bool :=
  decide (recStart ≤ h.family) && decide (h.family ≤ recCohort) &&
  decide (walHeaderBytes + 4 ≤ h.totalBytes.toNat) && decide
    (h.totalBytes.toNat ≤ maxRecordBytes) &&
  decide (h.totalBytes.toNat ≤ len) && equalOrUnspecified h.storeUuid expectedStore &&
  equalOrUnspecified h.walUuid expectedWal && h.lsn != 0 && h.dsIncarnation != 0 &&
  decide (h.dsIncarnation ≤ maxIncarnation)

lemma accepts_walHeader (expectedStore expectedWal : Option Uuid) (len : Nat) :
    Accepts (decWalHeader expectedStore expectedWal len) fun used h =>
      used = encWalHeader h h.totalBytes ∧ h.ok len expectedStore expectedWal := by
  unfold decWalHeader
  repeat refine .field fun _ => ?_
  refine .require fun h => .pure ?_
  simp only [Bool.and_eq_true, beq_iff_eq, xor_eq_ones] at h
  obtain ⟨⟨⟨⟨⟨⟨⟨⟨⟨⟨⟨⟨⟨⟨rfl, rfl⟩, h1⟩, h2⟩, rfl⟩, h3⟩, h4⟩, h5⟩, rfl⟩, rfl⟩, h6⟩, h7⟩, h8⟩, h9⟩,
      h10⟩ := h
  constructor
  · simp [encWalHeader, encCommon]
  · simp only [WalHeader.ok, Bool.and_eq_true]
    exact ⟨⟨⟨⟨⟨⟨⟨⟨⟨h1, h2⟩, h3⟩, h4⟩, h5⟩, h6⟩, h7⟩, h8⟩, h9⟩, h10⟩

lemma reads_walHeader {h : WalHeader} {len : Nat} {expectedStore expectedWal : Option Uuid}
    (hok : h.ok len expectedStore expectedWal) :
    Reads (decWalHeader expectedStore expectedWal len) (encWalHeader h h.totalBytes) h := by
  refine .ended ?_
  simp only [encWalHeader, encCommon, append_assoc]
  repeat refine .field ?_
  refine .require ?_ (.pure _)
  simp only [WalHeader.ok, Bool.and_eq_true] at hok
  simp only [Bool.and_eq_true, beq_iff_eq, xor_eq_ones, true_and, and_true]
  exact hok

/-! ## START -/

@[simp] lemma encStart_length (s : Start) : (encStart s).length = 121 := by
  unfold encStart
  simp

instance : Codec decStart encStart where
  reads s := by
    refine .ended ?_
    unfold encStart
    simp only [List.append_assoc]
    repeat refine .field ?_
    exact .require rfl (.pure _)
  spells := by
    unfold decStart
    repeat refine .field fun _ => ?_
    refine .require fun hformat => .pure ?_
    obtain rfl := eq_of_beq hformat
    unfold encStart
    simp only [List.append_assoc, List.append_nil]

/-! ## The key and the admission of a request -/

@[simp] lemma encKeyBlock_length (k : KeyBlock) : (encKeyBlock k).length = 92 := by
  unfold encKeyBlock
  simp

@[simp] lemma encAdmission_length (a : Admission) : (encAdmission a).length = 104 := by
  unfold encAdmission
  simp

lemma accepts_keyBlock : Accepts decKeyBlock fun used k => used = encKeyBlock k ∧ k.ok := by
  unfold decKeyBlock
  repeat refine .field fun _ => ?_
  refine .require fun hok => .pure ⟨?_, hok⟩
  unfold encKeyBlock
  simp

lemma reads_keyBlock {k : KeyBlock} (hok : k.ok) : Reads decKeyBlock (encKeyBlock k) k := by
  refine .ended ?_
  unfold encKeyBlock
  simp only [append_assoc]
  repeat refine .field ?_
  exact .require hok (.pure _)

instance : Codec decAdmission encAdmission where
  reads a := by
    refine .ended ?_
    unfold encAdmission
    simp only [List.append_assoc]
    repeat refine .field ?_
    exact .pure _
  spells := by
    unfold decAdmission
    repeat refine .field fun _ => ?_
    refine .pure ?_
    unfold encAdmission
    simp only [List.append_assoc, List.append_nil]

/-! ## CONTROL -/

@[simp] lemma encControl_length (c : Control) : (encControl c).length = 136 + c.body.length := by
  unfold encControl
  simp only [length_append, encU32_length, encRaw_length, encU64_length]

lemma accepts_control (bodyLen : Nat) :
    Accepts (decControl bodyLen) fun used c => used = encControl c ∧ c.body.length = bodyLen := by
  unfold decControl
  repeat refine .field fun _ => ?_
  refine (accepts_take bodyLen).bind fun body used hbody => .pure ⟨?_, hbody.2⟩
  unfold encControl
  simp [hbody.1]

lemma reads_control (c : Control) : Reads (decControl c.body.length) (encControl c) c := by
  unfold encControl
  simp only [append_assoc]
  repeat refine .field ?_
  exact (reads_take rfl).last rfl

/-! ## ENTRY -/

@[simp] lemma encEntry_length (e : Entry) : (encEntry e).length = 464 := by
  unfold encEntry
  simp [encKeyBlock_length, encAdmission_length]

lemma accepts_entry : Accepts decEntry fun used e => used = encEntry e ∧ e.key.ok := by
  unfold decEntry
  repeat refine .field fun _ => ?_
  refine accepts_keyBlock.bind fun key _ hkey => ?_
  repeat refine .field fun _ => ?_
  refine .pure ⟨?_, hkey.2⟩
  unfold encEntry
  simp [hkey.1]

lemma reads_entry {e : Entry} (hkey : e.key.ok) : Reads decEntry (encEntry e) e := by
  refine .ended ?_
  unfold encEntry
  simp only [append_assoc]
  repeat refine .field ?_
  refine (reads_keyBlock hkey).bind ?_
  repeat refine .field ?_
  exact .pure _

/-! ## COHORT -/

@[simp] lemma encMember_length (m : Member) : (encMember m).length = 244 := by
  unfold encMember
  simp

instance : Codec decMember encMember where
  reads m := by
    refine .ended ?_
    unfold encMember
    simp only [List.append_assoc]
    repeat refine .field ?_
    exact .pure _
  spells := by
    unfold decMember
    repeat refine .field fun _ => ?_
    refine .pure ?_
    unfold encMember
    simp only [List.append_assoc, List.append_nil]

lemma flatMap_encMember_length (ms : List Member) :
    (ms.flatMap encMember).length = ms.length * 244 := by
  induction ms with
  | nil => rfl
  | cons m ms ih =>
    rw [flatMap_cons, length_append, ih, encMember_length, length_cons]
    ring

@[simp] lemma encCohort_length (co : Cohort) :
    (encCohort co).length = 256 + co.members.length * 244 := by
  unfold encCohort
  simp only [length_append, encU32_length, encU64_length, encRaw_length, encKeyBlock_length,
    encAdmission_length, flatMap_encMember_length]

lemma accepts_members (acceptMember : Member → Bool) : ∀ k : Nat,
    Accepts (many (decMemberIf acceptMember) k) fun used ms =>
      ms.length = k ∧ used = ms.flatMap encMember ∧ ∀ m ∈ ms, acceptMember m
  | 0 => .pure ⟨rfl, rfl, fun _ h => absurd h not_mem_nil⟩
  | k + 1 => by
    have hone : Accepts (decMemberIf acceptMember) fun used m =>
        used = encMember m ∧ acceptMember m :=
      Accepts.field fun m => .require fun hm => .pure ⟨append_nil _, hm⟩
    refine hone.bind fun m used hm => (accepts_members acceptMember k).bind fun ms more hms =>
      .pure ⟨congrArg Nat.succ hms.1, ?_, ?_⟩
    · rw [hm.1, hms.2.1, append_nil, flatMap_cons]
    · exact forall_mem_cons.mpr ⟨hm.2, hms.2.2⟩

lemma reads_members {acceptMember : Member → Bool} {ms : List Member}
    (h : ∀ m ∈ ms, acceptMember m) :
    Reads (many (decMemberIf acceptMember) ms.length) (ms.flatMap encMember) ms :=
  Reads.many fun m hm => (Codec.reads m).checked (Reads.require (h m hm) (.pure m))

def Cohort.before (co : Cohort) : Cohort := { co with members := [] }

lemma accepts_cohort (accept : Cohort → Nat → Bool) (acceptMember : Member → Bool) :
    Accepts (decCohort accept acceptMember) fun used co =>
      used = encCohort co ∧ co.key.ok ∧ accept co.before co.members.length ∧
        ∀ m ∈ co.members, acceptMember m := by
  unfold decCohort
  repeat refine .field fun _ => ?_
  refine accepts_keyBlock.bind fun key _ hkey => ?_
  iterate 3 refine .field fun _ => ?_
  refine .field fun count => .require fun hok => (accepts_members acceptMember count.toNat).bind
    fun ms used hms => .pure ⟨?_, hkey.2, ?_, hms.2.2⟩
  · grind [append_assoc, UInt32.ofNat_toNat, encCohort, hkey.1, hms.1, hms.2.1]
  · rw [hms.1]
    exact hok

lemma reads_cohort {accept : Cohort → Nat → Bool} {acceptMember : Member → Bool} {co : Cohort}
    (hkey : co.key.ok) (hlen : co.members.length < 2 ^ 32)
    (hok : accept co.before co.members.length) (hms : ∀ m ∈ co.members, acceptMember m) :
    Reads (decCohort accept acceptMember) (encCohort co) co := by
  have hcount : (UInt32.ofNat co.members.length).toNat = co.members.length :=
    UInt32_ofNat_toNat hlen
  have hread := reads_members hms
  rw [← hcount] at hread hok
  unfold encCohort
  simp only [append_assoc]
  repeat refine .field ?_
  refine (reads_keyBlock hkey).bind ?_
  repeat refine .field ?_
  exact .require hok (hread.last rfl)

/-! ## The payload object -/

def PayloadHeader.bytes (h : PayloadHeader) (total : UInt32) : Bytes :=
  encCommon payloadMagic payloadData 136 total h.storeUuid ++ encU64 h.payloadObjectId ++
    encU32 h.storedCrc ++ encU32 h.contentAlg ++ encU32 h.contentCkLen ++ encRaw h.contentCk ++
    encU32 h.contentLen ++ encU64 h.objectBytes ++ encU32 0

lemma accepts_payloadHeader (total : UInt32) (expected : Option Uuid) :
    Accepts (decPayloadHeader total expected) fun used h =>
      used = h.bytes total ∧ equalOrUnspecified h.storeUuid expected := by
  refine (accepts_common _ _ _ _ _).bind fun store _ hstore => ?_
  repeat refine .field fun _ => ?_
  refine .require fun hzero => .pure ⟨?_, hstore.2⟩
  obtain rfl := eq_of_beq hzero
  simp [PayloadHeader.bytes, hstore.1]

lemma reads_payloadHeader {h : PayloadHeader} {total : UInt32} {expected : Option Uuid}
    (hstore : equalOrUnspecified h.storeUuid expected) :
    Reads (decPayloadHeader total expected) (h.bytes total) h := by
  refine .ended ?_
  simp only [PayloadHeader.bytes, append_assoc]
  refine (reads_common _ _ _ _ hstore).bind ?_
  repeat refine .field ?_
  exact .require rfl (.pure _)

end Reffs.D2
