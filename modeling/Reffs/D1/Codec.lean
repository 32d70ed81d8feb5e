import Reffs.D1.Types

/-!
# Canonical record codecs

The encoders and decoders of `d1_codec.c` for the shared records, and those of `d1_control.c` for
the recorded answer (`CompleteResult`). Each decoder reads back what its encoder wrote; the one
field a recorded answer does not carry is the entry's own disposition, which `completeResultEqual`
does not compare either.
-/

namespace Reffs.D1

open ByteCodec ByteCodec.Dec List

/-! ## Shared records -/

def encGuard (g : Guard) : Bytes :=
  encU32 g.generation ++ encU32 g.writer ++ encBool g.neverWritten

def decGuard : Dec Guard := do
  let generation ← decU32
  let writer ← decU32
  let neverWritten ← decBool
  pure ⟨generation, writer, neverWritten⟩

def encOwner (o : Owner) : Bytes :=
  encU64 o.cohort ++ encU32 o.writer ++ encU32 o.coId

def decOwner : Dec Owner := do
  let cohort ← decU64
  let writer ← decU32
  let coId ← decU32
  pure ⟨cohort, writer, coId⟩

def encOpKey (k : OpKey) : Bytes :=
  encRaw k.origin ++ encU64 k.sequence ++ encU32 k.ordinal

def decOpKey : Dec OpKey := do
  let origin ← decRaw 16
  let sequence ← decU64
  let ordinal ← decU32
  pure ⟨origin, sequence, ordinal⟩

def encChecksum (s : Checksum) : Bytes :=
  encU32 s.alg ++ encBytes (s.digest.toList.take s.len.toNat)

/-- Bytes past the recorded length read as zero. -/
def decChecksum : Dec Checksum := do
  let alg ← decU32
  let digest ← decBytesRef 4
  pure ⟨alg, UInt32.ofNat digest.length, fixedOfBytes 4 digest⟩

def encObjKey (k : ObjKey) : Bytes :=
  encRaw k.exportUuid ++ encRaw k.objectUuid

def decObjKey : Dec ObjKey := do
  let exportUuid ← decRaw 16
  let objectUuid ← decRaw 16
  pure ⟨exportUuid, objectUuid⟩

instance : Codec decGuard encGuard where
  reads _ := by
    refine .ended ?_
    simp only [encGuard, List.append_assoc]
    repeat refine .field ?_
    exact .pure _
  spells := by
    unfold decGuard
    repeat refine .field fun _ => ?_
    exact .pure (by simp only [encGuard, List.append_assoc, List.append_nil])

instance : Codec decOwner encOwner where
  reads _ := by
    refine .ended ?_
    simp only [encOwner, List.append_assoc]
    repeat refine .field ?_
    exact .pure _
  spells := by
    unfold decOwner
    repeat refine .field fun _ => ?_
    exact .pure (by simp only [encOwner, List.append_assoc, List.append_nil])

instance : Codec decOpKey encOpKey where
  reads _ := by
    refine .ended ?_
    simp only [encOpKey, List.append_assoc]
    repeat refine .field ?_
    exact .pure _
  spells := by
    unfold decOpKey
    repeat refine .field fun _ => ?_
    exact .pure (by simp only [encOpKey, List.append_assoc, List.append_nil])

instance : Codec decObjKey encObjKey where
  reads _ := by
    refine .ended ?_
    simp only [encObjKey, List.append_assoc]
    repeat refine .field ?_
    exact .pure _
  spells := by
    unfold decObjKey
    repeat refine .field fun _ => ?_
    exact .pure (by simp only [encObjKey, List.append_nil])

lemma reads_checksum {s : Checksum} (h : s.len = 4) : Reads decChecksum (encChecksum s) s := by
  have hdigest : s.digest.toList.take s.len.toNat = encRaw s.digest := by
    rw [h]
    exact take_of_length_le (encRaw_length s.digest).le
  have hlen : (encRaw s.digest).length = 4 := encRaw_length s.digest
  rw [encChecksum, hdigest]
  refine .field ((reads_bytes hlen.le (by rw [hlen]; decide)).last ?_)
  rw [hlen, fixedOfBytes_encRaw, ← show s.len = UInt32.ofNat 4 from h]

lemma spells_checksum : Spells decChecksum encChecksum := by
  refine .field fun alg => (accepts_bytes 4).bind fun digest used hd => .pure ?_
  obtain ⟨rfl, hlen⟩ := hd
  have hcut : (fixedOfBytes 4 digest).toList.take digest.length = digest := by
    apply ext_getElem
    · simp [hlen]
    · intro i _ hi
      simp [fixedOfBytes, getElem?_eq_getElem hi]
  have hn : (UInt32.ofNat digest.length).toNat = digest.length :=
    UInt32_ofNat_toNat (hlen.trans_lt (by decide))
  rw [encChecksum, hn, hcut, append_nil]

@[simp] lemma encGuard_length (g : Guard) : (encGuard g).length = 9 := by simp [encGuard]
@[simp] lemma encOwner_length (o : Owner) : (encOwner o).length = 16 := by simp [encOwner]
@[simp] lemma encOpKey_length (k : OpKey) : (encOpKey k).length = 28 := by simp [encOpKey]
@[simp] lemma encObjKey_length (k : ObjKey) : (encObjKey k).length = 32 := by simp [encObjKey]

/-! ## The recorded answer -/

def encEntryResult (e : EntryResult) : Bytes :=
  encU32 e.status ++ encOptU64 e.version ++ encOptU64 e.txn ++ encOptU64 e.cohort ++
    encU32 (UInt32.ofNat e.memberTxn.length) ++
    (e.memberTxn.take batchEntriesMax).flatMap encU64 ++
    encOptU64 e.postcond ++ encOptU64 e.episode ++ encOptU32 e.member ++
    encGuard e.guard ++ encOwner e.owner ++ encU32 e.stability ++ encBool e.activated ++
    encU32 e.phase ++ encRaw e.verifier

/-- The entry's own disposition is not on the wire and reads as zero. -/
def decEntryResult : Dec EntryResult := do
  let status ← decU32
  let version ← decOptU64
  let txn ← decOptU64
  let cohort ← decOptU64
  let memberTxnCount ← decU32
  Dec.require (memberTxnCount.toNat ≤ batchEntriesMax)
  let memberTxn ← Dec.many decU64 memberTxnCount.toNat
  let postcond ← decOptU64
  let episode ← decOptU64
  let member ← decOptU32
  let guard ← decGuard
  let owner ← decOwner
  let stability ← decU32
  let activated ← decBool
  let phase ← decU32
  let verifier ← decRaw 8
  pure { status, version, txn, cohort, memberTxn, postcond, episode, member, guard, owner,
         stability, activated, phase, verifier, disposition := 0 }

def encCompleteResult (r : CompleteResult) : Bytes :=
  encOpKey r.key ++ encU64 r.indexEpoch ++ encU64 r.eof ++ encU32 r.disposition ++
    encEntryResult r.entry

def decCompleteResult : Dec CompleteResult := do
  let key ← decOpKey
  let indexEpoch ← decU64
  let eof ← decU64
  let disposition ← decU32
  let entry ← decEntryResult
  pure ⟨key, indexEpoch, eof, disposition, entry⟩

/-- `d1_complete_result_encode`; `none` when the answer does not fit `cap` bytes. -/
def completeResultEncode (r : CompleteResult) (cap : Nat) : Option Bytes :=
  if (encCompleteResult r).length ≤ cap then some (encCompleteResult r) else none

def completeResultDecode (bs : Bytes) : Option CompleteResult := decCompleteResult.whole bs

/-- The presence flags of two handles, and the handles where the flag is set. -/
def optDiffers {α : Type} [DecidableEq α] [Inhabited α] (a b : Option α) : Bool :=
  a.isSome ≠ b.isSome ∨ (a.isSome ∧ a.getD default ≠ b.getD default)

/-- The counts of two vectors, and their members one by one. -/
def membersDiffer (a b : List UInt64) : Bool :=
  a.length ≠ b.length ∨ (range a.length).any fun i => a.getD i 0 ≠ b.getD i 0

/-- `d1_complete_result_equal`. The entry's own disposition is not compared. -/
def completeResultEqual (a b : CompleteResult) : Bool :=
  if a.key.origin ≠ b.key.origin then false
  else if a.key.sequence ≠ b.key.sequence ∨ a.key.ordinal ≠ b.key.ordinal then false
  else if a.indexEpoch ≠ b.indexEpoch ∨ a.eof ≠ b.eof then false
  else if a.disposition ≠ b.disposition then false
  else if a.entry.status ≠ b.entry.status then false
  else if optDiffers a.entry.version b.entry.version then false
  else if optDiffers a.entry.txn b.entry.txn then false
  else if optDiffers a.entry.cohort b.entry.cohort then false
  else if membersDiffer a.entry.memberTxn b.entry.memberTxn then false
  else if optDiffers a.entry.postcond b.entry.postcond then false
  else if optDiffers a.entry.episode b.entry.episode then false
  else if optDiffers a.entry.member b.entry.member then false
  else if a.entry.guard.generation ≠ b.entry.guard.generation ∨
      a.entry.guard.writer ≠ b.entry.guard.writer ∨
      a.entry.guard.neverWritten ≠ b.entry.guard.neverWritten then false
  else if a.entry.owner.cohort ≠ b.entry.owner.cohort ∨
      a.entry.owner.writer ≠ b.entry.owner.writer ∨
        a.entry.owner.coId ≠ b.entry.owner.coId then false
  else if a.entry.stability ≠ b.entry.stability ∨ a.entry.activated ≠ b.entry.activated ∨
      a.entry.phase ≠ b.entry.phase then false
  else a.entry.verifier = b.entry.verifier

lemma reads_entryResult {e : EntryResult} (h : e.memberTxn.length ≤ batchEntriesMax) :
    Reads decEntryResult (encEntryResult e) { e with disposition := 0 } := by
  have hn : (UInt32.ofNat e.memberTxn.length).toNat = e.memberTxn.length :=
    UInt32_ofNat_toNat (h.trans_lt (by decide))
  simp only [encEntryResult, append_assoc, take_of_length_le h]
  refine .ended ?_
  simp only [append_assoc]
  repeat refine .field ?_
  refine .require (by rw [hn]; exact decide_eq_true h) ?_
  rw [hn]
  refine (Reads.many fun a _ => reads_u64 a).bind ?_
  repeat refine .field ?_
  exact .pure _

lemma spells_entryResult : Spells decEntryResult encEntryResult := by
  unfold decEntryResult
  iterate 4 refine .field fun _ => ?_
  refine .field fun count => .require fun hcount =>
    (spells_u64.many count.toNat).bind fun l used hl => ?_
  repeat refine .field fun _ => ?_
  refine .pure ?_
  have hshort : l.length ≤ batchEntriesMax := hl.1.trans_le (of_decide_eq_true hcount)
  simp [encEntryResult, hl.1, hl.2, take_of_length_le hshort]

lemma encEntryResult_length (e : EntryResult) : (encEntryResult e).length ≤ 228 := by
  have h1 := encOptU64_length e.version
  have h2 := encOptU64_length e.txn
  have h3 := encOptU64_length e.cohort
  have h4 := encOptU64_length e.postcond
  have h5 := encOptU64_length e.episode
  have h6 := encOptU32_length e.member
  have h7 : ((e.memberTxn.take batchEntriesMax).flatMap encU64).length ≤ 128 := by
    rw [length_flatMap]
    simp only [encU64_length, map_const', sum_replicate, length_take, smul_eq_mul]
    have : batchEntriesMax = 16 := rfl
    omega
  simp only [encEntryResult, length_append, encU32_length, encGuard_length, encOwner_length,
    encBool_length, encRaw_length]
  omega

lemma reads_completeResult {r : CompleteResult} (h : r.entry.memberTxn.length ≤ batchEntriesMax) :
    Reads decCompleteResult (encCompleteResult r)
      { r with entry := { r.entry with disposition := 0 } } := by
  simp only [encCompleteResult, append_assoc]
  iterate 4 refine .field ?_
  exact (reads_entryResult h).last rfl

lemma spells_completeResult : Spells decCompleteResult encCompleteResult := by
  unfold decCompleteResult
  repeat refine .field fun _ => ?_
  refine spells_entryResult.bind fun _ => .pure ?_
  simp [encCompleteResult]

lemma encCompleteResult_length (r : CompleteResult) : (encCompleteResult r).length ≤ 276 := by
  have := encEntryResult_length r.entry
  simp only [encCompleteResult, length_append, encOpKey_length, encU64_length, encU32_length]
  omega

lemma completeResultEncode_eq (r : CompleteResult) {cap : Nat} (h : 276 ≤ cap) :
    completeResultEncode r cap = some (encCompleteResult r) :=
  if_pos ((encCompleteResult_length r).trans h)

lemma completeResultDecode_enc {r : CompleteResult}
    (h : r.entry.memberTxn.length ≤ batchEntriesMax) :
    completeResultDecode (encCompleteResult r) =
      some { r with entry := { r.entry with disposition := 0 } } :=
  (reads_completeResult h).whole

lemma optDiffers_iff {α : Type} [DecidableEq α] [Inhabited α] {a b : Option α} :
    optDiffers a b ↔ a ≠ b := by
  cases a <;> cases b <;> simp [optDiffers]

lemma membersDiffer_iff {a b : List UInt64} : membersDiffer a b ↔ a ≠ b := by
  rw [← not_iff_not, ne_eq, not_not]
  constructor
  · intro h
    simp only [membersDiffer, decide_eq_true_eq, any_eq_true, mem_range, not_or, not_not,
      not_exists,
      not_and] at h
    refine ext_getElem h.1 fun i hi hj => ?_
    simpa [hi, hj] using h.2 i hi
  · rintro rfl
    simp [membersDiffer]

lemma completeResultEqual_iff {a b : CompleteResult} : completeResultEqual a b ↔
      { a with entry := { a.entry with disposition := 0 } } =
        { b with entry := { b.entry with disposition := 0 } } := by
  obtain ⟨⟨_, _, _⟩, _, _, _, ⟨_, _, _, _, _, _, _, _, ⟨_, _, _⟩, ⟨_, _, _⟩, _, _, _, _, _⟩⟩ := a
  obtain ⟨⟨_, _, _⟩, _, _, _, ⟨_, _, _, _, _, _, _, _, ⟨_, _, _⟩, ⟨_, _, _⟩, _, _, _, _, _⟩⟩ := b
  simp [completeResultEqual, optDiffers_iff, membersDiffer_iff, and_assoc]

lemma encCompleteResult_of_equal {a b : CompleteResult} (h : completeResultEqual a b) :
    encCompleteResult a = encCompleteResult b := by
  have hsame := congrArg encCompleteResult (completeResultEqual_iff.mp h)
  exact hsame

/-- **Recorded answers agree exactly when their bytes do**, and the bytes carry everything that is
compared. -/
theorem completeResult_bytes {a b : CompleteResult}
    (ha : a.entry.memberTxn.length ≤ batchEntriesMax)
    (hb : b.entry.memberTxn.length ≤ batchEntriesMax) :
    completeResultDecode (encCompleteResult a) =
      some { a with entry := { a.entry with disposition := 0 } } ∧
      (completeResultEqual a b = true ↔ encCompleteResult a = encCompleteResult b) := by
  have hread := completeResultDecode_enc ha
  refine ⟨hread, encCompleteResult_of_equal, fun hbytes => ?_⟩
  rw [hbytes, completeResultDecode_enc hb] at hread
  exact completeResultEqual_iff.mpr (Option.some.inj hread).symm

/-- Two answers of a batch with two members, which differ in a member alone. -/
theorem completeResult_bytes_members :
    let entry : EntryResult :=
      ⟨1, some 3, some 4, some 5, [6, 7], none, some 8, some 2, ⟨1, 9, false⟩, ⟨5, 9, 1⟩, 2,
        true, 4,
        Vector.replicate 8 0xab, 1⟩
    let a : CompleteResult := ⟨⟨Vector.replicate 16 0x11, 12, 1⟩, 2, 4096, 1, entry⟩
    let b := { a with entry := { entry with memberTxn := [6, 8] } }
    completeResultDecode (encCompleteResult a) =
      some { a with entry := { entry with disposition := 0 } } ∧
      (completeResultEqual a b = true ↔ encCompleteResult a = encCompleteResult b) ∧
      completeResultEqual a b = false := by
  intro entry a b
  have h := completeResult_bytes (a := a) (b := b) (by decide) (by decide)
  exact ⟨h.1, h.2, by decide⟩

end Reffs.D1
