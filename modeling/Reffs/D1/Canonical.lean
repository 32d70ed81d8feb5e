import Reffs.D1.Envelope

/-!
# The canonical form of a request

A request is known by the digest of its encoding, so it must have exactly one. Every decoder of
`d1_envelope.c` accepts only what the encoder beside it writes, so a string of bytes that decodes is
the encoding of what it decodes to.
-/

namespace Reffs.D1

open ByteCodec ByteCodec.Dec List

/-! ## What the decoders accept -/

lemma accepts_count : Accepts decCount fun used n => used = encU32 (UInt32.ofNat n) := by
  refine .field fun count => .require fun _ => .pure ?_
  rw [append_nil, UInt32.ofNat_toNat]

lemma accepts_bounded {α : Type} {d : Dec α} {e : α → Bytes} {len : α → Nat} (hd : Spells d e)
    (k : Nat) : ∀ {aggregate : Nat}, aggregate ≤ batchPayloadMax →
    Accepts (decBounded d len k aggregate) fun used l =>
      l.length = k ∧ used = l.flatMap e ∧ aggregate + (l.map len).sum ≤ batchPayloadMax := by
  induction k with
  | zero =>
    intro aggregate hagg
    exact .pure ⟨rfl, rfl, hagg⟩
  | succ k ih =>
    intro aggregate _
    refine hd.bind fun a => .require fun hle => ?_
    have hle : aggregate + len a ≤ batchPayloadMax := of_decide_eq_true hle
    refine (ih hle).bind fun l used hl => .pure ⟨congrArg Nat.succ hl.1, ?_, ?_⟩
    · rw [hl.2.1, append_nil, flatMap_cons]
    · rw [map_cons, sum_cons]
      have := hl.2.2
      omega

lemma spells_writeEntry : Spells decWriteEntry encWriteEntry := by
  refine .field fun _ => .field fun _ => .field fun _ =>
    .field fun _ => (accepts_bytes _).bind fun payload used hp =>
    spells_checksum.bind fun _ => .pure ?_
  simp [encWriteEntry, hp.1]

lemma spells_write : Spells decWrite encWrite := by
  refine accepts_count.bind fun n cs hn => (accepts_bounded spells_writeEntry n
    (Nat.zero_le _)).bind fun l es hl => .field fun _ => .field fun _ =>
    .require fun _ => .pure ?_
  simp [encWrite, encCount, hn, hl.1, hl.2.1]

lemma spells_lifecycleEntry : Spells decLifecycleEntry encLifecycleEntry := by
  refine .field fun _ => .field fun _ => .field fun _ =>
    .field fun _ => .pure ?_
  simp [encLifecycleEntry]

lemma spells_lifecycle : Spells decLifecycle encLifecycle := by
  refine .field fun _ => .field fun _ => accepts_count.bind fun n cs hn =>
    (spells_lifecycleEntry.many n).bind fun l es hl => .field fun _ => .pure ?_
  simp [encLifecycle, encCount, hn, hl.1, hl.2]

lemma spells_rollbackEntry : Spells decRollbackEntry encRollbackEntry := by
  refine .field fun _ => .field fun _ => .field fun _ =>
    .field fun _ => .field fun _ => .field fun _ => .pure ?_
  simp [encRollbackEntry]

lemma spells_rollback : Spells decRollback encRollback := by
  refine .field fun _ => .field fun _ => accepts_count.bind fun n cs hn =>
    (spells_rollbackEntry.many n).bind fun l es hl => .pure ?_
  simp [encRollback, encCount, hn, hl.1, hl.2]

lemma spells_repairPayload : Spells decRepairPayload encRepairPayload := by
  refine (accepts_bytes _).bind fun payload used hp => spells_checksum.bind fun _ => .pure ?_
  simp [encRepairPayload, hp.1]

lemma spells_repairEntry : Spells decRepairEntry encRepairEntry := by
  refine .field fun _ => .field fun _ => .field fun _ =>
    .field fun _ => .field fun _ => .field fun _ =>
    .field fun _ => .field fun _ =>
    (spells_opt spells_repairPayload).bind fun _ => .pure ?_
  simp [encRepairEntry]

lemma accepts_repair : Accepts decRepair fun used r =>
    used = encRepair r ∧ (r.entries.map RepairEntry.payloadLen).sum ≤ batchPayloadMax := by
  refine .field fun _ => .field fun _ => accepts_count.bind fun n cs hn =>
    (accepts_bounded spells_repairEntry n (Nat.zero_le _)).bind fun l es hl =>
    .field fun _ => .field fun _ => .field fun _ =>
    .field fun _ => .field fun _ => .pure ⟨?_, ?_⟩
  · simp [encRepair, encCount, hn, hl.1, hl.2.1]
  · exact (Nat.zero_add _).symm.trans_le hl.2.2

lemma spells_control : Spells decControl encControl := by
  refine accepts_count.bind fun n cs hn => (spells_u64.many n).bind fun l es hl =>
    .field fun _ => .field fun _ => .field fun _ => .pure ?_
  simp [encControl, encCount, hn, hl.1, hl.2]

lemma Op.code_of_ofCode {code : UInt32} {op : Op} (h : Op.ofCode code = some op) :
    op.code = code := by
  unfold Op.ofCode at h
  -- one alternative per operation, in the order of their tags
  iterate 14
    rcases ite_eq_iff.mp h with ⟨rfl, hop⟩ | ⟨-, h⟩
    · cases hop
      rfl
  cases h

/-- The payloads of a repair that was read are within the limit. -/
def Body.within {H : Type} (b : Body H) : Prop :=
  ∀ op r, b = .repair op r → (r.entries.map RepairEntry.payloadLen).sum ≤ batchPayloadMax

lemma accepts_body : Accepts decBody fun used b => used = encBody b ∧ b.within := by
  refine .field fun code => ?_
  cases hop : Op.ofCode code with
  | none => exact .fail
  | some op =>
    obtain rfl := Op.code_of_ofCode hop
    cases op with
    | writeBatch =>
      exact spells_write.bind fun w => .pure ⟨by rw [append_nil]; rfl, nofun⟩
    | finalizeBatch | commitBatch =>
      exact spells_lifecycle.bind fun l => .pure ⟨by rw [append_nil]; rfl, nofun⟩
    | rollbackBatch =>
      exact spells_rollback.bind fun r => .pure ⟨by rw [append_nil]; rfl, nofun⟩
    | repair op =>
      refine accepts_repair.bind fun r used hr => .pure ⟨by rw [hr.1, append_nil]; rfl, ?_⟩
      rintro op' r' ⟨⟩
      exact hr.2
    | recoveryAdmit | leaseReap =>
      exact spells_control.bind fun k => .pure ⟨by rw [append_nil]; rfl, nofun⟩

lemma accepts_envelope : Accepts decEnvelope fun used env => used = encEnvelope env ∧
    env.body.within := by
  refine .field fun _ => .field fun _ => .field fun _ =>
    .field fun _ => accepts_body.bind fun b bs hb => .pure ⟨?_, hb.2⟩
  simp [encEnvelope, hb.1]

/-! ## One encoding for each request -/

lemma envelopeDecode_accepts {bs : Bytes} {env : Envelope UInt64}
    (h : envelopeDecode bs = some env) : bs = encEnvelope env ∧ env.body.within :=
  accepts_envelope.whole (Option.filter_eq_some_iff.mp h).1

lemma payloadBytes_le_of_decode {bs : Bytes} {env : Envelope UInt64}
    (h : envelopeDecode bs = some env) : env.payloadBytes ≤ batchPayloadMax := by
  by_cases hrep : ∃ op r, env.body = .repair op r
  · obtain ⟨op, r, hbody⟩ := hrep
    have hsum := (envelopeDecode_accepts h).2 op r hbody
    unfold Envelope.payloadBytes
    rwa [hbody]
  · exact payloadBytes_le_of_not_repair (envelopeDecode_validate h) fun op r hbody =>
      hrep ⟨op, r, hbody⟩

/-- **What decodes is the encoding of what it decodes to**, whatever room the encoder is given, as
long as it is enough. Two requests that decode are therefore the same bytes exactly when they are
the same fields. -/
theorem envelopeDecode_canonical {bs bs' : Bytes} {env env' : Envelope UInt64}
    (h : envelopeDecode bs = some env) (h' : envelopeDecode bs' = some env') :
    (∀ cap, envelopeEncode env cap = if bs.length ≤ cap then some bs else none) ∧
      (bs = bs' ↔ env = env') := by
  have hbs := (envelopeDecode_accepts h).1
  have hbs' := (envelopeDecode_accepts h').1
  constructor
  · intro cap
    unfold envelopeEncode
    rw [envelopeDecode_validate h, Bool.true_and, ← hbs]
    simp
  · grind

def reapEnvelope : Envelope UInt64 where
  object := ⟨zeros 16, zeros 16⟩
  admission := 1
  incarnation := 1
  key := ⟨zeros 16, 1, 0⟩
  body := .leaseReap ⟨[7], 1, none, none⟩

theorem envelopeDecode_canonical_reap :
    envelopeDecode (encEnvelope reapEnvelope) = some reapEnvelope ∧
      envelopeEncode reapEnvelope envelopeMax = some (encEnvelope reapEnvelope) := by
  have h : envelopeDecode (encEnvelope reapEnvelope) = some reapEnvelope := by decide +kernel
  refine ⟨h, ?_⟩
  rw [(envelopeDecode_canonical h h).1]
  decide +kernel

lemma envelopeDecode_of_within {env : Envelope UInt64} (h : envelopeValidate env)
    (hsum : env.payloadBytes ≤ batchPayloadMax) : envelopeDecode (encEnvelope env) = some env := by
  have hreads : Reads decEnvelope (encEnvelope env) env := by
    simp only [encEnvelope, append_assoc]
    exact .field <| .field <| .field <| .field <| (reads_body h hsum).last rfl
  unfold envelopeDecode
  rw [hreads.whole, Option.filter_some, if_pos h]

/-- **An encoding decodes to what was encoded exactly when its payloads are within the batch limit
together.** -/
theorem envelopeDecode_encode_iff {env : Envelope UInt64} {cap : Nat} {bs : Bytes}
    (h : envelopeEncode env cap = some bs) :
    envelopeDecode bs = some env ↔ env.payloadBytes ≤ batchPayloadMax := by
  refine ⟨payloadBytes_le_of_decode, fun hsum => ?_⟩
  have hbs : encEnvelope env = bs := by grind [envelopeEncode]
  rw [← hbs]
  exact envelopeDecode_of_within (envelopeEncode_valid h) hsum

theorem envelopeDecode_encode_iff_reap :
    envelopeEncode reapEnvelope envelopeMax = some (encEnvelope reapEnvelope) ∧
      envelopeDecode (encEnvelope reapEnvelope) = some reapEnvelope := by
  have h : envelopeEncode reapEnvelope envelopeMax = some (encEnvelope reapEnvelope) := by
    decide +kernel
  exact ⟨h, (envelopeDecode_encode_iff h).mpr (by decide)⟩

def largeEntry (i : UInt64) (n : Nat) : RepairEntry UInt64 where
  index := i
  mode := 0
  owner := ⟨1, 1, 1⟩
  txn := some 1
  custody := none
  postcond := none
  successor := none
  predecessor := none
  payload := some ⟨List.replicate n 0, ⟨cksumCrc32, 4, zeros 4⟩⟩

/-- A `prepare_repair` of four chunks of the largest size and one byte more. -/
def largeRepair : RepairBatch UInt64 where
  rangeBegin := 0
  rangeEnd := 5
  entries := [largeEntry 0 chunkBytesMax, largeEntry 1 chunkBytesMax, largeEntry 2 chunkBytesMax,
    largeEntry 3 chunkBytesMax, largeEntry 4 1]
  cohort := some 1
  episode := none
  phase := none
  priorVerifier := none
  certificate := none

def largeEnvelope : Envelope UInt64 :=
  { reapEnvelope with body := .repair .prepareRepair largeRepair }

lemma largeEntry_valid {i : UInt64} {n : Nat} (hi : i < 5) (hn : 1 ≤ n ∧ n ≤ chunkBytesMax) :
    validateRepairEntry .prepareRepair largeRepair (largeEntry i n) := by
  have hpayload : payloadOk (replicate n 0) := by
    unfold payloadOk
    rw [length_replicate, Bool.and_eq_true, decide_eq_true_eq, decide_eq_true_eq]
    exact hn
  have hindex : decide (i < (5 : UInt64)) := decide_eq_true hi
  unfold validateRepairEntry largeEntry largeRepair
  simp only [hindex, hpayload, Option.all_some]
  simp [ownerOk, writerOk, optLive, checksumShapeOk]
  decide

lemma largeEntry_length (i : UInt64) (n : Nat) :
    (encRepairEntry (largeEntry i n)).length = 58 + n := by
  simp only [encRepairEntry, largeEntry, encOptU64, encOpt, encRepairPayload, encChecksum,
    length_append, encU64_length, encU32_length, encOwner_length, encBool_length,
    encBytes_length, length_replicate]
  simp
  omega

lemma largeEnvelope_valid : envelopeValidate largeEnvelope := by
  have hlarge : 1 ≤ chunkBytesMax ∧ chunkBytesMax ≤ chunkBytesMax := by decide
  have hentries : largeRepair.entries.all (validateRepairEntry .prepareRepair largeRepair) := by
    simp only [all_eq_true]
    intro e he
    simp only [largeRepair, mem_cons, not_mem_nil, or_false] at he
    rcases he with rfl | rfl | rfl | rfl | rfl
    · exact largeEntry_valid (by decide) hlarge
    · exact largeEntry_valid (by decide) hlarge
    · exact largeEntry_valid (by decide) hlarge
    · exact largeEntry_valid (by decide) hlarge
    · exact largeEntry_valid (by decide) (by decide)
  change validateRepair .prepareRepair largeRepair
  unfold validateRepair
  rw [hentries]
  decide

lemma largeEntry_payloadLen (i : UInt64) (n : Nat) : (largeEntry i n).payloadLen = n :=
  length_replicate

lemma largeEnvelope_length : (encEnvelope largeEnvelope).length ≤ envelopeMax := by
  have hentries :
      (largeRepair.entries.flatMap encRepairEntry).length = 290 + (4 * chunkBytesMax + 1) := by
    unfold largeRepair
    generalize chunkBytesMax = n
    simp only [flatMap_cons, flatMap_nil, length_append, largeEntry_length, length_nil]
    omega
  have hcount : (encCount largeRepair.entries).length = 4 := encU32_length _
  simp only [encEnvelope, largeEnvelope, encBody, encRepair, length_append, hentries, hcount,
    encObjKey_length, encOpKey_length, encU64_length, encU32_length]
  decide

/-- **A repair can be encoded that does not decode**: four chunks of the largest size and one byte
more are within the encoder's limit for each payload and the room for an envelope, and over the
decoder's limit for all of them. -/
theorem largeEnvelope_not_decoded :
    envelopeEncode largeEnvelope envelopeMax = some (encEnvelope largeEnvelope) ∧
      envelopeDecode (encEnvelope largeEnvelope) = none := by
  have henc : envelopeEncode largeEnvelope envelopeMax = some (encEnvelope largeEnvelope) := by
    unfold envelopeEncode
    rw [largeEnvelope_valid, Bool.true_and, if_pos (decide_eq_true largeEnvelope_length)]
  refine ⟨henc, ?_⟩
  cases hdec : envelopeDecode (encEnvelope largeEnvelope) with
  | none => rfl
  | some env =>
    have hsum := payloadBytes_le_of_decode hdec
    obtain rfl := envelopeDecode_encode henc hdec
    simp only [Envelope.payloadBytes, largeEnvelope, largeRepair, map_cons, map_nil,
      largeEntry_payloadLen] at hsum
    exact absurd hsum (by decide)

end Reffs.D1
