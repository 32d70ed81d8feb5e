import Reffs.D2.Layout

/-!
# Canonical records

Every string of bytes that a decoder accepts is the one its encoder writes for the value that was
read: the format leaves no freedom. The other way round the decoders ask more. An encoder writes
records that no decoder accepts, and for each kind of record the fields for which it reads back are
given here. The four kinds of log records go through the same steps, which `LogCodec` takes once.
-/

namespace Reffs.D2

open ByteCodec ByteCodec.Dec List Option
open Reffs.D1 (Uuid crc32c)

variable {α : Type} {bs body : Bytes} {a : α} {h : WalHeader}

lemma whole_eq_some_iff {d : Dec α} {e : α → Bytes} {ok : α → Prop}
    (haccepts : Accepts d fun used a => used = e a ∧ ok a) (hreads : ∀ a, ok a → Reads d (e a) a) :
    whole d bs = some a ↔ bs = e a ∧ ok a := by
  constructor
  · exact haccepts.whole
  · rintro ⟨rfl, hok⟩
    exact (hreads a hok).whole

lemma whole_check_iff {α : Type} {d : Dec α} {e : α → Bytes} {ok : α → Prop} {check : α → Bool}
    (haccepts : Accepts d fun used a => used = e a ∧ ok a) (hreads : ∀ a, ok a → Reads d (e a) a)
    {bs : Bytes} {a : α} : ((whole d bs).bind fun b => if check b then some b else none) = some a ↔
      bs = e a ∧ ok a ∧ check a := by
  simp only [bind_eq_some_iff, ite_none_right_eq_some, some.injEq,
    whole_eq_some_iff haccepts hreads]
  exact ⟨fun ⟨_, hb, hcheck, he⟩ => he ▸ ⟨hb.1, hb.2, hcheck⟩,
    fun h => ⟨a, ⟨h.1, h.2.1⟩, h.2.2, rfl⟩⟩

lemma unless_iff {c : Prop} [Decidable c] {b : α} :
    (if c then none else some a) = some b ↔ ¬ c ∧ b = a := by
  rw [ite_none_left_eq_some, some.injEq, eq_comm]

/-! ## Records of the log -/

section Log

variable {h : WalHeader} {body bs : Bytes} {expectedStore expectedWal : Option Uuid}

@[simp] lemma walRecord_length (h : WalHeader) (body : Bytes) :
    (walRecord h body).length = 76 + body.length := by
  unfold walRecord
  rw [addSeal_length, length_append, encWalHeader_length]
  omega

lemma walHeaderDecode_iff : walHeaderDecode bs expectedStore expectedWal = some h ↔
    bs.take 72 = encWalHeader h h.totalBytes ∧ h.ok bs.length expectedStore expectedWal ∧
      sealOk (crc32cDomain walDomain) bs h.totalBytes.toNat := by
  have hwhole :
      ∀ h', whole (decWalHeader expectedStore expectedWal bs.length) (bs.take 72) = some h' ↔
      bs.take 72 = encWalHeader h' h'.totalBytes ∧ h'.ok bs.length expectedStore expectedWal :=
    fun h' => whole_eq_some_iff (accepts_walHeader expectedStore expectedWal bs.length)
      fun _ hok => reads_walHeader hok
  unfold walHeaderDecode
  simp only [ite_none_left_eq_some, bind_eq_bind, bind_eq_some_iff, hwhole,
    ite_none_right_eq_some, some.injEq]
  constructor
  · rintro ⟨-, h', ⟨hbytes, hok⟩, hseal, rfl⟩
    exact ⟨hbytes, hok, hseal⟩
  · grind [length_take, encWalHeader_length]

lemma WalHeader.ok_total {len : Nat} (hok : h.ok len expectedStore expectedWal) :
    76 ≤ h.totalBytes.toNat ∧ h.totalBytes.toNat ≤ len := by
  simp only [WalHeader.ok, Bool.and_eq_true, decide_eq_true_iff] at hok
  exact ⟨hok.1.1.1.1.1.1.1.2, hok.1.1.1.1.1.2⟩

lemma take_eq_walRecord (hdec : walHeaderDecode bs expectedStore expectedWal = some h) :
    bs.take h.totalBytes.toNat = walRecord h (walBody bs (h.totalBytes.toNat - 76)) := by
  obtain ⟨hbytes, hok, hseal⟩ := walHeaderDecode_iff.mp hdec
  obtain ⟨hmin, hle⟩ := WalHeader.ok_total hok
  have hbody : (walBody bs (h.totalBytes.toNat - 76)).length = h.totalBytes.toNat - 76 := by
    unfold walBody walHeaderBytes
    rw [length_take, length_drop]
    omega
  have hsplit : bs.take (h.totalBytes.toNat - 4) =
      encWalHeader h h.totalBytes ++ walBody bs (h.totalBytes.toNat - 76) := by
    rw [← hbytes]
    unfold walBody
    rw [← take_add]
    congr 1
    omega
  have htotal : UInt32.ofNat (72 + (h.totalBytes.toNat - 76) + 4) = h.totalBytes := by
    rw [show 72 + (h.totalBytes.toNat - 76) + 4 = h.totalBytes.toNat by omega]
    exact UInt32.ofNat_toNat
  rw [addSeal_of_sealOk hseal, hsplit, walRecord, hbody, htotal]

lemma walBody_total (hmin : 76 ≤ h.totalBytes.toNat) (hle : h.totalBytes.toNat ≤ bs.length)
    (hbody : walBody bs (h.totalBytes.toNat - 76) = body) :
    h.totalBytes.toNat = 76 + body.length := by
  rw [← hbody]
  unfold walBody walHeaderBytes
  rw [length_take, length_drop]
  omega

lemma walBody_walRecord (h : WalHeader) (body : Bytes) :
    walBody (walRecord h body) body.length = body := by
  unfold walBody walRecord addSeal
  rw [append_assoc, drop_left' (encWalHeader_length ..), take_left' rfl]

lemma encWalHeader_injective {total total' : UInt32}
    (heq : encWalHeader h total = encWalHeader h total') : total = total' := by
  have hfield : ∀ t, ((encWalHeader h t).drop 12).take 4 = encU32 t := by
    intro t
    unfold encWalHeader encCommon
    simp only [append_assoc]
    rw [← append_assoc, ← append_assoc, ← append_assoc, drop_left' (by simp),
      take_left' (by simp)]
  have hword : encU32 total = encU32 total' := by rw [← hfield, ← hfield, heq]
  have hread := (reads_u32 total).whole
  rw [hword, (reads_u32 total').whole] at hread
  exact (some.inj hread).symm

lemma walHeaderDecode_walRecord (hlen : body.length < 2 ^ 32 - 76) :
    walHeaderDecode (walRecord h body) expectedStore expectedWal = some h ↔
      h.totalBytes.toNat = 76 + body.length ∧
        h.ok (76 + body.length) expectedStore expectedWal := by
  have hsize : (UInt32.ofNat (72 + body.length + 4)).toNat = 76 + body.length := by
    grind [UInt32_ofNat_toNat]
  have htake : (walRecord h body).take 72 =
      encWalHeader h (UInt32.ofNat (72 + body.length + 4)) := by
        grind [append_assoc, take_left', addSeal, encWalHeader_length, walRecord]
  rw [walHeaderDecode_iff, htake, walRecord_length]
  constructor
  · grind [encWalHeader_injective]
  · rintro ⟨htotal, hok⟩
    have heq : UInt32.ofNat (72 + body.length + 4) = h.totalBytes :=
      UInt32.toNat_inj.mp (by rw [hsize, htotal])
    refine ⟨by rw [heq], hok, ?_⟩
    rw [htotal]
    have hseal := sealOk_addSeal (crc32cDomain walDomain)
      (encWalHeader h (UInt32.ofNat (72 + body.length + 4)) ++ body) []
    rw [append_nil, length_append, encWalHeader_length] at hseal
    rw [show 76 + body.length = 72 + body.length + 4 by omega]
    exact hseal

end Log

/-- A kind of log records: what is written and read, the bytes of a body, and what the decoder asks.
-/
structure LogCodec (α : Type) where
  encode : WalHeader → α → Nat → Option Bytes
  decode : Bytes → WalHeader → Option α
  body : α → Bytes
  ok : WalHeader → α → Prop
  encode_some : ∀ {h x cap bs}, encode h x cap = some bs →
    bs = walRecord h (body x) ∧ (body x).length < 2 ^ 32 - 76
  encode_ok : ∀ {h x cap}, ok h x → 76 + (body x).length ≤ cap →
    encode h x cap = some (walRecord h (body x))
  decode_iff : ∀ {bs h x}, 76 ≤ h.totalBytes.toNat → h.totalBytes.toNat ≤ bs.length →
    (decode bs h = some x ↔ walBody bs (h.totalBytes.toNat - 76) = body x ∧ ok h x)

namespace LogCodec

variable {α : Type} (c : LogCodec α) {h : WalHeader} {x : α} {cap : Nat} {bs : Bytes}
  {expectedStore expectedWal : Option Uuid}

def read (bs : Bytes) (expectedStore expectedWal : Option Uuid) : Option (WalHeader × α) := do
  let h ← walHeaderDecode bs expectedStore expectedWal
  let x ← c.decode bs h
  some (h, x)

lemma read_iff : c.read bs expectedStore expectedWal = some (h, x) ↔
    walHeaderDecode bs expectedStore expectedWal = some h ∧ c.decode bs h = some x := by
  grind [bind_eq_bind, bind_eq_some_iff, some.injEq, Prod.mk.injEq, read]

theorem encode_of_read (hread : c.read bs expectedStore expectedWal = some (h, x))
    (hcap : h.totalBytes.toNat ≤ cap) : c.encode h x cap = some (bs.take h.totalBytes.toNat) := by
  obtain ⟨hhead, hdec⟩ := c.read_iff.mp hread
  obtain ⟨hmin, hle⟩ := WalHeader.ok_total (walHeaderDecode_iff.mp hhead).2.1
  obtain ⟨hbody, hok⟩ := (c.decode_iff hmin hle).mp hdec
  have hlen := walBody_total hmin hle hbody
  rw [take_eq_walRecord hhead, hbody]
  exact c.encode_ok hok (by omega)

/-- **A record that is written is read back exactly when its header and its fields are in order.**
-/
theorem read_of_encode (henc : c.encode h x cap = some bs) :
    c.read bs expectedStore expectedWal = some (h, x) ↔
      h.totalBytes.toNat = bs.length ∧ h.ok bs.length expectedStore expectedWal ∧ c.ok h x := by
  obtain ⟨rfl, hlen⟩ := c.encode_some henc
  rw [c.read_iff, walHeaderDecode_walRecord hlen, walRecord_length, and_assoc]
  refine and_congr_right fun htotal => and_congr_right fun _ => ?_
  rw [@c.decode_iff _ h x (by omega) (by rw [walRecord_length]; omega),
    show h.totalBytes.toNat - 76 = (c.body x).length by omega, walBody_walRecord]
  exact ⟨And.right, fun hx => ⟨rfl, hx⟩⟩

end LogCodec

/-! ## START -/

def StartOk (h : WalHeader) (s : Start) : Prop :=
  h.family = recStart ∧ s.dsIncarnation = h.dsIncarnation ∧ startDecisionOk s = true

lemma startEncode_iff {s : Start} :
    startEncode h s = some bs ↔ StartOk h s ∧ bs = walRecord h (encStart s) := by
  unfold startEncode StartOk
  rw [unless_iff, eq_comm (a := s.dsIncarnation)]
  push Not
  rw [Bool.ne_false_iff]

def startCodec : LogCodec Start where
  encode := fun h s _ => startEncode h s
  decode := startDecode
  body := encStart
  ok := StartOk
  encode_some := fun henc => ⟨(startEncode_iff.mp henc).2, by rw [encStart_length]; decide⟩
  encode_ok := fun hok _ => startEncode_iff.mpr ⟨hok, rfl⟩
  decode_iff := by
    intro bs h s hmin hle
    have hread := @whole_check_iff _ decStart encStart (fun _ => True)
      (fun s => s.dsIncarnation == h.dsIncarnation && startDecisionOk s)
      (Codec.spells.mono fun used a hused => ⟨hused, trivial⟩) (fun a _ => Codec.reads a)
    unfold startDecode StartOk
    rw [Option.ite_none_left_eq_some, Option.bind_eq_bind, hread, Bool.and_eq_true, beq_iff_eq]
    push Not
    constructor
    · rintro ⟨⟨hfam, htotal, -⟩, hbody, -, hcheck⟩
      rw [htotal]
      exact ⟨hbody, hfam, hcheck⟩
    · rintro ⟨hbody, hfam, hcheck⟩
      have htotal := walBody_total hmin hle hbody
      rw [encStart_length] at htotal
      rw [htotal] at hbody
      exact ⟨⟨hfam, htotal, hle⟩, hbody, trivial, hcheck⟩

/-! ## CONTROL -/

lemma countedOk_length {subtype : UInt32} {fixed countAt each keyLen : Nat}
    (h : countedOk subtype body fixed countAt each keyLen) : body.length ≤ fixed + 64 * each := by
  simp only [countedOk, Bool.if_false_left, Bool.and_eq_true, Bool.not_eq_true',
    decide_eq_false_iff_not] at h
  obtain ⟨-, hcount, -⟩ := h
  push Not at hcount
  rw [hcount.2.2]
  exact Nat.add_le_add_left (Nat.mul_le_mul_right each hcount.1) fixed

lemma fileRegisterOk_length (h : fileRegisterOk body) : body.length = 184 := by
  unfold fileRegisterOk at h
  dsimp only at h
  by_contra hlen
  rw [if_pos hlen] at h
  cases h

lemma of_ite {c : Prop} [Decidable c] {a b : Bool} {q : Prop} (ha : a → q) (hb : b → q)
    (h : (if c then a else b) = true) : q := by
  split at h
  · exact ha h
  · exact hb h

lemma controlBodySize_length {subtype : UInt32} :
    controlBodySize subtype body = true → body.length ≤ maxControlBodyBytes := by
  have hfixed : ∀ n : Nat, n ≤ 3076 → decide (body.length = n) = true → body.length ≤ 3076 :=
    fun n hn h => by rw [of_decide_eq_true h]; exact hn
  have hcounted : ∀ fixed countAt each keyLen : Nat, fixed + 64 * each ≤ 3076 →
      countedOk subtype body fixed countAt each keyLen = true → body.length ≤ 3076 :=
    fun _ _ _ _ hle hok => le_trans (countedOk_length hok) hle
  have hrange : ∀ (n : Nat) (p q : Bool), n ≤ 3076 → (decide (body.length = n) && p && q) = true →
      body.length ≤ 3076 := fun n p q hn h => by
    rw [Bool.and_eq_true, Bool.and_eq_true] at h
    exact hfixed n hn h.1.1
  have hcertificate : ∀ p q r : Bool, (decide (body.length = 56) && p && q && r) = true →
      body.length ≤ 3076 := fun p q r h => by
    rw [Bool.and_eq_true] at h
    exact hrange 56 p q (by decide) h.1
  unfold controlBodySize
  refine of_ite (fun h => nomatch h) (of_ite (fun h => ?_) (of_ite (hfixed 36 (by decide))
    (of_ite (hfixed 28 (by decide)) (of_ite (hfixed 84 (by decide)) (of_ite (hfixed 60 (by decide))
    (of_ite (hrange 36 _ _ (by decide)) (of_ite (hfixed 100 (by decide))
    (of_ite (hfixed 12 (by decide)) (of_ite (hrange 68 _ _ (by decide))
    (of_ite (hfixed 52 (by decide)) (of_ite (hcertificate _ _ _)
    (of_ite (hcounted _ _ _ _ (by decide)) (of_ite (hcounted _ _ _ _ (by decide))
    (of_ite (hcounted _ _ _ _ (by decide)) (of_ite (hcounted _ _ _ _ (by decide))
    (hcounted _ _ _ _ (by decide)))))))))))))))))
  rw [fileRegisterOk_length h]
  decide

def ControlOk (h : WalHeader) (c : Control) : Prop :=
  h.family = recControl ∧ controlBodySize c.subtype c.body = true ∧
    controlKeyOk c h.dsIncarnation = true ∧ controlOutcomeOk c.transition c.status = true

lemma controlEncode_iff {c : Control} {cap : Nat} :
    controlEncode h c cap = some bs ↔ h.family = recControl ∧ controlBodySize c.subtype c.body ∧
        controlKeyOk c h.dsIncarnation ∧ 212 + c.body.length ≤ cap ∧
        bs = walRecord h (encControl c) := by
  unfold controlEncode walHeaderBytes controlPrefixBytes
  rw [ite_none_left_eq_some, unless_iff]
  push Not
  simp only [Bool.ne_false_iff, and_assoc]
  rw [show 72 + 136 + c.body.length + 4 = 212 + c.body.length by omega]

def controlCodec : LogCodec Control where
  encode := controlEncode
  decode := controlDecode
  body := encControl
  ok := ControlOk
  encode_some := fun henc => by
    obtain ⟨-, hbody, -, -, rfl⟩ := controlEncode_iff.mp henc
    have hle := controlBodySize_length hbody
    refine ⟨rfl, ?_⟩
    rw [encControl_length]
    exact lt_of_le_of_lt (Nat.add_le_add_left hle 136) (by decide)
  encode_ok := fun hok hcap => by
    rw [encControl_length] at hcap
    exact controlEncode_iff.mpr ⟨hok.1, hok.2.1, hok.2.2.1, by omega, rfl⟩
  decode_iff := by
    intro bs h c hmin hle
    have hread := fun bodyLen => @whole_check_iff _ (decControl bodyLen) encControl
      (fun c => c.body.length = bodyLen)
      (fun c => controlBodySize c.subtype c.body && controlKeyOk c h.dsIncarnation &&
        controlOutcomeOk c.transition c.status) (accepts_control bodyLen)
      (fun c hlen => hlen ▸ reads_control c)
    unfold controlDecode ControlOk
    simp only [Option.ite_none_left_eq_some, Option.bind_eq_bind]
    rw [hread, Bool.and_eq_true, Bool.and_eq_true]
    push Not
    show (_ ∧ _ ∧ 72 + 136 + 4 ≤ _) ∧ h.totalBytes.toNat - 72 - 136 - 4 ≤ 3076 ∧
      walBody bs (136 + (h.totalBytes.toNat - 72 - 136 - 4)) = _ ∧
      _ = h.totalBytes.toNat - 72 - 136 - 4 ∧ _ ↔ _
    constructor
    · rintro ⟨⟨hfam, -, hroom⟩, -, hbody, -, ⟨hsize, hkey⟩, hout⟩
      rw [show 136 + (h.totalBytes.toNat - 72 - 136 - 4) = h.totalBytes.toNat - 76 by omega]
        at hbody
      exact ⟨hbody, hfam, hsize, hkey, hout⟩
    · rintro ⟨hbody, hfam, hsize, hkey, hout⟩
      have htotal := walBody_total hmin hle hbody
      have hmax : c.body.length ≤ 3076 := controlBodySize_length hsize
      rw [encControl_length] at htotal
      rw [show h.totalBytes.toNat - 76 = 136 + (h.totalBytes.toNat - 72 - 136 - 4) by omega]
        at hbody
      exact ⟨⟨hfam, hle, by omega⟩, by omega, hbody, by omega, ⟨hsize, hkey⟩, hout⟩

/-! ## ENTRY -/

def EntryOk (h : WalHeader) (e : Entry) : Prop :=
  h.family = recEntry ∧ e.key.ok = true ∧ e.ok h.dsIncarnation = true

def EntryWritable (h : WalHeader) (e : Entry) : Prop :=
  h.family = recEntry ∧ entryPair e.transition e.status = true ∧
    (e.payloadObjectId = 0 → e.writerPayloadId = 0) ∧
    (e.predecessorPresent = false → e.predecessorObjectId = 0 ∧ e.predecessorGeneration = 0) ∧
    (e.postcondPresent = false → e.postcondId = 0) ∧ resultCkOk e.resultCkLen e.resultCk = true

lemma entryEncode_iff {e : Entry} :
    entryEncode h e = some bs ↔ EntryWritable h e ∧ bs = walRecord h (encEntry e) := by
  unfold entryEncode EntryWritable
  rw [unless_iff]
  push Not
  simp only [Bool.ne_false_iff]

lemma EntryOk.writable {e : Entry} (hok : EntryOk h e) : EntryWritable h e := by
  obtain ⟨hfam, -, hfields⟩ := hok
  simp only [Entry.ok, Bool.and_eq_true, Bool.or_eq_true, beq_iff_eq, bne_iff_ne] at hfields
  obtain ⟨⟨⟨⟨⟨hrest, hpred⟩, hpost⟩, hpay⟩, -⟩, hck⟩ := hfields
  have hpair : entryPair e.transition e.status := hrest.1.1.1.1.1.1.1.2
  refine ⟨hfam, hpair, fun h0 => ?_, fun h0 => ?_, fun h0 => ?_, hck⟩
  · exact hpay.resolve_left fun hne => hne h0
  · exact hpred.resolve_left fun hp => by rw [h0] at hp; cases hp
  · exact hpost.resolve_left fun hp => by rw [h0] at hp; cases hp

def entryCodec : LogCodec Entry where
  encode := fun h e _ => entryEncode h e
  decode := entryDecode
  body := encEntry
  ok := EntryOk
  encode_some := fun henc => ⟨(entryEncode_iff.mp henc).2, by rw [encEntry_length]; decide⟩
  encode_ok := fun hok _ => entryEncode_iff.mpr ⟨hok.writable, rfl⟩
  decode_iff := by
    intro bs h e hmin hle
    have hread := @whole_check_iff _ decEntry encEntry (fun e => e.key.ok = true)
      (fun e => e.ok h.dsIncarnation) accepts_entry (fun _ hkey => reads_entry hkey)
    unfold entryDecode EntryOk
    rw [Option.ite_none_left_eq_some, Option.bind_eq_bind, hread]
    push Not
    constructor
    · rintro ⟨⟨hfam, htotal, -⟩, hbody, hok⟩
      rw [htotal]
      exact ⟨hbody, hfam, hok⟩
    · rintro ⟨hbody, hfam, hok⟩
      have htotal := walBody_total hmin hle hbody
      rw [encEntry_length] at htotal
      rw [htotal] at hbody
      exact ⟨⟨hfam, htotal, hle⟩, hbody, hok⟩

/-! ## COHORT -/

def CohortOk (h : WalHeader) (co : Cohort) : Prop :=
  h.family = recCohort ∧ co.key.ok = true ∧
    cohortPrefixOk (332 + co.members.length * 244) co.before co.members.length = true ∧
    ∀ m ∈ co.members, memberOk h.dsIncarnation m = true

def CohortWritable (h : WalHeader) (co : Cohort) : Prop :=
  h.family = recCohort ∧ 1 ≤ co.members.length ∧ co.members.length ≤ 16 ∧ co.flags &&& ~~~3 = 0 ∧
    cohortTriple co.transition co.status (co.flags &&& 2 != 0) = true ∧
    ∀ m ∈ co.members, resultCkOk m.resultCkLen m.resultCk = true

lemma cohortEncode_iff {co : Cohort} {cap : Nat} : cohortEncode h co cap = some bs ↔
      CohortWritable h co ∧ 332 + co.members.length * 244 ≤ cap ∧
        bs = walRecord h (encCohort co) := by
  unfold cohortEncode CohortWritable
  rw [ite_none_left_eq_some, ite_none_left_eq_some, unless_iff]
  push Not
  simp only [Bool.ne_false_iff, and_assoc]
  rw [show 72 + 256 + co.members.length * 244 + 4 = 332 + co.members.length * 244 by omega]

lemma CohortOk.writable {co : Cohort} (hok : CohortOk h co) : CohortWritable h co := by
  obtain ⟨hfam, -, hprefix, hms⟩ := hok
  simp only [cohortPrefixOk, Bool.and_eq_true, decide_eq_true_iff, beq_iff_eq] at hprefix
  obtain ⟨⟨⟨⟨⟨⟨hmin, hmax⟩, hflags⟩, -⟩, htriple⟩, -⟩, -⟩ := hprefix
  refine ⟨hfam, hmin, hmax, hflags, htriple, fun m hm => ?_⟩
  have hm' := hms m hm
  simp only [memberOk, Bool.and_eq_true] at hm'
  exact hm'.1.1.1

def cohortCodec : LogCodec Cohort where
  encode := cohortEncode
  decode := cohortDecode
  body := encCohort
  ok := CohortOk
  encode_some := fun henc => by
    obtain ⟨hw, -, rfl⟩ := cohortEncode_iff.mp henc
    have hmax := hw.2.2.1
    refine ⟨rfl, ?_⟩
    rw [encCohort_length]
    omega
  encode_ok := fun hok hcap => by
    rw [encCohort_length] at hcap
    exact cohortEncode_iff.mpr ⟨hok.writable, by omega, rfl⟩
  decode_iff := by
    intro bs h co hmin hle
    have hread :
        ∀ bs', whole (decCohort (cohortPrefixOk h.totalBytes.toNat) (memberOk h.dsIncarnation))
        bs' = some co ↔ bs' = encCohort co ∧ co.key.ok = true ∧
          cohortPrefixOk h.totalBytes.toNat co.before co.members.length = true ∧
          ∀ m ∈ co.members, memberOk h.dsIncarnation m = true := fun bs' =>
      whole_eq_some_iff (accepts_cohort _ _) fun co' hok => by
        have hmax : co'.members.length ≤ 16 := by
          have hprefix := hok.2.1
          simp only [cohortPrefixOk, Bool.and_eq_true, decide_eq_true_iff] at hprefix
          exact hprefix.1.1.1.1.1.2
        exact reads_cohort hok.1 (by omega) hok.2.1 hok.2.2
    have hlast : h.totalBytes.toNat - walHeaderBytes - 4 = h.totalBytes.toNat - 76 := by
      show h.totalBytes.toNat - 72 - 4 = _
      omega
    unfold cohortDecode CohortOk
    rw [hlast, Option.ite_none_left_eq_some, hread]
    push Not
    constructor
    · rintro ⟨⟨hfam, -⟩, hbody, hkey, hprefix, hms⟩
      have htotal := walBody_total hmin hle hbody
      rw [encCohort_length] at htotal
      rw [htotal, ← Nat.add_assoc] at hprefix
      exact ⟨hbody, hfam, hkey, hprefix, hms⟩
    · rintro ⟨hbody, hfam, hkey, hprefix, hms⟩
      have htotal := walBody_total hmin hle hbody
      rw [encCohort_length, ← Nat.add_assoc] at htotal
      have hone := (CohortOk.writable ⟨hfam, hkey, hprefix, hms⟩).2.1
      refine ⟨⟨hfam, ?_, hle⟩, hbody, hkey, by rw [htotal]; exact hprefix, hms⟩
      show 72 + 256 + 244 + 4 ≤ h.totalBytes.toNat
      omega

end Reffs.D2
