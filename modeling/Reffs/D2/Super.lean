import Reffs.D2.Blocks

/-!
# The superblock file

`d2_files.c` keeps the superblock twice, in two slots of one file. An update writes the next
generation to the slot that is not the newest, and a reader takes the valid slot of the higher
generation, so a write that is torn leaves the older slot to be read. Between updates the log and
the payload file move the fields that say how much of them is durable.

The file never loses the generation in memory (`Reachable.ordered`), whatever writes fail on the
way. But an update that wrote its whole slot and failed to sync it leaves a generation on disk that
memory does not know, and the next update writes over it. And an update that fails takes back the
generation in memory and not the state.
-/

namespace Reffs.D2

open ByteCodec Superblock Or
open Reffs.D1 (Uuid)

/-- The superblock in memory and the slot it came from, the two slots on disk, and the ends of the
log and of the payload file. -/
structure Files where
  slots : Bool → Bytes
  super : Superblock
  newestSlot : Bool
  walCursor : Nat
  payloadCursor : Nat

/-! ## Reading -/

/-- The slot that `d2_read_super` selects, and what it holds. -/
def selectSuper (slots : Bool → Bytes) (expectedStore : Option Uuid) : Option (Superblock × Bool) :=
  match superDecode (slots false) expectedStore, superDecode (slots true) expectedStore with
  | none, none => none
  | some sb, none => some (sb, false)
  | none, some sb => some (sb, true)
  | some sb₀, some sb₁ =>
    if sb₀.generation = sb₁.generation then none
    else if sb₀.generation < sb₁.generation then some (sb₁, true)
    else some (sb₀, false)

/-- `d2_read_super`: the status, and the selection that it leaves in memory. -/
def readSuper (slots : Bool → Bytes) (expectedStore : Option Uuid) :
    UInt32 × Option (Superblock × Bool) :=
  match selectSuper slots expectedStore with
  | none => (11, none)
  | some (sb, slot) =>
    if sb.state = sbFenced then (11, some (sb, slot))
    else if sb.dsIncarnation = 0 ∧ sb.state = sbNeedsRecovery then (2, some (sb, slot))
    else (1, some (sb, slot))

/-! ## Writing -/

/-- What became of a write to a slot: all of it is durable, or it failed with some first bytes in
the file (all of them, when it was the sync that failed). A full disk has a status of its own. -/
structure SlotIo where
  fails : Option Nat
  noSpace : Bool

/-- `d2_errno_status`. -/
def SlotIo.status (io : SlotIo) : UInt32 := if io.noSpace then 10 else 11

/-- A block of which `n` bytes have been written over. -/
def tear (n : Nat) (old new : Bytes) : Bytes := new.take n ++ old.drop n

def setSlot (slots : Bool → Bytes) (slot : Bool) (bs : Bytes) : Bool → Bytes :=
  fun s => if s = slot then bs else slots s

/-- `d2_write_super_slot`. -/
def writeSuperSlot (f : Files) (slot : Bool) (io : SlotIo) : Bool × Files :=
  match superEncode f.super with
  | none => (false, f)
  | some bytes =>
    match io.fails with
    | some n => (false, { f with slots := setSlot f.slots slot (tear n (f.slots slot) bytes) })
    | none => (true, { f with slots := setSlot f.slots slot bytes, newestSlot := slot })

def Superblock.next (sb : Superblock) (state : UInt32) : Superblock :=
  { sb with generation := sb.generation + 1, state := state }

def Files.Refuses (f : Files) (state : UInt32) : Prop :=
  state < sbClean ∨ sbRetired < state ∨ f.super.generation = 0xffffffffffffffff

instance (f : Files) (state : UInt32) : Decidable (f.Refuses state) :=
  inferInstanceAs (Decidable (_ ∨ _))

/-- `d2_files_super_update`. -/
def superUpdate (f : Files) (state : UInt32) (io : SlotIo) : UInt32 × Files :=
  if f.Refuses state then (2, f)
  else
    match writeSuperSlot { f with super := f.super.next state } (!f.newestSlot) io with
    | (true, f') => (1, f')
    | (false, f') =>
      -- only the generation is taken back
      (io.status, { f' with super := { f'.super with generation := f'.super.generation - 1 } })

/-- The slots that an update leaves which is interrupted after `n` bytes of its write. -/
def interruptedAt (f : Files) (state : UInt32) (n : Nat) : Bool → Bytes :=
  (superUpdate f state ⟨some n, false⟩).2.slots

/-! ## What moves the superblock between updates -/

/-- `d2_files_payload_append`, when the object has been written. -/
def payloadAppended (f : Files) (contentLen : Nat) : Option Files :=
  let extent := payloadObjectBytes contentLen
  if f.super.capacityPayloadBytes.toNat < f.payloadCursor ∨
      f.super.capacityPayloadBytes.toNat - f.payloadCursor < extent then none
  else some { f with payloadCursor := f.payloadCursor + extent }

/-- `d2_files_wal_append_internal`, when records of `len` bytes have been written, up to number
`lsn`. -/
def walAppended (f : Files) (len : Nat) (lsn : UInt64) : Option Files :=
  if f.super.capacityWalBytes.toNat < f.walCursor ∨
      f.super.capacityWalBytes.toNat - f.walCursor < len then none
  else some { f with
    walCursor := f.walCursor + len
    super := { f.super with
      walDurableLsn := lsn
      walDurableBytes := UInt64.ofNat (f.walCursor + len)
      payloadDurableBytes := UInt64.ofNat f.payloadCursor } }

def verifier (storeUuid : Uuid) (epoch : UInt64) : FixedBytes 8 :=
  fixedOfBytes 8 ((encRaw (hashDomain (domainBytes "FFV2-D2-VERIFIER-v1")
    (encRaw storeUuid ++ encU64 epoch))).take 8)

/-- `d2_files_start` up to its superblock update, when the START record has been written. -/
def startAppended (f : Files) (lsn : UInt64) (verifierChanged : Bool) : Option Files :=
  if maxIncarnation ≤ f.super.dsIncarnation then none
  else
    let next := f.super.dsIncarnation + 1
    match walAppended { f with super := { f.super with dsIncarnation := next } } startRecordBytes
        lsn with
    | none => none
    | some f' =>
      if verifierChanged then
        some { f' with super := { f'.super with
          verifierEpoch := next
          writeVerifier := verifier f.super.storeUuid next } }
      else some f'

/-! ## Runs -/

/-- A torn block is neither of the two blocks and passes the checksum only by a collision. -/
def TornSafe (expectedStore : Option Uuid) (n : Nat) (old new : Bytes) : Prop :=
  superDecode (tear n old new) expectedStore = none ∨ tear n old new = old ∨ tear n old new = new

/-- An update does not end in a collision. -/
def Files.Safe (f : Files) (expectedStore : Option Uuid) (state : UInt32) (n : Nat) : Prop :=
  TornSafe expectedStore n (f.slots !f.newestSlot) (superSlot (f.super.next state))

/-- The files of a store that has been bound, through appends, restarts and updates that succeed or
fail. -/
inductive Reachable (expectedStore : Option Uuid) : Files → Prop where
  | bind (f : Files) (hread : readSuper f.slots expectedStore = (1, some (f.super, f.newestSlot)))
      (hwal : f.walCursor ≤ f.super.capacityWalBytes.toNat)
      (hpayload : f.payloadCursor ≤ f.super.capacityPayloadBytes.toNat) : Reachable expectedStore f
  | payload {f f' : Files} (contentLen : Nat) (h : Reachable expectedStore f)
      (hstep : payloadAppended f contentLen = some f') : Reachable expectedStore f'
  | wal {f f' : Files} (len : Nat) (lsn : UInt64) (h : Reachable expectedStore f)
      (hstep : walAppended f len lsn = some f') : Reachable expectedStore f'
  | start {f f' : Files} (lsn : UInt64) (verifierChanged : Bool) (h : Reachable expectedStore f)
      (hstep : startAppended f lsn verifierChanged = some f') : Reachable expectedStore f'
  | update {f : Files} (state : UInt32) (io : SlotIo) (h : Reachable expectedStore f) :
      Reachable expectedStore (superUpdate f state io).2

/-- What holds of the slots: the newest one has the generation in memory. Nothing is said of the
other one, which may hold an older generation, the next one from an update that failed, or a torn
block. -/
structure Files.Ordered (expectedStore : Option Uuid) (f : Files) : Prop where
  newest : ∃ sb, superDecode (f.slots f.newestSlot) expectedStore = some sb ∧
    sb.generation = f.super.generation
  ok : f.super.ok = true
  store : equalOrUnspecified f.super.storeUuid expectedStore = true
  walFits : f.walCursor ≤ f.super.capacityWalBytes.toNat
  payloadFits : f.payloadCursor ≤ f.super.capacityPayloadBytes.toNat

/-! ## The fields of a superblock -/

variable {sb : Superblock} {state : UInt32} {lsn : UInt64} {n : Nat}

lemma Superblock.ok_iff : sb.ok ↔ sb.rootHandleLen.toNat ≤ maxHandleBytes ∧
    isZero ((encRaw sb.rootHandle).drop sb.rootHandleLen.toNat) ∧
    (sbClean ≤ sb.state ∧ sb.state ≤ sbRetired) ∧ sb.formatFloor = formatVersion ∧
    sb.generation ≠ 0 ∧ sb.dsIncarnation ≤ maxIncarnation ∧
    sb.walDurableBytes ≤ sb.capacityWalBytes ∧ sb.payloadDurableBytes ≤ sb.capacityPayloadBytes ∧
    minWalBytes ≤ sb.capacityWalBytes.toNat ∧ payloadAlign * 2 ≤ sb.capacityPayloadBytes.toNat ∧
    sb.capacityPayloadBytes.toNat % payloadAlign = 0 := by
  simp [Superblock.ok, and_assoc]

lemma generation_next {g : UInt64} (h : g ≠ 0xffffffffffffffff) : (g + 1).toNat = g.toNat + 1 := by
  have hlt : g.toNat < 2 ^ 64 := g.toNat_lt
  have hne : g.toNat ≠ 0xffffffffffffffff := fun h' => h (UInt64.toNat_inj.mp h')
  rw [UInt64.toNat_add]
  show (g.toNat + 1) % 2 ^ 64 = g.toNat + 1
  omega

section

variable (h : sb.ok = true) (hlo : ¬ state < sbClean) (hhi : ¬ sbRetired < state)

include h hlo hhi

lemma Superblock.next_ok (hgen : sb.generation ≠ 0xffffffffffffffff) : (sb.next state).ok := by
  rw [ok_iff] at h ⊢
  obtain ⟨hlen, hzero, -, hfloor, -, hrest⟩ := h
  refine ⟨hlen, hzero, ⟨UInt32.not_lt.mp hlo, UInt32.not_lt.mp hhi⟩, hfloor, ?_, hrest⟩
  intro hz
  have hnat : (sb.generation + 1).toNat = 0 := by
    show (sb.next state).generation.toNat = 0
    rw [hz]
    rfl
  rw [generation_next hgen] at hnat
  omega

lemma Superblock.withState_ok : { sb with state := state }.ok := by
  grind [ok_iff]

end

lemma Superblock.appended_ok {wal payload : Nat} (h : sb.ok = true)
    (hwal : wal ≤ sb.capacityWalBytes.toNat) (hpayload : payload ≤ sb.capacityPayloadBytes.toNat) :
    { sb with
      walDurableLsn := lsn
      walDurableBytes := UInt64.ofNat wal
      payloadDurableBytes := UInt64.ofNat payload }.ok = true := by
  have hfits : ∀ {n : Nat} {c : UInt64}, n ≤ c.toNat → UInt64.ofNat n ≤ c := by
    grind [UInt64.le_iff_toNat_le, UInt64.toNat_ofNat']
  rw [Superblock.ok_iff] at h ⊢
  obtain ⟨hlen, hzero, hstate, hfloor, hgen, hinc, -, -, hrest⟩ := h
  exact ⟨hlen, hzero, hstate, hfloor, hgen, hinc, hfits hwal, hfits hpayload, hrest⟩

/-! ## Selecting a slot -/

section Select

variable {slots : Bool → Bytes} {expectedStore : Option Uuid} {slot : Bool} {sb sb' : Superblock}

lemma selectSuper_eq (hslot : superDecode (slots slot) expectedStore = some sb)
    (hother : ∀ sb', superDecode (slots !slot) expectedStore = some sb' →
      sb'.generation < sb.generation) : selectSuper slots expectedStore = some (sb, slot) := by
  unfold selectSuper
  cases slot with
  | false => grind
  | true => grind

lemma of_selectSuper (h : selectSuper slots expectedStore = some (sb, slot)) :
    superDecode (slots slot) expectedStore = some sb ∧
      ∀ sb', superDecode (slots !slot) expectedStore = some sb' →
        sb'.generation < sb.generation := by
  unfold selectSuper at h
  cases h₀ : superDecode (slots false) expectedStore with
  | none => grind
  | some sb₀ =>
    cases h₁ : superDecode (slots true) expectedStore with
    | none => grind
    | some sb₁ =>
      rw [h₀, h₁] at h
      dsimp only at h
      by_cases heq : sb₀.generation = sb₁.generation
      · rw [if_pos heq] at h
        cases h
      rw [if_neg heq] at h
      by_cases hlt : sb₀.generation < sb₁.generation
      · grind
      · grind

lemma select_of_readSuper (h : readSuper slots expectedStore = (1, some (sb, slot))) :
    selectSuper slots expectedStore = some (sb, slot) := by
  grind [readSuper]

end Select

/-! ## One update -/

section Update

variable {f : Files} {expectedStore : Option Uuid} {state : UInt32} {io : SlotIo}

def Files.updated (f : Files) (state : UInt32) : Files :=
  { f with
    slots := setSlot f.slots (!f.newestSlot) (superSlot (f.super.next state))
    super := f.super.next state
    newestSlot := !f.newestSlot }

/-- The files after an update that failed with `n` bytes written. -/
def Files.failed (f : Files) (state : UInt32) (n : Nat) : Files :=
  { f with
    slots := setSlot f.slots (!f.newestSlot)
      (tear n (f.slots !f.newestSlot) (superSlot (f.super.next state)))
    super := { f.super with state := state } }

lemma next_ok_of_accepts (hok : f.super.ok) (h : ¬ f.Refuses state) : (f.super.next state).ok := by
  unfold Files.Refuses at h
  push Not at h
  exact next_ok hok h.1 h.2.1 h.2.2

lemma superUpdate_refused (h : f.Refuses state) : superUpdate f state io = (2, f) := if_pos h

lemma superUpdate_updated (hok : f.super.ok) (h : ¬ f.Refuses state) (hio : io.fails = none) :
    superUpdate f state io = (1, f.updated state) := by
  have henc : superEncode (f.super.next state) = some (superSlot (f.super.next state)) :=
    superEncode_iff.mpr ⟨writable_of_ok (next_ok_of_accepts hok h), rfl⟩
  unfold superUpdate writeSuperSlot
  rw [if_neg h]
  rw [henc, hio]
  rfl

lemma superUpdate_failed (hok : f.super.ok) (h : ¬ f.Refuses state)
    (hio : io.fails = some n) : superUpdate f state io = (io.status, f.failed state n) := by
  have henc : superEncode (f.super.next state) = some (superSlot (f.super.next state)) :=
    superEncode_iff.mpr ⟨Superblock.writable_of_ok (next_ok_of_accepts hok h), rfl⟩
  have hback : f.super.generation + 1 - 1 = f.super.generation := UInt64.add_sub_cancel _ _
  unfold superUpdate writeSuperSlot
  rw [if_neg h]
  rw [henc, hio]
  dsimp only [Superblock.next]
  rw [hback]
  rfl

lemma SlotIo.status_ne_one (io : SlotIo) : io.status ≠ 1 := by
  unfold SlotIo.status
  split <;> decide

@[simp] lemma setSlot_same (slots : Bool → Bytes) (slot : Bool) (bs : Bytes) :
    setSlot slots slot bs slot = bs := if_pos rfl

@[simp] lemma setSlot_not (slots : Bool → Bytes) (slot : Bool) (bs : Bytes) :
    setSlot slots (!slot) bs slot = slots slot := by
  unfold setSlot
  rw [if_neg]
  cases slot <;> decide

/-! ### The order of the slots is kept -/

lemma Files.next_generation (h : ¬ f.Refuses state) :
    (f.super.next state).generation.toNat = f.super.generation.toNat + 1 :=
  generation_next fun hmax => h (inr (inr hmax))

namespace Files.Ordered

variable (ho : f.Ordered expectedStore)

include ho

section

variable (h : ¬ f.Refuses state)

include h

lemma next_decodes :
    superDecode (superSlot (f.super.next state)) expectedStore = some (f.super.next state) :=
  superDecode_iff.mpr ⟨rfl, next_ok_of_accepts ho.ok h, ho.store⟩

lemma updated : (f.updated state).Ordered expectedStore where
  newest := ⟨f.super.next state, by
    show superDecode (setSlot f.slots (!f.newestSlot) _ (!f.newestSlot)) _ = _
    rw [setSlot_same]
    exact ho.next_decodes h, rfl⟩
  ok := next_ok_of_accepts ho.ok h
  store := ho.store
  walFits := ho.walFits
  payloadFits := ho.payloadFits

lemma failed : (f.failed state n).Ordered expectedStore where
  newest := by
    obtain ⟨sb, hsb, hgen⟩ := ho.newest
    refine ⟨sb, ?_, hgen⟩
    show superDecode (setSlot f.slots (!f.newestSlot) _ f.newestSlot) _ = _
    rw [setSlot_not]
    exact hsb
  ok := by
    unfold Files.Refuses at h
    push Not at h
    exact withState_ok ho.ok h.1 h.2.1
  store := ho.store
  walFits := ho.walFits
  payloadFits := ho.payloadFits

lemma selects_next {slots : Bool → Bytes} (hnewest : slots f.newestSlot = f.slots f.newestSlot)
    (hnext : slots (!f.newestSlot) = superSlot (f.super.next state)) :
    selectSuper slots expectedStore = some (f.super.next state, !f.newestSlot) := by
  refine selectSuper_eq (by rw [hnext]; exact ho.next_decodes h) fun sb hsb => ?_
  obtain ⟨sb', hsb', hgen⟩ := ho.newest
  rw [Bool.not_not, hnewest] at hsb
  obtain rfl := Option.some.inj (hsb'.symm.trans hsb)
  rw [hgen, UInt64.lt_iff_toNat_lt, Files.next_generation h]
  exact Nat.lt_succ_self _

end

end Files.Ordered

end Update

/-! ## Runs -/

section Runs

variable {f f' : Files} {expectedStore : Option Uuid}

lemma ordered_of_read (hread : readSuper f.slots expectedStore = (1, some (f.super, f.newestSlot)))
    (hwal : f.walCursor ≤ f.super.capacityWalBytes.toNat)
    (hpayload : f.payloadCursor ≤ f.super.capacityPayloadBytes.toNat) :
    f.Ordered expectedStore := by
  obtain ⟨hslot, -⟩ := of_selectSuper (select_of_readSuper hread)
  obtain ⟨-, hok, hstore⟩ := superDecode_iff.mp hslot
  exact ⟨⟨f.super, hslot, rfl⟩, hok, hstore, hwal, hpayload⟩

lemma Files.Ordered.payload {contentLen : Nat} (ho : f.Ordered expectedStore)
    (hstep : payloadAppended f contentLen = some f') : f'.Ordered expectedStore := by
  unfold payloadAppended at hstep
  dsimp only at hstep
  split at hstep
  · cases hstep
  · next hfits =>
    cases hstep
    refine ⟨ho.newest, ho.ok, ho.store, ho.walFits, ?_⟩
    show f.payloadCursor + payloadObjectBytes contentLen ≤ f.super.capacityPayloadBytes.toNat
    omega

lemma Files.Ordered.wal {len : Nat} (ho : f.Ordered expectedStore)
    (hstep : walAppended f len lsn = some f') : f'.Ordered expectedStore := by
  unfold walAppended at hstep
  split at hstep
  · cases hstep
  · next hfits =>
    cases hstep
    have hwal : f.walCursor + len ≤ f.super.capacityWalBytes.toNat := by omega
    exact ⟨ho.newest, appended_ok ho.ok hwal ho.payloadFits, ho.store, hwal,
      ho.payloadFits⟩

lemma incarnation_next {n : UInt64} (h : ¬ maxIncarnation ≤ n) : n + 1 ≤ maxIncarnation := by
  grind

lemma Files.Ordered.start {verifierChanged : Bool} (ho : f.Ordered expectedStore)
    (hstep : startAppended f lsn verifierChanged = some f') : f'.Ordered expectedStore := by
  unfold startAppended at hstep
  split at hstep
  · cases hstep
  next hmax =>
  dsimp only at hstep
  have hinc : { f with super := { f.super with
      dsIncarnation := f.super.dsIncarnation + 1 } }.Ordered expectedStore := by
    refine ⟨ho.newest, ?_, ho.store, ho.walFits, ho.payloadFits⟩
    have hok := ho.ok
    rw [ok_iff] at hok ⊢
    obtain ⟨hlen, hzero, hstate, hfloor, hgen, -, hrest⟩ := hok
    exact ⟨hlen, hzero, hstate, hfloor, hgen, incarnation_next hmax, hrest⟩
  generalize hw : walAppended _ _ _ = w at hstep
  cases w with
  | none => cases hstep
  | some f₁ =>
    have hf₁ := hinc.wal hw
    dsimp only at hstep
    split at hstep
    · cases hstep
      -- neither the epoch nor the verifier is checked by a reader
      exact ⟨hf₁.newest, hf₁.ok, hf₁.store, hf₁.walFits, hf₁.payloadFits⟩
    · cases hstep
      exact hf₁

lemma Files.Ordered.update {io : SlotIo} (ho : f.Ordered expectedStore) :
    (superUpdate f state io).2.Ordered expectedStore := by
  by_cases h : f.Refuses state
  · rw [superUpdate_refused h]
    exact ho
  cases hio : io.fails with
  | none =>
    rw [superUpdate_updated ho.ok h hio]
    exact ho.updated h
  | some n =>
    rw [superUpdate_failed ho.ok h hio]
    exact ho.failed h

lemma Reachable.ordered (h : Reachable expectedStore f) : f.Ordered expectedStore := by
  induction h with
  | bind f hread hwal hpayload => exact ordered_of_read hread hwal hpayload
  | payload contentLen _ hstep ih => exact ih.payload hstep
  | wal len lsn _ hstep ih => exact ih.wal hstep
  | start lsn verifierChanged _ hstep ih => exact ih.start hstep
  | update state io _ ih => exact ih.update

/-! ## Crashes and failures -/

/-- After a crash at any byte of an update, a reader that selected the newest slot before selects it
still, or the next generation as this update wrote it. -/
lemma Files.Ordered.crash (ho : f.Ordered expectedStore)
    (hsel : selectSuper f.slots expectedStore = some (sb, f.newestSlot))
    (hsafe : f.Safe expectedStore state n) :
    selectSuper (interruptedAt f state n) expectedStore = some (sb, f.newestSlot) ∨
      (selectSuper (interruptedAt f state n) expectedStore =
        some (f.super.next state, !f.newestSlot) ∧
        (f.super.next state).generation.toNat = sb.generation.toNat + 1) := by
  unfold interruptedAt
  by_cases h : f.Refuses state
  · rw [superUpdate_refused h]
    exact inl hsel
  rw [superUpdate_failed ho.ok h rfl]
  obtain ⟨hslot, hother⟩ := of_selectSuper hsel
  have hnewest : (f.failed state n).slots f.newestSlot = f.slots f.newestSlot := setSlot_not ..
  have htorn : (f.failed state n).slots (!f.newestSlot) =
      tear n (f.slots !f.newestSlot) (superSlot (f.super.next state)) := setSlot_same ..
  -- a torn block that is rejected, or is the one that was there, does not win over the newest slot
  have hstays (hlt : ∀ sb', superDecode ((f.failed state n).slots !f.newestSlot) expectedStore =
      some sb' →
      sb'.generation < sb.generation) := selectSuper_eq (by rw [hnewest]; exact hslot) hlt
  rcases hsafe with hnone | hold | hnew
  · exact inl (hstays fun sb' hsb' => by rw [htorn, hnone] at hsb'; cases hsb')
  · exact inl (hstays fun sb' hsb' => hother sb' (by rw [htorn, hold] at hsb'; exact hsb'))
  · refine inr ⟨ho.selects_next h hnewest (htorn.trans hnew), ?_⟩
    obtain ⟨sb', hsb', hgen⟩ := ho.newest
    obtain rfl := Option.some.inj (hsb'.symm.trans hslot)
    rw [Files.next_generation h, hgen]

def FailureAtomic (f : Files) (state : UInt32) (io : SlotIo) : Prop :=
  (superUpdate f state io).1 ≠ 1 →
    (superUpdate f state io).2.super = f.super ∧
      (superUpdate f state io).2.newestSlot = f.newestSlot

lemma failureAtomic_iff {io : SlotIo} (ho : f.Ordered expectedStore) :
    FailureAtomic f state io ↔ io.fails = none ∨ f.Refuses state ∨ state = f.super.state := by
  unfold FailureAtomic
  by_cases h : f.Refuses state
  · grind [superUpdate_refused]
  cases hio : io.fails with
  | none => grind [ho.ok, superUpdate_updated]
  | some n =>
    rw [superUpdate_failed ho.ok h hio]
    constructor
    · intro hatomic
      have hsuper : { f.super with state := state } = f.super := (hatomic io.status_ne_one).1
      exact Or.inr (Or.inr (congrArg Superblock.state hsuper))
    · rintro (hnone | hrefuses | rfl) -
      · cases hnone
      · exact absurd hrefuses h
      · exact ⟨rfl, rfl⟩

/-- **Updates of the superblock.** In every state of every run: while a reader selects the newest
slot, a crash at any byte of an update leaves that selection or the next generation, complete, to be
read; an update that succeeds changes the slot and is what a reader selects, whatever was on disk
before; and one that fails leaves memory as it was if and only if it was refused or named the state
that memory has. -/
theorem superUpdate_atomic (h : Reachable expectedStore f) (state : UInt32) :
    (∀ sb, selectSuper f.slots expectedStore = some (sb, f.newestSlot) →
      ∀ n, f.Safe expectedStore state n →
        selectSuper (interruptedAt f state n) expectedStore = some (sb, f.newestSlot) ∨
          (selectSuper (interruptedAt f state n) expectedStore =
            some (f.super.next state, !f.newestSlot) ∧
            (f.super.next state).generation.toNat = sb.generation.toNat + 1)) ∧
    (∀ io, (superUpdate f state io).1 = 1 → (superUpdate f state io).2.newestSlot = !f.newestSlot ∧
        (superUpdate f state io).2.super = f.super.next state ∧
        selectSuper (superUpdate f state io).2.slots expectedStore =
          some (f.super.next state, !f.newestSlot)) ∧
    (∀ io, FailureAtomic f state io ↔ io.fails = none ∨ f.Refuses state ∨
      state = f.super.state) := by
  have ho := h.ordered
  refine ⟨fun sb hsel n hsafe => ho.crash hsel hsafe, fun io hone => ?_,
    fun io => failureAtomic_iff ho⟩
  by_cases hrefuses : f.Refuses state
  · rw [superUpdate_refused hrefuses] at hone
    cases hone
  cases hio : io.fails with
  | none =>
    rw [superUpdate_updated ho.ok hrefuses hio]
    exact ⟨rfl, rfl, ho.selects_next hrefuses (setSlot_not ..) (setSlot_same ..)⟩
  | some n =>
    rw [superUpdate_failed ho.ok hrefuses hio] at hone
    exact absurd hone io.status_ne_one

end Runs

def boundFiles : Files where
  slots := fun slot => if slot then [] else superSlot (leastSuper 1)
  super := leastSuper 1
  newestSlot := false
  walCursor := 0
  payloadCursor := 0

lemma boundFiles_selects : selectSuper boundFiles.slots none = some (leastSuper 1, false) :=
  selectSuper_eq (superDecode_iff.mpr ⟨rfl, leastSuper_ok, rfl⟩) fun sb hsb => by
    have hlen := congrArg List.length (superDecode_iff.mp hsb).1
    rw [superSlot_length] at hlen
    cases hlen

lemma boundFiles_reachable : Reachable none boundFiles := by
  refine .bind _ ?_ (Nat.zero_le _) (Nat.zero_le _)
  unfold readSuper
  rw [boundFiles_selects]
  rfl

/-- The bound store is crash-atomic at the first byte of an update, and failure-atomic when the
update names the state that it has. -/
theorem boundFiles_refenced :
    (selectSuper (interruptedAt boundFiles sbFenced 0) none = some (leastSuper 1, false) ∨
      (selectSuper (interruptedAt boundFiles sbFenced 0) none =
        some ((leastSuper 1).next sbFenced, true) ∧
        ((leastSuper 1).next sbFenced).generation.toNat = (leastSuper 1).generation.toNat + 1)) ∧
      FailureAtomic boundFiles sbClean ⟨some 0, false⟩ :=
  ⟨(superUpdate_atomic boundFiles_reachable sbFenced).1 _ boundFiles_selects 0 (inr (inl rfl)),
    ((superUpdate_atomic boundFiles_reachable sbClean).2.2 ⟨some 0, false⟩).mpr (inr (inr rfl))⟩

/-- An update of a clean store to the fenced state fails at its first byte, and memory says that the
store is fenced. -/
theorem superUpdate_leaves_state : (superUpdate boundFiles sbFenced ⟨some 0, false⟩).1 = 11 ∧
      (superUpdate boundFiles sbFenced ⟨some 0, false⟩).2.super.state = sbFenced ∧
      boundFiles.super.state = sbClean := by
  have hok : boundFiles.super.ok := leastSuper_ok
  have haccepts : ¬ boundFiles.Refuses sbFenced := by decide
  rw [superUpdate_failed hok haccepts rfl]
  exact ⟨rfl, rfl, rfl⟩

end Reffs.D2
