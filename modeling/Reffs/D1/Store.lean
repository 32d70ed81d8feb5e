import Reffs.Lib.SlotTable
import Reffs.D1.Envelope

/-!
# Store state

The tables of `d1_store.c`. What the journal determines is one record, `Core`: geometry, counters
and every table an operation reads or writes. What it does not determine (the materialised index,
view pins, fault arms) is kept apart, in `Harness`, so that replaying a record is a function of
`Core` alone.

A row holds object slots and chunk indexes as `Fin`, so that a row naming a chunk that does not
exist cannot be built; a `present` flag and the value beside it are one `Option`.
-/

namespace Reffs.D1

open ByteCodec SlotTable Table Option

/-! ## Rows -/

abbrev ObjectSlot := Fin maxObjects
abbrev ChunkIndex := Fin maxChunks

structure Version where
  id : UInt64
  object : ObjectSlot
  index : ChunkIndex
  bytes : Bytes
  checksum : Checksum
  owner : Owner
  predecessor : Option UInt64
  released : Bool
  deriving DecidableEq, Repr

structure Txn where
  id : UInt64
  object : ObjectSlot
  index : ChunkIndex
  owner : Owner
  admission : UInt64
  version : UInt64
  phase : Phase
  mode : Mode
  stability : UInt32
  readEpoch : UInt64
  predecessor : Option UInt64
  guard : Guard
  deriving DecidableEq, Repr

/-- The ERROR mark of a chunk: the episode, custody and version it was marked under, and whether
the episode has been cleared. -/
structure ErrorMark where
  episode : UInt64
  custody : UInt64
  version : UInt64
  cleared : Bool
  deriving DecidableEq, Repr

structure Chunk where
  guard : Guard
  pending : Option UInt64
  visible : Option UInt64
  repair : Option UInt64
  error : Option ErrorMark
  repairLocked : Bool
  deriving DecidableEq, Repr

def Chunk.blank : Chunk where
  guard := ⟨0, 0, true⟩
  pending := none
  visible := none
  repair := none
  error := none
  repairLocked := false

structure Object where
  key : ObjKey
  chunks : ChunkIndex → Chunk

structure RepairMember where
  index : ChunkIndex
  mode : UInt32
  owner : Owner
  custody : UInt64
  successor : UInt64
  predecessor : Option UInt64
  staged : Bool
  version : UInt64
  txn : UInt64
  deriving DecidableEq, Repr

structure Repair where
  id : UInt64
  object : ObjectSlot
  admission : UInt64
  phase : Phase
  members : List RepairMember
  deriving DecidableEq, Repr

structure Admission where
  id : UInt64
  issuer : Uuid
  object : ObjKey
  principal : Uuid
  writer : UInt32
  stateid : FixedBytes 16
  session : FixedBytes 16
  leaseEpoch : UInt64
  authorityEpoch : UInt64
  fenceSequence : UInt64
  incarnation : UInt64
  rights : UInt32
  revoked : Bool
  expired : Bool
  deriving DecidableEq, Repr

structure Episode where
  id : UInt64
  object : ObjectSlot
  indexes : List ChunkIndex
  deriving DecidableEq, Repr

structure Postcond where
  id : UInt64
  object : ObjectSlot
  index : ChunkIndex
  successor : UInt64
  owner : Owner
  predecessor : Option UInt64
  predecessorReleased : Bool
  custody : UInt64
  consumed : Bool
  deriving DecidableEq, Repr

structure OwnerAssoc where
  exportUuid : Uuid
  owner : Owner
  object : ObjectSlot
  index : ChunkIndex
  version : UInt64
  deriving DecidableEq, Repr

structure Custody where
  id : UInt64
  version : UInt64
  deriving DecidableEq, Repr

structure Receipt where
  exportUuid : Uuid
  key : OpKey
  ordinal : Nat
  digest : Digest
  result : CompleteResult
  deriving DecidableEq, Repr

/-! ## The core -/

@[ext] structure Core where
  uuid : Uuid
  chunkBytes : UInt32
  maxFileBytes : UInt64
  incarnation : UInt64
  indexEpoch : UInt64
  nextTxn : UInt64
  nextVersion : UInt64
  nextAdmission : UInt64
  nextCustody : UInt64
  nextRepair : UInt64
  nextPostcond : UInt64
  nextEpisode : UInt64
  certificate : Option Certificate
  objects : Table maxObjects Object
  txns : Table maxTxns Txn
  versions : Table maxVersions Version
  admissions : Table maxAdmissions Admission
  owners : Table maxOwners OwnerAssoc
  receipts : Table maxReceipts Receipt
  custody : Table maxCustody Custody
  repairs : Table maxRepairs Repair
  postconds : Table maxPostconds Postcond
  episodes : Table maxEpisodes Episode

variable (c : Core) (exportUuid : Uuid) (key : OpKey)

/-- `d1_store_open`: an empty store of one geometry, or none for a geometry out of range. -/
def coreOpen (uuid : Uuid) (chunkBytes : UInt32) (maxFileBytes : UInt64) : Option Core :=
  if chunkBytes.toNat < chunkBytesMin ∨ chunkBytesMax < chunkBytes.toNat then none
  else if maxFileBytes = 0 then none
  else some {
    uuid, chunkBytes, maxFileBytes
    incarnation := 1
    indexEpoch := 0
    nextTxn := 1
    nextVersion := 1
    nextAdmission := 1
    nextCustody := 1
    nextRepair := 1
    nextPostcond := 1
    nextEpisode := 1
    certificate := none
    objects := Table.empty
    txns := Table.empty
    versions := Table.empty
    admissions := Table.empty
    owners := Table.empty
    receipts := Table.empty
    custody := Table.empty
    repairs := Table.empty
    postconds := Table.empty
    episodes := Table.empty }

/-- The fault arms that make an id counter or the index epoch read as exhausted. -/
structure Exhaust where
  ids : Bool
  epoch : Bool
  deriving DecidableEq, Repr

/-- No arm set: what replay runs under. -/
def Exhaust.none : Exhaust := ⟨false, false⟩

/-! ## Checked arithmetic -/

def uint64Max : UInt64 := 0xffffffffffffffff
def uint32Max : UInt32 := 0xffffffff

def addU64 (a b : UInt64) : Option UInt64 :=
  if b > uint64Max - a then none else some (a + b)

def mulU64 (a b : UInt64) : Option UInt64 :=
  if a ≠ 0 ∧ b > uint64Max / a then none else some (a * b)

lemma addU64_toNat {a b c : UInt64} (h : addU64 a b = some c) : c.toNat = a.toNat + b.toNat := by
  unfold addU64 at h
  split at h
  · cases h
  next hle =>
  rw [← some.inj h, UInt64.toNat_add]
  refine Nat.mod_eq_of_lt ?_
  have hle : b.toNat ≤ (uint64Max - a).toNat := UInt64.le_iff_toNat_le.mp (UInt64.not_lt.mp hle)
  have hmax : uint64Max.toNat = 2 ^ 64 - 1 := rfl
  have ha := a.toNat_lt
  rw [UInt64.toNat_sub_of_le _ _ (UInt64.le_iff_toNat_le.mpr (by omega))] at hle
  omega

lemma mulU64_toNat {a b c : UInt64} (h : mulU64 a b = some c) : c.toNat = a.toNat * b.toNat := by
  unfold mulU64 at h
  split at h
  · cases h
  next hle =>
  rw [← some.inj h, UInt64.toNat_mul]
  refine Nat.mod_eq_of_lt ?_
  by_cases ha : a = 0
  · rw [ha]
    simp
  · have hle : b.toNat ≤ (uint64Max / a).toNat :=
      UInt64.le_iff_toNat_le.mp (UInt64.not_lt.mp fun hlt => hle ⟨ha, hlt⟩)
    rw [UInt64.toNat_div] at hle
    have hmul := (Nat.mul_le_mul_left a.toNat hle).trans (Nat.mul_div_le uint64Max.toNat a.toNat)
    have hmax : uint64Max.toNat = 2 ^ 64 - 1 := rfl
    omega

lemma toNat_succ {u : UInt64} {k : Nat} (h : u.toNat ≤ k) (hk : k + 1 < 2 ^ 64) :
    (u + 1).toNat = u.toNat + 1 := by
  rw [UInt64.toNat_add]
  have : (1 : UInt64).toNat = 1 := rfl
  rw [this, Nat.mod_eq_of_lt (by omega)]

lemma counter_succ {u : UInt64} (h : u ≠ uint64Max) : (u + 1).toNat = u.toNat + 1 := by
  refine toNat_succ (k := 2 ^ 64 - 2) ?_ (by norm_num)
  have hne : u.toNat ≠ 2 ^ 64 - 1 := fun he => h (UInt64.toNat_inj.mp he)
  have := u.toNat_lt
  omega

/-! ## Lookups -/

def verifierOf (incarnation : UInt64) : Verifier := fixedOfBytes 8 (encU64 incarnation)

def verifierMatches (given : Verifier) : Bool := verifierOf c.incarnation == given

/-- A number that is zero names no row of any table. -/
def findById {n : Nat} {α : Type} (id : α → UInt64) (t : Table n α) (raw : UInt64) :
    Option (Fin n × α) :=
  if raw = 0 then none else t.findRow fun r => id r == raw

def objectFind (key : ObjKey) : Option (ObjectSlot × Object) :=
  c.objects.findRow fun o => o.key == key

def admissionFind : UInt64 → Option (Fin maxAdmissions × Admission) :=
  findById Admission.id c.admissions

def custodyFind : UInt64 → Option (Fin maxCustody × Custody) :=
  findById Custody.id c.custody

def repairFind : UInt64 → Option (Fin maxRepairs × Repair) :=
  findById Repair.id c.repairs

def postcondFind : UInt64 → Option (Fin maxPostconds × Postcond) :=
  findById Postcond.id c.postconds

def episodeFind : UInt64 → Option (Fin maxEpisodes × Episode) :=
  findById Episode.id c.episodes

def txnFind : UInt64 → Option (Fin maxTxns × Txn) := findById Txn.id c.txns

def versionFind : UInt64 → Option (Fin maxVersions × Version) :=
  findById Version.id c.versions

def ownerFind (owner : Owner) : Option (Fin maxOwners × OwnerAssoc) :=
  c.owners.findRow fun a => a.exportUuid == exportUuid && a.owner == owner

variable {n : Nat} {α : Type} {id : α → UInt64} {t : Table n α} {raw : UInt64} {i : Fin n} {r : α}
  {objects : Table maxObjects Object} {s : ObjectSlot}

lemma findById_some (h : findById id t raw = some (i, r)) :
    t i = some r ∧ id r = raw ∧ raw ≠ 0 := by
  unfold findById at h
  split at h
  · cases h
  · next hraw =>
    obtain ⟨hi, hp⟩ := findRow_some h
    exact ⟨hi, by simpa using hp, hraw⟩

lemma findById_eq (hi : t i = some r) (hid : id r = raw) (hraw : raw ≠ 0)
    (hone : ∀ j r', t j = some r' → id r' = raw → j = i) : findById id t raw = some (i, r) := by
  unfold findById
  rw [if_neg hraw]
  cases hf : findRow (fun r => id r == raw) t with
  | none =>
    have := findRow_none.mp hf i r hi
    simp [hid] at this
  | some p =>
    obtain ⟨hj, hp⟩ := findRow_some hf
    have hji := hone p.1 p.2 hj (by simpa using hp)
    rw [hji, hi] at hj
    rw [← hji, some.inj hj]

lemma findById_set_hit {r' : α} (h : findById id t raw = some (i, r)) (hid : id r' = id r) :
    findById id (t.set i r') raw = some (i, r') := by
  obtain ⟨-, hr, hraw⟩ := findById_some h
  unfold findById at h ⊢
  rw [if_neg hraw] at h ⊢
  exact findRow_set_hit h (by simp [hid, hr])

def Object.fresh (key : ObjKey) : Object := ⟨key, fun _ => Chunk.blank⟩

/-- The chunk index an entry names, when the object has such a chunk. -/
def chunkIndex (index : UInt64) : Option ChunkIndex :=
  if h : index.toNat < maxChunks then some ⟨index.toNat, h⟩ else none

def ownerGuard (assoc : OwnerAssoc) : Guard :=
  match c.objects assoc.object with
  | none => ⟨0, 0, true⟩
  | some o => (o.chunks assoc.index).guard

/-- Where the visible bytes of chunk `i` end; absent for a chunk with nothing visible. -/
def chunkEnd (o : Object) (i : ChunkIndex) : Option UInt64 := do
  let visible ← (o.chunks i).visible
  let (_, v) ← versionFind c visible
  let start ← mulU64 (UInt64.ofNat i.val) c.chunkBytes.toUInt64
  addU64 start (UInt64.ofNat v.bytes.length)

/-- `d1_eof_locked`. -/
def eofLocked (object : ObjKey) : UInt64 :=
  match objectFind c object with
  | none => 0
  | some (_, o) =>
    (List.finRange maxChunks).foldl
      (fun eof i => match chunkEnd c o i with
        | none => eof
        | some e => if e > eof then e else eof) 0

def Receipt.keyed (r : Receipt) (exportUuid : Uuid) (key : OpKey) : Bool :=
  r.exportUuid == exportUuid && r.key == key

def receiptFind (ordinal : Nat) : Option (Fin maxReceipts × Receipt) :=
  c.receipts.findRow fun r => r.ordinal == ordinal && r.keyed exportUuid key

def keyConflicts (digest : Digest) : Bool :=
  (c.receipts.find fun r => r.keyed exportUuid key && r.digest != digest).isSome

/-- `d1_key_recorded`: how many members of a key have receipts. -/
def keyRecorded : Nat :=
  (c.receipts.rows.filter fun r => r.keyed exportUuid key).length

/-! ## Updates -/

def modifyChunk (objects : Table maxObjects Object) (s : ObjectSlot) (i : ChunkIndex)
    (f : Chunk → Chunk) : Table maxObjects Object :=
  objects.modify s fun o => { o with chunks := Function.update o.chunks i (f (o.chunks i)) }

def setChunk (objects : Table maxObjects Object) (s : ObjectSlot) (i : ChunkIndex) (ch : Chunk) :
    Table maxObjects Object :=
  modifyChunk objects s i fun _ => ch

def getChunk (objects : Table maxObjects Object) (s : ObjectSlot) (i : ChunkIndex) :
    Option Chunk :=
  (objects s).map fun o => o.chunks i

/-- A place whose visible pointer an operation moved: `d1_publish_visible` writes the visible
pointer, which is `Core`'s, and the materialised index, which is not. -/
structure Publication where
  object : ObjectSlot
  index : ChunkIndex
  version : UInt64
  deriving DecidableEq, Repr

lemma setChunk_self {o : Object}
    (h : objects s = some o) (i : ChunkIndex) : setChunk objects s i (o.chunks i) = objects := by
  refine modify_eq_self fun r hr => ?_
  obtain rfl : r = o := some.inj (hr.symm.trans h)
  simp

lemma setChunk_setChunk (objects : Table maxObjects Object) (s : ObjectSlot) (i : ChunkIndex)
    (ch ch' : Chunk) : setChunk (setChunk objects s i ch) s i ch' = setChunk objects s i ch' := by
  ext1 j
  simp only [setChunk, modifyChunk, modify_apply]
  split
  · cases objects j <;> simp
  · rfl

lemma setChunk_back {o : Object} (h : objects s = some o) (i : ChunkIndex) (ch : Chunk) :
    setChunk (setChunk objects s i ch) s i (o.chunks i) = objects := by
  rw [setChunk_setChunk, setChunk_self h]

lemma setChunk_clear (h : objects s = none) (i : ChunkIndex) (ch : Chunk) (o : Object) :
    (setChunk (objects.set s o) s i ch).clear s = objects := by
  ext1 j
  by_cases hj : j = s
  · subst hj; simp [h]
  · simp [setChunk, modifyChunk, modify_apply, clear_ne hj, hj, set_ne hj]

lemma getChunk_modifyChunk (objects : Table maxObjects Object) (s s' : ObjectSlot)
    (i i' : ChunkIndex) (f : Chunk → Chunk) : getChunk (modifyChunk objects s i f) s' i' =
      if s' = s ∧ i' = i then (getChunk objects s' i').map f else getChunk objects s' i' := by
  unfold getChunk modifyChunk
  rw [modify_apply]
  by_cases hs : s' = s
  · by_cases hi : i' = i
    · subst hi
      cases objects s' <;> simp [hs]
    · cases objects s' <;> simp [hs, hi]
  · simp [hs]

end Reffs.D1
