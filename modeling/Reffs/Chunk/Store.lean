import Reffs.Lib.Bytes

/-!
# The chunk store

`chunk_store.c`: what a data server knows of each block of a file. The store is an array that grows
when a block beyond its end is written; an entry that was never written is all zeros, and a lookup
on the data path does not see it. The high-water mark says how much of the array is written to disk.

Allocation and the disk are inputs: whether memory is there, whether a file is written.
-/

namespace Reffs.Chunk

open ByteCodec Nat

/-! ## Blocks -/

inductive ChunkState where
  | empty
  | pending
  | finalized
  | committed
  deriving DecidableEq, Repr

/-- `chunk_owner4`: a transaction, the writer and its number for the chunk. -/
structure Owner where
  cohortId : UInt64
  clientId : UInt32
  coId : UInt32
  deriving DecidableEq

/-- `cb_flags`. -/
structure Flags where
  locked : Bool
  repairProvenance : Bool
  error : Bool
  escrow : Bool
  deriving DecidableEq, Repr

structure Checksum where
  algorithm : UInt32
  value : Bytes
  deriving DecidableEq

abbrev Stateid := FixedBytes 16
abbrev EscrowId := FixedBytes 16

/-- The lock of a block: who holds it, for which range, and the escrow it came from. -/
structure BlockLock where
  owner : Owner
  offset : UInt64
  count : UInt32
  flags : UInt32
  stateid : Stateid
  escrowId : EscrowId
  deriving DecidableEq

structure Block where
  state : ChunkState
  flags : Flags
  genId : UInt32
  owner : Owner
  payloadId : UInt32
  checksum : Checksum
  chunkSize : UInt32
  writerClientid : UInt64
  lock : BlockLock
  deriving DecidableEq

def Owner.zero : Owner := ⟨0, 0, 0⟩

def BlockLock.zero : BlockLock := ⟨.zero, 0, 0, 0, zeros 16, zeros 16⟩

def Flags.none : Flags := ⟨false, false, false, false⟩

def Block.empty : Block := ⟨.empty, .none, 0, .zero, 0, ⟨0, []⟩, 0, 0, .zero⟩

/-- `chunk_block_has_escrow_custody`: the lock was adopted from an escrow. -/
def Block.hasEscrowCustody (blk : Block) : Bool :=
  blk.flags.locked && blk.lock.escrowId != zeros 16

/-! ## The array -/

abbrev initBlocks : Nat := 64
abbrev maxBlocks : Nat := 1024 * 1024
abbrev maxEscrows : Nat := 4096

structure EscrowRange where
  offset : UInt64
  count : UInt32
  id : EscrowId
  deriving DecidableEq

/-- The store of a file: `nblocks` entries, of which those below `highWater` are part of the file on
disk. What `blocks` is beyond its end is never read. -/
structure Store where
  blocks : Nat → Block
  nblocks : Nat
  highWater : Nat
  chunkSize : UInt32
  checksumAlgorithm : UInt32
  escrows : List EscrowRange
  dirty : Bool

def Store.fresh : Store := ⟨fun _ => Block.empty, initBlocks, 0, 0, 0, [], false⟩

/-- Block `i` of a request that starts at `offset`. -/
def blockAt (offset : UInt64) (i : Nat) : Nat := (offset.toNat + i) % 2 ^ 64

namespace Store

/-- `chunk_store_lookup_any`. -/
def lookupAny (cs : Store) (offset : Nat) : Option Block :=
  if offset < cs.nblocks then some (cs.blocks offset) else none

/-- `chunk_store_lookup`: an empty entry is hidden. -/
def lookup (cs : Store) (offset : Nat) : Option Block :=
  (cs.lookupAny offset).filter fun blk => blk.state != .empty

/-- The loop of `chunk_store_grow`, with a bound on its turns. -/
def doubled (newCap : Nat) : Nat → Nat → Nat
  | 0, cap => cap
  | turns + 1, cap => if cap ≤ newCap then doubled newCap turns (cap * 2) else cap

/-- `chunk_store_grow`: a larger array, with zeros behind the entries there are. -/
def grow (cs : Store) (newCap : Nat) (memory : Bool) : Option Store :=
  if maxBlocks < newCap ∨ memory = false then none
  else
    let cap := if cs.nblocks = 0 then initBlocks else cs.nblocks
    some { cs with
      blocks := fun o => if o < cs.nblocks then cs.blocks o else Block.empty
      nblocks := doubled newCap (newCap + 1) cap }

/-- Room for an entry at `offset`. -/
def ensure (cs : Store) (offset : Nat) (memory : Bool) : Option Store :=
  if cs.nblocks ≤ offset then cs.grow offset memory else some cs

def setBlock (cs : Store) (offset : Nat) (blk : Block) : Store :=
  { cs with blocks := fun o => if o = offset then blk else cs.blocks o }

/-- Make the entries up to `offset` part of the file on disk. -/
def raise (cs : Store) (offset : Nat) : Store :=
  { cs with highWater := max cs.highWater (offset + 1), dirty := true }

/-- `chunk_store_write`. -/
def write (cs : Store) (offset : Nat) (blk : Block) (memory : Bool) : Option Store :=
  (cs.ensure offset memory).map fun cs => (cs.setBlock offset blk).raise offset

/-- `chunk_store_touch`. -/
def touch (cs : Store) (offset : Nat) (memory : Bool) : Option Store :=
  (cs.ensure offset memory).map fun cs => cs.raise offset

/-! ## Changes of state -/

/-- The first block of a range that is not empty and has the owner: the scan that transitions and
rollbacks share. It fails at the end of the array. -/
def findOwned (cs : Store) (offset : UInt64) (owner : Owner) : Nat → Nat → Option Nat
  | 0, _ => none
  | turns + 1, i =>
    let off := blockAt offset i
    if cs.nblocks ≤ off then none
    else if (cs.blocks off).state = .empty ∨ (cs.blocks off).owner ≠ owner then
      findOwned cs offset owner turns (i + 1)
    else some off

def setState (cs : Store) (offset : Nat) (state : ChunkState) : Store :=
  { cs.setBlock offset { cs.blocks offset with state := state } with dirty := true }

/-- `chunk_store_transition`: the first block of the owner must be in the state to leave. -/
def transition (cs : Store) (offset : UInt64) (count : UInt32) (owner : Owner)
    (fromState toState : ChunkState) : Option Store :=
  match cs.findOwned offset owner count.toNat 0 with
  | none => none
  | some off => if (cs.blocks off).state ≠ fromState then none else some (cs.setState off toState)

inductive Rollback where
  | done (cs : Store)
  | inval
  | notSup

/-- `chunk_store_rollback`: the first block of the owner becomes empty, unless it is committed. -/
def rollback (cs : Store) (offset : UInt64) (count : UInt32) (owner : Owner) : Rollback :=
  match cs.findOwned offset owner count.toNat 0 with
  | none => .inval
  | some off =>
    match (cs.blocks off).state with
    | .pending | .finalized => .done (cs.setState off .empty)
    | .committed => .notSup
    | .empty => .inval

/-- The client of the metadata server, in locks that an escrow holds. -/
abbrev clientIdMds : UInt32 := 0xffffffff

/-- What becomes of a block when the lease of a client ends; nothing, for most. -/
def expireBlock (clientid : UInt64) (blk : Block) : Option Block :=
  if blk.writerClientid ≠ clientid then none
  else if blk.flags.escrow then none
  else if blk.hasEscrowCustody then
    -- adopted custody goes back to the metadata server
    some { blk with
      flags := { blk.flags with escrow := true }
      lock := { blk.lock with owner := ⟨0, clientIdMds, 0⟩, flags := 0, stateid := zeros 16 }
      writerClientid := 0 }
  else if blk.state = .pending ∨ blk.state = .finalized then some { blk with state := .empty }
  else none

/-- `chunk_store_rollback_for_client`, with the number of blocks it changed. -/
def rollbackForClient (cs : Store) (clientid : UInt64) : Nat × Store :=
  let changed := (List.range cs.nblocks).countP fun o => (expireBlock clientid (cs.blocks o)).isSome
  (changed, { cs with
    blocks := fun o => (expireBlock clientid (cs.blocks o)).getD (cs.blocks o)
    dirty := cs.dirty || decide (0 < changed) })

/-! ## Escrows -/

def escrowRangeValid (r : EscrowRange) : Bool :=
  r.count != 0 && decide (r.offset.toNat + r.count.toNat ≤ 2 ^ 64 - 1) && r.id != zeros 16

def escrowRange (blk : Block) : EscrowRange := ⟨blk.lock.offset, blk.lock.count, blk.lock.escrowId⟩

/-- The loop of `chunk_store_refresh_escrows`: each range once, in the order it is met. -/
def collectEscrows : List Block → List EscrowRange → Option (List EscrowRange)
  | [], ranges => some ranges
  | blk :: rest, ranges =>
    if blk.flags.escrow = false then collectEscrows rest ranges
    else if escrowRangeValid (escrowRange blk) = false then none
    else if escrowRange blk ∈ ranges then collectEscrows rest ranges
    else if ranges.length = maxEscrows then none
    else collectEscrows rest (ranges ++ [escrowRange blk])

def written (cs : Store) : List Block := (List.range cs.highWater).map cs.blocks

/-- `chunk_store_refresh_escrows`. -/
def refreshEscrows (cs : Store) (memory : Bool) : Option Store :=
  match collectEscrows cs.written [] with
  | none => none
  | some ranges => if memory = false ∧ ranges ≠ [] then none else some { cs with escrows := ranges }

/-- `chunk_store_has_escrow`. -/
def hasEscrow (cs : Store) (r : EscrowRange) : Bool := escrowRangeValid r && decide (r ∈ cs.escrows)

end Store

/-! ## The file on disk -/

def ChunkState.toWord : ChunkState → UInt32
  | .empty => 0
  | .pending => 1
  | .finalized => 2
  | .committed => 3

def ChunkState.ofWord (w : UInt32) : ChunkState :=
  if w = 0 then .empty else if w = 1 then .pending else if w = 2 then .finalized else .committed

def Flags.toWord (f : Flags) : UInt32 :=
  (if f.locked then 1 else 0) ||| (if f.repairProvenance then 2 else 0) |||
    (if f.error then 4 else 0) ||| (if f.escrow then 8 else 0)

def Flags.ofWord (w : UInt32) : Flags :=
  ⟨w &&& 1 != 0, w &&& 2 != 0, w &&& 4 != 0, w &&& 8 != 0⟩

/-- `chunk_block_disk`. -/
structure DiskBlock where
  state : UInt32
  flags : UInt32
  genId : UInt32
  owner : Owner
  payloadId : UInt32
  checksum : Checksum
  chunkSize : UInt32
  writerClientid : UInt64
  lock : BlockLock

def blockToDisk (blk : Block) : DiskBlock :=
  ⟨blk.state.toWord, blk.flags.toWord, blk.genId, blk.owner, blk.payloadId, blk.checksum,
    blk.chunkSize,
    blk.writerClientid, blk.lock⟩

abbrev valueMax : Nat := 64

def diskToBlock (dsk : DiskBlock) : Block :=
  ⟨.ofWord dsk.state, .ofWord dsk.flags, dsk.genId, dsk.owner, dsk.payloadId,
    ⟨dsk.checksum.algorithm, dsk.checksum.value.take valueMax⟩, dsk.chunkSize, dsk.writerClientid,
      dsk.lock⟩

/-- The file of a store: its header, a record for each entry below the high-water mark, and the
escrows. -/
structure MetaFile where
  nblocks : Nat
  chunkSize : UInt32
  checksumAlgorithm : UInt32
  escrowCount : Nat
  blocks : List DiskBlock
  escrows : List EscrowRange

def Store.image (cs : Store) : MetaFile :=
  ⟨cs.highWater, cs.chunkSize, cs.checksumAlgorithm, cs.escrows.length, cs.written.map blockToDisk,
    cs.escrows⟩

/-- What a persist meets: memory for the escrow index, and the disk. -/
structure PersistIo where
  memory : Bool
  disk : Bool

/-- `chunk_store_persist`: whether it succeeded, the store and the file. A file that is not renamed
into place leaves the one there was. -/
def Store.persist (cs : Store) (file : Option MetaFile) (io : PersistIo) :
    Bool × Store × Option MetaFile :=
  if cs.dirty = false then (true, cs, file)
  else
    match cs.refreshEscrows io.memory with
    | none => (false, cs, file)
    | some cs' =>
      if io.disk then (true, { cs' with dirty := false }, some cs'.image) else (false, cs', file)

/-- `chunk_store_load`: a file whose header or escrows are out of bounds is no store. -/
def MetaFile.load (m : MetaFile) : Option Store :=
  if maxBlocks < m.nblocks ∨ maxEscrows < m.escrowCount then none
  else if m.blocks.length < m.nblocks ∨ m.escrows.length < m.escrowCount then none
  else if (m.escrows.take m.escrowCount).all (fun r => Store.escrowRangeValid r &&
      decide (r.offset.toNat ≤ m.nblocks) && decide (r.count.toNat ≤ m.nblocks - r.offset.toNat)) =
        false
    then none
  else some
    { blocks := fun o => if o < m.nblocks then ((m.blocks[o]?).map diskToBlock).getD Block.empty
        else Block.empty
      nblocks := max m.nblocks initBlocks
      highWater := m.nblocks
      chunkSize := m.chunkSize
      checksumAlgorithm := m.checksumAlgorithm
      escrows := m.escrows.take m.escrowCount
      dirty := false }

/-! ## What the functions do to an entry -/

variable {offset : UInt64} {owner : Owner}

variable {cs cs' : Store} {o : Nat}

namespace Store

/-- The entry at an offset; there are zeros behind the array. -/
def entry (cs : Store) (o : Nat) : Block := (cs.lookupAny o).getD Block.empty

lemma entry_of_lt (h : o < cs.nblocks) : cs.entry o = cs.blocks o := by
  simp [entry, lookupAny, h]

lemma entry_of_le (h : cs.nblocks ≤ o) : cs.entry o = Block.empty := by
  simp [entry, lookupAny, not_lt.mpr h]

lemma fresh_entry (b : Nat) : fresh.entry b = Block.empty := by
  unfold entry lookupAny
  split <;> rfl

lemma lookupAny_eq_some {blk : Block} (h : cs.lookupAny o = some blk) :
    o < cs.nblocks ∧ blk = cs.entry o := by
  grind [entry_of_lt, lookupAny]

lemma lookupAny_eq_none (h : cs.lookupAny o = none) : cs.entry o = Block.empty := by
  simp [entry, h]

lemma lookup_eq_some {blk : Block} (h : cs.lookup o = some blk) :
    o < cs.nblocks ∧ blk = cs.entry o ∧ blk.state ≠ .empty := by
  unfold lookup at h
  obtain ⟨hany, hstate⟩ := Option.filter_eq_some_iff.mp h
  obtain ⟨hlt, heq⟩ := lookupAny_eq_some hany
  exact ⟨hlt, heq, by simpa using hstate⟩

lemma lookup_eq_none (h : cs.lookup o = none) : (cs.entry o).state = .empty := by
  unfold lookup at h
  cases hany : cs.lookupAny o with
  | none =>
    rw [lookupAny_eq_none hany]
    rfl
  | some blk =>
    rw [hany, Option.filter_eq_none_iff] at h
    rw [← (lookupAny_eq_some hany).2]
    simpa using h blk rfl

lemma lookup_of_state (h : (cs.entry o).state ≠ .empty) : cs.lookup o = some (cs.entry o) := by
  cases hl : cs.lookup o with
  | none => exact absurd (lookup_eq_none hl) h
  | some blk => rw [(lookup_eq_some hl).2.1]

/-! ### Growth -/

lemma lt_doubled (newCap : Nat) : ∀ (turns cap : Nat), 0 < cap → newCap < turns + cap →
    newCap < doubled newCap turns cap
  | 0, cap, _, h => by
    show newCap < cap
    omega
  | turns + 1, cap, hpos, h => by
    unfold doubled
    split
    · exact lt_doubled newCap turns (cap * 2) (by omega) (by omega)
    · omega

lemma le_doubled (newCap : Nat) : ∀ (turns cap : Nat), cap ≤ doubled newCap turns cap
  | 0, _ => le_refl _
  | turns + 1, cap => by
    unfold doubled
    split
    · exact le_trans (by omega) (le_doubled newCap turns (cap * 2))
    · exact le_refl _

section Grown

variable {cs cs' : Store} {o : Nat} {memory : Bool}

/-- What a store keeps when it makes room: all but the length of its array. -/
structure Grown (cs cs' : Store) : Prop where
  entry : ∀ b, cs'.entry b = cs.entry b
  nblocks : cs.nblocks ≤ cs'.nblocks
  highWater : cs'.highWater = cs.highWater
  chunkSize : cs'.chunkSize = cs.chunkSize
  checksumAlgorithm : cs'.checksumAlgorithm = cs.checksumAlgorithm
  escrows : cs'.escrows = cs.escrows
  dirty : cs'.dirty = cs.dirty

lemma Grown.refl (cs : Store) : Grown cs cs := ⟨fun _ => rfl, le_refl _, rfl, rfl, rfl, rfl, rfl⟩

lemma grow_grown (h : cs.grow o memory = some cs') : Grown cs cs' ∧ o < cs'.nblocks := by
  unfold grow at h
  split at h
  · cases h
  generalize hcap : (if cs.nblocks = 0 then initBlocks else cs.nblocks) = cap at h
  have hpos : 0 < cap ∧ cs.nblocks ≤ cap := by grind
  have hle := le_trans hpos.2 (le_doubled o (o + 1) cap)
  cases h
  refine ⟨⟨fun b => ?_, hle, rfl, rfl, rfl, rfl, rfl⟩, lt_doubled o (o + 1) cap hpos.1 (by omega)⟩
  by_cases hb : b < cs.nblocks
  · rw [entry_of_lt hb, entry_of_lt (lt_of_lt_of_le hb hle)]
    exact if_pos hb
  · grind [not_lt.mp, entry, entry_of_le, lookupAny]

lemma ensure_grown (h : cs.ensure o memory = some cs') : Grown cs cs' ∧ o < cs'.nblocks := by
  unfold ensure at h
  split at h
  · exact grow_grown h
  · next hlt =>
    cases h
    exact ⟨.refl cs, not_le.mp hlt⟩

end Grown

lemma setBlock_entry (blk : Block) (h : o < cs.nblocks) (b : Nat) :
    (cs.setBlock o blk).entry b = if b = o then blk else cs.entry b := by
  by_cases hb : b < cs.nblocks
  · rw [entry_of_lt (show b < (cs.setBlock o blk).nblocks from hb), entry_of_lt hb]
    rfl
  have hne : b ≠ o := by omega
  rw [if_neg hne, entry_of_le (not_lt.mp hb),
    entry_of_le (show (cs.setBlock o blk).nblocks ≤ b from not_lt.mp hb)]

@[simp] lemma raise_entry (cs : Store) (o b : Nat) : (cs.raise o).entry b = cs.entry b := rfl

/-! ### The scan for an owner -/

lemma findOwned_spec {off : Nat} :
    ∀ {turns i : Nat}, cs.findOwned offset owner turns i = some off →
      ∃ j, i ≤ j ∧ j < i + turns ∧ off = blockAt offset j ∧ off < cs.nblocks ∧
        (cs.entry off).state ≠ .empty ∧ (cs.entry off).owner = owner
  | 0, i, h => by cases h
  | turns + 1, i, h => by
    unfold findOwned at h
    dsimp only at h
    split at h
    · cases h
    next hlt =>
    split at h
    · obtain ⟨j, hij, hj, hrest⟩ := findOwned_spec h
      exact ⟨j, by omega, by omega, hrest⟩
    · next hfound =>
      cases h
      push Not at hfound
      have hlt' := not_le.mp hlt
      rw [entry_of_lt hlt']
      exact ⟨i, le_refl _, by omega, rfl, hlt', hfound.1, hfound.2⟩

lemma findOwned_congr (hn : cs'.nblocks = cs.nblocks)
    (h : ∀ b, ((cs'.blocks b).state = .empty ↔ (cs.blocks b).state = .empty) ∧
      (cs'.blocks b).owner = (cs.blocks b).owner) (offset : UInt64) (owner : Owner) :
    ∀ turns i : Nat, cs'.findOwned offset owner turns i = cs.findOwned offset owner turns i
  | 0, _ => rfl
  | turns + 1, i => by
    unfold findOwned
    dsimp only
    rw [hn, (h _).2, findOwned_congr hn h offset owner turns (i + 1)]
    simp only [(h (blockAt offset i)).1]

lemma setState_entry (state : ChunkState) (h : o < cs.nblocks) (b : Nat) :
    (cs.setState o state).entry b = if b = o then { cs.entry o with state := state }
      else cs.entry b := by
  rw [entry_of_lt h]
  exact setBlock_entry { cs.blocks o with state := state } h b

lemma transition_spec {count : UInt32}
    {fromState toState : ChunkState}
    (h : cs.transition offset count owner fromState toState = some cs') :
    ∃ j off, j < count.toNat ∧ off = blockAt offset j ∧ off < cs.nblocks ∧
      cs.findOwned offset owner count.toNat 0 = some off ∧ (cs.entry off).state = fromState ∧
      (cs.entry off).state ≠ .empty ∧ (cs.entry off).owner = owner ∧
      cs' = cs.setState off toState := by
  unfold transition at h
  cases hfind : cs.findOwned offset owner count.toNat 0 with
  | none =>
    rw [hfind] at h
    cases h
  | some off =>
    rw [hfind] at h
    obtain ⟨j, -, hj, hoff, hlt, hne, howner⟩ := findOwned_spec hfind
    split at h
    · cases h
    · grind [entry_of_lt]

lemma rollback_spec {count : UInt32} (h : cs.rollback offset count owner = .done cs') :
    ∃ j off, j < count.toNat ∧ off = blockAt offset j ∧ off < cs.nblocks ∧
      ((cs.entry off).state = .pending ∨ (cs.entry off).state = .finalized) ∧
      (cs.entry off).owner = owner ∧ cs' = cs.setState off .empty := by
  unfold rollback at h
  cases hfind : cs.findOwned offset owner count.toNat 0 with
  | none =>
    rw [hfind] at h
    cases h
  | some off =>
    rw [hfind] at h
    dsimp only at h
    obtain ⟨j, -, hj, hoff, hlt, -, howner⟩ := findOwned_spec hfind
    rw [← entry_of_lt hlt] at h
    cases hstate : (cs.entry off).state with
    | empty | committed => rw [hstate] at h; cases h
    | pending => grind
    | finalized => grind

lemma expireBlock_empty (clientid : UInt64) :
    (expireBlock clientid Block.empty).getD Block.empty = Block.empty := by
  unfold expireBlock
  split <;> rfl

lemma rollbackForClient_entry (cs : Store) (clientid : UInt64) (b : Nat) :
    (cs.rollbackForClient clientid).2.entry b =
      (expireBlock clientid (cs.entry b)).getD (cs.entry b) := by
  by_cases hb : b < cs.nblocks
  · rw [entry_of_lt hb, entry_of_lt (show b < (cs.rollbackForClient clientid).2.nblocks from hb)]
    rfl
  have hle := not_lt.mp hb
  rw [entry_of_le hle, entry_of_le (show (cs.rollbackForClient clientid).2.nblocks ≤ b from hle),
    expireBlock_empty]

/-! ### Persisting -/

/-- Two stores with the same array and the same numbers of the file. -/
structure SameBlocks (cs cs' : Store) : Prop where
  blocks : cs'.blocks = cs.blocks
  nblocks : cs'.nblocks = cs.nblocks
  highWater : cs'.highWater = cs.highWater
  chunkSize : cs'.chunkSize = cs.chunkSize
  checksumAlgorithm : cs'.checksumAlgorithm = cs.checksumAlgorithm

lemma SameBlocks.refl (cs : Store) : SameBlocks cs cs := ⟨rfl, rfl, rfl, rfl, rfl⟩

lemma SameBlocks.entry (h : SameBlocks cs cs') (b : Nat) : cs'.entry b = cs.entry b := by
  unfold Store.entry lookupAny
  rw [h.blocks, h.nblocks]

lemma refreshEscrows_same {memory : Bool} (h : cs.refreshEscrows memory = some cs') :
    SameBlocks cs cs' := by
  unfold refreshEscrows at h
  split at h
  · cases h
  split at h
  · cases h
  · cases h
    exact ⟨rfl, rfl, rfl, rfl, rfl⟩

lemma persist_same (cs : Store) (file : Option MetaFile) (io : PersistIo) :
    SameBlocks cs (cs.persist file io).2.1 := by
  unfold persist
  split
  · exact .refl cs
  · cases h : cs.refreshEscrows io.memory with
    | none => exact .refl cs
    | some cs' =>
      have hsame := refreshEscrows_same h
      dsimp only
      split
      · exact ⟨hsame.blocks, hsame.nblocks, hsame.highWater, hsame.chunkSize,
          hsame.checksumAlgorithm⟩
      · exact hsame

lemma persist_file_of_failed {file : Option MetaFile} {io : PersistIo}
    (h : (cs.persist file io).1 = false) : (cs.persist file io).2.2 = file := by
  unfold persist at h ⊢
  split
  · rfl
  · grind

end Store

end Reffs.Chunk
