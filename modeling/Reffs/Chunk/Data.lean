import Reffs.Chunk.Store

/-!
# Writing and reading chunks

The data path of `chunk.c`: CHUNK_WRITE, CHUNK_WRITE_REPAIR and CHUNK_READ. A write puts its payload
into the file at `offset * chunk_size` before it records a block for each chunk, and the block is
pending until its owner finalizes and commits it; a read takes its bytes at the chunk size that the
store recorded first.

What a request meets outside the store is an `Env`: the checks of its file handle and its stateid,
memory, and what the data file does with the bytes.
-/

namespace Reffs.Chunk

open ByteCodec

inductive Nfsstat where
  | ok
  | noFileHandle
  | inval
  | notSupp
  | delay
  | badStateid
  | access
  | perm
  | noent
  | nospc
  | io
  | serverFault
  | chunkLocked
  | payloadNotAtomic
  | noAdoptableLock
  | staleMdsEpoch
  | staleEscrow
  deriving DecidableEq, Repr

/-- The algorithms of `chunk_checksum.h`: the length of a value, if the algorithm is known, and the
test of a value against bytes. -/
structure Checksums where
  expectedLen : UInt32 → Option Nat
  verify : Checksum → Bytes → Bool

/-- What a write to the data file does: whether it is reported as failed, and how many bytes it
stores. -/
structure DataIo where
  fails : Bool
  stored : Nat

/-- What a request meets outside the store. -/
structure Env where
  /-- the checks of the current file handle -/
  file : Nfsstat
  /-- `chunk_check_trusted_stateid` -/
  trust : Nfsstat
  /-- the client of the session, or zero -/
  session : UInt64
  checksums : Checksums
  storeMemory : Bool
  /-- the file of the store can be opened and read, and there is memory for the store -/
  loads : Bool
  growMemory : Nat → Bool
  responseMemory : Bool
  chunkMemory : Nat → Bool
  /-- an injected delay, or an injected failure to persist -/
  testDelay : Bool
  testPersistFails : Bool
  data : DataIo
  /-- the data after a write whose position does not fit its type -/
  wild : Nat → UInt8
  /-- how many bytes of a chunk are read -/
  readLen : Nat → Nat
  persist : PersistIo
  /-- memory to rebuild the index of the escrows -/
  indexMemory : Bool
  /-- the checks of a metadata server's session and its epoch -/
  control : Nfsstat
  epoch : Nfsstat
  /-- the file has layout segments -/
  layout : Bool

/-- A file on a data server: the store in memory, its file on disk, and the data. -/
structure Inode where
  store : Option Store
  file : Option MetaFile
  data : Option (Nat → UInt8)

namespace Inode

def current (w : Inode) : Store := w.store.getD ((w.file.bind MetaFile.load).getD Store.fresh)

def entry (w : Inode) (b : Nat) : Block := w.current.entry b

def bytes (w : Inode) : Nat → UInt8 := w.data.getD fun _ => 0

/-- The store in memory, or else `chunk_store_load`. -/
def loaded (w : Inode) (e : Env) : Option Store :=
  w.store.or (if e.loads then w.file.bind MetaFile.load else none)

/-- `chunk_store_get`: a file that cannot be loaded is taken for none. -/
def chunkStoreGet (w : Inode) (e : Env) : Option Store :=
  match w.loaded e with
  | some cs => some cs
  | none => if e.storeMemory then some Store.fresh else none

end Inode

variable (w : Inode) (cs : Store) (offset : UInt64) (e : Env) (i : Nat)

/-- The request finds the store that there is: it is in memory, or its file can be loaded. -/
class Loads (w : Inode) (e : Env) : Prop where
  eq : w.loaded e = w.store.or (w.file.bind MetaFile.load)

namespace Inode

lemma eq_current_of_get {w : Inode} {e : Env} [Loads w e] {cs : Store}
    (h : w.chunkStoreGet e = some cs) : cs = w.current := by
  unfold chunkStoreGet at h
  rw [Loads.eq] at h
  unfold current
  cases hs : w.store <;> cases hf : w.file.bind MetaFile.load <;> grind

end Inode

/-- The status of the first of `n` checks that is not passed. -/
def firstBad (check : Nat → Nfsstat) : Nat → Nat → Nfsstat
  | 0, _ => .ok
  | turns + 1, i => if check i ≠ .ok then check i else firstBad check turns (i + 1)

lemma firstBad_eq_ok {check : Nat → Nfsstat} :
    ∀ {turns i : Nat}, firstBad check turns i = .ok → ∀ j, i ≤ j → j < i + turns → check j = .ok
  | 0, i, _, j, hij, hj => by omega
  | turns + 1, i, h, j, hij, hj => by
    unfold firstBad at h
    split at h
    · next hbad => exact absurd h hbad
    · next hgood =>
      rcases Nat.eq_or_lt_of_le hij with rfl | hlt
      · exact not_not.mp hgood
      · exact firstBad_eq_ok h j hlt (by omega)

lemma firstBad_of_ok {check : Nat → Nfsstat} :
    ∀ {turns i : Nat}, (∀ j, i ≤ j → j < i + turns → check j = .ok) → firstBad check turns i = .ok
  | 0, _, _ => rfl
  | turns + 1, i, h => by
    unfold firstBad
    rw [if_neg (not_not.mpr (h i (Nat.le_refl _) (by omega)))]
    exact firstBad_of_ok fun j hij hj => h j (by omega) (by omega)

/-! ## A write -/

/-- `chunk_guard4`. -/
structure Guard where
  genId : UInt32
  clientId : UInt32
  deriving DecidableEq

/-- The arguments that CHUNK_WRITE and CHUNK_WRITE_REPAIR share, with the guard of a guarded write.
-/
structure WriteArgs where
  offset : UInt64
  chunkSize : UInt32
  chunks : Bytes
  cohortId : UInt64
  clientId : UInt32
  coIds : List UInt32
  payloadId : UInt32
  checksums : List Checksum
  guard : Option Guard
  /-- the length of the payload is a 32-bit number -/
  chunks_lt : chunks.length < 2 ^ 32

/-- `chunk_cid_is_reserved`. -/
def cidIsReserved (cid : UInt32) : Bool := cid == 0 || cid == Store.clientIdMds

namespace WriteArgs

variable (a : WriteArgs)

def nchunks : Nat := (a.chunks.length + a.chunkSize.toNat - 1) % 2 ^ 32 / a.chunkSize.toNat

def chunk : Bytes := (a.chunks.drop (i * a.chunkSize.toNat)).take a.chunkSize.toNat

/-- The size of a block; the last one may be shorter. -/
def blockSize : UInt32 :=
  if i = a.nchunks - 1 ∧ a.chunks.length % a.chunkSize.toNat ≠ 0 then
    UInt32.ofNat (a.chunks.length % a.chunkSize.toNat)
  else a.chunkSize

def owner : Owner := ⟨a.cohortId, a.clientId, (a.coIds[i]?).getD 0⟩

def wireAlgorithm : UInt32 := (a.checksums.head?.map Checksum.algorithm).getD 0

/-- Known algorithm, one for all chunks, values of its length that match the bytes. -/
def checksumsOk (k : Checksums) : Bool :=
  match k.expectedLen a.wireAlgorithm with
  | none => false
  | some len =>
    a.checksums.all (fun c => c.algorithm == a.wireAlgorithm && c.value.length == len) &&
      a.checksums.zipIdx.all fun (c, i) => k.verify c (a.chunk i)

/-- `chunk_write_validate_payload`, `chunk_validate_co_ids` and the check of the stateid. -/
def check : Nfsstat :=
  if e.file ≠ .ok then e.file
  else if a.chunkSize = 0 ∨ a.chunks = [] then .inval
  else if cidIsReserved a.clientId then .inval
  else if a.nchunks = 0 then .inval
  else if a.checksums ≠ [] ∧
      (a.checksums.length ≠ a.nchunks ∨ a.checksumsOk e.checksums = false) then .inval
  else if a.coIds.length ≠ a.nchunks ∨ ¬ a.coIds.Nodup then .inval
  else e.trust

/-- The algorithm of the file is that of its first write with checksums, and its chunk size that of
its first write. -/
def establish : Option Store :=
  let sized (cs : Store) : Store :=
    { cs with chunkSize := if cs.chunkSize = 0 then a.chunkSize else cs.chunkSize }
  if a.checksums = [] then some (sized cs)
  else if cs.checksumAlgorithm = 0 then
    some (sized { cs with checksumAlgorithm := a.wireAlgorithm, dirty := true })
  else if cs.checksumAlgorithm ≠ a.wireAlgorithm then none
  else some (sized cs)

end WriteArgs

/-- A block whose lock belongs to someone else. -/
def lockedByOther (blk : Option Block) (owner : Owner) : Bool :=
  blk.any fun blk => blk.flags.locked && blk.lock.owner != owner

/-- The gate of CHUNK_WRITE for one chunk: a lock of another owner, a guard that does not match, and
a pending write of another owner. -/
def gateAt (a : WriteArgs) (i : Nat) : Nfsstat :=
  let off := blockAt a.offset i
  if lockedByOther (cs.lookupAny off) (a.owner i) then .chunkLocked
  else
    match cs.lookup off with
    | none => .ok
    | some prev =>
      if a.guard.any (fun g => prev.genId != g.genId || prev.owner.clientId != g.clientId)
        then .delay
      else if prev.state = .pending ∧ prev.owner ≠ a.owner i then .delay
      else .ok

/-- Where the payload goes, if `offset * chunk_size` fits an `off_t`. -/
def WriteArgs.position (a : WriteArgs) : Option Nat :=
  if a.offset.toNat * a.chunkSize.toNat + a.chunks.length < 2 ^ 63 then
    some (a.offset.toNat * a.chunkSize.toNat)
  else none

def patch (data : Nat → UInt8) (pos : Nat) (bs : Bytes) : Nat → UInt8 :=
  fun x => if pos ≤ x ∧ x < pos + bs.length then bs.getD (x - pos) 0 else data x

/-- The data after the payload has been stored, in whole or in part. -/
def WriteArgs.stored (a : WriteArgs) (e : Env) (data : Nat → UInt8) : Nat → UInt8 :=
  match a.position with
  | some pos => patch data pos (a.chunks.take e.data.stored)
  | none => e.wild

/-- `data_block_alloc` for a file without data, and `data_block_write`. -/
def Inode.writeData (a : WriteArgs) (e : Env) : Nfsstat × Option (Nat → UInt8) :=
  match w.data with
  | none => if e.data.fails then (.nospc, none) else (.ok, some (a.stored e fun _ => 0))
  | some data => (if e.data.fails then .io else .ok, some (a.stored e data))

/-- The block that a write records: pending, with the next generation of the block that it
supersedes and the lock of the entry there. -/
def newBlock (a : WriteArgs) (session : UInt64) (repair : Bool) (i : Nat)
    (oldBlk lockBlk : Option Block) : Block :=
  let held := lockBlk.any fun blk => blk.flags.locked
  { state := .pending
    flags := ⟨held, repair, false, false⟩
    genId := match oldBlk with | some old => old.genId + 1 | none => 0
    owner := a.owner i
    payloadId := a.payloadId
    checksum := match a.checksums[i]? with
      | some c => ⟨c.algorithm, c.value.take valueMax⟩
      | none => ⟨0, []⟩
    chunkSize := a.blockSize i
    writerClientid := session
    lock := if held then (lockBlk.map Block.lock).getD .zero else .zero }

/-- The loop that records the blocks; it stops where the store cannot grow. -/
def recordBlocks (a : WriteArgs) (e : Env) (repair : Bool) : Nat → Nat → Store → Bool × Store
  | 0, _, cs => (true, cs)
  | turns + 1, i, cs =>
    let off := blockAt a.offset i
    let blk := newBlock a e.session repair i (cs.lookup off) (cs.lookupAny off)
    match cs.write off blk (e.growMemory i) with
    | none => (false, cs)
    | some cs' => recordBlocks a e repair turns (i + 1) cs'

/-- CHUNK_WRITE when nothing stands against it: the payload is stored, then the blocks are recorded.
-/
def writePassed (a : WriteArgs) (e : Env) (cs : Store) : Nfsstat × Inode :=
  let d := w.writeData a e
  if d.1 ≠ .ok then (d.1, { w with store := some cs, data := d.2 })
  else if e.responseMemory = false then (.delay, { w with store := some cs, data := d.2 })
  else
    let r := recordBlocks a e false a.nchunks 0 cs
    (if r.1 then .ok else .delay, { w with store := some r.2, data := d.2 })

/-- An injected delay, which leaves first writes alone. -/
def testDelayed (a : WriteArgs) (e : Env) (cs : Store) : Bool :=
  e.testDelay && a.guard.isSome &&
    (List.range a.nchunks).any fun i => (cs.lookup (blockAt a.offset i)).isSome

def chunkWrite (a : WriteArgs) (e : Env) : Nfsstat × Inode :=
  if a.check e ≠ .ok then (a.check e, w)
  else
    match w.chunkStoreGet e with
    | none => (.delay, w)
    | some cs =>
      if testDelayed a e cs then (.delay, { w with store := some cs })
      else
        match a.establish cs with
        | none => (.inval, { w with store := some cs })
        | some cs =>
          let gate := firstBad (gateAt cs a) a.nchunks 0
          if gate ≠ .ok then (gate, { w with store := some cs }) else writePassed w a e cs

/-- CHUNK_WRITE_REPAIR when nothing stands against it. The answer is allocated last. -/
def repairPassed (a : WriteArgs) (e : Env) (cs : Store) : Nfsstat × Inode :=
  let d := w.writeData a e
  if d.1 ≠ .ok then (d.1, { w with store := some cs, data := d.2 })
  else
    let r := recordBlocks a e true a.nchunks 0 cs
    (if r.1 && e.responseMemory then .ok else .delay, { w with store := some r.2, data := d.2 })

/-- CHUNK_WRITE_REPAIR: locks are checked before the algorithm, and there is no other gate. -/
def chunkWriteRepair (a : WriteArgs) (e : Env) : Nfsstat × Inode :=
  if a.check e ≠ .ok then (a.check e, w)
  else
    match w.chunkStoreGet e with
    | none => (.delay, w)
    | some cs =>
      if (List.range a.nchunks).any
          (fun i => lockedByOther (cs.lookupAny (blockAt a.offset i)) (a.owner i)) then
        (.chunkLocked, { w with store := some cs })
      else
        match a.establish cs with
        | none => (.inval, { w with store := some cs })
        | some cs => repairPassed w a e cs

/-! ## A read -/

structure ReadChunk where
  checksum : Checksum
  effectiveLen : UInt32
  owner : Owner
  guard : Guard
  payloadId : UInt32
  locked : Bool
  status : Nfsstat
  bytes : Bytes

/-- The blocks from the first one on that can be read, and whether a pending one came behind them.
-/
def available (cs : Store) (offset : UInt64) : Nat → Nat → Nat × Bool
  | 0, _ => (0, false)
  | turns + 1, i =>
    match cs.lookup (blockAt offset i) with
    | none => (0, false)
    | some blk =>
      if blk.state = .pending then (0, true)
      else
        let (n, pending) := available cs offset turns (i + 1)
        (n + 1, pending)

/-- The bytes of a block that are read, with zeros behind a short read. -/
def readBytes (data : Nat → UInt8) (pos len got : Nat) : Bytes :=
  (List.range len).map fun k => if k < got then data (pos + k) else 0

def readChunk : ReadChunk :=
  let off := blockAt offset i
  let blk := cs.entry off
  let rc : ReadChunk :=
    { checksum := blk.checksum
      effectiveLen := blk.chunkSize
      owner := blk.owner
      guard := ⟨blk.genId, blk.owner.clientId⟩
      payloadId := blk.payloadId
      locked := blk.flags.locked
      status := .ok
      bytes := [] }
  if blk.flags.error then { rc with status := .payloadNotAtomic }
  else { rc with
    bytes := readBytes w.bytes (off * cs.chunkSize.toNat) blk.chunkSize.toNat (e.readLen i) }

/-- The chunks of the answer, up to one that has no memory for its bytes. -/
def readChunks (w : Inode) (cs : Store) (offset : UInt64) (e : Env) : Nat → Nat → List ReadChunk
  | 0, _ => []
  | turns + 1, i =>
    if e.chunkMemory i = false ∧ (cs.entry (blockAt offset i)).flags.error = false then []
    else readChunk w cs offset e i :: readChunks w cs offset e turns (i + 1)

/-- CHUNK_READ: the status and the chunks, and whether the end of the array was reached. -/
def chunkRead (count : UInt32) (e : Env) : Nfsstat × List ReadChunk × Bool :=
  if e.file ≠ .ok then (e.file, [], false)
  else if count = 0 then (.ok, [], true)
  else if e.trust ≠ .ok then (e.trust, [], false)
  else
    match w.loaded e with
    | none => (.noent, [], false)
    | some cs =>
      let (avail, pending) := available cs offset count.toNat 0
      if avail = 0 then (if pending then .delay else .noent, [], false)
      else if e.responseMemory = false then (.delay, [], false)
      else (.ok, readChunks w cs offset e avail 0,
        decide (cs.nblocks ≤ (offset.toNat + avail) % 2 ^ 64))

end Reffs.Chunk
