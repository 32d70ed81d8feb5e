import Reffs.Chunk.Data

/-!
# The operations on blocks

The other operations of `chunk.c`: the life cycle of a pending block, errors and their repair,
locks, the escrows of the metadata server, and what the end of a lease does. Each one checks its
request, then the blocks, changes them and persists the store; what it takes back when that fails is
its own.
-/

namespace Reffs.Chunk

open ByteCodec

variable (cs : Store) (w : Inode) (offset : UInt64) (r : EscrowRange) (blk : Block) (count : UInt32)

abbrev maxChunksPerOp : Nat := 4096
abbrev maxOwnersPerOp : Nat := 4096

/-- `chunk_lifecycle_check_range`: a range is not empty, not too long, and does not wrap around. -/
def rangeOk : Bool :=
  count != 0 && decide (count.toNat ≤ maxChunksPerOp) &&
    decide (offset.toNat + (count.toNat - 1) ≤ 2 ^ 64 - 1)

/-- The blocks of a range that does not wrap around. -/
def inRange (b : Nat) : Bool :=
  decide (offset.toNat ≤ b) && decide (b < offset.toNat + count.toNat)

/-- A check of each block of a range, in order. -/
def Store.checkRange (check : Option Block → Nfsstat) : Nfsstat :=
  firstBad (fun i => check (cs.lookupAny (blockAt offset i))) count.toNat 0

/-- A change of each block of a range that there is. -/
def Store.changeRange (change : Block → Block) : Store :=
  { cs with
    blocks :=
      fun o => if inRange offset count o && decide (o < cs.nblocks) then change (cs.blocks o)
      else cs.blocks o }

/-- The blocks of a range that had been saved, put back as they were in `old`. -/
def Store.putBack (cs old : Store) (offset : UInt64) (count : UInt32) (saved : Block → Bool) :
    Store :=
  { cs with
    blocks :=
      fun o => if inRange offset count o && decide (o < old.nblocks) && saved (old.blocks o) then
      old.blocks o else cs.blocks o
    dirty := true }

/-- `chunk_lock_conflict`: a block of the range is locked by another owner. -/
def lockConflict (owner : Owner) : Bool :=
  (List.range count.toNat).any fun i => lockedByOther (cs.lookupAny (blockAt offset i)) owner

def Inode.persisted (r : Bool × Store × Option MetaFile) : Inode :=
  { w with store := some r.2.1, file := r.2.2 }

/-! ## The life cycle -/

/-- The arguments of CHUNK_FINALIZE, CHUNK_COMMIT and CHUNK_ROLLBACK. -/
structure LifeArgs where
  offset : UInt64
  count : UInt32
  owners : List Owner

def LifeArgs.check (a : LifeArgs) (e : Env) : Nfsstat :=
  if e.file ≠ .ok then e.file
  else if a.owners = [] then .inval
  else if rangeOk a.offset a.count = false then .inval
  else if maxOwnersPerOp < a.owners.length then .inval
  else e.trust

def transitionAll (offset : UInt64) (count : UInt32) (fromState toState : ChunkState) :
    List Owner → Store → List Nfsstat × Store
  | [], cs => ([], cs)
  | owner :: owners, cs =>
    match cs.transition offset count owner fromState toState with
    | some cs' =>
      let r := transitionAll offset count fromState toState owners cs'
      (.ok :: r.1, r.2)
    | none =>
      let r := transitionAll offset count fromState toState owners cs
      (.inval :: r.1, r.2)

def undoAll (offset : UInt64) (count : UInt32) (fromState toState : ChunkState) :
    List (Owner × Nfsstat) → Store → Store
  | [], cs => cs
  | (owner, st) :: rest, cs =>
    if st = .ok then
      undoAll offset count fromState toState rest
        ((cs.transition offset count owner toState fromState).getD cs)
    else undoAll offset count fromState toState rest cs

/-- What CHUNK_FINALIZE and CHUNK_COMMIT have in common. -/
def lifecycle (fromState toState : ChunkState) (w : Inode) (a : LifeArgs) (e : Env) :
    Nfsstat × List Nfsstat × Inode :=
  if a.check e ≠ .ok then (a.check e, [], w)
  else if a.owners.any (fun o => cidIsReserved o.clientId) then (.inval, [], w)
  else
    match w.store with
    | none => (.noent, [], w)
    | some cs =>
      if e.testDelay then (.delay, [], w)
      else if a.owners.any (lockConflict cs a.offset a.count) then (.chunkLocked, [], w)
      else if e.responseMemory = false then (.delay, [], w)
      else
        let r := transitionAll a.offset a.count fromState toState a.owners cs
        let p := r.2.persist w.file e.persist
        if p.1 then (.ok, r.1, w.persisted p)
        else
          (.serverFault, [], { w with
            store := some (undoAll a.offset a.count fromState toState (a.owners.zip r.1) p.2.1)
            file := p.2.2 })

def chunkFinalize (a : LifeArgs) (e : Env) : Nfsstat × List Nfsstat × Inode :=
  lifecycle .pending .finalized w a e

def chunkCommit (a : LifeArgs) (e : Env) : Nfsstat × List Nfsstat × Inode :=
  lifecycle .finalized .committed w a e

def rollbackAll (offset : UInt64) (count : UInt32) : List Owner → Store → Nfsstat × Store
  | [], cs => (.ok, cs)
  | owner :: owners, cs =>
    match cs.rollback offset count owner with
    | .done cs' => rollbackAll offset count owners cs'
    | .notSup => (.notSupp, cs)
    | .inval => (.inval, cs)

/-- CHUNK_ROLLBACK when nothing stands against it. What has been rolled back stays so, whatever
fails behind it. -/
def rollbackPassed (a : LifeArgs) (e : Env) (cs : Store) : Nfsstat × Inode :=
  let r := rollbackAll a.offset a.count a.owners cs
  if r.1 ≠ .ok then (r.1, { w with store := some r.2 })
  else
    let p := r.2.persist w.file e.persist
    (if p.1 then .ok else .serverFault, w.persisted p)

def chunkRollback (a : LifeArgs) (e : Env) : Nfsstat × Inode :=
  if a.check e ≠ .ok then (a.check e, w)
  else
    match w.store with
    | none => (.noent, w)
    | some cs =>
      if a.owners.any (lockConflict cs a.offset a.count) then (.chunkLocked, w)
      else rollbackPassed w a e cs

/-- `chunk_rollback_for_client`, for one file: a failure to persist is not reported. -/
def expireClient (clientid : UInt64) (e : Env) : Inode :=
  match w.store with
  | none => w
  | some cs =>
    let r := cs.rollbackForClient clientid
    if 0 < r.1 then w.persisted (r.2.persist w.file e.persist) else { w with store := some r.2 }

/-! ## Errors and their repair -/

structure OwnerArgs where
  offset : UInt64
  count : UInt32
  owner : Owner

def setError (error : Bool) (blk : Block) : Block :=
  { blk with flags := { blk.flags with error := error } }

/-- CHUNK_ERROR when nothing stands against it. The flags stay when they could not be persisted. -/
def errorPassed (a : OwnerArgs) (e : Env) (cs : Store) : Nfsstat × Inode :=
  let p := Store.persist { cs.changeRange a.offset a.count (setError true) with dirty := true }
    w.file e.persist
  (if p.1 then .ok else .serverFault, w.persisted p)

/-- CHUNK_ERROR: the blocks must be committed. -/
def chunkError (a : OwnerArgs) (error : Nfsstat) (e : Env) : Nfsstat × Inode :=
  if e.file ≠ .ok then (e.file, w)
  else if rangeOk a.offset a.count = false ∨ cidIsReserved a.owner.clientId then (.inval, w)
  else if error ≠ .payloadNotAtomic ∧ error ≠ .io ∧ error ≠ .inval then (.inval, w)
  else if e.trust ≠ .ok then (e.trust, w)
  else
    match w.store with
    | none => (.noent, w)
    | some cs =>
      let checked := cs.checkRange a.offset a.count fun blk =>
        if blk.any (fun blk => decide (blk.state = .committed)) then .ok else .inval
      if checked ≠ .ok then (checked, w) else errorPassed w a e cs

/-- CHUNK_REPAIRED: the blocks of a range that is not empty must be committed and have the error
flag. -/
def chunkRepaired (a : OwnerArgs) (e : Env) : Nfsstat × Inode :=
  if e.file ≠ .ok then (e.file, w)
  else if cidIsReserved a.owner.clientId then (.inval, w)
  else if e.trust ≠ .ok then (e.trust, w)
  else if e.layout = false then (.inval, w)
  else if a.count = 0 then (.ok, w)
  else if rangeOk a.offset a.count = false then (.inval, w)
  else
    match w.store with
    | none => (.inval, w)
    | some cs =>
      let checked := cs.checkRange a.offset a.count fun blk =>
        if blk.any (fun blk => decide (blk.state = .committed) && blk.flags.error) then .ok
          else .inval
      if checked ≠ .ok then (checked, w)
      else
        let cs₁ := { cs.changeRange a.offset a.count (setError false) with dirty := true }
        let p := cs₁.persist w.file e.persist
        if p.1 then (.ok, w.persisted p)
        else
          (.serverFault, { w with
            store := some { p.2.1.changeRange a.offset a.count (setError true) with dirty := true }
            file := p.2.2 })

/-! ## Locks -/

structure LockArgs where
  offset : UInt64
  count : UInt32
  owner : Owner
  flags : UInt32
  /-- the escrow to adopt -/
  adopt : Option EscrowId
  stateid : Stateid

abbrev lockFlagsAdopt : UInt32 := 1
abbrev lockFlagsTakeover : UInt32 := 2

def LockArgs.adopts (a : LockArgs) : Bool := a.flags &&& lockFlagsAdopt != 0

def LockArgs.takesOver (a : LockArgs) : Bool := a.flags &&& lockFlagsTakeover != 0

def LockArgs.escrow (a : LockArgs) : EscrowRange := ⟨a.offset, a.count, a.adopt.getD (zeros 16)⟩

def LockArgs.check (a : LockArgs) (e : Env) : Nfsstat :=
  if e.file ≠ .ok then e.file
  else if cidIsReserved a.owner.clientId then .inval
  else if rangeOk a.offset a.count = false then .inval
  else if a.flags &&& ~~~(lockFlagsAdopt ||| lockFlagsTakeover) ≠ 0 ∨ a.adopts ≠ a.adopt.isSome ∨
      (a.adopts ∧ a.takesOver) then .inval
  else if a.takesOver then .notSupp
  else if a.adopts ∧ a.escrow.id = zeros 16 then .inval
  else e.trust

def ownerMds : Owner := ⟨0, Store.clientIdMds, 0⟩

/-- `chunk_escrow_matches`: the block is held by that escrow. -/
def escrowMatches (blk : Option Block) (r : EscrowRange) : Bool :=
  blk.any fun blk => blk.flags.locked && blk.flags.escrow && decide (blk.lock.owner = ownerMds) &&
    decide (Store.escrowRange blk = r)

def LockArgs.checkBlock (a : LockArgs) (blk : Option Block) : Nfsstat :=
  if a.adopts then if escrowMatches blk a.escrow then .ok else .noAdoptableLock
  else if blk.any fun blk => blk.flags.locked && !(decide (blk.lock.owner = a.owner) &&
      decide (blk.lock.offset = a.offset) && decide (blk.lock.count = a.count) &&
      decide (blk.lock.stateid = a.stateid)) then .chunkLocked
  else .ok

/-- What CHUNK_LOCK makes of a block; one that is locked already stays as it is. -/
def LockArgs.mark (a : LockArgs) (session : UInt64) (blk : Block) : Option Block :=
  if a.adopts then
    some { blk with
      flags := { blk.flags with escrow := false }
      lock := ⟨a.owner, a.offset, a.count, 0, a.stateid, blk.lock.escrowId⟩
      writerClientid := session }
  else if blk.flags.locked then none
  else
    some { blk with
      flags := { blk.flags with locked := true }
      lock := ⟨a.owner, a.offset, a.count, a.flags, a.stateid, zeros 16⟩ }

/-- The entry at `off`, created if the array ends before it, and touched by the operation that does
so; a touch of an entry that is there does not fail. -/
def Store.opened (off : Nat) (touches memory : Bool) : Option (Bool × Store) :=
  match cs.lookupAny off with
  | some _ => (if touches then cs.touch off memory else some cs).map fun cs => (false, cs)
  | none =>
    (cs.write off Block.empty memory).bind fun cs =>
      (if touches then cs.touch off memory else some cs).map fun cs => (true, cs)

/-- A block that is marked makes the store dirty. -/
def Store.marked (off : Nat) : Option Block → Store
  | some blk => { cs.setBlock off blk with dirty := true }
  | none => cs

/-- The loop of CHUNK_LOCK and CHUNK_ESCROW_INSTALL over the blocks of a range: each is created if
need be, touched by the second of them, saved and marked. The saved blocks are what a failure can
restore. -/
def claimBlocks (offset : UInt64) (touches : Bool) (mark : Block → Option Block)
    (memory : Nat → Bool) : Nat → Nat → Store → List (Bool × Block) →
    Bool × Store × List (Bool × Block)
  | 0, _, cs, saved => (true, cs, saved)
  | turns + 1, i, cs, saved =>
    let off := blockAt offset i
    match cs.opened off touches (memory i) with
    | none => (false, cs, saved)
    | some (created, cs) =>
      let blk := cs.entry off
      claimBlocks offset touches mark memory turns (i + 1) (cs.marked off (mark blk))
        (saved ++ [(created, blk)])

/-- The saved blocks put back, from block `i` on; a block that was created is empty again. -/
def restoreBlocks (offset : UInt64) : List (Bool × Block) → Nat → Store → Store
  | [], _, cs => { cs with dirty := true }
  | (created, blk) :: saved, i, cs =>
    let off := blockAt offset i
    let cs' :=
      if off < cs.nblocks then cs.setBlock off (if created then Block.empty else blk) else cs
    restoreBlocks offset saved (i + 1) cs'

def lockPassed (a : LockArgs) (e : Env) (cs : Store) : Nfsstat × Inode :=
  let r := claimBlocks a.offset false (a.mark e.session) e.growMemory a.count.toNat 0 cs []
  if r.1 = false then (.serverFault, { w with store := some r.2.1 })
  else if e.testPersistFails then
    (.serverFault, { w with store := some (restoreBlocks a.offset r.2.2 0 r.2.1) })
  else
    let p := r.2.1.persist w.file e.persist
    if p.1 then (.ok, w.persisted p)
    else
      (.serverFault, { w with
        store := some (restoreBlocks a.offset r.2.2 0 p.2.1)
        file := p.2.2 })

def chunkLock (a : LockArgs) (e : Env) : Nfsstat × Inode :=
  if a.check e ≠ .ok then (a.check e, w)
  else if e.responseMemory = false then (.serverFault, w)
  else
    match w.chunkStoreGet e with
    | none => (.serverFault, w)
    | some cs =>
      match if a.adopts then cs.refreshEscrows e.indexMemory else some cs with
      | none => (.serverFault, { w with store := some cs })
      | some cs =>
        if a.adopts ∧ cs.hasEscrow a.escrow = false then
          (.noAdoptableLock, { w with store := some cs })
        else
          let checked := cs.checkRange a.offset a.count a.checkBlock
          if checked ≠ .ok then (checked, { w with store := some cs }) else lockPassed w a e cs

/-- `chunk_lock_clear`: the escrow of an adopted lock is kept. -/
def lockClear : Block :=
  let preserve := !blk.flags.escrow && blk.lock.escrowId != zeros 16
  { blk with
    flags :=
      { blk.flags with locked := false, escrow := if preserve then blk.flags.escrow else false }
    lock := { BlockLock.zero with escrowId := if preserve then blk.lock.escrowId else zeros 16 } }

def unlockBlock : Block := if blk.flags.locked then lockClear blk else blk

def chunkUnlock (a : OwnerArgs) (e : Env) : Nfsstat × Inode :=
  if e.file ≠ .ok then (e.file, w)
  else if cidIsReserved a.owner.clientId then (.inval, w)
  else if rangeOk a.offset a.count = false then (.inval, w)
  else if e.trust ≠ .ok then (e.trust, w)
  else
    match w.store with
    | none => (.ok, w)
    | some cs =>
      if e.responseMemory = false then (.serverFault, w)
      else
        let checked := cs.checkRange a.offset a.count fun blk =>
          if blk.any fun blk => blk.flags.locked && !(decide (blk.lock.owner = a.owner) &&
            decide (blk.lock.offset = a.offset) && decide (blk.lock.count = a.count)) then .inval
          else .ok
        if checked ≠ .ok then (checked, w)
        else
          let locked := (List.range cs.nblocks).any fun o =>
            inRange a.offset a.count o && (cs.blocks o).flags.locked
          let cs₁ :=
            { cs.changeRange a.offset a.count unlockBlock with dirty := cs.dirty || locked }
          let p := cs₁.persist w.file e.persist
          if p.1 then (.ok, w.persisted p)
          else
            (.serverFault, { w with
              store := some (p.2.1.putBack cs a.offset a.count fun blk => blk.flags.locked)
              file := p.2.2 })

/-! ## Escrows -/

/-- The arguments of CHUNK_ESCROW_INSTALL and CHUNK_ESCROW_RELEASE. -/
abbrev EscrowArgs := EscrowRange

def installCheck (blk : Option Block) : Nfsstat :=
  if blk.any (fun blk => blk.flags.locked) ∧ escrowMatches blk r = false then .chunkLocked else .ok

def installMark : Option Block :=
  if escrowMatches (some blk) r then none
  else
    some { blk with
      flags := { blk.flags with locked := true, escrow := true }
      lock := ⟨ownerMds, r.offset, r.count, 0, zeros 16, r.id⟩ }

def chunkEscrowInstall (r : EscrowArgs) (e : Env) : Nfsstat × Inode :=
  if e.file ≠ .ok then (e.file, w)
  else if e.control ≠ .ok then (e.control, w)
  else if rangeOk r.offset r.count = false ∨ r.id = zeros 16 then (.inval, w)
  else if e.epoch ≠ .ok then (e.epoch, w)
  else if e.responseMemory = false then (.serverFault, w)
  else
    match w.chunkStoreGet e with
    | none => (.serverFault, w)
    | some cs =>
      let checked := cs.checkRange r.offset r.count (installCheck r)
      if checked ≠ .ok then (checked, { w with store := some cs })
      else
        let c := claimBlocks r.offset true (installMark r) e.growMemory r.count.toNat 0 cs []
        if c.1 = false ∨ e.testPersistFails then
          (.serverFault, { w with store := some (restoreBlocks r.offset c.2.2 0 c.2.1) })
        else
          let p := c.2.1.persist w.file e.persist
          if p.1 then (.ok, w.persisted p)
          else
            (.serverFault, { w with
              store := some (restoreBlocks r.offset c.2.2 0 p.2.1)
              file := p.2.2 })

def chunkEscrowRelease (r : EscrowArgs) (e : Env) : Nfsstat × Inode :=
  if e.file ≠ .ok then (e.file, w)
  else if e.control ≠ .ok then (e.control, w)
  else if rangeOk r.offset r.count = false then (.inval, w)
  else if e.epoch ≠ .ok then (e.epoch, w)
  else
    match w.store with
    | none => (.staleEscrow, w)
    | some cs =>
      if e.responseMemory = false then (.serverFault, w)
      else
        match cs.refreshEscrows e.indexMemory with
        | none => (.serverFault, w)
        | some cs =>
          if cs.hasEscrow r = false then (.staleEscrow, { w with store := some cs })
          else
            let checked := cs.checkRange r.offset r.count fun blk =>
              if escrowMatches blk r then .ok else .staleEscrow
            if checked ≠ .ok then (checked, { w with store := some cs })
            else
              let cs₁ := { cs.changeRange r.offset r.count lockClear with dirty := true }
              if e.testPersistFails then
                (.serverFault, { w with
                  store := some (cs₁.putBack cs r.offset r.count fun _ => true) })
              else
                let p := cs₁.persist w.file e.persist
                if p.1 then (.ok, w.persisted p)
                else
                  (.serverFault, { w with
                    store := some (p.2.1.putBack cs r.offset r.count fun _ => true)
                    file := p.2.2 })

/-! ## Requests -/

/-- What can happen to a file: a request with what it meets, or the end of a client's lease. -/
inductive Op where
  | write (a : WriteArgs)
  | writeRepair (a : WriteArgs)
  | finalize (a : LifeArgs)
  | commit (a : LifeArgs)
  | rollback (a : LifeArgs)
  | error (a : OwnerArgs) (error : Nfsstat)
  | repaired (a : OwnerArgs)
  | lock (a : LockArgs)
  | unlock (a : OwnerArgs)
  | escrowInstall (r : EscrowArgs)
  | escrowRelease (r : EscrowArgs)
  | expire (clientid : UInt64)

def step (op : Op) (e : Env) : Nfsstat × Inode :=
  match op with
  | .write a => chunkWrite w a e
  | .writeRepair a => chunkWriteRepair w a e
  | .finalize a => ((chunkFinalize w a e).1, (chunkFinalize w a e).2.2)
  | .commit a => ((chunkCommit w a e).1, (chunkCommit w a e).2.2)
  | .rollback a => chunkRollback w a e
  | .error a error => chunkError w a error e
  | .repaired a => chunkRepaired w a e
  | .lock a => chunkLock w a e
  | .unlock a => chunkUnlock w a e
  | .escrowInstall r => chunkEscrowInstall w r e
  | .escrowRelease r => chunkEscrowRelease w r e
  | .expire clientid => (.ok, expireClient w clientid e)

/-- The file when its store leaves memory, with a restart of the server or with the inode. -/
def Inode.restarted : Inode := { w with store := none }

/-- What happens to a file: a request, a CHUNK_READ that loads the store, or the store leaving
memory. -/
inductive Event where
  | request (op : Op) (e : Env)
  | load
  | drop

def Inode.next : Event → Inode
  | .request op e => (step w op e).2
  | .load => { w with store := w.store.or (w.file.bind MetaFile.load) }
  | .drop => w.restarted

def requests (ops : List (Op × Env)) : List Event := ops.map fun p => .request p.1 p.2

def Inode.init : Inode := ⟨none, none, none⟩

def run (ops : List (Op × Env)) : Inode := ops.foldl (fun w p => (step w p.1 p.2).2) w

def statuses (w : Inode) : List (Op × Env) → List Nfsstat
  | [] => []
  | p :: ops => (step w p.1 p.2).1 :: statuses (step w p.1 p.2).2 ops

/-- What a request of a client's session meets when nothing is missing and nothing fails. -/
def Env.calm (session : UInt64) : Env :=
  { file := .ok
    trust := .ok
    session := session
    checksums := ⟨fun _ => none, fun _ _ => false⟩
    storeMemory := true
    loads := true
    growMemory := fun _ => true
    responseMemory := true
    chunkMemory := fun _ => true
    testDelay := false
    testPersistFails := false
    data := ⟨false, 2 ^ 32⟩
    wild := fun _ => 0
    readLen := fun _ => 2 ^ 32
    persist := ⟨true, true⟩
    indexMemory := true
    control := .ok
    epoch := .ok
    layout := true }

instance (w : Inode) (session : UInt64) : Loads w (.calm session) := ⟨rfl⟩

end Reffs.Chunk
