import Reffs.Chunk.Checks
import Reffs.Lib.Machine

/-!
# One operation

`Change` lists all that can become of a block in one operation, each case with what the operation
has checked before, and `Outcome` the ways in which an operation ends: nothing is done, or the store
has made progress and was persisted or is still to be. `step_outcome` says that nothing else
happens, in success and in failure.
-/

namespace Reffs.Chunk

open ByteCodec List Option Bool Store Inode Or

variable {c : Prop} {touches : Bool} {mark : Block → Option Block} {cs' : Store}
  {saved : List (Bool × Block)}

variable {offset : UInt64} {count : UInt32} {blk blk' : Block}

/-! ## Kinds of operations -/

def Op.writes : Op → Option WriteArgs
  | .write a | .writeRepair a => some a
  | _ => none

def Op.repairs : Op → Bool
  | .writeRepair _ => true
  | _ => false

def WriteArgs.Covers (a : WriteArgs) (b : Nat) : Prop := ∃ i, i < a.nchunks ∧ b = blockAt a.offset i

def Op.Passes (op : Op) (w : Inode) (e : Env) (a : WriteArgs) : Prop :=
  op = .write a ∧ WritePasses w a e ∨ op = .writeRepair a ∧ RepairPasses w a e

/-- The operation is a write that passes its checks and is for the block. -/
def Op.Rewrites (op : Op) (w : Inode) (e : Env) (b : Nat) : Prop :=
  ∃ a, op.Passes w e a ∧ a.Covers b

/-- What is answered with success and promises nothing of the disk: the end of a lease, and
CHUNK_REPAIRED for an empty range. -/
def Op.Idle (op : Op) : Prop :=
  (∃ a, op = .repaired a ∧ a.count = 0) ∨ ∃ clientid, op = .expire clientid

/-- The blocks that an operation can add to the file on disk. -/
def Op.Claims (op : Op) (b : Nat) : Prop :=
  match op with
  | .write a | .writeRepair a => a.Covers b
  | .lock a => inRange a.offset a.count b = true
  | .escrowInstall r => inRange r.offset r.count b = true
  | _ => False

/-- The blocks of a range that CHUNK_LOCK leaves below the mark: they are there already, or it is
one block that has to be created. -/
def Store.Reaches (cs : Store) (offset : UInt64) (i turns : Nat) : Prop :=
  (∀ j, i ≤ j → j < i + turns → blockAt offset j < cs.highWater) ∨ turns = 1 ∧
    cs.nblocks ≤ blockAt offset i

/-! ## What becomes of a block -/

def Unlocked (owners : List Owner) (blk : Block) : Prop :=
  ∀ owner ∈ owners, ¬ (blk.flags.locked = true ∧ blk.lock.owner ≠ owner)

/-- What can become of block `b` in an operation. -/
inductive Change (op : Op) (e : Env) (b : Nat) (st : Nfsstat) (blk : Block) : Block → Prop where
  | same : Change op e b st blk blk
  | written (a : WriteArgs) (i : Nat) (hop : op.writes = some a) (hi : i < a.nchunks)
      (hb : b = blockAt a.offset i) (hlock : Unlocked [a.owner i] blk) :
      Change op e b st blk (rewritten a e op.repairs i blk)
  | finalized (a : LifeArgs) (blk' : Block) (hop : op = .finalize a) (hst : st = .ok)
      (hlock : Unlocked a.owners blk) (hrange : inRange a.offset a.count b = true)
      (hmoved : Moved a.offset a.count .pending .finalized a.owners b blk blk') :
        Change op e b st blk blk'
  | committed (a : LifeArgs) (blk' : Block) (hop : op = .commit a) (hst : st = .ok)
      (hlock : Unlocked a.owners blk) (hrange : inRange a.offset a.count b = true)
      (hmoved : Moved a.offset a.count .finalized .committed a.owners b blk blk') :
        Change op e b st blk blk'
  | rolledBack (a : LifeArgs) (blk' : Block) (hop : op = .rollback a)
      (hlock : Unlocked a.owners blk)
      (hrange : inRange a.offset a.count b = true)
      (hback : RolledBack a.offset a.count a.owners b blk blk') : Change op e b st blk blk'
  | failed (a : OwnerArgs) (error : Nfsstat) (hop : op = .error a error)
      (hrange : inRange a.offset a.count b = true) (hstate : blk.state = .committed) :
      Change op e b st blk (setError true blk)
  | mended (a : OwnerArgs) (hop : op = .repaired a) (hst : st = .ok)
      (hrange : inRange a.offset a.count b = true)
      (hstate : blk.state = .committed) (herror : blk.flags.error = true) :
      Change op e b st blk (setError false blk)
  | locked (a : LockArgs) (blk' : Block) (hop : op = .lock a)
      (hrange : inRange a.offset a.count b = true) (hcheck : a.checkBlock (some blk) = .ok)
      (hmark : a.mark e.session blk = some blk') : Change op e b st blk blk'
  | unlocked (a : OwnerArgs) (hop : op = .unlock a) (hst : st = .ok)
      (hrange : inRange a.offset a.count b = true)
      (hlocked : blk.flags.locked = true) (howner : blk.lock.owner = a.owner) :
      Change op e b st blk (lockClear blk)
  | installed (r : EscrowArgs) (blk' : Block) (hop : op = .escrowInstall r) (hst : st = .ok)
      (hrange : inRange r.offset r.count b = true) (hcheck : installCheck r (some blk) = .ok)
      (hmark : installMark r blk = some blk') : Change op e b st blk blk'
  | released (r : EscrowArgs) (hop : op = .escrowRelease r) (hst : st = .ok)
      (hrange : inRange r.offset r.count b = true) (hmatch : escrowMatches (some blk) r = true) :
      Change op e b st blk (lockClear blk)
  | expired (clientid : UInt64) (blk' : Block) (hop : op = .expire clientid)
      (hexpire : Store.expireBlock clientid blk = some blk') : Change op e b st blk blk'

/-- The store that an operation leaves. Of the blocks that it claims, those which it has changed are
below the mark, and all of them when it has succeeded. -/
structure Leaves (w : Inode) (op : Op) (e : Env) (st : Nfsstat) (cs : Store) : Prop where
  progress : Progress op.Claims w.current cs
  change : ∀ b, Change op e b st (w.entry b) (cs.entry b)
  low : (∀ a, op = .lock a → w.current.Reaches a.offset 0 a.count.toNat) → ∀ b, op.Claims b →
    st = .ok ∨ cs.entry b ≠ w.entry b → b < cs.highWater

inductive Outcome (w : Inode) (op : Op) (e : Env) : Nfsstat × Inode → Prop where
  | same (st : Nfsstat)
      (hok : st = .ok → ((w.store = none ∧ ∃ a, op = .unlock a) ∨ op.Idle) ∧ ∀ b, ¬ op.Claims b) :
      Outcome w op e (st, w)
  | kept (st : Nfsstat) (cs : Store) (data : Option (Nat → UInt8)) (h : Leaves w op e st cs)
      (hdata : op.writes = none → data = w.data) (hok : st = .ok → op.Idle ∨ op.writes ≠ none) :
      Outcome w op e (st, { w with store := some cs, data := data })
  | saved (cs : Store) (io : PersistIo) (h : Leaves w op e .ok cs)
      (hdone : (cs.persist w.file io).1 = true) :
        Outcome w op e (.ok, w.persisted (cs.persist w.file io))

section

variable {w : Inode} {op : Op} {e : Env} {st : Nfsstat} {cs : Store} {r : Nfsstat × Inode} {b : Nat}

lemma Leaves.of_entry (hprogress : Progress op.Claims w.current cs)
    (hentry : ∀ b, cs.entry b = w.entry b)
    (hst : st = .ok → ∀ b, ¬ op.Claims b) : Leaves w op e st cs where
  progress := hprogress
  change := fun b => hentry b ▸ .same
  low := fun _ b hb hcase => hcase.elim (fun hok => absurd hb (hst hok b)) fun hne =>
    absurd (hentry b) hne

lemma Leaves.of_no_claims (hclaims : ∀ b, ¬ op.Claims b)
    (hprogress : Progress op.Claims w.current cs)
    (hchange : ∀ b, Change op e b st (w.entry b) (cs.entry b)) : Leaves w op e st cs :=
  ⟨hprogress, hchange, fun _ b hb => absurd hb (hclaims b)⟩

lemma Leaves.of_changeRange {change : Block → Block} {dirty : Bool} (hclaims : ∀ b, ¬ op.Claims b)
    (hindexed : Indexed w cs)
    (hprogress : Progress op.Claims cs { cs.changeRange offset count change with dirty := dirty })
    (h : ∀ b, inRange offset count b → b < cs.nblocks →
      Change op e b st (cs.entry b) (change (cs.entry b))) :
    Leaves w op e st { cs.changeRange offset count change with dirty := dirty } := by
  refine .of_no_claims hclaims ((hindexed.progress _).trans hprogress) fun b => ?_
  show Change op e b st (w.entry b) ((cs.changeRange offset count change).entry b)
  rw [changeRange_entry, ← hindexed.entry b]
  split
  · next hb => exact h b hb.1 hb.2
  · exact .same

lemma Outcome.refused (h : st ≠ .ok) : Outcome w op e (st, w) := .same st fun hok => absurd hok h

lemma Outcome.left (h : Leaves w op e st cs) (hst : st ≠ .ok) :
    Outcome w op e (st, { w with store := some cs }) :=
  .kept st cs w.data h (fun _ => rfl) fun hok => absurd hok hst

lemma Outcome.guard [Decidable c] (hst : c → st ≠ .ok) (h : ¬ c → Outcome w op e r) :
    Outcome w op e (if c then (st, w) else r) := by
  split
  · next hc => exact .refused (hst hc)
  · next hc => exact h hc

lemma Outcome.guard_left [Decidable c] (hindexed : Indexed w cs) (hst : c → st ≠ .ok)
    (h : ¬ c → Outcome w op e r) :
    Outcome w op e (if c then (st, { w with store := some cs }) else r) := by
  split
  · next hc =>
    exact .left (.of_entry (hindexed.progress _) hindexed.entry fun hok => absurd hok (hst hc))
      (hst hc)
  · next hc => exact h hc

lemma Outcome.of_refused {B : Store → Prop} (h : Refused w B r)
    (hB : ∀ cs, B cs → (∀ b, cs.entry b = w.entry b) ∧ ∀ T, Progress T w.current cs) :
    Outcome w op e r := by
  obtain ⟨st, w'⟩ := r
  obtain ⟨hst, rfl | ⟨cs, hcs, rfl⟩⟩ := h
  · exact .refused hst
  · exact .left (.of_entry ((hB cs hcs).2 _) (hB cs hcs).1 fun hok => absurd hok hst) hst

lemma Outcome.persist (h : ∀ st, Leaves w op e st cs) :
    Outcome w op e (if (cs.persist w.file e.persist).1 then .ok else .serverFault,
      w.persisted (cs.persist w.file e.persist)) := by
  split
  · next hdone => exact .saved cs e.persist (h _) hdone
  · next hfailed =>
    have hfailed := eq_false_iff.mpr hfailed
    have hsame := persist_same cs w.file e.persist
    unfold persisted
    rw [persist_file_of_failed hfailed]
    refine .left ⟨(h .serverFault).progress.trans (persist_failed_progress hfailed), fun b => ?_,
      fun hreach b hb hcase => ?_⟩ nofun
    · rw [hsame.entry]
      exact (h _).change b
    · rw [hsame.entry] at hcase
      exact hsame.highWater ▸ (h _).low hreach b hb hcase

lemma Outcome.save_or (undo : Store → Store) (h : Leaves w op e .ok cs)
    (hundo : ∀ cs', Store.SameBlocks cs cs' → Progress op.Claims cs cs' →
      Progress op.Claims w.current (undo cs') ∧ ∀ b, (undo cs').entry b = w.entry b) :
    Outcome w op e (if (cs.persist w.file e.persist).1 then
        (.ok, w.persisted (cs.persist w.file e.persist))
      else (.serverFault, { w with
        store := some (undo (cs.persist w.file e.persist).2.1)
        file := (cs.persist w.file e.persist).2.2 })) := by
  split
  · next hdone => exact .saved cs e.persist h hdone
  · next hfailed =>
    have hfailed := eq_false_iff.mpr hfailed
    rw [persist_file_of_failed hfailed]
    obtain ⟨hprogress, hentry⟩ := hundo _ (persist_same cs w.file e.persist)
      (persist_failed_progress hfailed)
    exact .left (.of_entry hprogress hentry nofun) nofun

/-! ## Writes -/

variable {a : WriteArgs}

/-- How a write ends that passes its checks and starts from `cs`. -/
inductive Written (w : Inode) (a : WriteArgs) (e : Env) (repair : Bool) (cs : Store) :
    Nfsstat × Inode → Prop where
  | stopped (st : Nfsstat) (hst : st ≠ .ok)
      (hstop : (w.writeData a e).1 = .ok → e.responseMemory = false) :
      Written w a e repair cs (st, { w with store := some cs, data := (w.writeData a e).2 })
  | recorded (st : Nfsstat) (cs' : Store) (hdata : (w.writeData a e).1 = .ok)
      (hst : st = .ok ↔ room a.offset e.growMemory a.nchunks 0 cs.nblocks = a.nchunks ∧
        e.responseMemory = true)
      (h : Recorded a.Covers a e repair 0 (room a.offset e.growMemory a.nchunks 0 cs.nblocks)
        cs cs') :
      Written w a e repair cs (st, { w with store := some cs', data := (w.writeData a e).2 })

lemma recordBlocks_written (a : WriteArgs) (e : Env) (repair : Bool) (cs : Store) :
    ((recordBlocks a e repair a.nchunks 0 cs).1 ↔
      room a.offset e.growMemory a.nchunks 0 cs.nblocks = a.nchunks) ∧
    Recorded a.Covers a e repair 0 (room a.offset e.growMemory a.nchunks 0 cs.nblocks) cs
      (recordBlocks a e repair a.nchunks 0 cs).2 :=
  recordBlocks_recorded a.nchunks 0 cs (by rw [Nat.zero_add]; exact nchunks_le a)
    fun j _ hj => ⟨j, by omega, rfl⟩

lemma writePassed_written (w : Inode) (a : WriteArgs) (e : Env) (cs : Store) :
    Written w a e false cs (writePassed w a e cs) := by
  obtain ⟨hdone, hrecorded⟩ := recordBlocks_written a e false cs
  unfold writePassed
  dsimp only
  split
  · next hdata => exact .stopped _ hdata fun hok => absurd hok hdata
  next hdata =>
  split
  · next hmemory => exact .stopped _ nofun fun _ => hmemory
  · next hmemory =>
    refine .recorded _ _ (not_not.mp hdata) ?_ hrecorded
    rw [← hdone, eq_true_of_not_eq_false hmemory]
    split <;> simp_all

lemma repairPassed_written (w : Inode) (a : WriteArgs) (e : Env) (cs : Store) :
    Written w a e true cs (repairPassed w a e cs) := by
  obtain ⟨hdone, hrecorded⟩ := recordBlocks_written a e true cs
  unfold repairPassed
  dsimp only
  split
  · next hdata => exact .stopped _ hdata fun hok => absurd hok hdata
  · next hdata =>
    refine .recorded _ _ (not_not.mp hdata) ?_ hrecorded
    rw [← hdone, ← and_eq_true]
    split <;> simp_all

/-- **A write** is refused with nothing changed that a client could see, or passes its checks and
comes to store its payload. -/
theorem write_cases [Loads w e] (hw : op.writes = some a) :
    (¬ op.Passes w e a ∧ Refused w (Established w a) (step w op e)) ∨
    op.Passes w e a ∧ ∃ cs, a.establish w.current = some cs ∧
      Written w a e op.repairs cs (step w op e) := by
  cases op with
  | write a' =>
    obtain rfl := some.inj hw
    rcases chunkWrite_cases w a' e with ⟨hpasses, heq⟩ | ⟨hno, hrefused⟩
    · obtain ⟨cs, hest⟩ := isSome_iff_exists.mp hpasses.established
      refine inr ⟨inl ⟨rfl, hpasses⟩, cs, hest, ?_⟩
      show Written w a' e false cs (chunkWrite w a' e)
      rw [heq, hest]
      exact writePassed_written w a' e cs
    · exact inl ⟨fun h => h.elim (fun h => hno h.2) fun h => (nomatch h.1), hrefused⟩
  | writeRepair a' =>
    obtain rfl := some.inj hw
    rcases chunkWriteRepair_cases w a' e with ⟨hpasses, heq⟩ | ⟨hno, hrefused⟩
    · obtain ⟨cs, hest⟩ := isSome_iff_exists.mp hpasses.established
      refine inr ⟨inr ⟨rfl, hpasses⟩, cs, hest, ?_⟩
      show Written w a' e true cs (chunkWriteRepair w a' e)
      rw [heq, hest]
      exact repairPassed_written w a' e cs
    · exact inl ⟨fun h => h.elim (fun h => (nomatch h.1)) fun h => hno h.2, hrefused⟩
  | _ => cases hw

lemma Op.Passes.unlocked (h : op.Passes w e a) {i : Nat} (hi : i < a.nchunks) :
    Unlocked [a.owner i] (w.entry (blockAt a.offset i)) := by
  intro owner howner hother
  rw [mem_singleton.mp howner] at hother
  rcases h with ⟨-, h⟩ | ⟨-, h⟩
  · have hgate := h.gate i hi
    unfold gateBlock at hgate
    rw [if_pos hother] at hgate
    cases hgate
  · exact h.lock i hi hother

lemma write_outcome [Loads w e] (hw : op.writes = some a) : Outcome w op e (step w op e) := by
  have hclaims : op.Claims = a.Covers := by cases op <;> cases hw <;> rfl
  rcases write_cases (w := w) (e := e) hw with ⟨-, hrefused⟩ | ⟨hpasses, cs, hest, hwritten⟩
  · exact .of_refused hrefused fun _ h => h.spec
  obtain ⟨hentry, -, -, hfirst⟩ := establish_spec hest
  generalize step w op e = r at hwritten ⊢
  cases hwritten with
  | stopped st hst hstop =>
    exact .kept st cs _ (.of_entry (hfirst _) hentry fun hok => absurd hok hst)
      (fun hno => absurd (hno.symm.trans hw) nofun) fun hok => absurd hok hst
  | recorded st cs' hdata hst h =>
    have hroom := room_le a.offset e.growMemory a.nchunks 0 cs.nblocks
    refine .kept st cs' _ ⟨?_, fun b => ?_, fun _ b hb hcase => ?_⟩
      (fun hno => absurd (hno.symm.trans hw) nofun) fun _ => inr fun hno =>
        absurd (hno.symm.trans hw) nofun
    · rw [hclaims]
      exact (hfirst _).trans h.progress
    · rcases h.cases b with hsame | ⟨i, hi, rfl, -, hnew⟩
      · rw [hsame, hentry]
        exact .same
      · rw [hnew, hentry]
        exact .written a i hw (by omega) rfl (hpasses.unlocked (by omega))
    · rcases h.cases b with hsame | ⟨i, hi, rfl, hlow, -⟩
      · rw [hclaims] at hb
        obtain ⟨i, hi, rfl⟩ := hb
        rcases hcase with hok | hne
        · exact (h.inside i (Nat.zero_le _) (by rw [(hst.mp hok).1]; omega)).1
        · exact absurd (hsame.trans (hentry _)) hne
      · exact hlow

/-! ## The life cycle -/

lemma of_lockConflict {owners : List Owner} (h : ¬ owners.any (lockConflict cs offset count))
    {j : Nat} (hj : j < count.toNat) : Unlocked owners (cs.entry (blockAt offset j)) := by
  intro owner howner hother
  refine h (any_eq_true.mpr ⟨owner, howner, ?_⟩)
  exact any_eq_true.mpr ⟨j, mem_range.mpr hj, (lockedByOther_lookupAny _ _ _).mpr hother⟩

lemma lifecycle_outcome {fromState toState : ChunkState} {a : LifeArgs} (hne : fromState ≠ toState)
    (hfrom : fromState ≠ .empty) (hto : toState ≠ .empty) (hclaims : ∀ b, ¬ op.Claims b)
    (hchange : ∀ b blk', Unlocked a.owners (w.entry b) → inRange a.offset a.count b →
      Moved a.offset a.count fromState toState a.owners b (w.entry b) blk' →
        Change op e b .ok (w.entry b) blk') :
    Outcome w op e ((lifecycle fromState toState w a e).1,
      (lifecycle fromState toState w a e).2.2) := by
  unfold lifecycle
  split
  · next hvalid => exact .refused hvalid
  next hvalid =>
  split
  · exact .refused nofun
  cases hs : w.store with
  | none => exact .refused nofun
  | some cs =>
    obtain rfl := current_of_store hs
    dsimp only
    split
    · exact .refused nofun
    split
    · exact .refused nofun
    next hlock =>
    split
    · exact .refused nofun
    have hmoving :=
      @transitionAll_moving op.Claims a.offset a.count fromState toState w.current hto a.owners
      [] w.current (.refl w.current)
    split
    · next hdone =>
      refine .saved _ e.persist (.of_no_claims hclaims hmoving.progress fun b => ?_) hdone
      rcases hmoving.moved b with hsame | hmoved
      · rw [hsame]
        exact .same
      · obtain ⟨j, hj, rfl⟩ := hmoved.1
        exact hchange _ _ (of_lockConflict hlock hj)
          (inRange_blockAt (range_of_check (not_not.mp hvalid)) hj) hmoved
    · next hfailed =>
      have hfailed := eq_false_iff.mpr hfailed
      rw [persist_file_of_failed hfailed]
      obtain ⟨hprogress, hentry⟩ := undoAll_undone hne hfrom _ _
        (hmoving.same (persist_same _ w.file e.persist) (persist_failed_progress hfailed))
      exact .left (.of_entry hprogress hentry nofun) nofun

lemma chunkRollback_outcome (a : LifeArgs) : Outcome w (.rollback a) e (chunkRollback w a e) := by
  rcases chunkRollback_cases w a e with ⟨hpasses, heq⟩ | ⟨-, hrefused⟩
  · have hrange := range_of_check hpasses.admitted
    obtain ⟨hprogress, hback⟩ :=
      @rollbackAll_rolledBack (Op.rollback a).Claims a.offset a.count a.owners
      w.current
    have hleaves (st : Nfsstat) : Leaves w (.rollback a) e st
        (rollbackAll a.offset a.count a.owners w.current).2 := by
      refine .of_no_claims (fun _ h => h) hprogress fun b => ?_
      rcases hback b with hsame | hback
      · rw [hsame]
        exact .same
      · obtain ⟨j, hj, rfl⟩ := hback.1
        exact .rolledBack a _ rfl (of_lockConflict (eq_false_iff.mp hpasses.lock) hj)
          (inRange_blockAt hrange hj) hback
    rw [heq]
    unfold rollbackPassed
    dsimp only
    split
    · next hstop => exact .left (hleaves _) hstop
    · exact .persist hleaves
  · exact .of_refused hrefused fun _ h => h.elim

lemma expireClient_outcome (clientid : UInt64) :
    Outcome w (.expire clientid) e (.ok, expireClient w clientid e) := by
  have hidle : (Op.expire clientid).Idle := inr ⟨clientid, rfl⟩
  unfold expireClient
  cases hs : w.store with
  | none => exact .same _ fun _ => ⟨inr hidle, fun _ h => h⟩
  | some cs =>
    obtain rfl := current_of_store hs
    dsimp only
    have hleaves {cs : Store} (hsame : Store.SameBlocks (w.current.rollbackForClient clientid).2 cs)
        (hprogress : Progress (Op.expire clientid).Claims
          (w.current.rollbackForClient clientid).2 cs) :
        Leaves w (.expire clientid) e .ok cs := by
      refine .of_no_claims (fun _ h => h) ((rollbackForClient_progress _ _).trans hprogress)
        fun b => ?_
      rw [hsame.entry, rollbackForClient_entry]
      cases hx : expireBlock clientid (w.current.entry b) with
      | none => exact .same
      | some blk' => exact .expired clientid blk' rfl hx
    split
    · cases hp : ((w.current.rollbackForClient clientid).2.persist w.file e.persist).1 with
      | true => exact .saved _ e.persist (hleaves (.refl _) (.refl _)) hp
      | false =>
        unfold persisted
        rw [persist_file_of_failed hp]
        exact .kept _ _ _ (hleaves (persist_same _ _ _) (persist_failed_progress hp))
          (fun _ => rfl) fun _ => inl hidle
    · exact .kept _ _ _ (hleaves (.refl _) (.refl _)) (fun _ => rfl) fun _ => inl hidle

/-! ## Errors and their repair -/

lemma chunkError_outcome (a : OwnerArgs) (error : Nfsstat) :
    Outcome w (.error a error) e (chunkError w a error e) := by
  rcases chunkError_cases w a error e with ⟨hpasses, heq⟩ | ⟨-, hrefused⟩
  · rw [heq]
    refine .persist fun st => .of_changeRange (fun _ h => h) (.refl w) (changed_progress _ _ _ _) ?_
    exact fun b hb _ => .failed a error rfl hb (hpasses.block b hb)
  · exact .of_refused hrefused fun _ h => h.elim

lemma setError_setError {x y : Bool} (h : blk.flags.error = x) :
    setError x (setError y blk) = blk := by
  subst h
  rfl

lemma chunkRepaired_outcome (a : OwnerArgs) : Outcome w (.repaired a) e (chunkRepaired w a e) := by
  unfold chunkRepaired
  refine .guard id fun _ => .guard (fun _ => nofun) fun _ => .guard id fun _ =>
    .guard (fun _ => nofun)
    fun _ => ?_
  split
  · next hzero => exact .same _ fun _ => ⟨inr (inl ⟨a, rfl, hzero⟩), fun _ h => h⟩
  refine .guard (fun _ => nofun) fun hrange => ?_
  cases hs : w.store with
  | none => exact .refused nofun
  | some cs =>
    obtain rfl := current_of_store hs
    refine .guard id fun hcheck => ?_
    have hblock {b : Nat} (hb : inRange a.offset a.count b) (hlt : b < w.current.nblocks) :
        (w.current.entry b).state = .committed ∧ (w.current.entry b).flags.error := by
      simpa using checked_entry (rangeOk_of_not hrange) (not_not.mp hcheck) hb hlt
    refine .save_or
      (fun cs' => { cs'.changeRange a.offset a.count (setError true) with dirty := true })
      (.of_changeRange (fun _ h => h) (.refl w) (changed_progress _ _ _ _) fun b hb hlt =>
        .mended a rfl rfl hb (hblock hb hlt).1 (hblock hb hlt).2) fun cs' hsame hprogress => ?_
    refine ⟨(changed_progress _ _ _ _).trans (hprogress.trans (changed_progress _ _ _ _)),
      fun b => ?_⟩
    -- the flags are set again
    show (cs'.changeRange a.offset a.count (setError true)).entry b = w.current.entry b
    rw [changeRange_entry, hsame.entry, hsame.nblocks]
    show (if _ ∧ b < w.current.nblocks then
      setError true ((w.current.changeRange a.offset a.count (setError false)).entry b) else
      (w.current.changeRange a.offset a.count (setError false)).entry b) = w.current.entry b
    rw [changeRange_entry]
    split
    · next hb => exact setError_setError (hblock hb.1 hb.2).2
    · rfl

/-! ## Locks -/

section

variable (h : Claimed op.Claims offset touches mark 0 cs cs' saved) (hindexed : Indexed w cs)

include h hindexed

lemma Claimed.leaves (hlen : saved.length ≤ count.toNat)
    (hst : st = .ok → saved.length = count.toNat) (hrange : rangeOk offset count)
    (hclaims : ∀ b, op.Claims b → inRange offset count b)
    (hreach : (∀ a, op = .lock a → w.current.Reaches a.offset 0 a.count.toNat) →
      touches ∨ w.current.Reaches offset 0 count.toNat)
    (hchange : ∀ b blk', inRange offset count b → mark (w.entry b) = some blk' →
      Change op e b st (w.entry b) blk') : Leaves w op e st cs' := by
  have hout : ∀ b, (∀ k < saved.length, b ≠ blockAt offset (0 + k)) → cs'.entry b = w.entry b :=
    fun b hb => (h.outside b hb).trans (hindexed.entry b)
  refine ⟨(hindexed.progress _).trans h.progress, fun b => ?_, fun hlock b hb hcase => ?_⟩
  · by_cases hb : ∃ k < saved.length, b = blockAt offset (0 + k)
    · obtain ⟨k, hk, rfl⟩ := hb
      rw [h.inside k hk, hindexed.entry]
      cases hm : mark (w.entry (blockAt offset (0 + k))) with
      | none => exact .same
      | some blk' =>
        refine hchange _ _ ?_ hm
        rw [Nat.zero_add]
        exact inRange_blockAt hrange (by omega)
    · push Not at hb
      rw [hout b hb]
      exact .same
  · have hclaimed : ∃ k < saved.length, b = blockAt offset (0 + k) := by
      rcases hcase with hok | hne
      · obtain ⟨i, hi, rfl⟩ := exists_blockAt hrange (hclaims b hb)
        exact ⟨i, by rw [hst hok]; exact hi, by rw [Nat.zero_add]⟩
      by_contra hno
      push Not at hno
      exact hne (hout b hno)
    obtain ⟨k, hk, rfl⟩ := hclaimed
    refine h.low k hk ((hreach hlock).imp_right ?_)
    rw [hindexed.same.highWater, hindexed.same.nblocks]
    rintro (hall | ⟨hone, hbeyond⟩)
    · exact inl (hall _ (Nat.zero_le _) (by omega))
    · exact inr ⟨by omega, hbeyond⟩

theorem Claimed.restored (hlen : saved.length ≤ 2 ^ 32) (cs'' : Store)
    (hsame : Store.SameBlocks cs' cs'') (hprogress : Progress op.Claims cs' cs'') :
    Progress op.Claims w.current (restoreBlocks offset saved 0 cs'') ∧
      ∀ b, (restoreBlocks offset saved 0 cs'').entry b = w.entry b := by
  refine ⟨(hindexed.progress _).trans ((h.progress.trans hprogress).trans ?_), fun b => ?_⟩
  · obtain ⟨blocks, heq⟩ := restoreBlocks_eq offset saved 0 cs''
    rw [heq]
    exact .of_dirty rfl rfl rfl rfl
  rw [← hindexed.entry]
  obtain ⟨hin, hout⟩ := @restoreBlocks_entry offset saved 0 cs'' (by omega)
  by_cases hb : ∃ k < saved.length, b = blockAt offset (0 + k)
  · obtain ⟨k, hk, rfl⟩ := hb
    obtain ⟨hsaved, hlt⟩ := h.saved k saved[k] (getElem?_eq_getElem hk)
    rw [← hsame.nblocks] at hlt
    rw [hin k saved[k] (getElem?_eq_getElem hk) hlt, hsaved]
  · push Not at hb
    rw [hout b fun k hk => hb k hk, hsame.entry, h.outside b fun k hk => hb k hk]

end

lemma claimBlocks_spec {T : Nat → Prop} (hrange : rangeOk offset count)
    (hT : ∀ b, inRange offset count b → T b) (touches : Bool) (mark : Block → Option Block)
    (memory : Nat → Bool) (cs : Store) :
    (claimBlocks offset touches mark memory count.toNat 0 cs []).2.2.length =
        room offset memory count.toNat 0 cs.nblocks ∧
      ((claimBlocks offset touches mark memory count.toNat 0 cs []).1 ↔
        room offset memory count.toNat 0 cs.nblocks = count.toNat) ∧
      Claimed T offset touches mark 0 cs
        (claimBlocks offset touches mark memory count.toNat 0 cs []).2.1
        (claimBlocks offset touches mark memory count.toNat 0 cs []).2.2 := by
  have hcount := count_lt count
  obtain ⟨more, hsaved, hlen, hdone, hclaimed⟩ := @claimBlocks_claimed T offset touches mark memory
    count.toNat 0 cs [] (by omega) fun j _ hj => hT _ (inRange_blockAt hrange (by omega))
  rw [hsaved, nil_append]
  exact ⟨hlen, hdone, hclaimed⟩

lemma chunkLock_outcome [Loads w e] (a : LockArgs) : Outcome w (.lock a) e (chunkLock w a e) := by
  rcases chunkLock_cases w a e with ⟨hpasses, heq⟩ | ⟨-, hrefused⟩
  · have hrange := LockArgs.range_of_check hpasses.admitted
    rw [heq]
    obtain ⟨cs, hcs, hindexed⟩ := a.exists_indexed w e
    rw [hcs]
    unfold lockPassed
    obtain ⟨hlen, hdone, hclaimed⟩ :=
      claimBlocks_spec (T := (Op.lock a).Claims) hrange (fun _ h => h) false
      (a.mark e.session) e.growMemory cs
    have hroom := hlen.trans_le (room_le a.offset e.growMemory a.count.toNat 0 cs.nblocks)
    have hcount := count_lt a.count
    have hleaves (st : Nfsstat)
        (hst : st = .ok → (claimBlocks a.offset false (a.mark e.session) e.growMemory
        a.count.toNat 0 cs []).1) := hclaimed.leaves (w := w) (e := e) hindexed hroom
      (fun hok => hlen.trans (hdone.mp (hst hok))) hrange (fun _ h => h) (fun h => inr (h a rfl))
      fun b blk' hb hmark => .locked a blk' rfl hb (hpasses.block b hb) hmark
    have hrestored := hclaimed.restored hindexed (by omega)
    dsimp only
    split
    · exact .left (hleaves _ nofun) nofun
    next hall =>
    split
    · obtain ⟨hprogress, hentry⟩ := hrestored _ (.refl _) (.refl _)
      exact .left (.of_entry hprogress hentry nofun) nofun
    · exact .save_or _ (hleaves _ fun _ => eq_true_of_not_eq_false hall) hrestored
  · exact .of_refused hrefused fun _ h => ⟨h.entry, h.progress⟩

lemma chunkUnlock_outcome (a : OwnerArgs) : Outcome w (.unlock a) e (chunkUnlock w a e) := by
  unfold chunkUnlock
  refine .guard id fun _ => .guard (fun _ => nofun) fun _ => .guard (fun _ => nofun) fun hrange =>
    .guard id fun _ => ?_
  cases hs : w.store with
  | none => exact .same _ fun _ => ⟨inl ⟨hs, a, rfl⟩, fun _ h => h⟩
  | some cs =>
    obtain rfl := current_of_store hs
    refine .guard (fun _ => nofun) fun _ => .guard id fun hcheck => ?_
    have hunlocked := @unlocked_progress (Op.unlock a).Claims w.current a.offset a.count
    refine .save_or (fun cs' => cs'.putBack w.current a.offset a.count fun blk => blk.flags.locked)
      (.of_changeRange (fun _ h => h) (.refl w) hunlocked fun b hb hlt => ?_) fun cs' hsame
        hprogress =>
        ⟨hunlocked.trans (hprogress.trans (putBack_progress _ _ _ _ _)),
          putBack_entry hsame.blocks hsame.nblocks fun blk hno => if_neg (eq_false_iff.mp hno)⟩
    have hok := checked_entry (rangeOk_of_not hrange) (not_not.mp hcheck) hb hlt
    unfold unlockBlock
    split
    · next hlocked =>
      refine .unlocked a rfl rfl hb hlocked ?_
      by_contra hne
      simp [hlocked, hne] at hok
    · exact .same

/-! ## Escrows -/

lemma chunkEscrowInstall_outcome [Loads w e] (r : EscrowArgs) :
    Outcome w (.escrowInstall r) e (chunkEscrowInstall w r e) := by
  unfold chunkEscrowInstall
  refine .guard id fun _ => .guard id fun _ => .guard (fun _ => nofun) fun hargs =>
    .guard id fun _ =>
    .guard (fun _ => nofun) fun _ => ?_
  push Not at hargs
  have hrange := rangeOk_of_not hargs.1
  cases hget : w.chunkStoreGet e with
  | none => exact .refused nofun
  | some cs =>
    obtain rfl := eq_current_of_get hget
    refine .guard_left (.refl w) id fun hcheck => ?_
    have hblock := (checkRange_iff _ _ (installCheck_none r) hrange).mp (not_not.mp hcheck)
    obtain ⟨hlen, hdone, hclaimed⟩ := claimBlocks_spec (T := (Op.escrowInstall r).Claims) hrange
      (fun _ h => h) true (installMark r) e.growMemory w.current
    have hroom := hlen.trans_le (room_le r.offset e.growMemory r.count.toNat 0 w.current.nblocks)
    have hcount := count_lt r.count
    have hrestored := hclaimed.restored (.refl w) (by omega)
    dsimp only
    split
    · obtain ⟨hprogress, hentry⟩ := hrestored _ (.refl _) (.refl _)
      exact .left (.of_entry hprogress hentry nofun) nofun
    · next hall =>
      push Not at hall
      refine .save_or _ (hclaimed.leaves (.refl w) hroom
        (fun _ => hlen.trans (hdone.mp (eq_true_of_not_eq_false hall.1))) hrange (fun _ h => h)
        (fun _ => inl rfl) ?_) hrestored
      exact fun b blk' hb hmark => .installed r blk' rfl rfl hb (hblock b hb) hmark

lemma chunkEscrowRelease_outcome (r : EscrowArgs) :
    Outcome w (.escrowRelease r) e (chunkEscrowRelease w r e) := by
  unfold chunkEscrowRelease
  refine .guard id fun _ => .guard id fun _ => .guard (fun _ => nofun) fun hrange =>
    .guard id fun _ => ?_
  cases hs : w.store with
  | none => exact .refused nofun
  | some cs₀ =>
    obtain rfl := current_of_store hs
    refine .guard (fun _ => nofun) fun _ => ?_
    cases hindex : w.current.refreshEscrows e.indexMemory with
    | none => exact .refused nofun
    | some cs =>
      have hindexed := Indexed.of_refresh hindex
      refine .guard_left hindexed (fun _ => nofun) fun _ => .guard_left hindexed id fun hcheck => ?_
      have hback {cs' : Store} (hsame : Store.SameBlocks
          { cs.changeRange r.offset r.count lockClear with dirty := true } cs') (hprogress) :
          Progress (Op.escrowRelease r).Claims w.current
            (cs'.putBack cs r.offset r.count fun _ => true) ∧
            ∀ b, (cs'.putBack cs r.offset r.count fun _ => true).entry b = w.entry b :=
        ⟨(hindexed.progress _).trans ((changed_progress cs r.offset r.count lockClear).trans
          (Progress.trans hprogress (putBack_progress _ _ _ _ _))), fun b => by
          rw [putBack_entry hsame.blocks hsame.nblocks fun _ h => absurd h (by decide),
            hindexed.entry]⟩
      split
      · obtain ⟨hprogress, hentry⟩ := hback (.refl _) (.refl _)
        exact .left (.of_entry hprogress hentry nofun) nofun
      refine .save_or (fun cs' => cs'.putBack cs r.offset r.count fun _ => true)
        (.of_changeRange (fun _ h => h) hindexed (changed_progress _ _ _ _) ?_) fun _ => hback
      intro b hb hlt
      refine .released r rfl rfl hb ?_
      by_contra hne
      have hok := checked_entry (rangeOk_of_not hrange) (not_not.mp hcheck) hb hlt
      simp [hne] at hok

/-! ## All operations -/

/-- **One operation**: whatever it is and however it ends, the outcome is one of these. -/
theorem step_outcome (w : Inode) (op : Op) (e : Env) [Loads w e] :
    Outcome w op e (step w op e) := by
  cases op with
  | write a | writeRepair a => exact write_outcome rfl
  | finalize a =>
    exact lifecycle_outcome (by decide) (by decide) (by decide) (fun _ h => h)
      fun b blk' hlock hrange hmoved => .finalized a blk' rfl rfl hlock hrange hmoved
  | commit a =>
    exact lifecycle_outcome (by decide) (by decide) (by decide) (fun _ h => h)
      fun b blk' hlock hrange hmoved => .committed a blk' rfl rfl hlock hrange hmoved
  | rollback a => exact chunkRollback_outcome a
  | error a error => exact chunkError_outcome a error
  | repaired a => exact chunkRepaired_outcome a
  | lock a => exact chunkLock_outcome a
  | unlock a => exact chunkUnlock_outcome a
  | escrowInstall r => exact chunkEscrowInstall_outcome r
  | escrowRelease r => exact chunkEscrowRelease_outcome r
  | expire clientid => exact expireClient_outcome clientid

lemma Outcome.leaves {r : Nfsstat × Inode} (h : Outcome w op e r) :
    ∃ cs, Leaves w op e r.1 cs ∧ Store.SameBlocks cs r.2.current := by
  cases h with
  | same st hok => exact ⟨w.current, .of_entry (.refl _) (fun _ => rfl) fun h => (hok h).2, .refl _⟩
  | kept st cs data h hdata hok => exact ⟨cs, h, .refl _⟩
  | saved cs io h hdone => exact ⟨cs, h, persist_same cs w.file io⟩

lemma Outcome.change {r : Nfsstat × Inode} (h : Outcome w op e r) (b : Nat) :
    Change op e b r.1 (w.entry b) (r.2.entry b) := by
  obtain ⟨cs, hleaves, hsame⟩ := h.leaves
  show Change op e b _ (w.entry b) (r.2.current.entry b)
  rw [hsame.entry]
  exact hleaves.change b

lemma step_change (w : Inode) (op : Op) (e : Env) [Loads w e] (b : Nat) :
    Change op e b (step w op e).1 (w.entry b) ((step w op e).2.entry b) :=
  (step_outcome w op e).change b

lemma step_bytes [Loads w e] (hw : op.writes = none) : (step w op e).2.bytes = w.bytes := by
  have h := step_outcome w op e
  generalize step w op e = r at h
  unfold bytes
  cases h with
  | same st hok => rfl
  | kept st cs data h hdata hok => rw [hdata hw]
  | saved cs io h hdone => rfl

lemma step_store [Loads w e] (op : Op) (h : w.store.isSome) : (step w op e).2.store.isSome := by
  have houtcome := step_outcome w op e
  generalize step w op e = r at houtcome
  cases houtcome with
  | same => exact h
  | kept | saved => rfl

/-! ## Writes that are accepted, and those that pass -/

lemma writeData_ok (h : (w.writeData a e).1 = .ok) :
    (w.writeData a e).2.getD (fun _ => 0) = a.stored e w.bytes := by
  grind [bytes, writeData]

/-- What a write that is answered with success has done. -/
structure Accepted (w : Inode) (a : WriteArgs) (e : Env) (repair : Bool) (w' : Inode) : Prop where
  entry : ∀ i, i < a.nchunks →
    w'.entry (blockAt a.offset i) = rewritten a e repair i (w.entry (blockAt a.offset i))
  bytes : w'.bytes = a.stored e w.bytes

lemma step_accepted [Loads w e] (hw : op.writes = some a) (h : (step w op e).1 = .ok) :
    op.Passes w e a ∧ Accepted w a e op.repairs (step w op e).2 := by
  rcases write_cases (w := w) (e := e) hw with ⟨-, hrefused⟩ | ⟨hpasses, cs, hest, hwritten⟩
  · exact absurd h hrefused.status
  generalize step w op e = r at h hwritten
  refine ⟨hpasses, ?_⟩
  cases hwritten with
  | stopped st hst hstop => exact absurd h hst
  | recorded st cs' hdata hst hrecorded =>
    refine ⟨fun i hi => ?_, writeData_ok hdata⟩
    show cs'.entry (blockAt a.offset i) = _
    rw [(hrecorded.inside i (Nat.zero_le _) (by rw [(hst.mp h).1]; omega)).2,
      (establish_spec hest).1]
    rfl

lemma entry_of_writes [Loads w e] (hw : op.writes = some a) :
    (step w op e).2.entry b = w.entry b ∨ ∃ i < a.nchunks, b = blockAt a.offset i ∧
      (step w op e).2.entry b = rewritten a e op.repairs i (w.entry b) := by
  have hchange := step_change w op e b
  generalize (step w op e).2.entry b = blk' at hchange ⊢
  cases hchange with
  | same => exact inl rfl
  | written a' i hop hi hb hlock => grind
  | finalized _ _ hop | committed _ _ hop | rolledBack _ _ hop | failed _ _ hop | mended _ hop
  | locked _ _ hop | unlocked _ hop | installed _ _ hop | released _ hop | expired _ _ hop =>
    subst hop
    cases hw

lemma entry_of_not_rewrites [Loads w e] (hw : op.writes = some a) (h : ¬ op.Rewrites w e b) :
    (step w op e).2.entry b = w.entry b := by
  rcases write_cases (w := w) (e := e) hw with ⟨-, hrefused⟩ | ⟨hpasses, -⟩
  · exact hrefused.entry (fun _ h => h.spec.1) b
  refine (entry_of_writes hw).resolve_right ?_
  rintro ⟨i, hi, hb, -⟩
  exact h ⟨a, hpasses, i, hi, hb⟩

/-- The operation is a write for the block that is answered with success. -/
def Accepts (b : Nat) (w : Inode) (op : Op) (e : Env) : Prop :=
  ∃ a, op.writes = some a ∧ a.Covers b ∧ (step w op e).1 = .ok

lemma Accepts.rewrites [Loads w e] (h : Accepts b w op e) : op.Rewrites w e b := by
  obtain ⟨a, hw, hcovers, hok⟩ := h
  exact ⟨a, (step_accepted hw hok).1, hcovers⟩

lemma Accepts.entry [Loads w e] (h : Accepts b w op e) :
    ∃ a repair i, (step w op e).2.entry b = rewritten a e repair i (w.entry b) := by
  obtain ⟨a, hw, ⟨i, hi, rfl⟩, hok⟩ := h
  exact ⟨a, op.repairs, i, (step_accepted hw hok).2.entry i hi⟩

/-! ## What a reader of the block sees -/

/-- The operation takes back what was written to the block: a rollback that names its owner, or the
end of its writer's lease, before it is committed. -/
def Op.Drops (op : Op) (b : Nat) (blk : Block) : Prop :=
  (blk.state = .pending ∨ blk.state = .finalized) ∧
    ((∃ a, op = .rollback a ∧ inRange a.offset a.count b = true ∧ blk.owner ∈ a.owners) ∨
      ∃ clientid, op = .expire clientid ∧ blk.writerClientid = clientid ∧ blk.flags.escrow = false ∧
        blk.hasEscrowCustody = false)

/-- At most the lock of the block has changed, and who last had to do with it. -/
structure LockOnly (blk blk' : Block) : Prop where
  state : blk'.state = blk.state
  error : blk'.flags.error = blk.flags.error
  genId : blk'.genId = blk.genId
  owner : blk'.owner = blk.owner
  chunkSize : blk'.chunkSize = blk.chunkSize

/-- What an operation can do to a block beside its lock. -/
inductive Effect (op : Op) (e : Env) (b : Nat) (st : Nfsstat) (blk : Block) : Block → Prop where
  | held (blk' : Block) (h : LockOnly blk blk') : Effect op e b st blk blk'
  | rewritten (a : WriteArgs) (repair : Bool) (i : Nat) (hop : op.writes = some a)
      (hi : i < a.nchunks)
      (hb : b = blockAt a.offset i) : Effect op e b st blk (rewritten a e repair i blk)
  | finalized (a : LifeArgs) (hop : op = .finalize a) (hrange : inRange a.offset a.count b = true)
      (howner : blk.owner ∈ a.owners) (hstate : blk.state = .pending) :
      Effect op e b st blk { blk with state := .finalized }
  | committed (a : LifeArgs) (hop : op = .commit a) (hstate : blk.state = .finalized) :
      Effect op e b st blk { blk with state := .committed }
  | dropped (h : op.Drops b blk) : Effect op e b st blk { blk with state := .empty }
  | failed (a : OwnerArgs) (error : Nfsstat) (hop : op = .error a error)
      (hrange : inRange a.offset a.count b = true) (hstate : blk.state = .committed) :
      Effect op e b st blk (setError true blk)
  | mended (a : OwnerArgs) (hop : op = .repaired a) (hst : st = .ok)
      (hrange : inRange a.offset a.count b = true) (hstate : blk.state = .committed)
      (herror : blk.flags.error = true) : Effect op e b st blk (setError false blk)

lemma LockOnly.refl (blk : Block) : LockOnly blk blk := ⟨rfl, rfl, rfl, rfl, rfl⟩

lemma LockArgs.mark_lockOnly {a : LockArgs} {session : UInt64}
    (h : a.mark session blk = some blk') : LockOnly blk blk' := by
  unfold LockArgs.mark at h
  split at h
  · cases h
    exact ⟨rfl, rfl, rfl, rfl, rfl⟩
  split at h
  · cases h
  · cases h
    exact ⟨rfl, rfl, rfl, rfl, rfl⟩

lemma installMark_lockOnly {r : EscrowRange} (h : installMark r blk = some blk') :
    LockOnly blk blk' := by
  unfold installMark at h
  split at h
  · cases h
  · cases h
    exact ⟨rfl, rfl, rfl, rfl, rfl⟩

lemma lockClear_lockOnly (blk : Block) : LockOnly blk (lockClear blk) := ⟨rfl, rfl, rfl, rfl, rfl⟩

lemma expireBlock_effect {clientid : UInt64} (h : expireBlock clientid blk = some blk') :
    Effect (.expire clientid) e b st blk blk' := by
  unfold expireBlock at h
  split at h
  · cases h
  next hclient =>
  split at h
  · cases h
  next hescrow =>
  split at h
  · cases h
    exact .held _ ⟨rfl, rfl, rfl, rfl, rfl⟩
  next hcustody =>
  split at h
  · next hopen =>
    cases h
    exact .dropped ⟨hopen, inr ⟨clientid, rfl, not_not.mp hclient,
      eq_false_iff.mpr hescrow, eq_false_iff.mpr hcustody⟩⟩
  · cases h

lemma Change.effect (h : Change op e b st blk blk') : Effect op e b st blk blk' := by
  cases h with
  | same => exact .held _ (.refl blk)
  | written a i hop hi hb hlock => exact .rewritten a op.repairs i hop hi hb
  | finalized a blk' hop hst hlock hrange hmoved =>
    rw [hmoved.2.2.2]
    exact .finalized a hop hrange hmoved.2.1 hmoved.2.2.1
  | committed a blk' hop hst hlock hrange hmoved =>
    rw [hmoved.2.2.2]
    exact .committed a hop hmoved.2.2.1
  | rolledBack a blk' hop hlock hrange hback =>
    rw [hback.2.2.2]
    exact .dropped ⟨hback.2.2.1, inl ⟨a, hop, hrange, hback.2.1⟩⟩
  | failed a error hop hrange hstate => exact .failed a error hop hrange hstate
  | mended a hop hst hrange hstate herror => exact .mended a hop hst hrange hstate herror
  | locked a blk' hop hrange hcheck hmark => exact .held _ (LockArgs.mark_lockOnly hmark)
  | unlocked a hop hst hrange hlocked howner
  | released r hop hst hrange hmatch => exact .held _ (lockClear_lockOnly blk)
  | installed r blk' hop hst hrange hcheck hmark => exact .held _ (installMark_lockOnly hmark)
  | expired clientid blk' hop hexpire =>
    subst hop
    exact expireBlock_effect hexpire

theorem step_effect (w : Inode) (op : Op) (e : Env) [Loads w e] (b : Nat) :
    Effect op e b (step w op e).1 (w.entry b) ((step w op e).2.entry b) :=
  (step_change w op e b).effect

/-! ## Runs -/

/-- Each step of a run is as `P` says of the file before it. -/
def AllSteps (P : Inode → Op → Env → Prop) : Inode → List (Op × Env) → Prop
  | _, [] => True
  | w, p :: ops => P w p.1 p.2 ∧ AllSteps P (step w p.1 p.2).2 ops

lemma run_induction {P : Inode → Op → Env → Prop} {I : Inode → Prop}
    (hstep : ∀ w op e, I w → P w op e → I (step w op e).2) :
    ∀ (ops : List (Op × Env)) (w : Inode), I w → AllSteps P w ops → I (run w ops)
  | [], _, hw, _ => hw
  | p :: ops, w, hw, hP => run_induction hstep ops (step w p.1 p.2).2 (hstep w p.1 p.2 hw hP.1) hP.2

/-- What a run with restarts asks of its events: each request finds the store that there is and is
as `P` says of the file before it, and the file is as `D` says when its store leaves memory. -/
def Allows (P : Inode → Op → Env → Prop) (D : Inode → Prop) (w : Inode) : Event → Prop
  | .request op e => Loads w e ∧ P w op e
  | .load => True
  | .drop => D w

lemma load_current (w : Inode) : (w.next .load).current = w.current := by
  unfold Inode.next current
  dsimp only
  generalize w.file.bind MetaFile.load = loaded
  cases w.store <;> cases loaded <;> rfl

lemma load_entry (w : Inode) (b : Nat) : (w.next .load).entry b = w.entry b :=
  congrArg (Store.entry · b) (load_current w)

end

/-! ## The requests of a client -/

/-- A write of four bytes for the first block, and the range of its life. -/
def blockWrite (client : UInt32) (byte : UInt8) (guard : Option Guard) : WriteArgs :=
  ⟨0, 4, [byte, byte, byte, byte], 0, client, [client], 0, [], guard,
    (by show (4 : Nat) < 2 ^ 32; decide)⟩

def blockLife (client : UInt32) : LifeArgs := ⟨0, 1, [⟨0, client, client⟩]⟩

def finalizedOps : List (Op × Env) :=
  [(.write (blockWrite 1 1 none), .calm 1), (.finalize (blockLife 1), .calm 1)]

end Reffs.Chunk
