import Reffs.Chunk.Steps

/-!
# Locked blocks

A locked block belongs to the owner triple in its lock. Each operation looks for locks in its own
way: writes look at the block of each chunk, the life cycle at every block of the range for every
owner, CHUNK_LOCK and CHUNK_UNLOCK at the fields of the lock. All of them keep others out, with one
exception that is meant: the lock of an escrow is there to be adopted.
-/

namespace Reffs.Chunk

open ByteCodec

/-- The operation has a range with block `b` in it and names an owner other than `holder` for the
block. -/
def Op.NamesOther (op : Op) (b : Nat) (holder : Owner) : Prop :=
  match op with
  | .write a | .writeRepair a => ∃ i, i < a.nchunks ∧ b = blockAt a.offset i ∧ a.owner i ≠ holder
  | .finalize a | .commit a | .rollback a =>
    inRange a.offset a.count b = true ∧ ∃ owner ∈ a.owners, owner ≠ holder
  | .error a _ | .unlock a => inRange a.offset a.count b = true ∧ a.owner ≠ holder
  | .lock a => inRange a.offset a.count b = true ∧ a.owner ≠ holder
  | _ => False

/-- CHUNK_LOCK with the flag to adopt, and the id and the exact range of the escrow that holds the
block. -/
def Op.Adopts (op : Op) (blk : Block) : Prop :=
  ∃ a, op = .lock a ∧ a.adopts = true ∧ escrowMatches (some blk) a.escrow = true

/-- What the holder of a lock can rely on. -/
structure Held (blk blk' : Block) : Prop where
  state : blk'.state = blk.state
  owner : blk'.owner = blk.owner
  locked : blk'.flags.locked = true
  lock : blk'.lock = blk.lock

lemma Held.refl {blk : Block} (h : blk.flags.locked) : Held blk blk := ⟨rfl, rfl, h, rfl⟩

section

variable {w : Inode} {e : Env} {b : Nat} {op : Op} {st : Nfsstat} {blk blk' : Block}

lemma Unlocked.eq_holder {owners : List Owner} {owner : Owner} (h : Unlocked owners blk)
    (hlocked : blk.flags.locked) (hmem : owner ∈ owners) : owner = blk.lock.owner := by
  by_contra hne
  exact h owner hmem ⟨hlocked, fun heq => hne heq.symm⟩

lemma adopts_of_check {a : LockArgs} (h : a.checkBlock (some blk) = .ok)
    (hlocked : blk.flags.locked) (hne : a.owner ≠ blk.lock.owner) :
    a.adopts ∧ escrowMatches (some blk) a.escrow := by
  unfold LockArgs.checkBlock at h
  split at h
  · grind
  · grind

lemma Change.held (h : Change op e b st blk blk') (hlocked : blk.flags.locked)
    (hother : op.NamesOther b blk.lock.owner) (hadopts : ¬ op.Adopts blk) : Held blk blk' := by
  cases h with
  | same => exact .refl hlocked
  | written a i hop hi hb hlock =>
    obtain ⟨j, hj, hbj, hne⟩ : ∃ j < a.nchunks, b = blockAt a.offset j ∧
        a.owner j ≠ blk.lock.owner := by
      cases op <;> cases hop <;> exact hother
    have hle := nchunks_le a
    obtain rfl : j = i := blockAt_inj (by omega) (by omega) (hbj.symm.trans hb)
    exact absurd (hlock.eq_holder hlocked (List.mem_singleton_self _)) hne
  | finalized a blk' hop hst hlock | committed a blk' hop hst hlock | rolledBack a blk' hop hlock =>
    subst hop
    obtain ⟨-, owner, hmem, hne⟩ := hother
    exact absurd (hlock.eq_holder hlocked hmem) hne
  | failed a error hop hrange hstate => exact ⟨rfl, rfl, hlocked, rfl⟩
  | locked a blk' hop hrange hcheck hmark =>
    obtain ⟨-, hne⟩ : inRange a.offset a.count b ∧ a.owner ≠ blk.lock.owner := by
      subst hop
      exact hother
    exact absurd ⟨a, hop, adopts_of_check hcheck hlocked hne⟩ hadopts
  | unlocked a hop hst hrange hlocked' howner =>
    subst hop
    exact absurd howner.symm hother.2
  | mended a hop | installed r blk' hop | released r hop | expired clientid blk' hop =>
    subst hop
    exact hother.elim

lemma step_bytes_of_other [Loads w e] (hlocked : (w.entry b).flags.locked)
    (hother : op.NamesOther b (w.entry b).lock.owner) : (step w op e).2.bytes = w.bytes := by
  cases hw : op.writes with
  | none => exact step_bytes hw
  | some a =>
    obtain ⟨i, hi, rfl, hne⟩ : ∃ i < a.nchunks, b = blockAt a.offset i ∧
        a.owner i ≠ (w.entry b).lock.owner := by cases op <;> cases hw <;> exact hother
    rcases write_cases (w := w) (e := e) hw with ⟨-, hrefused⟩ | ⟨hpasses, -⟩
    · exact hrefused.bytes
    · exact absurd ((hpasses.unlocked hi).eq_holder hlocked (List.mem_singleton_self _)) hne

/-- The end of a lease never takes a lock away; custody that was adopted goes back to the escrow. -/
lemma Change.locked_of_expire {clientid : UInt64} (h : Change (.expire clientid) e b st blk blk')
    (hlocked : blk.flags.locked) : blk'.flags.locked := by
  cases h with
  | same => exact hlocked
  | expired c blk' hop hexpire =>
    unfold Store.expireBlock at hexpire
    repeat' split at hexpire
    all_goals cases hexpire
    all_goals exact hlocked
  | _ => contradiction

end

/-- **A lock excludes others**: an operation that finds the store, has the block in its range and
names another owner for it changes neither the block's state, its owner and its lock nor any
payload, unless it adopts the escrow that holds the block; and no end of a lease unlocks it. -/
theorem lock_excludes (w : Inode) (e : Env) (b : Nat) (hlocked : (w.entry b).flags.locked = true) :
    (∀ op : Op, Loads w e → op.NamesOther b (w.entry b).lock.owner → ¬ op.Adopts (w.entry b) →
      Held (w.entry b) ((step w op e).2.entry b) ∧ (step w op e).2.bytes = w.bytes) ∧
    ∀ clientid : UInt64, ((step w (.expire clientid) e).2.entry b).flags.locked = true :=
  ⟨fun op _ hother hadopts => ⟨(step_change w op e b).held hlocked hother hadopts,
      step_bytes_of_other hlocked hother⟩,
    fun clientid => ((expireClient_outcome clientid).change b).locked_of_expire hlocked⟩

def firstEscrow : EscrowRange := ⟨0, 1, Vector.replicate 16 7⟩

def firstLock : LockArgs := ⟨0, 1, ⟨1, 1, 1⟩, 0, none, zeros 16⟩

def firstAdoption : LockArgs :=
  { firstLock with flags := lockFlagsAdopt, adopt := some firstEscrow.id }

def escrowedFile : Inode := (step Inode.init (.escrowInstall firstEscrow) (.calm 0)).2

theorem escrowedFile_excludes : Held (escrowedFile.entry 0)
    ((step escrowedFile (.lock firstLock) (.calm 1)).2.entry 0) := by
  have hlocked : (escrowedFile.entry 0).flags.locked := by decide +kernel
  have hother : Op.NamesOther (.lock firstLock) 0 (escrowedFile.entry 0).lock.owner :=
    ⟨by decide, by decide +kernel⟩
  refine ((lock_excludes escrowedFile (.calm 1) 0 hlocked).1 _ inferInstance hother ?_).1
  rintro ⟨a, hop, hadopts, -⟩
  obtain rfl := Op.lock.inj hop
  exact absurd hadopts (by decide)

/-- A client that names the escrow takes over its lock. -/
theorem escrow_adopted : (escrowedFile.entry 0).flags.locked = true ∧
    Op.NamesOther (.lock firstAdoption) 0 (escrowedFile.entry 0).lock.owner ∧
    (step escrowedFile (.lock firstAdoption) (.calm 1)).1 = .ok ∧
    ((step escrowedFile (.lock firstAdoption) (.calm 1)).2.entry 0).lock ≠
      (escrowedFile.entry 0).lock :=
  ⟨by decide +kernel, ⟨by decide, by decide +kernel⟩, by decide +kernel, by decide +kernel⟩

end Reffs.Chunk
