import Reffs.Chunk.Integrity

/-!
# Committed blocks

A committed block is meant to stay readable until another write of it is committed. There is one
entry and one place in the data for each block, and a write takes both: from then on the committed
payload is gone, and what hides this is that a pending block is not read.
-/

namespace Reffs.Chunk

open ByteCodec Inode

/-- A block that is pending or finalized has no error flag. -/
def ErrorOk (blk : Block) : Prop :=
  blk.flags.error = true → blk.state = .committed ∨ blk.state = .empty

section

variable {w : Inode} {op : Op} {e : Env} {b : Nat} {st : Nfsstat} {blk blk' : Block}

lemma ErrorOk.clear (h : ErrorOk blk) (hfinalized : blk.state = .finalized) :
    blk.flags.error = false := by
  refine Bool.eq_false_iff.mpr fun hyes => ?_
  rcases h hyes with hno | hno <;> exact absurd (hfinalized.symm.trans hno) (by decide)

/-- The steps that keep what was committed: writes go well, nothing takes the block out of its
pending state, and nobody reports an error of it. -/
structure Keeps (b : Nat) (w : Inode) (op : Op) (e : Env) : Prop where
  whole : ∀ a, op.Passes w e a → Whole w a e
  drops : ¬ op.Drops b (w.entry b)
  finalizes : ∀ a, op = .finalize a → (w.entry b).state = .pending →
    inRange a.offset a.count b = true → (w.entry b).owner ∉ a.owners
  error : ∀ a error, op = .error a error → inRange a.offset a.count b = false

/-- A committed payload, or a write over it that is still pending. -/
def Guarded (b : Nat) (owner : Owner) (p : Bytes) (w : Inode) : Prop :=
  (w.entry b).state = .pending ∨ (w.entry b).state = .committed ∧ (w.entry b).flags.error = false ∧
    (w.entry b).owner = owner ∧ w.stride ≠ 0 ∧ StoredBlock w b p

end

/-- The disk has the block as it is in memory, with the chunk size of the file. -/
def OnDisk (b : Nat) (w : Inode) : Prop :=
  w.restarted.entry b = w.entry b ∧ w.restarted.stride = w.stride

/-- The runs of `Keeps` in which the store leaves memory only while the disk has the block. -/
abbrev Safe (b : Nat) : Inode → Event → Prop := Allows (Keeps b) (OnDisk b)

lemma Guarded.congr {w w' : Inode} {b : Nat} {owner : Owner} {p : Bytes} (h : Guarded b owner p w)
    (hentry : w'.entry b = w.entry b) (hstride : w'.stride = w.stride)
    (hbytes : w'.bytes = w.bytes) : Guarded b owner p w' := by
  unfold Guarded
  rw [hentry, hstride]
  exact h.imp_right fun h => ⟨h.1, h.2.1, h.2.2.1, h.2.2.2.1,
    h.2.2.2.2.congr (congrArg Block.chunkSize hentry) hstride hbytes⟩

end Reffs.Chunk
