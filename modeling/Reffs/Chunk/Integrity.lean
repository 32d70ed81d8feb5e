import Reffs.Chunk.Reads

/-!
# The bytes of a block

A write puts its payload at `offset * chunk_size` with the chunk size of the request, and a read
takes the bytes of block `b` at `b * chunk_size` with the chunk size that the file was given by its
first write. As long as all writes use that size the blocks lie side by side, and what a read
returns is the payload of the last write that was accepted. A write with another chunk size is
admitted, and lands in the middle of other blocks.
-/

namespace Reffs.Chunk

open ByteCodec List WriteArgs Nat Inode

/-- The chunk size that a file was given by its first write; zero before. -/
def Inode.stride (w : Inode) : Nat := w.current.chunkSize.toNat

/-! ## The chunks of a payload -/

variable {i k : Nat} {p : Bytes} {last : Nat → Option Bytes}

namespace WriteArgs

variable {a : WriteArgs}

end WriteArgs

/-! ## Where the bytes go -/

section

variable {w : Inode} {op : Op} {e : Env} {b : Nat} {a : WriteArgs}

/-- A write that passes its checks goes well and keeps to the chunk size of the file. -/
structure Whole (w : Inode) (a : WriteArgs) (e : Env) : Prop where
  size : w.stride = 0 ∨ a.chunkSize.toNat = w.stride
  position : a.offset.toNat * a.chunkSize.toNat + a.chunks.length < 2 ^ 63
  io : e.data.fails = false
  stored : a.chunks.length ≤ e.data.stored
  memory : e.responseMemory = true
  grows : ∀ i, i < a.nchunks → e.growMemory i = true ∧ blockAt a.offset i ≤ maxBlocks

lemma Op.Passes.writes (h : op.Passes w e a) : op.writes = some a := by
  rcases h with ⟨rfl, -⟩ | ⟨rfl, -⟩ <;> rfl

lemma Op.Passes.admitted (h : op.Passes w e a) : a.check e = .ok := by
  rcases h with ⟨-, h⟩ | ⟨-, h⟩
  · exact h.admitted
  · exact h.admitted

structure StoredBlock (w : Inode) (b : Nat) (p : Bytes) : Prop where
  size : p.length = (w.entry b).chunkSize.toNat
  le : p.length ≤ w.stride
  bytes : ∀ k, k < p.length → w.bytes (b * w.stride + k) = p.getD k 0

/-- Each block that is there has the payload of the last write that was accepted for it. -/
structure Stored (w : Inode) (last : Nat → Option Bytes) : Prop where
  block : ∀ b, (w.entry b).state ≠ .empty → ∃ p, last b = some p ∧ StoredBlock w b p
  unset : w.stride = 0 → ∀ b, (w.entry b).state = .empty

lemma StoredBlock.congr {w' : Inode} (h : StoredBlock w b p)
    (hsize : (w'.entry b).chunkSize = (w.entry b).chunkSize) (hstride : w'.stride = w.stride)
    (hbytes : w'.bytes = w.bytes) : StoredBlock w' b p :=
  ⟨hsize ▸ h.size, hstride ▸ h.le, by rw [hstride, hbytes]; exact h.bytes⟩

lemma Stored.kept {w' : Inode} (h : Stored w last)
    (hstride : w.stride ≠ 0 → w'.stride = w.stride) (hbytes : w'.bytes = w.bytes)
    (hblock : ∀ b, (w'.entry b).chunkSize = (w.entry b).chunkSize ∧
      ((w'.entry b).state ≠ .empty → (w.entry b).state ≠ .empty)) : Stored w' last := by
  refine ⟨fun b hstate => ?_, fun hzero b => ?_⟩
  · have hold := (hblock b).2 hstate
    obtain ⟨p, hp, hstored⟩ := h.block b hold
    exact ⟨p, hp, hstored.congr (hblock b).1 (hstride fun hzero => hold (h.unset hzero b)) hbytes⟩
  · by_contra hstate
    refine (hblock b).2 hstate (h.unset ?_ b)
    by_contra hset
    exact hset ((hstride hset).symm.trans hzero)

/-- The disk has each block as it is in memory or has it empty, with the chunk size of the file. -/
structure Spared (w : Inode) : Prop where
  entry : ∀ b, w.restarted.entry b = w.entry b ∨ (w.restarted.entry b).state = .empty
  stride : w.restarted.stride = w.stride ∨ ∀ b, (w.restarted.entry b).state = .empty

lemma Stored.restart (h : Stored w last) (hspared : Spared w) : Stored w.restarted last := by
  refine ⟨fun b hstate => ?_, fun hzero b => ?_⟩
  · -- a block that the disk has empty is not asked about
    have hentry := (hspared.entry b).resolve_right hstate
    have hstride := hspared.stride.resolve_right fun hall => hstate (hall b)
    obtain ⟨p, hp, hblock⟩ := h.block b (hentry ▸ hstate)
    exact ⟨p, hp, hblock.congr (congrArg Block.chunkSize hentry) hstride rfl⟩
  · rcases hspared.stride with hstride | hall
    · rcases hspared.entry b with hentry | hempty
      · rw [hentry]
        exact h.unset (hstride.symm.trans hzero) b
      · exact hempty
    · exact hall b

end

end Reffs.Chunk
