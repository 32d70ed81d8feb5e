import Reffs.Chunk.Steps

/-!
# What a read returns

CHUNK_READ answers with the blocks from its first one on, up to one that is empty or pending. Each
chunk of the answer is made from the block's entry and from the bytes at the block's place in the
data.
-/

namespace Reffs.Chunk

open Nat

def Block.Readable (blk : Block) : Prop := blk.state ≠ .empty ∧ blk.state ≠ .pending

section

variable {w : Inode} {offset : UInt64} {count : UInt32} {e : Env}

lemma current_of_loaded {cs : Store} (h : w.loaded e = some cs) : w.current = cs := by
  unfold Inode.loaded at h
  unfold Inode.current
  cases hs : w.store with
  | some cs' =>
    rw [hs] at h
    exact Option.some.inj h
  | none =>
    rw [hs, Option.none_or] at h
    split at h
    · rw [h]
      rfl
    · cases h

lemma Loads.of_store (h : w.store.isSome) : Loads w e := by
  obtain ⟨cs, hs⟩ := Option.isSome_iff_exists.mp h
  exact ⟨by rw [Inode.loaded, hs]; rfl⟩

lemma loaded_of_state [Loads w e] {b : Nat} (h : (w.entry b).state ≠ .empty) :
    w.loaded e = some w.current := by
  rw [Loads.eq]
  unfold Inode.entry at h
  unfold Inode.current at *
  cases hs : w.store with
  | some cs => rfl
  | none =>
    rw [hs] at h
    cases hl : w.file.bind MetaFile.load with
    | some cs => rfl
    | none =>
      rw [hl] at h
      exact absurd (congrArg Block.state (Store.fresh_entry b)) h

lemma available_readable (cs : Store) (offset : UInt64) : ∀ turns i j : Nat,
    j < (available cs offset turns i).1 → j < turns ∧ (cs.entry (blockAt offset (i + j))).Readable
  | 0, _, _, h => absurd h (not_lt_zero _)
  | turns + 1, i, j, h => by
    unfold available at h
    split at h
    · exact absurd h (not_lt_zero _)
    next blk hlookup =>
    obtain ⟨-, heq, hstate⟩ := Store.lookup_eq_some hlookup
    split at h
    · exact absurd h (not_lt_zero _)
    next hpending =>
    cases j with
    | zero =>
      refine ⟨succ_pos _, ?_⟩
      rw [add_zero, ← heq]
      exact ⟨hstate, hpending⟩
    | succ j =>
      have hrec := available_readable cs offset turns (i + 1) j (lt_of_succ_lt_succ h)
      rw [show i + (j + 1) = i + 1 + j by omega]
      exact ⟨succ_lt_succ hrec.1, hrec.2⟩

lemma available_pos {cs : Store} {turns i : Nat} (hturns : 0 < turns)
    (h : (cs.entry (blockAt offset i)).Readable) : 0 < (available cs offset turns i).1 := by
  obtain ⟨n, rfl⟩ := exists_eq_succ_of_ne_zero (ne_of_gt hturns)
  unfold available
  rw [Store.lookup_of_state h.1]
  dsimp only
  rw [if_neg h.2]
  exact succ_pos _

lemma readChunks_getElem {cs : Store} {rc : ReadChunk} : ∀ {turns i k : Nat},
    (readChunks w cs offset e turns i)[k]? = some rc → k < turns ∧
      rc = readChunk w cs offset e (i + k)
  | 0, _, _, h => by cases h
  | turns + 1, i, k, h => by
    unfold readChunks at h
    split at h
    · cases h
    cases k with
    | zero => exact ⟨succ_pos _, (Option.some.inj h).symm⟩
    | succ k =>
      rw [List.getElem?_cons_succ] at h
      obtain ⟨hk, hrc⟩ := readChunks_getElem h
      rw [show i + (k + 1) = i + 1 + k by omega]
      exact ⟨succ_lt_succ hk, hrc⟩

lemma chunkRead_chunk {k : Nat} {rc : ReadChunk}
    (h : (chunkRead w offset count e).2.1[k]? = some rc) :
    (w.entry (blockAt offset k)).Readable ∧ rc = readChunk w w.current offset e k := by
  unfold chunkRead at h
  iterate 4
    split at h
    · cases h
  next cs hcs =>
  dsimp only at h
  split at h
  · cases h
  split at h
  · cases h
  obtain ⟨hk, hrc⟩ := readChunks_getElem h
  have hreadable := (available_readable cs offset _ 0 k hk).2
  rw [zero_add] at hrc hreadable
  unfold Inode.entry
  rw [current_of_loaded hcs]
  exact ⟨hreadable, hrc⟩

lemma blockAt_zero (offset : UInt64) : blockAt offset 0 = offset.toNat :=
  mod_eq_of_lt offset.toNat_lt

structure Asks (count : UInt32) (e : Env) : Prop where
  file : e.file = .ok
  trust : e.trust = .ok
  count : count ≠ 0

lemma Asks.pos (h : Asks count e) : 0 < count.toNat := by
  refine pos_of_ne_zero fun h0 => h.count ?_
  exact UInt32.toNat_inj.mp h0

lemma chunkRead_first [Loads w e] (hasks : Asks count e) (hmemory : e.responseMemory)
    (hreadable : (w.entry offset.toNat).Readable)
    (hchunk : e.chunkMemory 0 ∨ (w.entry offset.toNat).flags.error) :
    ∃ rest eof, chunkRead w offset count e = (.ok, readChunk w w.current offset e 0 :: rest,
      eof) := by
  have hblock : (w.current.entry (blockAt offset 0)).Readable := by
    rw [blockAt_zero]
    exact hreadable
  have hpos := available_pos hasks.pos hblock
  unfold chunkRead
  rw [if_neg (not_not.mpr hasks.file), if_neg hasks.count, if_neg (not_not.mpr hasks.trust),
    loaded_of_state hreadable.1]
  dsimp only
  rw [if_neg (ne_of_gt hpos), hmemory, if_neg (by decide)]
  obtain ⟨n, hn⟩ := exists_eq_succ_of_ne_zero (ne_of_gt hpos)
  rw [hn]
  unfold readChunks
  rw [if_neg]
  · exact ⟨_, _, rfl⟩
  · rintro ⟨hno, herror⟩
    rw [blockAt_zero] at herror
    rcases hchunk with hyes | hyes
    · rw [hno] at hyes
      cases hyes
    · exact absurd (herror.symm.trans hyes) (by decide)

end

end Reffs.Chunk
