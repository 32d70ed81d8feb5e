import Reffs.D1.Apply
import Reffs.D1.Change.Ordinary
import Reffs.D1.Undo.Ordinary

/-!
# The reducers move the board

Every reducer that answers `OK`, and every refusal that keeps what it did, makes a move of the board
(`Board.Step`). The numbers a move asks to be fresh come from counters, which stay above every
number in use (`Numbered`); a counter advances by at most `batchEntriesMax` for each receipt, so it
cannot wrap.
-/

namespace Reffs.D1

open SlotTable

variable {objects : Table maxObjects Object} {s : ObjectSlot} {o : Object} {core : Core}

/-! ## Counters -/

/-- Every number in use is below its counter, and the counters are bounded by the number `n` of
receipts that were written. -/
structure Numbered (c : Core) (n : Nat) : Prop where
  txn : ∀ ti t, c.txns ti = some t → t.id.toNat < c.nextTxn.toNat
  member : ∀ ri r m, c.repairs ri = some r → m ∈ r.members → m.txn.toNat < c.nextTxn.toNat
  repair : ∀ ri r, c.repairs ri = some r → r.id.toNat < c.nextRepair.toNat
  nextTxn : 1 ≤ c.nextTxn.toNat ∧ c.nextTxn.toNat ≤ 1 + batchEntriesMax * n
  nextRepair : 1 ≤ c.nextRepair.toNat ∧ c.nextRepair.toNat ≤ 1 + n

variable {c : Core} {n : Nat}

namespace Numbered

variable (h : Numbered c n)

include h

lemma mono {m : Nat} (hnm : n ≤ m) : Numbered c m :=
  { h with
    nextTxn := ⟨h.nextTxn.1, h.nextTxn.2.trans (by gcongr)⟩
    nextRepair := ⟨h.nextRepair.1, h.nextRepair.2.trans (by omega)⟩ }

lemma succ : Numbered c (n + 1) :=
  h.mono (Nat.le_succ n)

lemma fresh_of {id : UInt64} (hid : c.nextTxn.toNat ≤ id.toNat) : c.board.Fresh id := by
  refine ⟨fun h0 => ?_, fun ti t ht he => ?_, fun ri r m hr hm he => ?_⟩
  · have := h.nextTxn.1.trans hid
    rw [h0] at this
    exact absurd this (by decide)
  · exact absurd (congrArg UInt64.toNat he) ((h.txn ti t ht).trans_le hid).ne
  · exact absurd (congrArg UInt64.toNat he) ((h.member ri r m hr hm).trans_le hid).ne

lemma fresh : c.board.Fresh c.nextTxn :=
  h.fresh_of le_rfl

lemma nextTxn_succ (hn : n ≤ maxReceipts) : (c.nextTxn + 1).toNat = c.nextTxn.toNat + 1 := by
  have hle : c.nextTxn.toNat ≤ 1 + batchEntriesMax * maxReceipts := h.nextTxn.2.trans (by gcongr)
  exact toNat_succ hle (by decide)

lemma nextRepair_succ (hn : n ≤ maxReceipts) : (c.nextRepair + 1).toNat = c.nextRepair.toNat + 1 :=
  toNat_succ (h.nextRepair.2.trans (Nat.add_le_add_left hn 1)) (by decide)

lemma nextTxn_room {k : Nat} (hn : n ≤ maxReceipts)
    (hk : k ≤ batchEntriesMax) : c.nextTxn.toNat + k < 2 ^ 64 := by
  have hle : c.nextTxn.toNat ≤ 1 + batchEntriesMax * maxReceipts := h.nextTxn.2.trans (by gcongr)
  calc c.nextTxn.toNat + k
      ≤ 1 + batchEntriesMax * maxReceipts + batchEntriesMax := Nat.add_le_add hle hk
    _ < 2 ^ 64 := by decide

end Numbered

/-! ## Chunks -/

section

variable (h : objects s = some o) (i : ChunkIndex)

include h

lemma chunkAt_of : chunkAt objects s i = o.chunks i := by
  simp [chunkAt, getChunk, h]

lemma chunkAt_modifyChunk (f : Chunk → Chunk) :
    chunkAt (modifyChunk objects s i f) =
      putChunk (chunkAt objects) s i (f (chunkAt objects s i)) := by
  grind [chunkAt, getChunk, getChunk_modifyChunk, putChunk]

lemma chunkAt_setChunk (ch : Chunk) :
    chunkAt (setChunk objects s i ch) = putChunk (chunkAt objects) s i ch :=
  chunkAt_modifyChunk h i fun _ => ch

end

lemma chunkAt_objectGet {key : ObjKey} {fresh : Bool}
    (h : objectGet c key = some (s, o, fresh, objects)) :
    chunkAt objects = chunkAt c.objects ∧ objects s = some o := by
  rcases objectGet_spec h with ⟨rfl, rfl, hs, -⟩ | ⟨rfl, rfl, hs, rfl, -⟩
  · exact ⟨rfl, hs⟩
  · refine ⟨?_, Table.set_self _ _ _⟩
    funext s' i
    by_cases he : s' = s
    · subst he
      simp [chunkAt, getChunk, hs, Object.fresh]
    · simp [chunkAt, getChunk, Table.set_ne he]

/-! ## Ordinary members -/

section

variable {c : Core} {n : Nat}

lemma Numbered.addTxn (h : Numbered c n) (hn : n ≤ maxReceipts) {ti : Fin maxTxns} {row : Txn}
    (hid : row.id = c.nextTxn) (htxns : core.txns = c.txns.set ti row)
    (hnext : core.nextTxn = c.nextTxn + 1) (hrep : core.repairs = c.repairs)
    (hnrep : core.nextRepair = c.nextRepair) : Numbered core (n + 1) := by
  have hsucc := h.nextTxn_succ hn
  refine ⟨?_, ?_, ?_, ?_, ?_⟩
  · intro tj t ht
    rw [htxns, Table.set_apply] at ht
    rw [hnext, hsucc]
    split at ht
    · cases ht
      rw [hid]
      omega
    · exact (h.txn tj t ht).trans (Nat.lt_succ_self _)
  · intro ri r m hr hm
    rw [hrep] at hr
    rw [hnext, hsucc]
    exact (h.member ri r m hr hm).trans (Nat.lt_succ_self _)
  · intro ri r hr
    rw [hrep] at hr
    rw [hnrep]
    exact h.repair ri r hr
  · rw [hnext, hsucc, Nat.mul_succ]
    have := h.nextTxn
    have : 1 ≤ batchEntriesMax := by decide
    omega
  · rw [hnrep]
    have := h.nextRepair
    omega

lemma Numbered.rows (h : Numbered c n) (hrows : RowsKept c.txns core.txns)
    (hnext : core.nextTxn = c.nextTxn) (hrep : core.repairs = c.repairs)
    (hnrep : core.nextRepair = c.nextRepair) : Numbered core n := by
  refine ⟨?_, ?_, ?_, by rw [hnext]; exact h.nextTxn, by rw [hnrep]; exact h.nextRepair⟩
  · intro tj t ht
    obtain ⟨u, hu, hid, -⟩ := hrows tj t ht
    rw [hnext, ← hid]
    exact h.txn tj u hu
  · intro ri r m hr hm
    rw [hrep] at hr
    rw [hnext]
    exact h.member ri r m hr hm
  · intro ri r hr
    rw [hrep] at hr
    rw [hnrep]
    exact h.repair ri r hr

lemma txnSet_rowsKept {txns : Table maxTxns Txn} {ti : Fin maxTxns} {t t' : Txn}
    (ht : txns ti = some t) (hid : t.id = t'.id) (hmode : t.mode = t'.mode) :
    RowsKept txns (txns.set ti t') := by
  grind

lemma writeChunkCheck_none {ch : Chunk} {e : WriteEntry} (h : writeChunkCheck ch e = none) :
    chunkWritable ch ∧ guardAccepts e.expected ch.guard ∧ ch.pending = none := by
  unfold writeChunkCheck at h
  split at h
  · cases h
  next hw =>
  split at h
  · cases h
  next hg =>
  split at h
  · cases h
  next hp => exact ⟨by simpa using hw, by simpa using hg, by simpa using hp⟩

theorem OrdinaryChange.sound {env : Envelope UInt64} {ordinal : Nat} {a : Admission}
    {status : Status}
    (h : Numbered c n) (hn : n ≤ maxReceipts) (hc : OrdinaryChange c env ordinal a status core) :
    c.board.Step .ordinary core.board ∧ Numbered core (n + 1) := by
  cases hc with
  | @write w e s o fresh objects i guard ti vi ai activate body entry form unowned get index check
      next txn version assoc =>
      obtain ⟨hsame, hs⟩ := chunkAt_objectGet get
      obtain ⟨hw, -, hp⟩ := writeChunkCheck_none check
      have hti := Table.spare_some txn
      have hch : chunkAt c.objects s i = o.chunks i := by rw [← hsame]; exact chunkAt_of hs i
      refine ⟨?_, h.addTxn hn rfl rfl rfl rfl rfl⟩
      simp only [Core.board, chunkAt_setChunk hs, hsame]
      have hw' : chunkWritable (c.board.chunk s i) := (congrArg chunkWritable hch).trans hw
      have hp' : (c.board.chunk s i).pending = none := (congrArg Chunk.pending hch).trans hp
      cases activate with
      | false =>
        simp only [writtenChunk, Bool.false_eq_true, if_false, ← hch]
        refine .write (b := c.board) guard hti ?_ h.fresh ?_ ?_ ?_ ?_ hw' hp'
        · rfl
        · exact ⟨rfl, rfl⟩
        · rfl
        · rfl
        · rfl
      | true =>
        simp only [writtenChunk, if_true, ← hch]
        refine .activate (b := c.board) guard _ hti ?_ ?_ ?_ hw' hp'
        · exact h.fresh
        · rfl
        · rfl
  | finalize body row staged admission =>
    refine ⟨.finalize (b := c.board) row staged,
      h.succ.rows (txnSet_rowsKept row ?_ ?_) rfl rfl rfl⟩
    · rfl
    · rfl
  | commit body row staged admission object version number =>
    refine ⟨?_, h.succ.rows (txnSet_rowsKept row ?_ ?_) rfl rfl rfl⟩
    · simp only [Core.board, chunkAt_setChunk object, ← chunkAt_of object]
      exact .commit (b := c.board) _ row staged
    · rfl
    · rfl
  | rollback body entry found staged admission right object =>
    have row := (findById_some found).1
    refine ⟨?_, h.succ.rows (txnSet_rowsKept row ?_ ?_) rfl rfl rfl⟩
    · simp only [Core.board, chunkAt_setChunk object, ← chunkAt_of object]
      exact .rollback (b := c.board) _ row staged
    · rfl
    · rfl
  | @rollbackCommitted r e ti t o vi pi ver pred body entry found phase right object
      writable pending
      visible version number predecessor pointer =>
      have row := (findById_some found).1
      refine ⟨?_, h.succ.rows (txnSet_rowsKept row ?_ ?_) rfl rfl rfl⟩
      · have hch := chunkAt_of object t.index
        simp only [Core.board, chunkAt_setChunk object, ← hch]
        refine .rollbackCommitted (b := c.board) _ row phase ?_ ?_
        · exact (congrArg chunkWritable hch).trans writable
        · exact (congrArg Chunk.pending hch).trans pending
      · rfl
      · rfl
  | postcond body slot => exact ⟨.idle _, { h.succ with }⟩

end

end Reffs.D1
