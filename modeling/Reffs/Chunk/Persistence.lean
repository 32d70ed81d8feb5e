import Reffs.Chunk.Steps

/-!
# What survives a restart

`chunk_store_persist` writes the blocks below the high-water mark, and `chunk_store_load` reads them
back under bounds of its own. An operation that has persisted its change is safe if every block that
is not empty is below the mark, if the mark is within the bound of the loader, and if no escrow
reaches beyond the mark.
-/

namespace Reffs.Chunk

open ByteCodec List Store Or Block Nat MetaFile

/-! ## Records on disk -/

@[simp] lemma ChunkState.ofWord_toWord (s : ChunkState) : ChunkState.ofWord s.toWord = s := by
  cases s <;> rfl

@[simp] lemma Flags.ofWord_toWord (f : Flags) : Flags.ofWord f.toWord = f := by
  obtain ⟨locked, repairProvenance, error, escrow⟩ := f
  cases locked <;> cases repairProvenance <;> cases error <;> cases escrow <;> rfl

lemma diskToBlock_blockToDisk {blk : Block} (h : blk.checksum.value.length ≤ valueMax) :
    diskToBlock (blockToDisk blk) = blk := by
  unfold diskToBlock blockToDisk
  simp only [ChunkState.ofWord_toWord, Flags.ofWord_toWord, take_of_length_le h]

lemma collectEscrows_spec : ∀ (blks : List Block) {acc ranges : List EscrowRange},
    collectEscrows blks acc = some ranges → acc.length ≤ maxEscrows →
      ranges.length ≤ maxEscrows ∧ ∀ r ∈ ranges, r ∈ acc ∨ ∃ blk ∈ blks, blk.flags.escrow ∧
        r = escrowRange blk ∧ escrowRangeValid r
  | [], acc, ranges, h, hlen => by
    cases h
    exact ⟨hlen, fun r hr => inl hr⟩
  | blk :: blks, acc, ranges, h, hlen => by
    -- what is found in the rest is found in the whole
    have hmore {acc' : List EscrowRange} (hrec : ranges.length ≤ maxEscrows ∧ ∀ r ∈ ranges,
        r ∈ acc' ∨ ∃ blk ∈ blks, blk.flags.escrow ∧ r = escrowRange blk ∧
          escrowRangeValid r)
        (hacc : ∀ r ∈ acc', r ∈ acc ∨ blk.flags.escrow ∧ r = escrowRange blk ∧
          escrowRangeValid r) :
        ranges.length ≤ maxEscrows ∧ ∀ r ∈ ranges, r ∈ acc ∨ ∃ blk' ∈ blk :: blks,
          blk'.flags.escrow ∧ r = escrowRange blk' ∧ escrowRangeValid r := by
      refine ⟨hrec.1, fun r hr => ?_⟩
      rcases hrec.2 r hr with hin | ⟨blk', hmem, hrest⟩
      · grind
      · exact inr ⟨blk', mem_cons_of_mem _ hmem, hrest⟩
    unfold collectEscrows at h
    split at h
    · exact hmore (collectEscrows_spec blks h hlen) fun r hr => inl hr
    next hescrow =>
    split at h
    · cases h
    next hvalid =>
    split at h
    · exact hmore (collectEscrows_spec blks h hlen) fun r hr => inl hr
    split at h
    · cases h
    · next hroom =>
      refine hmore (collectEscrows_spec blks h ?_) fun r hr => ?_
      · rw [length_append, length_singleton]
        omega
      · grind

/-! ## Stores that can be read back -/

/-- A block that a file with `hw` blocks can hold. -/
structure BlockOk (hw : Nat) (blk : Block) : Prop where
  value : blk.checksum.value.length ≤ valueMax
  locked : blk.flags.escrow = true → blk.flags.locked = true
  range : blk.flags.escrow = true ∨ blk.hasEscrowCustody = true →
    blk.lock.offset.toNat + blk.lock.count.toNat ≤ hw

/-- A store that can be read back from its file. -/
structure Sound (cs : Store) : Prop where
  bounded : cs.highWater ≤ cs.nblocks
  inFile : cs.highWater ≤ maxBlocks
  empty : ∀ b, cs.highWater ≤ b → cs.entry b = Block.empty
  block : ∀ b, BlockOk cs.highWater (cs.entry b)

lemma BlockOk.empty (hw : Nat) : BlockOk hw empty :=
  ⟨zero_le _, fun h => (nomatch h), fun h => h.elim (fun h => (nomatch h)) fun h => (nomatch h)⟩

lemma BlockOk.congr {hw hw' : Nat} {blk blk' : Block} (h : BlockOk hw blk) (hle : hw ≤ hw')
    (hvalue : blk'.checksum = blk.checksum) (hlocked : blk'.flags.locked = blk.flags.locked)
    (hescrow : blk'.flags.escrow = blk.flags.escrow) (hlock : blk'.lock = blk.lock) :
    BlockOk hw' blk' where
  value := by
    rw [hvalue]
    exact h.value
  locked := by
    rw [hescrow, hlocked]
    exact h.locked
  range := by
    unfold hasEscrowCustody
    rw [hescrow, hlocked, hlock]
    exact fun hcase => le_trans (h.range hcase) hle

lemma fresh_sound : Sound fresh where
  bounded := zero_le _
  inFile := zero_le _
  empty := fun b _ => fresh_entry b
  block := fun b => by
    rw [fresh_entry]
    exact .empty _

section

variable {cs : Store}

lemma Sound.mem_written (h : Sound cs) {blk : Block} (hmem : blk ∈ cs.written) :
    ∃ b, blk = cs.entry b := by
  unfold written at hmem
  obtain ⟨b, hb, rfl⟩ := mem_map.mp hmem
  exact ⟨b, (entry_of_lt (lt_of_lt_of_le (mem_range.mp hb) h.bounded)).symm⟩

theorem Sound.load_image (h : Sound cs) (hindex : collectEscrows cs.written [] = some cs.escrows) :
    ∃ cs', cs.image.load = some cs' ∧ (∀ b, cs'.entry b = cs.entry b) ∧ cs'.escrows = cs.escrows ∧
      cs'.highWater = cs.highWater ∧ cs'.dirty = false ∧ cs'.highWater ≤ cs'.nblocks := by
  obtain ⟨hlen, hranges⟩ := collectEscrows_spec cs.written hindex (Nat.zero_le _)
  have hblocks : cs.image.blocks.length = cs.highWater := by
    show (cs.written.map blockToDisk).length = cs.highWater
    rw [length_map, written, length_map, length_range]
  have hall : (cs.image.escrows.take cs.image.escrowCount).all (fun r => escrowRangeValid r &&
      decide (r.offset.toNat ≤ cs.image.nblocks) &&
      decide (r.count.toNat ≤ cs.image.nblocks - r.offset.toNat)) := by
    show (cs.escrows.take cs.escrows.length).all _ = true
    rw [take_length]
    refine all_eq_true.mpr fun r hr => ?_
    rcases hranges r hr with hnil | ⟨blk, hmem, hescrow, rfl, hvalid⟩
    · cases hnil
    obtain ⟨b, rfl⟩ := h.mem_written hmem
    have hrange := (h.block b).range (Or.inl hescrow)
    show (_ && decide ((cs.entry b).lock.offset.toNat ≤ cs.highWater) &&
      decide ((cs.entry b).lock.count.toNat ≤ cs.highWater - (cs.entry b).lock.offset.toNat))
    rw [hvalid, decide_eq_true (by omega), decide_eq_true (by omega)]
    rfl
  unfold MetaFile.load
  rw [if_neg (by
      show ¬ (maxBlocks < cs.highWater ∨ maxEscrows < cs.escrows.length)
      have := h.inFile
      omega),
    if_neg (by
      rw [hblocks]
      show ¬ (cs.highWater < cs.highWater ∨ cs.escrows.length < cs.escrows.length)
      omega),
    if_neg (by rw [hall]; decide)]
  refine ⟨_, rfl, fun b => ?_, take_length, rfl, rfl, Nat.le_max_left _ _⟩
  unfold entry lookupAny
  dsimp only
  by_cases hb : b < cs.highWater
  · -- the record of the block
    have hdisk : cs.image.blocks[b]? = some (blockToDisk (cs.blocks b)) := by
      show (cs.written.map blockToDisk)[b]? = _
      rw [getElem?_map, written, getElem?_map, getElem?_range hb]
      rfl
    have hlt := Nat.lt_of_lt_of_le hb h.bounded
    have hvalue := (h.block b).value
    rw [entry_of_lt hlt] at hvalue
    rw [if_pos (show b < max cs.image.nblocks initBlocks from Nat.lt_of_lt_of_le hb
      (Nat.le_max_left _ _)),
      if_pos (show b < cs.image.nblocks from hb), hdisk, if_pos hlt]
    exact diskToBlock_blockToDisk hvalue
  · have hempty := h.empty b (Nat.not_lt.mp hb)
    unfold entry lookupAny at hempty
    rw [hempty]
    split
    · exact if_neg hb
    · rfl

end

/-! ## Operations on sound stores -/

section

variable {w : Inode} {op : Op} {e : Env} {b : Nat} {st : Nfsstat} {blk blk' : Block} {hw hw' : Nat}

lemma LockArgs.mark_ok {a : LockArgs} (h : BlockOk hw blk) (hle : hw ≤ hw')
    (hcheck : a.checkBlock (some blk) = .ok) (hmark : a.mark e.session blk = some blk') :
    BlockOk hw' blk' := by
  unfold LockArgs.checkBlock at hcheck
  unfold LockArgs.mark at hmark
  by_cases hadopts : a.adopts
  · rw [if_pos hadopts] at hcheck hmark
    cases hmark
    by_cases hmatch : escrowMatches (some blk) a.escrow
    · have hall : ((blk.flags.locked ∧ blk.flags.escrow) ∧ blk.lock.owner = ownerMds) ∧
          escrowRange blk = a.escrow := by
        simpa [escrowMatches] using hmatch
      obtain ⟨⟨⟨-, hescrow⟩, -⟩, hrange⟩ := hall
      have hoffset : blk.lock.offset = a.offset := congrArg EscrowRange.offset hrange
      have hcount : blk.lock.count = a.count := congrArg EscrowRange.count hrange
      refine ⟨h.value, fun hno => (nomatch hno), fun _ => ?_⟩
      rw [← hoffset, ← hcount]
      exact le_trans (h.range (inl hescrow)) hle
    · rw [if_neg hmatch] at hcheck
      cases hcheck
  · rw [if_neg hadopts] at hmark
    split at hmark
    · cases hmark
    next hunlocked =>
    cases hmark
    -- an unlocked block has no escrow, and the lock of a client no custody
    have hescrow : ¬ blk.flags.escrow := fun hyes => hunlocked (h.locked hyes)
    refine ⟨h.value, fun _ => rfl, fun hcase => ?_⟩
    rcases hcase with hyes | hyes
    · exact absurd hyes hescrow
    · exact absurd hyes (by simp [hasEscrowCustody])

lemma lockClear_escrow (blk : Block) : (lockClear blk).flags.escrow = false := by
  grind [lockClear]

lemma lockClear_ok (h : BlockOk hw blk) : BlockOk hw' (lockClear blk) where
  value := h.value
  locked := fun hescrow => absurd (hescrow.symm.trans (lockClear_escrow blk)) (by decide)
  range := fun _ => by
    exact zero_le _

lemma rewritten_ok {a : WriteArgs} {repair : Bool} {i : Nat} (h : BlockOk hw blk) (hle : hw ≤ hw') :
    BlockOk hw' (rewritten a e repair i blk) := by
  refine ⟨?_, fun hno => (nomatch hno), fun hcase => ?_⟩
  · unfold rewritten newBlock
    dsimp only
    split
    · exact length_take_le _ _
    · exact zero_le _
  · rcases hcase with hno | hcustody
    · cases hno
    -- custody is that of the entry there was
    unfold hasEscrowCustody at hcustody
    have hheld : blk.flags.locked := (Bool.and_eq_true_iff.mp hcustody).1
    have hlock : (rewritten a e repair i blk).lock = blk.lock := if_pos hheld
    rw [hlock] at hcustody ⊢
    exact le_trans (h.range (inr hcustody)) hle

lemma Change.blockOk (h : Change op e b st blk blk') (hok : BlockOk hw blk) (hle : hw ≤ hw')
    (hinstall : ∀ r : EscrowRange, op = .escrowInstall r → st = .ok →
      ∀ b, inRange r.offset r.count b → b < hw') : BlockOk hw' blk' := by
  cases h with
  | same | failed | mended => exact hok.congr hle rfl rfl rfl rfl
  | written a i hop hi hb hlock => exact rewritten_ok hok hle
  | finalized a blk' hop hst hlock hrange hmoved | committed a blk' hop hst hlock hrange hmoved
  | rolledBack a blk' hop hlock hrange hmoved =>
    rw [hmoved.2.2.2]
    exact hok.congr hle rfl rfl rfl rfl
  | locked a blk' hop hrange hcheck hmark => exact LockArgs.mark_ok hok hle hcheck hmark
  | unlocked | released => exact lockClear_ok hok
  | installed r blk' hop hst hrange hcheck hmark =>
    unfold installMark at hmark
    split at hmark
    · cases hmark
    · cases hmark
      refine ⟨hok.value, fun _ => rfl, fun _ => ?_⟩
      -- the last block of the range is below the mark
      have hin := inRange_iff.mp hrange
      have hlast := hinstall r hop hst (r.offset.toNat + r.count.toNat - 1)
        (inRange_iff.mpr ⟨by omega, by omega⟩)
      show r.offset.toNat + r.count.toNat ≤ hw'
      omega
  | expired clientid blk' hop hexpire =>
    unfold expireBlock at hexpire
    split at hexpire
    · cases hexpire
    split at hexpire
    · cases hexpire
    split at hexpire
    · next hcustody =>
      cases hexpire
      refine ⟨hok.value, fun _ => ?_, fun _ => le_trans (hok.range (inr hcustody)) hle⟩
      exact (Bool.and_eq_true_iff.mp hcustody).1
    split at hexpire
    · cases hexpire
      exact hok.congr hle rfl rfl rfl rfl
    · cases hexpire

lemma Change.of_empty (h : Change op e b st empty blk') (hclaims : ¬ op.Claims b) :
    blk' = empty := by
  cases h with
  | same => rfl
  | written a i hop hi hb hlock =>
    refine absurd ?_ hclaims
    cases op <;> cases hop <;> exact ⟨i, hi, hb⟩
  | finalized a blk' hop hst hlock hrange hmoved | committed a blk' hop hst hlock hrange hmoved =>
    exact absurd hmoved.2.2.1 nofun
  | rolledBack a blk' hop hlock hrange hback => exact hback.2.2.1.elim nofun nofun
  | failed a error hop hrange hstate | mended a hop hst hrange hstate => cases hstate
  | locked a blk' hop hrange | installed r blk' hop hst hrange =>
    subst hop
    exact absurd hrange hclaims
  | unlocked a hop hst hrange hlocked howner => cases hlocked
  | released r hop hst hrange hmatch => simp [escrowMatches, empty, Flags.none] at hmatch
  | expired clientid blk' hop hexpire =>
    have hsame := expireBlock_empty clientid
    rw [hexpire] at hsame
    exact hsame

/-- The operation keeps to the blocks that a file can have, and CHUNK_LOCK to blocks below the mark.
-/
structure Fits (w : Inode) (op : Op) : Prop where
  inFile : ∀ b, op.Claims b → b < maxBlocks
  reaches : ∀ a, op = .lock a → w.current.Reaches a.offset 0 a.count.toNat

lemma Sound.congr {cs cs' : Store} (h : Sound cs) (hentry : ∀ b, cs'.entry b = cs.entry b)
    (hhw : cs'.highWater = cs.highWater) (hb : cs'.highWater ≤ cs'.nblocks) : Sound cs' where
  bounded := hb
  inFile := hhw.trans_le h.inFile
  empty := fun b hge => (hentry b).trans (h.empty b (by omega))
  block := fun b => by
    rw [hentry, hhw]
    exact h.block b

lemma Sound.same {cs cs' : Store} (h : Sound cs) (hsame : Store.SameBlocks cs cs') : Sound cs' :=
  h.congr hsame.entry hsame.highWater (by rw [hsame.highWater, hsame.nblocks]; exact h.bounded)

lemma Leaves.sound {cs : Store} (h : Leaves w op e st cs) (hsound : Sound w.current)
    (hfits : Fits w op) : Sound cs := by
  have hprogress := h.progress
  refine ⟨hprogress.bounded hsound.bounded, hprogress.high _ hsound.inFile hfits.inFile,
    fun b hb => ?_,
    fun b => (h.change b).blockOk (hsound.block b) hprogress.highWater fun r hop hst b hb =>
      h.low hfits.reaches b (by subst hop; exact hb) (inl hst)⟩
  -- a block beyond the mark was beyond it before
  have hold : w.entry b = empty := hsound.empty b (hprogress.highWater.trans hb)
  by_contra hne
  by_cases hclaims : op.Claims b
  · have := h.low hfits.reaches b hclaims (inr (by rw [hold]; exact hne))
    omega
  · have hchange := h.change b
    rw [hold] at hchange
    exact hne (hchange.of_empty hclaims)

end

/-! ## Restarts -/

/-- What holds between the store in memory and the file on disk. -/
structure Durable (w : Inode) : Prop where
  sound : Sound w.current
  disk : Sound w.restarted.current
  index : Store.collectEscrows w.restarted.current.written [] = some w.restarted.current.escrows
  saved : w.current.dirty = false → (∀ b, w.restarted.entry b = w.entry b) ∧
    w.restarted.current.highWater = w.current.highWater ∧
    Store.collectEscrows w.current.written [] = some w.current.escrows

section

variable {w : Inode} {cs cs' : Store}

lemma current_clean (h : w.store = none) : w.current.dirty = false := by
  unfold Inode.current
  rw [h]
  cases hl : w.file.bind load with
  | none => rfl
  | some cs =>
    obtain ⟨m, -, hm⟩ := Option.bind_eq_some_iff.mp hl
    unfold load at hm
    split at hm
    · cases hm
    split at hm
    · cases hm
    split at hm
    · cases hm
    · cases hm
      rfl

lemma init_durable : Durable Inode.init :=
  ⟨fresh_sound, fresh_sound, rfl, fun _ => ⟨fun _ => rfl, rfl, rfl⟩⟩

lemma Durable.restart (h : Durable w) : Durable w.restarted :=
  ⟨h.disk, h.disk, h.index, fun _ => ⟨fun _ => rfl, rfl, h.index⟩⟩

lemma Durable.load (h : Durable w) : Durable (w.next .load) := by
  obtain ⟨hsound, hdisk, hindex, hsaved⟩ := h
  unfold Inode.entry at hsaved
  rw [← load_current w] at hsound hsaved
  exact ⟨hsound, hdisk, hindex, hsaved⟩

lemma Durable.kept (h : Durable w) (data : Option (Nat → UInt8)) (hsound : Sound cs)
    (hdirty : cs.dirty ∨ Kept w.current cs) :
    Durable { w with store := some cs, data := data } where
  sound := hsound
  disk := h.disk
  index := h.index
  saved := by
    intro hclean
    have hclean' : cs.dirty = false := hclean
    rcases hdirty with hyes | hkept
    · rw [hclean'] at hyes
      cases hyes
    obtain ⟨hentry, hhw, hindex⟩ := h.saved (hkept.dirty.symm.trans hclean')
    refine ⟨fun b => (hentry b).trans (hkept.entry b).symm, hhw.trans hkept.highWater.symm, ?_⟩
    show collectEscrows cs.written [] = some cs.escrows
    rcases hkept.escrows with hsame | hnew
    · rw [hkept.written, hsame]
      exact hindex
    · exact hnew

lemma Durable.persisted {io : PersistIo} (h : Durable w) (hsound : Sound cs)
    (hdirty : cs.dirty ∨ Kept w.current cs) (hdone : (cs.persist w.file io).1) :
    Durable (w.persisted (cs.persist w.file io)) ∧
      (w.persisted (cs.persist w.file io)).current.dirty = false := by
  unfold persist at hdone ⊢
  split at hdone
  · next hclean =>
    rw [if_pos hclean]
    exact ⟨h.kept w.data hsound hdirty, hclean⟩
  next hnot =>
  rw [if_neg hnot]
  cases hindex : cs.refreshEscrows io.memory with
  | none =>
    rw [hindex] at hdone
    cases hdone
  | some cs' =>
    rw [hindex] at hdone
    dsimp only at hdone ⊢
    split at hdone
    · next hdisk =>
      rw [if_pos hdisk]
      refine ⟨?_, rfl⟩
      have hsame := refreshEscrows_same hindex
      have hsound' := hsound.same hsame
      have hcollect : collectEscrows cs'.written [] = some cs'.escrows := by
        have hwritten : cs'.written = cs.written := by
          grind [written, hsame.blocks, hsame.highWater]
        rw [hwritten]
        exact (@refreshEscrows_progress (fun _ => True) _ _ _ hindex).2.2
      -- what a restart finds is what has been written
      obtain ⟨loaded, hload, hentry, hescrows, hhw, -, hb⟩ := hsound'.load_image hcollect
      have hcur : ∀ store,
          (({ store := store, file := some cs'.image, data := w.data } : Inode).restarted).current
          = loaded := by
        intro store
        show ((some cs'.image).bind MetaFile.load).getD fresh = loaded
        rw [Option.bind_some, hload]
        rfl
      have hloaded : Sound loaded := hsound'.congr hentry hhw hb
      have hwritten : loaded.written = cs'.written := written_congr hhw hsound'.bounded hb hentry
      unfold Inode.persisted
      refine ⟨hsound'.congr (fun _ => rfl) rfl hsound'.bounded, ?_, ?_,
        fun _ => ⟨fun b => ?_, ?_, hcollect⟩⟩
      · rw [hcur]
        exact hloaded
      · rw [hcur, hwritten, hescrows]
        exact hcollect
      · unfold Inode.entry
        rw [hcur]
        exact hentry b
      · rw [hcur]
        exact hhw
    · cases hdone

end

section

variable {w : Inode} {op : Op} {e : Env}

/-- The relation between memory and disk is kept, and nothing is left to persist when an operation
that persists has succeeded. -/
lemma step_durable [Loads w e] (h : Durable w) (hfits : Fits w op) : Durable (step w op e).2 ∧
    ((step w op e).1 = .ok → op.writes = none → ¬ op.Idle →
      (step w op e).2.current.dirty = false) := by
  have hout := step_outcome w op e
  generalize step w op e = r at hout
  cases hout with
  | same st hok =>
    exact ⟨h, fun hst _ hidle => (hok hst).1.elim (current_clean ·.1) (absurd · hidle)⟩
  | kept st cs data hleaves hdata hok =>
    exact ⟨h.kept data (hleaves.sound h.sound hfits) (hleaves.progress.dirty h.sound.bounded),
      fun hst hw hidle => (hok hst).elim (absurd · hidle) (absurd hw ·)⟩
  | saved cs io hleaves hdone =>
    obtain ⟨hdurable, hclean⟩ := h.persisted (hleaves.sound h.sound hfits)
      (hleaves.progress.dirty h.sound.bounded) hdone
    exact ⟨hdurable, fun _ _ _ => hclean⟩

end

/-- The files that operations, reads and restarts lead to, where each operation fits and finds the
store. -/
inductive Reachable : Inode → Prop where
  | init : Reachable Inode.init
  | step (w : Inode) (op : Op) (e : Env) (h : Reachable w) (hload : Loads w e) (hfits : Fits w op) :
      Reachable (Chunk.step w op e).2
  | load (w : Inode) (h : Reachable w) : Reachable (w.next .load)
  | restart (w : Inode) (h : Reachable w) : Reachable w.restarted

lemma Reachable.durable {w : Inode} (h : Reachable w) : Durable w := by
  induction h with
  | init => exact init_durable
  | step w op e h hload hfits ih => exact (step_durable ih hfits).1
  | load w h ih => exact ih.load
  | restart w h ih => exact ih.restart

end Reffs.Chunk
