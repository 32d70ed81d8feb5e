import Reffs.Chunk.Changes

/-!
# The checks of an operation

Two operations write, and three others keep something of what they have done when they fail, so that
it matters how far they come. For each of these five a structure says that all its checks are
passed, and one theorem that the operation then comes to its work, and is refused if not, with
nothing changed that a client could see.
-/

namespace Reffs.Chunk

open ByteCodec Or Bool LockArgs Store Block Nat

/-- The outcome is `good` if the checks `P` are passed, and `bad` if not. -/
def Cases {α : Type} (P : Prop) (good : α) (bad : α → Prop) (x : α) : Prop :=
  P ∧ x = good ∨ ¬ P ∧ bad x

section

variable {α : Type} {P c : Prop} [Decidable c] {good x y : α} {bad : α → Prop}

lemma Cases.yes (h : P) : Cases P good bad good := inl ⟨h, rfl⟩

lemma Cases.no (hno : ¬ P) (h : bad x) : Cases P good bad x := inr ⟨hno, h⟩

lemma Cases.guard (hc : P → ¬ c) (hbad : c → bad y) (h : ¬ c → Cases P good bad x) :
    Cases P good bad (if c then y else x) := by
  split
  · next hyes => exact .no (fun hP => hc hP hyes) (hbad hyes)
  · next hno => exact h hno

end

/-- An operation that was refused: the file is as before, or its store has been loaded and is as `B`
says. -/
structure Refused (w : Inode) (B : Store → Prop) (r : Nfsstat × Inode) : Prop where
  status : r.1 ≠ .ok
  left : r.2 = w ∨ ∃ cs, B cs ∧ r.2 = { w with store := some cs }

variable {offset : UInt64} {count : UInt32}

section

variable {w : Inode} {e : Env} {B : Store → Prop} {r : Nfsstat × Inode} {st : Nfsstat} {cs : Store}
    {b : Nat}

lemma Refused.same (h : st ≠ .ok) : Refused w B (st, w) := ⟨h, inl rfl⟩

lemma Refused.loaded (h : st ≠ .ok) (hB : B cs) : Refused w B (st, { w with store := some cs }) :=
  ⟨h, inr ⟨cs, hB, rfl⟩⟩

lemma Refused.data (h : Refused w B r) : r.2.data = w.data := by
  rcases h.left with heq | ⟨cs, -, heq⟩ <;> rw [heq]

lemma Refused.bytes (h : Refused w B r) : r.2.bytes = w.bytes := by
  unfold Inode.bytes
  rw [h.data]

lemma Refused.entry (h : Refused w B r) (hB : ∀ cs, B cs → ∀ b, cs.entry b = w.entry b) (b : Nat) :
    r.2.entry b = w.entry b := by
  rcases h.left with heq | ⟨cs, hcs, heq⟩
  · rw [heq]
  · rw [heq]
    exact hB cs hcs b

lemma current_of_store (h : w.store = some cs) : w.current = cs := by
  unfold Inode.current
  rw [h]
  rfl

/-! ## Ranges -/

lemma rangeOk_of_not (h : ¬ rangeOk offset count = false) : rangeOk offset count :=
  eq_true_of_not_eq_false h

lemma range_of_check {a : LifeArgs} (h : a.check e = .ok) : rangeOk a.offset a.count := by
  grind [LifeArgs.check]

lemma LockArgs.range_of_check {a : LockArgs} (h : a.check e = .ok) : rangeOk a.offset a.count := by
  grind [check]

lemma checked_entry {check : Option Block → Nfsstat}
    (hrange : rangeOk offset count) (h : cs.checkRange offset count check = .ok)
    (hb : inRange offset count b) (hlt : b < cs.nblocks) : check (some (cs.entry b)) = .ok := by
  have hok := of_checkRange hrange h hb
  unfold lookupAny at hok
  rw [if_pos hlt, ← entry_of_lt hlt] at hok
  exact hok

lemma checkRange_iff (cs : Store) (check : Option Block → Nfsstat)
    (hnone : check none = check (some empty)) (hrange : rangeOk offset count) :
    cs.checkRange offset count check = .ok ↔
      ∀ b, inRange offset count b → check (some (cs.entry b)) = .ok := by
  have hany : ∀ b, check (cs.lookupAny b) = check (some (cs.entry b)) := by
    intro b
    cases hb : cs.lookupAny b with
    | none => rw [lookupAny_eq_none hb, hnone]
    | some blk => rw [(lookupAny_eq_some hb).2]
  refine ⟨fun h b hb => (hany b).symm.trans (of_checkRange hrange h hb), fun h => ?_⟩
  exact firstBad_of_ok fun i _ hi => (hany _).trans (h _ (inRange_blockAt hrange (by omega)))

/-! ## Writes -/

variable {a : WriteArgs}

/-- The gate of CHUNK_WRITE, as the entry decides it. -/
def gateBlock (a : WriteArgs) (i : Nat) (blk : Block) : Nfsstat :=
  if blk.flags.locked ∧ blk.lock.owner ≠ a.owner i then .chunkLocked
  else if blk.state = .empty then .ok
  else if a.guard.any (fun g => blk.genId != g.genId || blk.owner.clientId != g.clientId)
    then .delay
  else if blk.state = .pending ∧ blk.owner ≠ a.owner i then .delay
  else .ok

lemma lockedByOther_lookupAny (cs : Store) (off : Nat) (owner : Owner) :
    lockedByOther (cs.lookupAny off) owner ↔
      (cs.entry off).flags.locked ∧ (cs.entry off).lock.owner ≠ owner := by
  unfold lockedByOther
  cases hany : cs.lookupAny off with
  | none =>
    rw [lookupAny_eq_none hany]
    simp [empty, Flags.none]
  | some blk =>
    rw [← (lookupAny_eq_some hany).2]
    simp

lemma gateAt_eq (cs : Store) (i : Nat) :
    gateAt cs a i = gateBlock a i (cs.entry (blockAt a.offset i)) := by
  unfold gateAt gateBlock
  dsimp only
  simp only [lockedByOther_lookupAny]
  split
  · rfl
  · cases hl : cs.lookup (blockAt a.offset i) with
    | none => rw [if_pos (lookup_eq_none hl)]
    | some blk =>
      obtain ⟨-, rfl, hne⟩ := lookup_eq_some hl
      rw [if_neg hne]

/-- To establish the algorithm marks the store as changed; to establish the chunk size does not, and
no block shows it. -/
lemma establish_spec {cs' : Store} (h : a.establish cs = some cs') :
    (∀ b, cs'.entry b = cs.entry b) ∧ cs'.nblocks = cs.nblocks ∧
      cs'.chunkSize = (if cs.chunkSize = 0 then a.chunkSize else cs.chunkSize) ∧
      ∀ T, Progress T cs cs' := by
  unfold WriteArgs.establish at h
  dsimp only at h
  -- one of the two stores that it can be, the first as it was but for the chunk size
  have hcases :
      cs' = { cs with chunkSize := if cs.chunkSize = 0 then a.chunkSize else cs.chunkSize } ∨
      cs' = { cs with
        chunkSize := if cs.chunkSize = 0 then a.chunkSize else cs.chunkSize
        checksumAlgorithm := a.wireAlgorithm
        dirty := true } := by grind
  rcases hcases with rfl | rfl
  · refine ⟨fun _ => rfl, rfl, rfl, fun T => ⟨fun hset => if_neg hset, le_refl _, le_refl _,
      fun _ h _ => h, id, fun _ => inr ⟨fun _ => rfl, rfl, rfl, rfl, inl rfl⟩⟩⟩
  · exact ⟨fun _ => rfl, rfl, rfl, fun T => ⟨fun hset => if_neg hset, le_refl _, le_refl _,
      fun _ h _ => h, id, fun _ => inl rfl⟩⟩

/-- The store from which a write starts: as it was loaded, or with its algorithm and its chunk size
established. -/
def Established (w : Inode) (a : WriteArgs) (cs : Store) : Prop :=
  cs = w.current ∨ a.establish w.current = some cs

lemma Established.spec (h : Established w a cs) :
    (∀ b, cs.entry b = w.entry b) ∧ ∀ T, Progress T w.current cs := by
  rcases h with rfl | hest
  · exact ⟨fun _ => rfl, fun _ => .refl _⟩
  · exact ⟨(establish_spec hest).1, (establish_spec hest).2.2.2⟩

structure WritePasses (w : Inode) (a : WriteArgs) (e : Env) : Prop where
  admitted : a.check e = .ok
  store : (w.chunkStoreGet e).isSome = true
  delay : testDelayed a e w.current = false
  established : (a.establish w.current).isSome = true
  gate : ∀ i, i < a.nchunks → gateBlock a i (w.entry (blockAt a.offset i)) = .ok

structure RepairPasses (w : Inode) (a : WriteArgs) (e : Env) : Prop where
  admitted : a.check e = .ok
  store : (w.chunkStoreGet e).isSome = true
  established : (a.establish w.current).isSome = true
  lock : ∀ i, i < a.nchunks → ¬ ((w.entry (blockAt a.offset i)).flags.locked = true ∧
    (w.entry (blockAt a.offset i)).lock.owner ≠ a.owner i)

lemma chunkWrite_cases (w : Inode) (a : WriteArgs) (e : Env) [Loads w e] : Cases (WritePasses w a e)
    (writePassed w a e ((a.establish w.current).getD w.current)) (Refused w (Established w a))
    (chunkWrite w a e) := by
  unfold chunkWrite
  refine .guard (fun h => not_not.mpr h.admitted) .same fun hvalid => ?_
  cases hget : w.chunkStoreGet e with
  | none => exact .no (fun h => absurd h.store (by simp [hget])) (.same nofun)
  | some cs₀ =>
    obtain rfl := Inode.eq_current_of_get hget
    refine .guard (fun h => by simp [h.delay]) (fun _ => .loaded nofun (inl rfl)) fun hdelay => ?_
    cases hest : a.establish w.current with
    | none => exact .no (fun h => absurd h.established (by simp [hest])) (.loaded nofun (inl rfl))
    | some cs =>
      have hgate : ∀ i, gateAt cs a i = gateBlock a i (w.entry (blockAt a.offset i)) := fun i => by
        rw [gateAt_eq, (establish_spec hest).1]
        rfl
      refine .guard (fun h => not_not.mpr (firstBad_of_ok fun i _ hi => ?_))
        (fun hst => .loaded hst (inr hest)) fun hpassed => .yes ⟨not_not.mp hvalid, by simp [hget],
          eq_false_iff.mpr hdelay, by simp [hest], fun i hi => ?_⟩
      · rw [hgate]
        exact h.gate i (by omega)
      · rw [← hgate]
        exact firstBad_eq_ok (not_not.mp hpassed) i (zero_le _) (by omega)

lemma chunkWriteRepair_cases (w : Inode) (a : WriteArgs) (e : Env) [Loads w e] :
    Cases (RepairPasses w a e)
    (repairPassed w a e ((a.establish w.current).getD w.current)) (Refused w (Established w a))
    (chunkWriteRepair w a e) := by
  unfold chunkWriteRepair
  refine .guard (fun h => not_not.mpr h.admitted) .same fun hvalid => ?_
  cases hget : w.chunkStoreGet e with
  | none => exact .no (fun h => absurd h.store (by simp [hget])) (.same nofun)
  | some cs₀ =>
    obtain rfl := Inode.eq_current_of_get hget
    simp only [List.any_eq_true, List.mem_range, lockedByOther_lookupAny]
    refine .guard (fun h => fun ⟨i, hi, hother⟩ => h.lock i hi hother)
      (fun _ => .loaded nofun (inl rfl)) fun hlock => ?_
    cases hest : a.establish w.current with
    | none => exact .no (fun h => absurd h.established (by simp [hest])) (.loaded nofun (inl rfl))
    | some cs =>
      exact .yes ⟨not_not.mp hvalid,
        by simp [hget], by simp [hest], fun i hi hother => hlock ⟨i, hi, hother⟩⟩

lemma nchunks_le (a : WriteArgs) : a.nchunks ≤ 2 ^ 32 := by
  unfold WriteArgs.nchunks
  exact le_trans (div_le_self _ _) (le_of_lt (mod_lt _ (by decide)))

/-! ## Errors -/

structure ErrorPasses (w : Inode) (a : OwnerArgs) (error : Nfsstat) (e : Env) : Prop where
  file : e.file = .ok
  range : rangeOk a.offset a.count = true
  owner : cidIsReserved a.owner.clientId = false
  code : error = .payloadNotAtomic ∨ error = .io ∨ error = .inval
  trust : e.trust = .ok
  store : w.store = some w.current
  block : ∀ b, inRange a.offset a.count b = true → (w.entry b).state = .committed

lemma chunkError_cases (w : Inode) (a : OwnerArgs) (error : Nfsstat) (e : Env) :
    Cases (ErrorPasses w a error e) (errorPassed w a e w.current) (Refused w fun _ => False)
      (chunkError w a error e) := by
  unfold chunkError
  refine .guard (fun h => not_not.mpr h.file) .same fun hfile =>
    .guard (fun h => by simp [h.range, h.owner])
    (fun _ => .same nofun) fun hargs => .guard (fun h => ?_) (fun _ => .same nofun) fun hcode =>
    .guard (fun h => not_not.mpr h.trust) .same fun htrust => ?_
  · rintro ⟨h₁, h₂, h₃⟩
    exact h.code.elim h₁ fun hcode => hcode.elim h₂ h₃
  push Not at hargs
  have hrange := rangeOk_of_not hargs.1
  cases hs : w.store with
  | none => exact .no (fun h => nomatch hs.symm.trans h.store) (.same nofun)
  | some cs =>
    obtain rfl := current_of_store hs
    have hblock : ∀ blk :
        Block, (if (some blk).any (fun blk => decide (blk.state = .committed)) then
        Nfsstat.ok else .inval) = .ok ↔ blk.state = .committed := fun blk => by simp
    have hiff := checkRange_iff w.current (fun blk =>
      if blk.any (fun blk => decide (blk.state = .committed)) then .ok else .inval) rfl hrange
    simp only [hblock] at hiff
    refine .guard (fun h => not_not.mpr (hiff.mpr h.block)) .same fun hcheck =>
      .yes ⟨not_not.mp hfile, hrange, eq_false_iff.mpr hargs.2, ?_, not_not.mp htrust, hs,
        hiff.mp (not_not.mp hcheck)⟩
    by_contra hno
    push Not at hno
    exact hcode hno

lemma persisted_entry (w : Inode) (cs : Store) (file : Option MetaFile) (io : PersistIo) (b : Nat) :
    (w.persisted (cs.persist file io)).entry b = cs.entry b :=
  (persist_same cs file io).entry b

lemma ErrorPasses.entry {a : OwnerArgs} {error : Nfsstat} (h : ErrorPasses w a error e) (b : Nat) :
    (errorPassed w a e w.current).2.entry b =
      if inRange a.offset a.count b then setError true (w.entry b) else w.entry b := by
  unfold errorPassed
  dsimp only
  rw [persisted_entry]
  show (w.current.changeRange a.offset a.count (setError true)).entry b = _
  rw [changeRange_entry]
  refine if_congr (and_iff_left_of_imp fun hb => ?_) rfl rfl
  by_contra hge
  have hstate := h.block b hb
  rw [show w.entry b = empty from entry_of_le (not_lt.mp hge)] at hstate
  cases hstate

/-! ## Rollbacks -/

structure RollbackPasses (w : Inode) (a : LifeArgs) (e : Env) : Prop where
  admitted : a.check e = .ok
  store : w.store = some w.current
  lock : a.owners.any (lockConflict w.current a.offset a.count) = false

lemma chunkRollback_cases (w : Inode) (a : LifeArgs) (e : Env) :
    Cases (RollbackPasses w a e) (rollbackPassed w a e w.current) (Refused w fun _ => False)
      (chunkRollback w a e) := by
  unfold chunkRollback
  refine .guard (fun h => not_not.mpr h.admitted) .same fun hvalid => ?_
  cases hs : w.store with
  | none => exact .no (fun h => nomatch hs.symm.trans h.store) (.same nofun)
  | some cs =>
    obtain rfl := current_of_store hs
    exact .guard (fun h => eq_false_iff.mp h.lock) (fun _ => .same nofun) fun hlock =>
      .yes ⟨not_not.mp hvalid, hs, eq_false_iff.mpr hlock⟩

/-! ## Locks -/

lemma checkBlock_none (a : LockArgs) : a.checkBlock none = a.checkBlock (some empty) := by
  unfold checkBlock
  rfl

lemma installCheck_none (r : EscrowRange) : installCheck r none = installCheck r (some empty) := by
  unfold installCheck
  simp [empty, Flags.none]

structure LockPasses (w : Inode) (a : LockArgs) (e : Env) : Prop where
  admitted : a.check e = .ok
  memory : e.responseMemory = true
  store : (w.chunkStoreGet e).isSome = true
  index : a.adopts = true → ∃ cs, w.current.refreshEscrows e.indexMemory = some cs ∧
    cs.hasEscrow a.escrow = true
  block : ∀ b, inRange a.offset a.count b = true → a.checkBlock (some (w.entry b)) = .ok

/-- The store with the index in which CHUNK_LOCK looks for an escrow to adopt. -/
def LockArgs.indexed (a : LockArgs) (w : Inode) (e : Env) : Option Store :=
  if a.adopts then w.current.refreshEscrows e.indexMemory else some w.current

/-- The store is as it was loaded, but for its index. -/
structure Indexed (w : Inode) (cs : Store) : Prop where
  same : Store.SameBlocks w.current cs
  progress : ∀ T, Progress T w.current cs

lemma Indexed.refl (w : Inode) : Indexed w w.current := ⟨.refl _, fun _ => .refl _⟩

lemma Indexed.of_refresh {m : Bool} (h : w.current.refreshEscrows m = some cs) : Indexed w cs :=
  ⟨refreshEscrows_same h, fun _ => (refreshEscrows_progress h).1⟩

lemma Indexed.entry (h : Indexed w cs) (b : Nat) : cs.entry b = w.entry b := h.same.entry b

lemma LockArgs.indexed_spec {a : LockArgs} (h : a.indexed w e = some cs) : Indexed w cs := by
  unfold indexed at h
  split at h
  · exact .of_refresh h
  · cases h
    exact .refl w

lemma LockArgs.exists_indexed (a : LockArgs) (w : Inode) (e : Env) :
    ∃ cs, (a.indexed w e).getD w.current = cs ∧ Indexed w cs := by
  cases h : a.indexed w e with
  | none => exact ⟨w.current, rfl, .refl w⟩
  | some cs => exact ⟨cs, rfl, indexed_spec h⟩

lemma chunkLock_cases (w : Inode) (a : LockArgs) (e : Env) [Loads w e] : Cases (LockPasses w a e)
    (lockPassed w a e ((a.indexed w e).getD w.current)) (Refused w (Indexed w))
    (chunkLock w a e) := by
  unfold chunkLock
  refine .guard (fun h => not_not.mpr h.admitted) .same fun hvalid =>
    .guard (fun h => by simp [h.memory]) (fun _ => .same nofun) fun hmemory => ?_
  have hrange := LockArgs.range_of_check (not_not.mp hvalid)
  cases hget : w.chunkStoreGet e with
  | none => exact .no (fun h => absurd h.store (by simp [hget])) (.same nofun)
  | some cs₀ =>
    obtain rfl := Inode.eq_current_of_get hget
    have hfold : (if a.adopts then w.current.refreshEscrows e.indexMemory else some w.current) =
        a.indexed w e := rfl
    dsimp only
    rw [hfold]
    -- what an adoption asks of the index
    have hfind (h : LockPasses w a e) (hadopts : a.adopts) :
        ∃ cs, a.indexed w e = some cs ∧ cs.hasEscrow a.escrow := by
      unfold indexed
      rw [if_pos hadopts]
      exact h.index hadopts
    cases hindex : a.indexed w e with
    | none =>
      refine .no (fun h => ?_) (.loaded nofun (.refl w))
      unfold indexed at hindex
      split at hindex
      · next hadopts =>
        obtain ⟨cs, hcs, -⟩ := h.index hadopts
        exact nomatch hindex.symm.trans hcs
      · cases hindex
    | some cs =>
      have hindexed := indexed_spec hindex
      have hiff := checkRange_iff cs a.checkBlock (checkBlock_none a) hrange
      simp only [hindexed.entry] at hiff
      refine .guard (fun h hadopts => ?_) (fun _ => .loaded nofun hindexed) fun hadopts =>
        .guard (fun h => not_not.mpr (hiff.mpr h.block)) (fun hst => .loaded hst hindexed)
          fun hcheck =>
        .yes ⟨not_not.mp hvalid, eq_true_of_not_eq_false hmemory, by simp [hget], fun hyes => ?_,
          hiff.mp (not_not.mp hcheck)⟩
      · grind
      · unfold indexed at hindex
        rw [if_pos hyes] at hindex
        exact ⟨cs, hindex, eq_true_of_not_eq_false fun hno => hadopts ⟨hyes, hno⟩⟩

end

end Reffs.Chunk
