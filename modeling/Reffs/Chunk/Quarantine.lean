import Reffs.Chunk.Reads

/-!
# Blocks with an error

CHUNK_ERROR flags committed blocks, and a read of a flagged block says so in place of its bytes,
until CHUNK_REPAIRED clears the flag. The flag is part of what a write rebuilds from scratch: it
goes with the first write that passes its checks, and CHUNK_REPAIRED, which asks for it, then never
succeeds after the repair it is meant to confirm.
-/

namespace Reffs.Chunk

def Block.Flagged (blk : Block) : Prop := blk.state = .committed ∧ blk.flags.error = true

/-- Every chunk that a read returns for the block has the status of an error, and a read that starts
at the block returns one. -/
structure ReadsErroneous (w : Inode) (b : UInt64) : Prop where
  marked : ∀ (offset : UInt64) (count : UInt32) (e : Env) (k : Nat) (rc : ReadChunk),
    blockAt offset k = b.toNat → (chunkRead w offset count e).2.1[k]? = some rc →
      rc.status = .payloadNotAtomic
  found : ∀ (count : UInt32) (e : Env), Asks count e → e.responseMemory = true →
    ∃ rc rest eof, chunkRead w b count e = (.ok, rc :: rest, eof) ∧ rc.status = .payloadNotAtomic

def Op.Mends (op : Op) (b : Nat) : Prop := ∃ a, op = .repaired a ∧ inRange a.offset a.count b = true

section

variable {w : Inode} {e : Env} {b : Nat}

lemma Block.Flagged.readable {blk : Block} (h : blk.Flagged) : blk.Readable := by
  refine ⟨?_, ?_⟩ <;> rw [h.1] <;> decide

lemma readChunk_status {cs : Store} {offset : UInt64} {k : Nat}
    (h : (cs.entry (blockAt offset k)).flags.error) :
    (readChunk w cs offset e k).status = .payloadNotAtomic := by
  unfold readChunk
  dsimp only
  rw [if_pos h]

lemma readsErroneous_of_flagged {b : UInt64} (hstore : w.store.isSome)
    (h : (w.entry b.toNat).Flagged) : ReadsErroneous w b where
  marked := by
    intro offset count e k rc hb hrc
    obtain ⟨-, rfl⟩ := chunkRead_chunk hrc
    refine readChunk_status ?_
    rw [hb]
    exact h.2
  found := by
    intro count e hasks hmemory
    have := Loads.of_store (e := e) hstore
    obtain ⟨rest, eof, heq⟩ := chunkRead_first hasks hmemory h.readable (Or.inr h.2)
    refine ⟨_, rest, eof, heq, readChunk_status ?_⟩
    rw [blockAt_zero]
    exact h.2

lemma chunkError_flags {a : OwnerArgs} {error : Nfsstat} (h : (chunkError w a error e).1 = .ok)
    (hb : inRange a.offset a.count b) : (chunkError w a error e).2.store.isSome ∧
      ((chunkError w a error e).2.entry b).Flagged := by
  rcases chunkError_cases w a error e with ⟨hpasses, heq⟩ | ⟨-, hrefused⟩
  · rw [heq, hpasses.entry, if_pos hb]
    exact ⟨rfl, hpasses.block b hb, rfl⟩
  · exact absurd h hrefused.status

/-- A repair that is accepted leaves the store in memory and its blocks without a flag, whether or
not the store could be loaded. -/
lemma chunkWriteRepair_clears {a : WriteArgs} {i : Nat} (h : (chunkWriteRepair w a e).1 = .ok)
    (hi : i < a.nchunks) : (chunkWriteRepair w a e).2.store.isSome ∧
      ((chunkWriteRepair w a e).2.entry (blockAt a.offset i)).flags.error = false := by
  -- the repair of the file with the store that it finds
  obtain ⟨cs, hcs⟩ :
      ∃ cs, chunkWriteRepair w a e = chunkWriteRepair { w with store := some cs } a e := by
    unfold chunkWriteRepair at h ⊢
    split at h
    · next hbad => exact absurd h hbad
    next hgood =>
    cases hget : w.chunkStoreGet e with
    | none =>
      rw [hget] at h
      cases h
    | some cs => exact ⟨cs, by rw [if_neg hgood, if_neg hgood]; rfl⟩
  have := Loads.of_store (w := { w with store := some cs }) (e := e) rfl
  rw [hcs] at h ⊢
  refine ⟨step_store (.writeRepair a) rfl, ?_⟩
  exact congrArg (·.flags.error)
    ((step_accepted (rfl : (Op.writeRepair a).writes = some a) h).2.entry i hi)

lemma Effect.error_of_lifecycle {op : Op} {st : Nfsstat} {blk blk' : Block}
    (hop : (∃ a, op = .finalize a) ∨ ∃ a, op = .commit a) (h : Effect op e b st blk blk') :
    blk'.flags.error = blk.flags.error := by
  cases h with
  | held blk' hlock => exact hlock.error
  | finalized | committed | dropped => rfl
  | rewritten _ _ _ hop' | failed _ _ hop' | mended _ hop' =>
    rcases hop with ⟨a, rfl⟩ | ⟨a, rfl⟩ <;> cases hop'

lemma chunkRepaired_flagged {a : OwnerArgs} (h : (chunkRepaired w a e).1 = .ok)
    (hb : inRange a.offset a.count b) : (w.entry b).flags.error := by
  unfold chunkRepaired at h
  split at h
  · next hfile => exact absurd h hfile
  split at h
  · cases h
  split at h
  · next htrust => exact absurd h htrust
  split at h
  · cases h
  split at h
  · next hzero =>
    rw [hzero, inRange_iff] at hb
    have : (0 : UInt32).toNat = 0 := rfl
    omega
  split at h
  · cases h
  next hrange =>
  split at h
  · cases h
  next cs hs =>
  obtain rfl := current_of_store hs
  dsimp only at h
  split at h
  · next hcheck => exact absurd h hcheck
  next hcheck =>
  have hok := (checkRange_iff w.current _ rfl (rangeOk_of_not hrange)).mp (not_not.mp hcheck) b hb
  simp only [Option.any_some, ite_eq_left_iff, Bool.and_eq_true, reduceCtorEq, imp_false,
    not_not] at hok
  exact hok.2

/-- A flagged block stays so through every operation that neither writes it anew nor is a
CHUNK_REPAIRED that succeeds for it. -/
lemma step_flagged [Loads w e] {op : Op} (hflag : (w.entry b).Flagged)
    (hrewrites : ¬ op.Rewrites w e b)
    (hmends : ¬ ((step w op e).1 = .ok ∧ op.Mends b)) : ((step w op e).2.entry b).Flagged := by
  cases hw : op.writes with
  | some a =>
    rw [entry_of_not_rewrites hw hrewrites]
    exact hflag
  | none =>
    have heffect := step_effect w op e b
    generalize (step w op e).1 = st at heffect hmends
    generalize (step w op e).2.entry b = blk' at heffect
    cases heffect with
    | held blk' hlock => exact ⟨hlock.state.trans hflag.1, hlock.error.trans hflag.2⟩
    | rewritten a repair i hop hi hb => exact absurd (hw.symm.trans hop) nofun
    | finalized a hop hrange howner hstate
    | committed a hop hstate => exact absurd (hflag.1.symm.trans hstate) (by decide)
    | dropped hdrops =>
      rcases hdrops.1 with hstate | hstate <;> exact absurd (hflag.1.symm.trans hstate) (by decide)
    | failed a error hop hrange hstate => exact ⟨hstate, rfl⟩
    | mended a hop hst hrange hstate herror => exact absurd ⟨hst, a, hop, hrange⟩ hmends

end

def blockRange : OwnerArgs := ⟨0, 1, ⟨0, 1, 1⟩⟩

def flaggedOps : List (Op × Env) := finalizedOps ++ [(.commit (blockLife 1), .calm 1)]

def repairOps : List (Op × Env) :=
  [(.writeRepair (blockWrite 1 1 none), .calm 1), (.finalize (blockLife 1), .calm 1),
    (.commit (blockLife 1), .calm 1)]

/-- **Quarantine**: a block that CHUNK_ERROR has flagged reads as erroneous after every run in which
no CHUNK_WRITE or CHUNK_WRITE_REPAIR for the block passes its checks and no CHUNK_REPAIRED succeeds
for it. The repair itself is such a write, so that CHUNK_REPAIRED never succeeds behind one. -/
theorem quarantine_until_write (w : Inode) :
    (∀ (a : OwnerArgs) (error : Nfsstat) (e : Env) (b : UInt64) (ops : List (Op × Env)),
      (step w (.error a error) e).1 = .ok → inRange a.offset a.count b.toNat = true →
      AllSteps (fun w op e => ¬ op.Rewrites w e b.toNat ∧
        ¬ ((step w op e).1 = .ok ∧ op.Mends b.toNat)) (step w (.error a error) e).2 ops →
      ReadsErroneous (run (step w (.error a error) e).2 ops) b) ∧
    ∀ (a : WriteArgs) (f c : LifeArgs) (r : OwnerArgs) (e₁ e₂ e₃ e₄ : Env) (b : Nat),
      a.Covers b → inRange r.offset r.count b = true →
      statuses w [(.writeRepair a, e₁), (.finalize f, e₂), (.commit c, e₃)] = [.ok, .ok, .ok] →
      (step (run w [(.writeRepair a, e₁), (.finalize f, e₂), (.commit c, e₃)]) (.repaired r) e₄).1 ≠
        .ok := by
  constructor
  · intro a error e b ops hok hb hops
    have hend := run_induction (I := fun w => w.store.isSome ∧ (w.entry b.toNat).Flagged)
      (fun w op e h hstep => by
        have := Loads.of_store (e := e) h.1
        exact ⟨step_store op h.1, step_flagged h.2 hstep.1 hstep.2⟩) ops _
          (chunkError_flags hok hb) hops
    exact readsErroneous_of_flagged hend.1 hend.2
  · intro a f c r e₁ e₂ e₃ e₄ b hcovers hb hstatuses hok
    obtain ⟨i, hi, rfl⟩ := hcovers
    have herror := chunkRepaired_flagged hok hb
    -- the write has left no flag, and neither move sets one
    have hwrite : (step w (.writeRepair a) e₁).1 = .ok := List.head_eq_of_cons_eq hstatuses
    obtain ⟨hstore, hclear⟩ := chunkWriteRepair_clears hwrite hi
    have : Loads (step w (.writeRepair a) e₁).2 e₂ := .of_store hstore
    have hfinalize := (step_effect (step w (.writeRepair a) e₁).2 (.finalize f) e₂
      (blockAt a.offset i)).error_of_lifecycle (Or.inl ⟨f, rfl⟩)
    have hstore' : (step (step w (.writeRepair a) e₁).2 (.finalize f) e₂).2.store.isSome :=
      step_store _ hstore
    have := Loads.of_store (e := e₃) hstore'
    have hcommit :=
      (step_effect (step (step w (.writeRepair a) e₁).2 (.finalize f) e₂).2 (.commit c) e₃
      (blockAt a.offset i)).error_of_lifecycle (Or.inr ⟨c, rfl⟩)
    have hno := hcommit.trans (hfinalize.trans hclear)
    exact absurd (herror.symm.trans hno) (by decide)

theorem flagged_reads_erroneous :
    ReadsErroneous (run (step (run Inode.init flaggedOps) (.error blockRange .io) (.calm 1)).2
      [(.unlock blockRange, .calm 1)]) 0 := by
  refine (quarantine_until_write (run Inode.init flaggedOps)).1 blockRange .io (.calm 1) 0 _
    (by decide +kernel) (by decide) ⟨⟨?_, ?_⟩, trivial⟩
  · rintro ⟨a, ⟨hop, -⟩ | ⟨hop, -⟩, -⟩ <;> cases hop
  · rintro ⟨-, a, hop, -⟩
    cases hop

def repairedFile : Inode :=
  run (step (run Inode.init flaggedOps) (.error blockRange .io) (.calm 1)).2 repairOps

/-- A flagged block that is repaired reads as sound before CHUNK_REPAIRED, which is then refused. -/
theorem repair_refused :
    statuses Inode.init (flaggedOps ++ (.error blockRange .io, .calm 1) :: repairOps) =
      [.ok, .ok, .ok, .ok, .ok, .ok, .ok] ∧
    ((chunkRead repairedFile 0 1 (.calm 1)).2.1[0]?).map ReadChunk.status = some .ok ∧
    (step repairedFile (.repaired blockRange) (.calm 1)).1 = .inval :=
  ⟨by decide +kernel, by decide +kernel, by decide +kernel⟩

end Reffs.Chunk
