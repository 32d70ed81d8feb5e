import Reffs.Chunk.Reads

/-!
# Guarded writes

A guarded CHUNK_WRITE names the generation and the writer that a read returned, and is meant to pass
only while nobody has written the block since. The generation counts up with each write as long as
the block is there. A rollback, or the end of the writer's lease, makes the block empty: the guard
is not compared at all for an empty block, and the next write starts the count again.
-/

namespace Reffs.Chunk

def Block.guard (blk : Block) : Guard := ⟨blk.genId, blk.owner.clientId⟩

/-- The steps that keep the count of a block's writes: none takes back what was written to it, and
none writes it when the generation is at its greatest. -/
def Counts (b : Nat) (w : Inode) (op : Op) (e : Env) : Prop :=
  ¬ op.Drops b (w.entry b) ∧ (op.Rewrites w e b → (w.entry b).genId.toNat < 2 ^ 32 - 1)

section

variable {w : Inode} {e : Env} {b : Nat} {op : Op} {st : Nfsstat} {blk blk' : Block}

lemma rewritten_genId {a : WriteArgs} {repair : Bool} {i : Nat} (h : blk.state ≠ .empty)
    (hmax : blk.genId.toNat < 2 ^ 32 - 1) :
    (rewritten a e repair i blk).genId.toNat = blk.genId.toNat + 1 := by
  grind [UInt32.toNat_add, newBlock, rewritten]

/-- An operation that is no write leaves generation and writer alone, and unless it takes back the
write the block is still there. -/
lemma Effect.keeps_guard (h : Effect op e b st blk blk') (hw : op.writes = none)
    (hdrops : ¬ op.Drops b blk) (hstate : blk.state ≠ .empty) :
    blk'.state ≠ .empty ∧ blk'.guard = blk.guard := by
  cases h with
  | held blk' hlock =>
    unfold Block.guard
    rw [hlock.state, hlock.genId, hlock.owner]
    exact ⟨hstate, rfl⟩
  | rewritten a repair i hop hi hb => exact absurd (hw.symm.trans hop) nofun
  | finalized a hop hrange howner hpending | committed a hop hfinalized => exact ⟨nofun, rfl⟩
  | dropped hyes => exact absurd hyes hdrops
  | failed a error hop hrange hcommitted | mended a hop hst hrange hcommitted herror =>
    exact ⟨hstate, rfl⟩

/-- One step: the generation does not go back, and after a write that was accepted it is another. -/
lemma step_counts [Loads w e] (hstate : (w.entry b).state ≠ .empty) (hcounts : Counts b w op e) :
    ((step w op e).2.entry b).state ≠ .empty ∧
    (w.entry b).genId.toNat ≤ ((step w op e).2.entry b).genId.toNat ∧
    (Accepts b w op e → (w.entry b).genId.toNat < ((step w op e).2.entry b).genId.toNat) := by
  cases hw : op.writes with
  | none =>
    obtain ⟨hstate', hguard⟩ := (step_effect w op e b).keeps_guard hw hcounts.1 hstate
    have hgen : ((step w op e).2.entry b).genId = (w.entry b).genId := congrArg Guard.genId hguard
    refine ⟨hstate', by rw [hgen], ?_⟩
    rintro ⟨a, hw', -⟩
    rw [hw] at hw'
    cases hw'
  | some a =>
    by_cases hrewrites : op.Rewrites w e b
    · have hmax := hcounts.2 hrewrites
      rw [← and_assoc]
      refine ⟨?_, fun haccepts => ?_⟩
      · rcases entry_of_writes (w := w) (e := e) (b := b) hw with hsame | ⟨i, -, -, hnew⟩
        · rw [hsame]
          exact ⟨hstate, Nat.le_refl _⟩
        · rw [hnew, rewritten_genId hstate hmax]
          exact ⟨nofun, Nat.le_succ _⟩
      · obtain ⟨a', repair, i, hnew⟩ := haccepts.entry
        rw [hnew, rewritten_genId hstate hmax]
        exact Nat.lt_succ_self _
    · rw [entry_of_not_rewrites hw hrewrites]
      exact ⟨hstate, Nat.le_refl _, fun haccepts => absurd haccepts.rewrites hrewrites⟩

/-- The runs of `Counts` in which the store leaves memory only while the disk has the block as it
is. -/
abbrev Counted (b : Nat) : Inode → Event → Prop :=
  Allows (Counts b) fun w => w.restarted.entry b = w.entry b

/-- The event is no write of the block that is accepted. -/
def Spares (b : Nat) (w : Inode) (ev : Event) : Prop :=
  ∀ op e, ev = .request op e → ¬ Accepts b w op e

lemma next_counts {ev : Event} (hstate : (w.entry b).state ≠ .empty) (hev : Counted b w ev) :
    ((w.next ev).entry b).state ≠ .empty ∧
      (w.entry b).genId.toNat ≤ ((w.next ev).entry b).genId.toNat ∧
      (¬ Spares b w ev → (w.entry b).genId.toNat < ((w.next ev).entry b).genId.toNat) := by
  cases ev with
  | request op e =>
    have := hev.1
    obtain ⟨hstate', hle, haccepts⟩ := step_counts hstate hev.2
    refine ⟨hstate', hle, fun hno => haccepts ?_⟩
    by_contra hspares
    refine hno fun op' e' heq => ?_
    cases heq
    exact hspares
  | load =>
    rw [load_entry]
    exact ⟨hstate, Nat.le_refl _, fun hno => absurd (fun _ _ => nofun) hno⟩
  | drop =>
    rw [show (w.next .drop).entry b = w.entry b from hev]
    exact ⟨hstate, Nat.le_refl _, fun hno => absurd (fun _ _ => nofun) hno⟩

/-- A run: the generation does not go back, and if it is the same at the end then no write of the
block was accepted. -/
lemma run_counts : ∀ (evs : List Event) (w : Inode), (w.entry b).state ≠ .empty →
    Machine.Along Inode.next (Counted b) w evs →
      ((Machine.run Inode.next w evs).entry b).state ≠ .empty ∧
      (w.entry b).genId.toNat ≤ ((Machine.run Inode.next w evs).entry b).genId.toNat ∧
      (((Machine.run Inode.next w evs).entry b).genId = (w.entry b).genId →
        Machine.Along Inode.next (Spares b) w evs)
  | [], w, hstate, _ => ⟨hstate, Nat.le_refl _, fun _ => trivial⟩
  | ev :: evs, w, hstate, hevs => by
    obtain ⟨hstate', hle, haccepts⟩ := next_counts hstate hevs.1
    obtain ⟨hend, hle', hnone⟩ := run_counts evs (w.next ev) hstate' hevs.2
    rw [Machine.run_cons]
    refine ⟨hend, Nat.le_trans hle hle', fun hsame => ?_⟩
    have heq := congrArg UInt32.toNat hsame
    refine ⟨?_, hnone (UInt32.toNat_inj.mp (by omega))⟩
    -- an accepted write would have left a larger generation for good
    by_contra hno
    have := haccepts hno
    omega

lemma guard_of_accepted [Loads w e] {a : WriteArgs} {g : Guard} (hguard : a.guard = some g)
    (hcovers : a.Covers b) (hstate : (w.entry b).state ≠ .empty)
    (hok : (step w (.write a) e).1 = .ok) : (w.entry b).guard = g := by
  obtain ⟨i, hi, rfl⟩ := hcovers
  rcases chunkWrite_cases w a e with ⟨hpasses, -⟩ | ⟨-, hrefused⟩
  swap
  · exact absurd hok hrefused.status
  have hgate := hpasses.gate i hi
  unfold gateBlock at hgate
  split at hgate
  · cases hgate
  split at hgate
  · cases hgate
  next hmatch =>
  rw [hguard] at hmatch
  unfold Block.guard
  cases g with
  | mk genId clientId => grind

lemma readChunk_guard {cs : Store} {offset : UInt64} {k : Nat} :
    (readChunk w cs offset e k).guard = (cs.entry (blockAt offset k)).guard := by
  unfold readChunk Block.guard
  dsimp only
  split <;> rfl

end

/-- **Guarded writes**: over every run that takes back no write of the block, does not exhaust its
generations and drops the store only while the disk has the block, a write with the guard that a
read returned is accepted only if no write of the block was accepted since; generation and writer
name one write; and no two writes that find the block are accepted with one guard. -/
theorem guard_compares (b : Nat) :
    (∀ (w : Inode) (offset : UInt64) (count : UInt32) (e e' : Env) (k : Nat) (rc : ReadChunk)
        (evs : List Event) (a : WriteArgs), blockAt offset k = b →
      (chunkRead w offset count e).2.1[k]? = some rc → Machine.Along Inode.next (Counted b) w evs →
      a.guard = some rc.guard → a.Covers b → Loads (Machine.run Inode.next w evs) e' →
      (step (Machine.run Inode.next w evs) (.write a) e').1 = .ok →
      Machine.Along Inode.next (Spares b) w evs) ∧
    (∀ (w : Inode) (evs : List Event), (w.entry b).state ≠ .empty →
      Machine.Along Inode.next (Counted b) w evs →
      ((Machine.run Inode.next w evs).entry b).guard = (w.entry b).guard →
      Machine.Along Inode.next (Spares b) w evs) ∧
    ∀ (w : Inode) (a a' : WriteArgs) (g : Guard) (e e' : Env) (evs : List Event),
      (w.entry b).state ≠ .empty → a.guard = some g → a'.guard = some g → a.Covers b → a'.Covers b →
      (step w (.write a) e).1 = .ok →
      Machine.Along Inode.next (Counted b) w (.request (.write a) e :: evs) →
      Loads (Machine.run Inode.next w (.request (.write a) e :: evs)) e' →
      (step (Machine.run Inode.next w (.request (.write a) e :: evs)) (.write a') e').1 ≠ .ok := by
  refine ⟨?_, ?_, ?_⟩
  · rintro w offset count e e' k rc evs a rfl hrc hevs hguard hcovers hload hok
    obtain ⟨hreadable, rfl⟩ := chunkRead_chunk hrc
    obtain ⟨hstate, -, hnone⟩ := run_counts evs w hreadable.1 hevs
    have hend := guard_of_accepted hguard hcovers hstate hok
    rw [readChunk_guard] at hend
    exact hnone (congrArg Guard.genId hend)
  · intro w evs hstate hevs hguard
    exact (run_counts evs w hstate hevs).2.2 (congrArg Guard.genId hguard)
  · intro w a a' g e e' evs hstate hguard hguard' hcovers hcovers' hok hevs hload hok'
    have := hevs.1.1
    obtain ⟨hstate', -, hnone⟩ := run_counts _ w hstate hevs
    have hfirst := guard_of_accepted hguard hcovers hstate hok
    have hsecond := guard_of_accepted hguard' hcovers' hstate' hok'
    -- the second write finds the generation of the first, which has been accepted in between
    have hsame := congrArg Guard.genId (hsecond.trans hfirst.symm)
    exact (hnone hsame).1 _ e rfl ⟨a, rfl, hcovers, hok⟩

def committedFile : Inode := run Inode.init (finalizedOps ++ [(.commit (blockLife 1), .calm 1)])

theorem committedFile_guard :
    (step committedFile (.write (blockWrite 1 3 (some ⟨0, 1⟩))) (.calm 1)).1 = .ok ∧
    (step (Machine.run Inode.next committedFile
      [.request (.write (blockWrite 1 3 (some ⟨0, 1⟩))) (.calm 1)])
      (.write (blockWrite 1 4 (some ⟨0, 1⟩))) (.calm 1)).1 ≠ .ok := by
  have hok : (step committedFile (.write (blockWrite 1 3 (some ⟨0, 1⟩))) (.calm 1)).1 = .ok := by
    decide +kernel
  refine ⟨hok, (guard_compares 0).2.2 committedFile _ _ ⟨0, 1⟩ (.calm 1) (.calm 1) []
    (by decide +kernel) rfl rfl ⟨0, by decide, rfl⟩ ⟨0, by decide, rfl⟩ hok
    ⟨⟨inferInstance, ?_, fun _ => by decide +kernel⟩, trivial⟩ inferInstance⟩
  rintro ⟨-, ⟨a, hop, -⟩ | ⟨c, hop, -⟩⟩ <;> cases hop

/-- Client 2 writes the block and rolls back, and the guard from before names another payload. -/
def rolledBackOps : List (Op × Env) :=
  [(.write (blockWrite 2 2 none), .calm 2), (.rollback (blockLife 2), .calm 2)]

theorem stale_guard_accepted :
    ((chunkRead committedFile 0 1 (.calm 1)).2.1[0]?).map ReadChunk.guard = some ⟨0, 1⟩ ∧
    statuses committedFile (rolledBackOps ++
      [(.write (blockWrite 1 3 (some ⟨0, 1⟩)), .calm 1), (.finalize (blockLife 1), .calm 1)]) =
        [.ok, .ok, .ok, .ok] ∧
    ((chunkRead (run committedFile (rolledBackOps ++
      [(.write (blockWrite 1 3 (some ⟨0, 1⟩)), .calm 1), (.finalize (blockLife 1), .calm 1)])) 0 1
        (.calm 1)).2.1[0]?).map (fun rc => (rc.guard, rc.bytes)) = some (⟨0, 1⟩, [3, 3, 3, 3]) ∧
    ((chunkRead committedFile 0 1 (.calm 1)).2.1[0]?).map ReadChunk.bytes = some [1, 1, 1, 1] :=
  ⟨by decide +kernel, by decide +kernel, by decide +kernel, by decide +kernel⟩

end Reffs.Chunk
