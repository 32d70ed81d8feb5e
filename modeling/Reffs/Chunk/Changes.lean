import Reffs.Chunk.Ops

/-!
# The parts of an operation

What the loops of the operations do to a store: to the entries of its array, and to its numbers,
which are the length of the array, the high-water mark below which blocks are part of the file on
disk, the chunk size, and whether the store has changed since it was last persisted. `Progress` says
how the numbers go along with the blocks.
-/

namespace Reffs.Chunk

open ByteCodec List Option Store Nat Or Block

/-! ## Blocks of a range -/

variable {offset : UInt64} {count : UInt32} {cs' : Store}

lemma blockAt_inj {i j : Nat} (hi : i < 2 ^ 32) (hj : j < 2 ^ 32)
    (h : blockAt offset i = blockAt offset j) : i = j := by
  unfold blockAt at h
  have hlt : offset.toNat < 2 ^ 64 := offset.toNat_lt
  omega

lemma rangeOk_iff : rangeOk offset count ↔
    count ≠ 0 ∧ count.toNat ≤ maxChunksPerOp ∧ offset.toNat + (count.toNat - 1) ≤ 2 ^ 64 - 1 := by
  simp [rangeOk, and_assoc]

variable {i b off : Nat} {m : Bool}

lemma blockAt_of_range (h : rangeOk offset count)
    (hi : i < count.toNat) : blockAt offset i = offset.toNat + i := by
  obtain ⟨-, -, hle⟩ := rangeOk_iff.mp h
  unfold blockAt
  exact mod_eq_of_lt (by omega)

lemma inRange_iff : inRange offset count b ↔ offset.toNat ≤ b ∧ b < offset.toNat + count.toNat := by
  simp [inRange]

lemma inRange_blockAt (h : rangeOk offset count)
    (hi : i < count.toNat) : inRange offset count (blockAt offset i) := by
  rw [blockAt_of_range h hi, inRange_iff]
  omega

lemma exists_blockAt (h : rangeOk offset count)
    (hb : inRange offset count b) : ∃ i < count.toNat, b = blockAt offset i := by
  rw [inRange_iff] at hb
  have hi : b - offset.toNat < count.toNat := by omega
  refine ⟨b - offset.toNat, hi, ?_⟩
  rw [blockAt_of_range h hi]
  omega

lemma count_lt (count : UInt32) : count.toNat < 2 ^ 32 := count.toNat_lt

/-! ## The numbers of a store -/

/-- Nothing that a file on disk would show has changed; the index of the escrows may have been
rebuilt. -/
structure Kept (cs cs' : Store) : Prop where
  entry : ∀ b, cs'.entry b = cs.entry b
  written : cs'.written = cs.written
  highWater : cs'.highWater = cs.highWater
  dirty : cs'.dirty = cs.dirty
  escrows : cs'.escrows = cs.escrows ∨ Store.collectEscrows cs'.written [] = some cs'.escrows

/-- What the parts of an operation keep; the mark is raised for the blocks in `T` alone. -/
structure Progress (T : Nat → Prop) (cs cs' : Store) : Prop where
  chunkSize : cs.chunkSize ≠ 0 → cs'.chunkSize = cs.chunkSize
  nblocks : cs.nblocks ≤ cs'.nblocks
  highWater : cs.highWater ≤ cs'.highWater
  high : ∀ m, cs.highWater ≤ m → (∀ b, T b → b < m) → cs'.highWater ≤ m
  bounded : cs.highWater ≤ cs.nblocks → cs'.highWater ≤ cs'.nblocks
  dirty : cs.highWater ≤ cs.nblocks → cs'.dirty = true ∨ Kept cs cs'

attribute [grind cases] Progress

section

variable {T : Nat → Prop} {cs cs' cs'' : Store}

lemma Kept.refl (cs : Store) : Kept cs cs := ⟨fun _ => rfl, rfl, rfl, rfl, inl rfl⟩

lemma Kept.trans (h : Kept cs cs') (h' : Kept cs' cs'') : Kept cs cs'' where
  entry := fun b => (h'.entry b).trans (h.entry b)
  written := h'.written.trans h.written
  highWater := h'.highWater.trans h.highWater
  dirty := h'.dirty.trans h.dirty
  escrows := by
    rcases h'.escrows with hsame | hnew
    · rcases h.escrows with hsame' | hnew'
      · exact inl (hsame.trans hsame')
      · rw [h'.written, hsame]
        exact inr hnew'
    · exact inr hnew

lemma Progress.refl (cs : Store) : Progress T cs cs :=
  ⟨fun _ => rfl, le_refl _, le_refl _, fun _ h _ => h, id, fun _ => inr (.refl cs)⟩

lemma Progress.trans (h : Progress T cs cs') (h' : Progress T cs' cs'') : Progress T cs cs'' where
  chunkSize := fun hset => (h'.chunkSize (by rwa [h.chunkSize hset])).trans (h.chunkSize hset)
  nblocks := le_trans h.nblocks h'.nblocks
  highWater := le_trans h.highWater h'.highWater
  high := fun m hm hT => h'.high m (h.high m hm hT) hT
  bounded := fun hb => h'.bounded (h.bounded hb)
  dirty := by
    intro hb
    rcases h'.dirty (h.bounded hb) with hdirty | hkept
    · exact inl hdirty
    rcases h.dirty hb with hdirty | hkept'
    · exact inl (hkept.dirty.trans hdirty)
    · exact inr (hkept'.trans hkept)

lemma Progress.of_dirty (hsize : cs'.chunkSize = cs.chunkSize) (hn : cs'.nblocks = cs.nblocks)
    (hw : cs'.highWater = cs.highWater) (hdirty : cs'.dirty) : Progress T cs cs' :=
  ⟨fun _ => hsize, hn.ge, hw.ge, fun m hm _ => by omega, fun hb => by omega, fun _ => inl hdirty⟩

lemma entry_congr (hn : cs'.nblocks = cs.nblocks)
    (h : ∀ o < cs.nblocks, cs'.blocks o = cs.blocks o) (b : Nat) : cs'.entry b = cs.entry b := by
  by_cases hlt : b < cs.nblocks
  · rw [entry_of_lt hlt, entry_of_lt (by rw [hn]; exact hlt), h b hlt]
  · have hle := not_lt.mp hlt
    rw [entry_of_le hle, entry_of_le (by rw [hn]; exact hle)]

lemma written_congr (hw : cs'.highWater = cs.highWater) (hb : cs.highWater ≤ cs.nblocks)
    (hb' : cs'.highWater ≤ cs'.nblocks) (h : ∀ b, cs'.entry b = cs.entry b) :
    cs'.written = cs.written := by
  unfold written
  rw [hw]
  refine map_congr_left fun o ho => ?_
  have ho := mem_range.mp ho
  have ho' : o < cs'.nblocks := by omega
  rw [← entry_of_lt (lt_of_lt_of_le ho hb), ← h, entry_of_lt ho']

lemma setState_progress (cs : Store) (o : Nat) (state : ChunkState) :
    Progress T cs (cs.setState o state) :=
  .of_dirty rfl rfl rfl rfl

lemma Progress.of_flag {blocks : Nat → Block} {flag : Bool}
    (h : flag = false → ∀ b, ({ cs with blocks := blocks } : Store).entry b = cs.entry b) :
    Progress T cs { cs with blocks := blocks, dirty := cs.dirty || flag } := by
  refine ⟨fun _ => rfl, le_refl _, le_refl _, fun _ h _ => h, id, fun hb => ?_⟩
  cases flag with
  | true => exact inl (Bool.or_true _)
  | false => exact inr ⟨h rfl, written_congr rfl hb hb (h rfl), rfl, Bool.or_false _, inl rfl⟩

/-! ## Growth -/

/-- The length of an array of `n` entries with room for one at `off`. -/
def grownTo (n off : Nat) : Nat :=
  if off < n then n else Store.doubled off (off + 1) (if n = 0 then initBlocks else n)

/-- How many of the blocks of a range the array of `n` entries has or can be given room for, from
the first on. -/
def room (offset : UInt64) (memory : Nat → Bool) : Nat → Nat → Nat → Nat
  | 0, _, _ => 0
  | turns + 1, i, n =>
    let off := blockAt offset i
    if off < n then room offset memory turns (i + 1) n + 1
    else if maxBlocks < off ∨ memory i = false then 0
    else room offset memory turns (i + 1)
      (Store.doubled off (off + 1) (if n = 0 then initBlocks else n)) + 1

lemma room_succ (offset : UInt64) (memory : Nat → Bool) (turns i n : Nat) :
    room offset memory (turns + 1) i n =
      if ¬ blockAt offset i < n ∧ (maxBlocks < blockAt offset i ∨ memory i = false) then 0
      else room offset memory turns (i + 1) (grownTo n (blockAt offset i)) + 1 := by
  rw [room, grownTo]
  by_cases hlt : blockAt offset i < n <;> simp [hlt]

lemma room_le (offset : UInt64) (memory : Nat → Bool) : ∀ turns i n : Nat,
    room offset memory turns i n ≤ turns
  | 0, _, _ => le_refl _
  | turns + 1, i, n => by
    rw [room_succ]
    split
    · exact zero_le _
    · exact succ_le_succ (room_le offset memory turns (i + 1) _)

lemma raise_progress {o : Nat} (hT : T o) (hgrown : Store.Grown cs cs') (hlt : o < cs'.nblocks)
    (blk : Block) : Progress T cs ((cs'.setBlock o blk).raise o) ∧ Progress T cs (cs'.raise o) := by
  have hle : cs.nblocks ≤ cs'.nblocks := hgrown.nblocks
  have hhw := hgrown.highWater
  have hup : cs.highWater ≤ max cs'.highWater (o + 1) := by omega
  have hhigh : ∀ m, cs.highWater ≤ m → (∀ b, T b → b < m) → max cs'.highWater (o + 1) ≤ m := by
    grind
  have hbound : cs.highWater ≤ cs.nblocks → max cs'.highWater (o + 1) ≤ cs'.nblocks := by omega
  exact ⟨⟨fun _ => hgrown.chunkSize, hle, hup, hhigh, hbound, fun _ => inl rfl⟩,
    ⟨fun _ => hgrown.chunkSize, hle, hup, hhigh, hbound, fun _ => inl rfl⟩⟩

lemma lt_raise (cs : Store) (o : Nat) : o < (cs.raise o).highWater :=
  lt_of_lt_of_le (lt_succ_self o) (le_max_right _ _)

lemma write_room (cs : Store) (off : Nat) (blk : Block) (m : Bool) :
    (cs.write off blk m = none ↔ ¬ off < cs.nblocks ∧ (maxBlocks < off ∨ m = false)) ∧
    ∀ cs', cs.write off blk m = some cs' → cs'.nblocks = grownTo cs.nblocks off := by
  unfold write ensure grow grownTo
  by_cases hlt : off < cs.nblocks
  · rw [if_neg (not_le.mpr hlt), if_pos hlt]
    exact ⟨⟨nofun, fun h => absurd hlt h.1⟩, fun cs' h => by cases h; rfl⟩
  rw [if_pos (not_lt.mp hlt), if_neg hlt]
  split
  · next hstop => exact ⟨⟨fun _ => ⟨hlt, hstop⟩, fun _ => rfl⟩, nofun⟩
  · next hgo => exact ⟨⟨nofun, fun h => absurd h.2 hgo⟩, fun cs' h => by cases h; rfl⟩

lemma write_spec {o : Nat} {blk : Block} (hT : T o) (h : cs.write o blk m = some cs') :
    (∀ b, cs'.entry b = if b = o then blk else cs.entry b) ∧ Progress T cs cs' ∧ o < cs'.highWater ∧
      o < cs'.nblocks := by
  unfold write at h
  obtain ⟨cs₁, hensure, rfl⟩ := map_eq_some_iff.mp h
  obtain ⟨hgrown, hlt⟩ := ensure_grown hensure
  refine ⟨fun b => ?_, (raise_progress hT hgrown hlt blk).1, lt_raise _ o, hlt⟩
  rw [raise_entry, setBlock_entry blk hlt, hgrown.entry]

end

/-! ## Transitions -/

section Transitions

variable {T : Nat → Prop} {offset : UInt64} {count : UInt32} {fromState toState : ChunkState}
    {cs₀ cs : Store}
  {owners : List Owner}

/-- The block that a list of owners moves from one state to another. -/
def Moved (offset : UInt64) (count : UInt32) (fromState toState : ChunkState) (owners : List Owner)
    (b : Nat) (blk blk' : Block) : Prop :=
  (∃ j, j < count.toNat ∧ b = blockAt offset j) ∧ blk.owner ∈ owners ∧ blk.state = fromState ∧
    blk' = { blk with state := toState }

/-- Two stores that differ only in states of blocks which are not empty. -/
structure StatesDiffer (T : Nat → Prop) (cs cs' : Store) : Prop where
  progress : Progress T cs cs'
  nblocks : cs'.nblocks = cs.nblocks
  scan : ∀ b, ((cs'.blocks b).state = .empty ↔ (cs.blocks b).state = .empty) ∧
    (cs'.blocks b).owner = (cs.blocks b).owner

attribute [grind cases] StatesDiffer

/-- How far transitions that may have to be taken back have gone: the blocks of some owners are in
the state to go to, and all others are as before. -/
structure Moving (T : Nat → Prop) (cs₀ : Store) (offset : UInt64) (count : UInt32)
    (fromState toState : ChunkState) (owners : List Owner) (cs : Store) : Prop
    extends StatesDiffer T cs₀ cs where
  entry : ∀ b, cs.entry b = cs₀.entry b ∨
    (∃ owner ∈ owners, cs₀.findOwned offset owner count.toNat 0 = some b) ∧
      (cs₀.entry b).state = fromState ∧ cs.entry b = { cs₀.entry b with state := toState }
  owned : ∀ owner ∈ owners, ∀ b, cs₀.findOwned offset owner count.toNat 0 = some b →
    (cs₀.entry b).state = fromState

attribute [grind cases] Moving

lemma Moving.find (h : Moving T cs₀ offset count fromState toState owners cs) (owner : Owner) :
    cs.findOwned offset owner count.toNat 0 = cs₀.findOwned offset owner count.toNat 0 :=
  findOwned_congr h.nblocks h.scan offset owner count.toNat 0

lemma Moving.refl (cs : Store) : Moving T cs offset count fromState toState [] cs where
  progress := .refl cs
  nblocks := rfl
  scan := fun _ => ⟨Iff.rfl, rfl⟩
  entry := fun _ => inl rfl
  owned := nofun

lemma Moving.same (h : Moving T cs₀ offset count fromState toState owners cs)
    (hsame : Store.SameBlocks cs cs') (hprogress : Progress T cs cs') :
    Moving T cs₀ offset count fromState toState owners cs' where
  progress := h.progress.trans hprogress
  nblocks := hsame.nblocks.trans h.nblocks
  scan := hsame.blocks ▸ h.scan
  entry := fun b => by
    rw [hsame.entry]
    exact h.entry b
  owned := h.owned

lemma StatesDiffer.setState {state : ChunkState} (h : StatesDiffer T cs₀ cs)
    (hlt : off < cs.nblocks) (hstate : (cs.entry off).state ≠ .empty) (hto : state ≠ .empty) :
    StatesDiffer T cs₀ (cs.setState off state) where
  progress := h.progress.trans (setState_progress cs off state)
  nblocks := h.nblocks
  scan := by
    rw [entry_of_lt hlt] at hstate
    intro b
    by_cases hb : b = off
    · subst hb
      have hblk : (cs.setState b state).blocks b = { cs.blocks b with state := state } := if_pos rfl
      rw [hblk]
      exact ⟨⟨fun he => absurd he hto, fun he => absurd ((h.scan b).1.mpr he) hstate⟩, (h.scan b).2⟩
    · have hblk : (cs.setState off state).blocks b = cs.blocks b := if_neg hb
      rw [hblk]
      exact h.scan b

/-- The owners whose transitions succeeded are those with status OK. -/
def okOwners (l : List (Owner × Nfsstat)) : List Owner := (l.filter fun p => p.2 = .ok).map Prod.fst

lemma Moving.moved {statuses : List Nfsstat}
    (h : Moving T cs₀ offset count fromState toState (okOwners (owners.zip statuses)) cs)
    (b : Nat) :
    cs.entry b = cs₀.entry b ∨
      Moved offset count fromState toState owners b (cs₀.entry b) (cs.entry b) := by
  refine (h.entry b).imp_right fun ⟨⟨owner, hmem, hfind⟩, hstate, hmoved⟩ => ?_
  obtain ⟨j, -, hj, hb, -, -, howner⟩ := findOwned_spec hfind
  obtain ⟨p, hp, rfl⟩ := mem_map.mp hmem
  refine ⟨⟨j, by omega, hb⟩, ?_, hstate, hmoved⟩
  rw [howner]
  exact (of_mem_zip (mem_filter.mp hp).1).1

lemma Moving.move {done : List Owner} {owner : Owner} (hto : toState ≠ .empty)
    (h : Moving T cs₀ offset count fromState toState done cs) (hlt : off < cs.nblocks)
    (hfind : cs.findOwned offset owner count.toNat 0 = some off)
    (hstate : (cs.entry off).state = fromState) (hne : (cs.entry off).state ≠ .empty) :
    Moving T cs₀ offset count fromState toState (done ++ [owner]) (cs.setState off toState) := by
  have hfind₀ := (h.find owner).symm.trans hfind
  have hstate₀ : (cs₀.entry off).state = fromState := by grind
  refine ⟨h.toStatesDiffer.setState hlt hne hto, fun b => ?_, fun o ho b hf => ?_⟩
  · rw [setState_entry toState hlt b]
    split
    · grind
    · grind
  · grind

lemma transitionAll_moving (hto : toState ≠ .empty) : ∀ (owners done : List Owner) (cs : Store),
    Moving T cs₀ offset count fromState toState done cs →
    Moving T cs₀ offset count fromState toState
        (done ++ okOwners (owners.zip (transitionAll offset count fromState toState owners cs).1))
        (transitionAll offset count fromState toState owners cs).2
  | [], done, cs, h => by
    show Moving T cs₀ offset count fromState toState (done ++ []) cs
    rw [append_nil]
    exact h
  | owner :: owners, done, cs, h => by
    unfold transitionAll
    cases ht : cs.transition offset count owner fromState toState with
    | none => exact transitionAll_moving hto owners done cs h
    | some cs' =>
      obtain ⟨-, off, -, -, hlt, hfind, hstate, hne, -, rfl⟩ := transition_spec ht
      have ih :=
        transitionAll_moving hto owners (done ++ [owner]) _ (h.move hto hlt hfind hstate hne)
      rw [append_assoc] at ih
      exact ih

lemma Moving.undo {owner : Owner} (hne : fromState ≠ toState) (hfrom : fromState ≠ .empty)
    (h : Moving T cs₀ offset count fromState toState (owner :: owners) cs) :
    Moving T cs₀ offset count fromState toState owners
      ((cs.transition offset count owner toState fromState).getD cs) := by
  have howned := fun o ho => h.owned o (mem_cons_of_mem owner ho)
  cases ht : cs.transition offset count owner toState fromState with
  | none =>
    refine ⟨h.toStatesDiffer, fun b => ?_, howned⟩
    refine (h.entry b).imp_right fun ⟨⟨o, hmem, hf⟩, hfrom₀, hmoved⟩ => ?_
    rcases mem_cons.mp hmem with rfl | hmem'
    · -- the scan finds this block, in the state to take back
      exfalso
      rw [← h.find] at hf
      obtain ⟨-, -, -, -, hlt, -⟩ := findOwned_spec hf
      have hstate : (cs.blocks b).state = toState := by rw [← entry_of_lt hlt, hmoved]
      unfold transition at ht
      rw [hf] at ht
      dsimp only at ht
      rw [if_neg (not_not.mpr hstate)] at ht
      cases ht
    · exact ⟨⟨o, hmem', hf⟩, hfrom₀, hmoved⟩
  | some cs' =>
    obtain ⟨-, off, -, -, hlt, hfind, hstate, hocc, -, rfl⟩ := transition_spec ht
    rw [h.find] at hfind
    have hstate₀ : (cs₀.entry off).state = fromState := h.owned owner mem_cons_self off hfind
    refine ⟨h.toStatesDiffer.setState hlt hocc hfrom, fun b => ?_, howned⟩
    show (cs.setState off fromState).entry b = _ ∨ _ ∧ _ ∧ (cs.setState off fromState).entry b = _
    rw [setState_entry fromState hlt b]
    split
    · next hb =>
      subst hb
      left
      rcases h.entry b with hsame | ⟨-, -, hmoved⟩
      · rw [hsame, hstate₀] at hstate
        exact absurd hstate hne
      · rw [hmoved, ← hstate₀]
    · grind

theorem undoAll_undone (hne : fromState ≠ toState) (hfrom : fromState ≠ .empty) :
    ∀ (l : List (Owner × Nfsstat)) (cs : Store), Moving T cs₀ offset count fromState toState
      (okOwners l) cs → Progress T cs₀ (undoAll offset count fromState toState l cs) ∧
        ∀ b, (undoAll offset count fromState toState l cs).entry b = cs₀.entry b
  | [], cs, h =>
    ⟨h.progress, fun b => (h.entry b).resolve_right fun ⟨⟨_, hmem, _⟩, _⟩ => nomatch hmem⟩
  | (owner, st) :: l, cs, h => by
    unfold undoAll
    split
    · next hst =>
      subst hst
      exact undoAll_undone hne hfrom l _ (Moving.undo hne hfrom h)
    · next hst =>
      have hok : okOwners ((owner, st) :: l) = okOwners l := by simp [okOwners, hst]
      exact undoAll_undone hne hfrom l cs (hok ▸ h)

end Transitions

/-! ## Rollbacks -/

section Rollbacks

variable {T : Nat → Prop} {offset : UInt64} {count : UInt32}

def RolledBack (offset : UInt64) (count : UInt32) (owners : List Owner) (b : Nat)
    (blk blk' : Block) : Prop :=
  (∃ j, j < count.toNat ∧ b = blockAt offset j) ∧ blk.owner ∈ owners ∧
    (blk.state = .pending ∨ blk.state = .finalized) ∧ blk' = { blk with state := .empty }

lemma rollbackAll_rolledBack : ∀ (owners : List Owner) (cs : Store),
    Progress T cs (rollbackAll offset count owners cs).2 ∧
      ∀ b, (rollbackAll offset count owners cs).2.entry b = cs.entry b ∨
        RolledBack offset count owners b (cs.entry b)
          ((rollbackAll offset count owners cs).2.entry b)
  | [], cs => ⟨.refl cs, fun _ => inl rfl⟩
  | owner :: owners, cs => by
    unfold rollbackAll
    cases hr : cs.rollback offset count owner with
    | inval => exact ⟨.refl cs, fun _ => inl rfl⟩
    | notSup => exact ⟨.refl cs, fun _ => inl rfl⟩
    | done cs' =>
      obtain ⟨j, off, hj, hoff, hlt, hstate, howner, rfl⟩ := rollback_spec hr
      obtain ⟨hprogress, ih⟩ := rollbackAll_rolledBack owners (cs.setState off .empty)
      refine ⟨(setState_progress cs off .empty).trans hprogress, fun b => ?_⟩
      have ih := ih b
      rw [setState_entry .empty hlt] at ih
      split at ih
      · next hb =>
        subst hb
        rcases ih with hsame | ⟨-, -, hempty | hempty, -⟩
        · exact inr ⟨⟨j, hj, hoff⟩, by rw [howner]; exact mem_cons_self, hstate, hsame⟩
        · cases hempty
        · cases hempty
      · exact ih.imp_right fun h => ⟨h.1, mem_cons_of_mem _ h.2.1, h.2.2⟩

lemma rollbackForClient_progress (cs : Store) (clientid : UInt64) :
    Progress T cs (cs.rollbackForClient clientid).2 := by
  refine .of_flag fun hnone => entry_congr rfl fun o ho => ?_
  show (expireBlock clientid (cs.blocks o)).getD (cs.blocks o) = cs.blocks o
  have hzero := countP_eq_zero.mp (Nat.eq_zero_of_not_pos (of_decide_eq_false hnone)) o
    (mem_range.mpr ho)
  rw [not_isSome_iff_eq_none.mp hzero]
  rfl

end Rollbacks

/-! ## Recording blocks -/

section Recording

variable {T : Nat → Prop} {a : WriteArgs} {e : Env} {repair : Bool}

/-- The block that a write leaves where `blk` was. -/
def rewritten (a : WriteArgs) (e : Env) (repair : Bool) (i : Nat) (blk : Block) : Block :=
  newBlock a e.session repair i (if blk.state = .empty then none else some blk) (some blk)

lemma newBlock_eq (cs : Store) (i off : Nat) :
    newBlock a e.session repair i (cs.lookup off) (cs.lookupAny off) =
      rewritten a e repair i (cs.entry off) := by
  unfold rewritten
  have hold :
      cs.lookup off = if (cs.entry off).state = .empty then none else some (cs.entry off) := by
    split
    · next h =>
      cases hl : cs.lookup off with
      | none => rfl
      | some blk =>
        obtain ⟨-, rfl, hne⟩ := lookup_eq_some hl
        exact absurd h hne
    · next h => exact lookup_of_state h
  rw [hold]
  cases hany : cs.lookupAny off with
  | none =>
    -- no entry and an empty one are the same to a write
    rw [lookupAny_eq_none hany]
    rfl
  | some blk => rw [(lookupAny_eq_some hany).2]

/-- What a store is after `n` blocks from the `i`th on have been recorded. -/
structure Recorded (T : Nat → Prop) (a : WriteArgs) (e : Env) (repair : Bool) (i n : Nat)
    (cs cs' : Store) : Prop where
  progress : Progress T cs cs'
  inside : ∀ j, i ≤ j → j < i + n → blockAt a.offset j < cs'.highWater ∧
    cs'.entry (blockAt a.offset j) = rewritten a e repair j (cs.entry (blockAt a.offset j))
  outside : ∀ b, (∀ j, i ≤ j → j < i + n → b ≠ blockAt a.offset j) → cs'.entry b = cs.entry b

attribute [grind cases] Recorded

lemma Recorded.nil (cs : Store) : Recorded T a e repair i 0 cs cs :=
  ⟨.refl cs, fun j hij hj => by omega, fun _ _ => rfl⟩

lemma Recorded.cases {cs : Store} {n : Nat} (h : Recorded T a e repair 0 n cs cs') (b : Nat) :
    cs'.entry b = cs.entry b ∨ ∃ i < n, b = blockAt a.offset i ∧ b < cs'.highWater ∧
      cs'.entry b = rewritten a e repair i (cs.entry b) := by
  grind

lemma Recorded.cons {cs cs₁ cs' : Store} {i n : Nat} {m : Bool} (hlen : i + 1 + n ≤ 2 ^ 32)
    (hT : T (blockAt a.offset i))
    (hw : cs.write (blockAt a.offset i) (rewritten a e repair i (cs.entry (blockAt a.offset i))) m =
      some cs₁)
    (h : Recorded T a e repair (i + 1) n cs₁ cs') : Recorded T a e repair i (n + 1) cs cs' := by
  obtain ⟨hentry, hprogress, hlow, -⟩ := write_spec hT hw
  refine ⟨hprogress.trans h.progress, fun j hij hj => ?_, fun b hb => ?_⟩
  · rcases eq_or_lt_of_le hij with rfl | hlt
    · -- the block of this turn is not met again
      refine ⟨lt_of_lt_of_le hlow h.progress.highWater, ?_⟩
      rw [h.outside _ fun k hk hk' heq => ?_, hentry, if_pos rfl]
      have := blockAt_inj (by omega) (by omega) heq
      omega
    · refine ⟨(h.inside j hlt (by omega)).1, ?_⟩
      rw [(h.inside j hlt (by omega)).2, hentry, if_neg]
      intro heq
      have := blockAt_inj (by omega) (by omega) heq
      omega
  · grind

lemma recordBlocks_recorded : ∀ (turns i : Nat) (cs : Store), i + turns ≤ 2 ^ 32 →
    (∀ j, i ≤ j → j < i + turns → T (blockAt a.offset j)) →
    ((recordBlocks a e repair turns i cs).1 ↔
      room a.offset e.growMemory turns i cs.nblocks = turns) ∧
    Recorded T a e repair i (room a.offset e.growMemory turns i cs.nblocks) cs
      (recordBlocks a e repair turns i cs).2
  | 0, i, cs, _, _ => ⟨by simp [recordBlocks, room], .nil cs⟩
  | turns + 1, i, cs, hle, hT => by
    unfold recordBlocks
    rw [room_succ]
    dsimp only
    rw [newBlock_eq]
    obtain ⟨hnone, hsome⟩ := write_room cs (blockAt a.offset i)
      (rewritten a e repair i (cs.entry (blockAt a.offset i))) (e.growMemory i)
    cases hw : cs.write (blockAt a.offset i)
        (rewritten a e repair i (cs.entry (blockAt a.offset i))) (e.growMemory i) with
    | none =>
      rw [if_pos (hnone.mp hw)]
      exact ⟨by simp, .nil cs⟩
    | some cs' =>
      rw [if_neg fun hstop => (nomatch hw.symm.trans (hnone.mpr hstop)), ← hsome cs' hw]
      obtain ⟨hdone, hrest⟩ := recordBlocks_recorded turns (i + 1) cs' (by omega)
        fun j hij hj => hT j (by omega) (by omega)
      have hroom := room_le a.offset e.growMemory turns (i + 1) cs'.nblocks
      exact ⟨by rw [hdone]; omega, hrest.cons (by omega) (hT i (le_refl _) (by omega)) hw⟩

end Recording

/-! ## Changes of a range -/

section Ranges

variable {T : Nat → Prop} {cs : Store} {offset : UInt64} {count : UInt32}

lemma changeRange_entry (change : Block → Block) (b : Nat) :
    (cs.changeRange offset count change).entry b =
      if inRange offset count b ∧ b < cs.nblocks then change (cs.entry b) else cs.entry b := by
  by_cases hb : b < cs.nblocks
  · rw [entry_of_lt hb, entry_of_lt (show b < (cs.changeRange offset count change).nblocks from hb)]
    show (if (inRange offset count b && decide (b < cs.nblocks)) then _ else _) = _
    simp
  · have hle := not_lt.mp hb
    rw [if_neg fun h => hb h.2, entry_of_le hle,
      entry_of_le (show (cs.changeRange offset count change).nblocks ≤ b from hle)]

theorem putBack_entry {change : Block → Block} {saved : Block → Bool}
    (hblocks : cs'.blocks = (cs.changeRange offset count change).blocks)
    (hn : cs'.nblocks = cs.nblocks) (hsaved : ∀ blk, saved blk = false → change blk = blk)
    (b : Nat) : (cs'.putBack cs offset count saved).entry b = cs.entry b := by
  refine entry_congr (show (cs'.putBack cs offset count saved).nblocks = cs.nblocks from hn)
    (fun o ho => ?_) b
  show (if (inRange offset count o && decide (o < cs.nblocks) && saved (cs.blocks o)) then
    cs.blocks o else cs'.blocks o) = cs.blocks o
  split
  · rfl
  · next hnot =>
    rw [hblocks]
    show (if (inRange offset count o && decide (o < cs.nblocks)) then change (cs.blocks o)
      else cs.blocks o) = cs.blocks o
    split
    · grind
    · rfl

lemma of_checkRange {check : Option Block → Nfsstat} (hrange : rangeOk offset count)
    (h : cs.checkRange offset count check = .ok) (hb : inRange offset count b) :
    check (cs.lookupAny b) = .ok := by
  obtain ⟨i, hi, rfl⟩ := exists_blockAt hrange hb
  exact firstBad_eq_ok h i (zero_le _) (by omega)

lemma changed_progress (cs : Store) (offset : UInt64) (count : UInt32) (change : Block → Block) :
    Progress T cs { cs.changeRange offset count change with dirty := true } :=
  .of_dirty rfl rfl rfl rfl

lemma putBack_progress (cs old : Store) (offset : UInt64) (count : UInt32) (saved : Block → Bool) :
    Progress T cs (cs.putBack old offset count saved) := .of_dirty rfl rfl rfl rfl

lemma unlocked_progress (cs : Store) (offset : UInt64) (count : UInt32) :
    Progress T cs { cs.changeRange offset count unlockBlock with
      dirty := cs.dirty || (range cs.nblocks).any fun o =>
        inRange offset count o && (cs.blocks o).flags.locked } := by
  refine .of_flag fun hnone b => ?_
  show (cs.changeRange offset count unlockBlock).entry b = cs.entry b
  rw [changeRange_entry]
  split
  · next hin =>
    have hno := any_eq_false.mp hnone b (mem_range.mpr hin.2)
    rw [hin.1, Bool.true_and, ← entry_of_lt hin.2] at hno
    exact if_neg hno
  · rfl

end Ranges

/-! ## Claiming blocks -/

section Claims

variable {T : Nat → Prop} {offset : UInt64} {touches : Bool} {mark : Block → Option Block}
  {memory : Nat → Bool} {cs cs₁ cs' : Store}

lemma opened_eq (cs : Store) (off : Nat) (touches m : Bool) : cs.opened off touches m =
    if off < cs.nblocks then some (false, if touches then cs.raise off else cs)
    else (cs.write off empty m).map fun cs' => (true, if touches then cs'.raise off else cs') := by
  have htouch {cs : Store} (hlt : off < cs.nblocks) :
      (if touches then cs.touch off m else some cs) =
      some (if touches then cs.raise off else cs) := by grind [not_le.mpr, ensure, touch]
  unfold opened lookupAny
  by_cases hlt : off < cs.nblocks
  · rw [if_pos hlt, if_pos hlt]
    rw [htouch hlt]
    rfl
  · rw [if_neg hlt, if_neg hlt]
    cases hw : cs.write off empty m with
    | none => rfl
    | some cs' =>
      show ((if touches then cs'.touch off m else some cs').map _) = _
      rw [htouch (write_spec (T := fun _ => True) trivial hw).2.2.2]
      rfl

/-- An entry that is there, and touched if that is asked for. -/
structure Opened (T : Nat → Prop) (touches : Bool) (off : Nat) (created : Bool) (cs cs' : Store) :
    Prop where
  progress : Progress T cs cs'
  entry : ∀ b, cs'.entry b = cs.entry b
  nblocks : cs'.nblocks = grownTo cs.nblocks off
  lt : off < cs'.nblocks
  created : created = true → cs.entry off = Block.empty
  low : touches = true ∨ off < cs.highWater ∨ cs.nblocks ≤ off → off < cs'.highWater

attribute [grind cases] Opened

lemma opened_spec {created : Bool} (hT : T off)
    (h : cs.opened off touches m = some (created, cs')) : Opened T touches off created cs cs' := by
  rw [opened_eq] at h
  split at h
  · next hlt =>
    cases h
    have hn : grownTo cs.nblocks off = cs.nblocks := if_pos hlt
    cases touches with
    | false =>
      refine ⟨.refl cs, fun _ => rfl, hn.symm, hlt, nofun, ?_⟩
      exact fun h => h.elim nofun fun h => h.elim id fun h => absurd hlt (not_lt.mpr h)
    | true =>
      exact ⟨(raise_progress hT (.refl cs) hlt empty).2, fun _ => rfl, hn.symm, hlt, nofun,
        fun _ => lt_raise cs off⟩
  · next hlt =>
    obtain ⟨cs₁, hw, heq⟩ := map_eq_some_iff.mp h
    obtain ⟨hentry, hprogress, hlow, hlt₁⟩ := write_spec hT hw
    have hn := (write_room cs off empty m).2 cs₁ hw
    have hempty : cs.entry off = empty := entry_of_le (not_lt.mp hlt)
    have hsame : ∀ b, cs₁.entry b = cs.entry b := by grind
    cases heq
    cases touches with
    | false => exact ⟨hprogress, hsame, hn, hlt₁, fun _ => hempty, fun _ => hlow⟩
    | true =>
      exact ⟨hprogress.trans (raise_progress hT (.refl cs₁) hlt₁ empty).2, hsame, hn, hlt₁,
        fun _ => hempty, fun _ => lt_raise cs₁ off⟩

lemma opened_none (cs : Store) (off : Nat) (touches m : Bool) :
    cs.opened off touches m = none ↔ ¬ off < cs.nblocks ∧ (maxBlocks < off ∨ m = false) := by
  rw [opened_eq]
  split
  · next hlt => exact ⟨nofun, fun h => absurd hlt h.1⟩
  · rw [map_eq_none_iff]
    exact (write_room cs off empty m).1

lemma marked_entry (blk : Option Block) (h : off < cs.nblocks) (b : Nat) :
    (cs.marked off blk).entry b = if b = off then blk.getD (cs.entry off) else cs.entry b := by
  cases blk with
  | none =>
    show cs.entry b = if b = off then cs.entry off else cs.entry b
    split
    · next hb => rw [hb]
    · rfl
  | some blk => exact setBlock_entry blk h b

lemma marked_progress (cs : Store) (off : Nat) (blk : Option Block) :
    Progress T cs (cs.marked off blk) ∧ (cs.marked off blk).nblocks = cs.nblocks := by
  cases blk with
  | none => exact ⟨.refl cs, rfl⟩
  | some blk => exact ⟨.of_dirty rfl rfl rfl rfl, rfl⟩

/-- What is kept of the blocks that have been claimed: what each of them was, and that no other
block has changed. -/
structure Claimed (T : Nat → Prop) (offset : UInt64) (touches : Bool) (mark : Block → Option Block)
    (i : Nat) (cs cs' : Store) (more : List (Bool × Block)) : Prop where
  progress : Progress T cs cs'
  saved : ∀ k p, more[k]? = some p →
    (if p.1 then Block.empty else p.2) = cs.entry (blockAt offset (i + k)) ∧
      blockAt offset (i + k) < cs'.nblocks
  inside : ∀ k, k < more.length → cs'.entry (blockAt offset (i + k)) =
    (mark (cs.entry (blockAt offset (i + k)))).getD (cs.entry (blockAt offset (i + k)))
  outside : ∀ b, (∀ k, k < more.length → b ≠ blockAt offset (i + k)) → cs'.entry b = cs.entry b
  low : ∀ k, k < more.length → touches = true ∨ blockAt offset (i + k) < cs.highWater ∨
    k = 0 ∧ cs.nblocks ≤ blockAt offset i → blockAt offset (i + k) < cs'.highWater

attribute [grind cases] Claimed

lemma Claimed.nil (cs : Store) : Claimed T offset touches mark i cs cs [] :=
  ⟨.refl cs, fun _ _ h => by simp at h, nofun, fun _ _ => rfl, nofun⟩

lemma Claimed.cons {i : Nat} {created : Bool} {more : List (Bool × Block)}
    (hlen : i + 1 + more.length ≤ 2 ^ 32)
    (hopened : Opened T touches (blockAt offset i) created cs cs₁)
    (h : Claimed T offset touches mark (i + 1)
      (cs₁.marked (blockAt offset i) (mark (cs₁.entry (blockAt offset i)))) cs' more) :
    Claimed T offset touches mark i cs cs' ((created, cs₁.entry (blockAt offset i)) :: more) := by
  have hmarked := marked_entry (mark (cs₁.entry (blockAt offset i))) hopened.lt
  obtain ⟨hmark, hn⟩ :=
    @marked_progress T cs₁ (blockAt offset i) (mark (cs₁.entry (blockAt offset i)))
  have hrest := hmark.trans h.progress
  have hother : ∀ k < more.length, blockAt offset (i + 1 + k) ≠ blockAt offset i := by
    intro k hk heq
    have := blockAt_inj (by omega) (by omega) heq
    omega
  have hshift : ∀ k, i + (k + 1) = i + 1 + k := fun k => by omega
  refine ⟨hopened.progress.trans hrest, fun k p hk => ?_, fun k hk => ?_, fun b hb => ?_,
    fun k hk hcase => ?_⟩
  · cases k with
    | zero => grind
    | succ k => grind
  · cases k with
    | zero => grind
    | succ k => grind
  · rw [h.outside b fun k hk => hshift k ▸ hb (k + 1) (by simpa using hk), hmarked,
      if_neg (show b ≠ blockAt offset i from hb 0 (by simp)), hopened.entry]
  · cases k with
    | zero => grind
    | succ k => grind

lemma claimBlocks_claimed : ∀ (turns i : Nat) (cs : Store) (saved : List (Bool × Block)),
    i + turns ≤ 2 ^ 32 → (∀ j, i ≤ j → j < i + turns → T (blockAt offset j)) →
    ∃ more, (claimBlocks offset touches mark memory turns i cs saved).2.2 = saved ++ more ∧
      more.length = room offset memory turns i cs.nblocks ∧
      ((claimBlocks offset touches mark memory turns i cs saved).1 ↔
        room offset memory turns i cs.nblocks = turns) ∧
      Claimed T offset touches mark i cs
        (claimBlocks offset touches mark memory turns i cs saved).2.1 more
  | 0, i, cs, saved, _, _ =>
    ⟨[], (append_nil _).symm, rfl, by simp [claimBlocks, room], Claimed.nil cs⟩
  | turns + 1, i, cs, saved, hle, hT => by
    unfold claimBlocks
    rw [room_succ]
    dsimp only
    have hnone := opened_none cs (blockAt offset i) touches (memory i)
    cases ho : cs.opened (blockAt offset i) touches (memory i) with
    | none =>
      rw [if_pos (hnone.mp ho)]
      exact ⟨[], (append_nil _).symm, rfl, by simp, Claimed.nil cs⟩
    | some p =>
      obtain ⟨created, cs₁⟩ := p
      have hopened := opened_spec (hT i (le_refl _) (by omega)) ho
      rw [if_neg fun hstop => (nomatch ho.symm.trans (hnone.mpr hstop)), ← hopened.nblocks,
        ← (@marked_progress T cs₁ (blockAt offset i) (mark (cs₁.entry (blockAt offset i)))).2]
      obtain ⟨more, hmore, hlen, hdone, hclaimed⟩ := claimBlocks_claimed turns (i + 1)
        (cs₁.marked (blockAt offset i) (mark (cs₁.entry (blockAt offset i))))
        (saved ++ [(created, cs₁.entry (blockAt offset i))]) (by omega)
        fun j hij hj => hT j (by omega) (by omega)
      have hroom := hlen.trans_le (room_le offset memory turns (i + 1) _)
      refine ⟨(created, cs₁.entry (blockAt offset i)) :: more, ?_, congrArg (· + 1) hlen,
        by rw [hdone]; omega, hclaimed.cons (by omega) hopened⟩
      rw [hmore, append_assoc]
      rfl

lemma restoreBlocks_entry : ∀ (saved : List (Bool × Block)) (i : Nat) (cs : Store),
    i + saved.length ≤ 2 ^ 32 →
    (∀ k p, saved[k]? = some p → blockAt offset (i + k) < cs.nblocks →
      (restoreBlocks offset saved i cs).entry (blockAt offset (i + k)) =
        if p.1 then empty else p.2) ∧
    (∀ b, (∀ k < saved.length, b ≠ blockAt offset (i + k)) →
      (restoreBlocks offset saved i cs).entry b = cs.entry b)
  | [], i, cs, _ => ⟨fun _ _ h => by simp at h, fun _ _ => rfl⟩
  | (created, blk) :: saved, i, cs, hle => by
    have hle' : i + 1 + saved.length ≤ 2 ^ 32 := by
      rw [length_cons] at hle
      omega
    unfold restoreBlocks
    dsimp only
    generalize hcs₁ : (if blockAt offset i < cs.nblocks then
      cs.setBlock (blockAt offset i) (if created then empty else blk) else cs) = cs₁
    have hn : cs₁.nblocks = cs.nblocks := by
      rw [← hcs₁]
      split <;> rfl
    have hout₁ : ∀ b, b ≠ blockAt offset i → cs₁.entry b = cs.entry b := by
      intro b hb
      rw [← hcs₁]
      split
      · next hlt => rw [setBlock_entry _ hlt, if_neg hb]
      · rfl
    have hshift : ∀ k, i + (k + 1) = i + 1 + k := fun k => by omega
    obtain ⟨hin, hout⟩ := restoreBlocks_entry saved (i + 1) cs₁ hle'
    refine ⟨fun k p hk hlt => ?_, fun b hb => ?_⟩
    · cases k with
      | zero =>
        obtain rfl := some.inj (show some (created, blk) = some p from hk)
        have hlt' : blockAt offset i < cs.nblocks := hlt
        show (restoreBlocks offset saved (i + 1) cs₁).entry (blockAt offset i) = _
        rw [hout _ fun k hk heq => ?_, ← hcs₁, if_pos hlt', setBlock_entry _ hlt', if_pos rfl]
        have := blockAt_inj (by omega) (by omega) heq
        omega
      | succ k => grind
    · rw [hout b fun k hk => hshift k ▸ hb (k + 1) (by simpa using hk),
        hout₁ b (show b ≠ blockAt offset i from hb 0 (by simp))]

lemma restoreBlocks_eq (offset : UInt64) : ∀ (saved : List (Bool × Block)) (i : Nat) (cs : Store),
    ∃ blocks, restoreBlocks offset saved i cs = { cs with blocks := blocks, dirty := true }
  | [], _, cs => ⟨cs.blocks, rfl⟩
  | (created, blk) :: saved, i, cs => by
    obtain ⟨blocks, h⟩ :=
      restoreBlocks_eq offset saved (i + 1) (if blockAt offset i < cs.nblocks then
      cs.setBlock (blockAt offset i) (if created then empty else blk) else cs)
    refine ⟨blocks, h.trans ?_⟩
    split <;> rfl

end Claims

/-! ## Persisting -/

section Persisting

variable {T : Nat → Prop} {cs cs' : Store}

lemma refreshEscrows_progress {memory : Bool} (h : cs.refreshEscrows memory = some cs') :
    Progress T cs cs' ∧ cs'.dirty = cs.dirty ∧ collectEscrows cs.written [] = some cs'.escrows := by
  unfold refreshEscrows at h
  cases hc : collectEscrows cs.written [] with
  | none =>
    rw [hc] at h
    cases h
  | some ranges =>
    rw [hc] at h
    dsimp only at h
    split at h
    · cases h
    · cases h
      refine ⟨⟨fun _ => rfl, le_refl _, le_refl _, fun _ h _ => h, id,
        fun _ => inr ⟨fun _ => rfl, rfl, rfl, rfl, ?_⟩⟩, rfl, rfl⟩
      exact inr hc

lemma persist_failed_progress {file : Option MetaFile} {io : PersistIo}
    (h : (cs.persist file io).1 = false) : Progress T cs (cs.persist file io).2.1 := by
  unfold persist at h ⊢
  split
  · exact .refl cs
  · next hdirty =>
    rw [if_neg hdirty] at h
    cases hr : cs.refreshEscrows io.memory with
    | none => exact .refl cs
    | some cs' =>
      rw [hr] at h
      dsimp only at h ⊢
      split
      · next hdisk =>
        rw [if_pos hdisk] at h
        cases h
      · exact (refreshEscrows_progress hr).1

end Persisting

end Reffs.Chunk
