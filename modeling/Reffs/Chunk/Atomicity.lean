import Reffs.Chunk.Steps

/-!
# Operations that fail

Each operation takes back by its own means what it has done before a failure. CHUNK_FINALIZE,
CHUNK_COMMIT, CHUNK_UNLOCK, CHUNK_REPAIRED and the operations on escrows restore all blocks. The
other four do not: CHUNK_WRITE stores its payload before it has all that it needs, CHUNK_ERROR keeps
flags that it could not persist, CHUNK_LOCK keeps the locks before a block that the array cannot
grow to, and CHUNK_ROLLBACK what it had rolled back before an owner without a block.
-/

namespace Reffs.Chunk

open ByteCodec List Store Nat

/-- The fields of a block that a failed operation must leave alone. -/
structure SameView (blk blk' : Block) : Prop where
  state : blk'.state = blk.state
  owner : blk'.owner = blk.owner
  flags : blk'.flags = blk.flags
  lock : blk'.lock = blk.lock

/-- Nothing shows that the operation was tried. -/
structure Unchanged (w w' : Inode) : Prop where
  block : ∀ b, SameView (w.entry b) (w'.entry b)
  bytes : w'.bytes = w.bytes

def Atomic (w : Inode) (op : Op) (e : Env) : Prop :=
  (step w op e).1 ≠ .ok → Unchanged w (step w op e).2

lemma SameView.refl (blk : Block) : SameView blk blk := ⟨rfl, rfl, rfl, rfl⟩

variable {offset : UInt64} {owner : Owner} {count : UInt32}

section

variable {w : Inode} {op : Op} {e : Env} {cs cs' : Store}

/-- What an operation does when it is refused cannot be seen, so that only the one that passes its
checks counts. -/
lemma atomic_iff_of_cases {P : Prop} {good : Nfsstat × Inode} {B : Store → Prop}
    (h : Cases P good (Refused w B) (step w op e)) (hB : ∀ cs, B cs → ∀ b, cs.entry b = w.entry b) :
    Atomic w op e ↔ (P → good.1 ≠ .ok → Unchanged w good.2) := by
  unfold Atomic
  rcases h with ⟨hpasses, heq⟩ | ⟨hno, hrefused⟩
  · rw [heq]
    exact ⟨fun h _ => h, fun h => h hpasses⟩
  refine ⟨fun _ hpasses => absurd hpasses hno, fun _ _ => ⟨fun b => ?_, hrefused.bytes⟩⟩
  rw [hrefused.entry hB]
  exact .refl _

/-! ## Persisting -/

/-- What the index of the escrows is made from. -/
def escrowView (blk : Block) : Bool × EscrowRange := (blk.flags.escrow, Store.escrowRange blk)

lemma collectEscrows_congr : ∀ (blks blks' : List Block) (acc : List EscrowRange),
    blks'.map escrowView = blks.map escrowView →
      collectEscrows blks' acc = collectEscrows blks acc
  | [], [], _, _ => rfl
  | [], _ :: _, _, h => by cases h
  | _ :: _, [], _, h => by cases h
  | blk :: blks, blk' :: blks', acc, h => by
    rw [map_cons, map_cons] at h
    have hhead : escrowView blk' = escrowView blk := head_eq_of_cons_eq h
    have htail := tail_eq_of_cons_eq h
    have hflag : blk'.flags.escrow = blk.flags.escrow := congrArg Prod.fst hhead
    have hrange : escrowRange blk' = escrowRange blk := congrArg Prod.snd hhead
    unfold collectEscrows
    rw [hflag, hrange, collectEscrows_congr blks blks' acc htail,
      collectEscrows_congr blks blks' (acc ++ [escrowRange blk]) htail]

lemma refreshEscrows_isSome (hhw : cs'.highWater = cs.highWater)
    (hview : ∀ o, escrowView (cs'.blocks o) = escrowView (cs.blocks o)) (memory : Bool) :
    (cs'.refreshEscrows memory).isSome = (cs.refreshEscrows memory).isSome := by
  have hwritten : cs'.written.map escrowView = cs.written.map escrowView := by
    unfold written
    rw [hhw, map_map, map_map]
    exact map_congr_left fun o _ => hview o
  unfold refreshEscrows
  rw [collectEscrows_congr _ _ [] hwritten]
  cases collectEscrows cs.written [] with
  | none => rfl
  | some ranges =>
    dsimp only
    split <;> rfl

lemma persist_iff {file : Option MetaFile} {io : PersistIo} (hdirty : cs.dirty) :
    (cs.persist file io).1 ↔ (cs.refreshEscrows io.memory).isSome ∧ io.disk := by
  grind [persist, decide]

def Persists (w : Inode) (e : Env) : Prop :=
  (w.current.refreshEscrows e.persist.memory).isSome = true ∧ e.persist.disk = true

lemma persisted_iff (hdirty : cs.dirty) (hhw : cs.highWater = w.current.highWater)
    (hview : ∀ o, escrowView (cs.blocks o) = escrowView (w.current.blocks o)) :
    (if (cs.persist w.file e.persist).1 then Nfsstat.ok else .serverFault) = .ok ↔
      Persists w e := by
  unfold Persists
  rw [← refreshEscrows_isSome hhw hview, ← persist_iff hdirty]
  constructor
  · intro h
    by_contra hno
    rw [if_neg hno] at h
    cases h
  · exact fun h => if_pos h

/-! ## CHUNK_ERROR -/

lemma ErrorPasses.atomic_iff {a : OwnerArgs} {error : Nfsstat} (h : ErrorPasses w a error e) :
    ((errorPassed w a e w.current).1 ≠ .ok → Unchanged w (errorPassed w a e w.current).2) ↔
      (Persists w e ∨ ∀ b, inRange a.offset a.count b → (w.entry b).flags.error) := by
  have hok : (errorPassed w a e w.current).1 = .ok ↔ Persists w e := by
    refine persisted_iff rfl rfl fun o => ?_
    show escrowView (if _ then setError true (w.current.blocks o) else w.current.blocks o) = _
    split <;> rfl
  rw [ne_eq, hok, or_iff_not_imp_left]
  refine imp_congr_right fun _ => ⟨fun hsame b hb => ?_, fun herror => ⟨fun b => ?_, rfl⟩⟩
  · have hflags := (hsame.block b).flags
    rw [h.entry, if_pos hb] at hflags
    exact (congrArg Flags.error hflags).symm
  · rw [h.entry]
    split
    · next hb =>
      refine ⟨rfl, rfl, ?_, rfl⟩
      show { (w.entry b).flags with error := true } = (w.entry b).flags
      rw [← herror b hb]
    · exact .refl _

/-! ## CHUNK_ROLLBACK -/

/-- The blocks of an owner in a range, in the order in which a rollback comes to them. -/
def owned (cs : Store) (offset : UInt64) (count : UInt32) (owner : Owner) : List Nat :=
  (List.range' offset.toNat count.toNat).filter fun b =>
    decide ((cs.entry b).state ≠ .empty ∧ (cs.entry b).owner = owner)

/-- How many rollbacks of an owner succeed: one for each of its blocks before the first committed
one. -/
def rollbacks (cs : Store) (offset : UInt64) (count : UInt32) (owner : Owner) : Nat :=
  ((owned cs offset count owner).takeWhile fun b => decide ((cs.entry b).state ≠ .committed)).length

lemma findOwned_eq_head : ∀ turns i : Nat,
    offset.toNat + i + turns ≤ 2 ^ 64 → cs.findOwned offset owner turns i =
      ((range' (offset.toNat + i) turns).filter fun b =>
        decide ((cs.entry b).state ≠ .empty ∧ (cs.entry b).owner = owner)).head?
  | 0, _, _ => rfl
  | turns + 1, i, hle => by
    have hoff : blockAt offset i = offset.toNat + i := by
      unfold blockAt
      exact mod_eq_of_lt (by omega)
    unfold findOwned
    dsimp only
    rw [hoff]
    split
    · next hend =>
      -- the array ends here, and there are no blocks behind its end
      rw [filter_eq_nil_iff.mpr]
      · rfl
      · intro b hb
        have hfrom := (mem_range'_1.mp hb).1
        rw [decide_eq_true_iff]
        rintro ⟨hstate, -⟩
        exact hstate (congrArg Block.state (entry_of_le (by omega)))
    next hin =>
    rw [range'_succ, filter_cons, entry_of_lt (by omega),
      findOwned_eq_head turns (i + 1) (by omega)]
    by_cases hskip : (cs.blocks (offset.toNat + i)).state = .empty ∨
        (cs.blocks (offset.toNat + i)).owner ≠ owner
    · rw [if_pos hskip, if_neg]
      · rfl
      · rw [decide_eq_true_iff]
        rintro ⟨hstate, howner⟩
        rcases hskip with hskip | hskip
        · exact hstate hskip
        · exact hskip howner
    · push Not at hskip
      rw [if_neg (by push Not; exact hskip), if_pos (by rw [decide_eq_true_iff]; exact hskip)]
      rfl

lemma owned_head (hrange : rangeOk offset count)
    (owner : Owner) :
    cs.findOwned offset owner count.toNat 0 = (owned cs offset count owner).head? :=
  findOwned_eq_head count.toNat 0 (by
    have hsum := (rangeOk_iff.mp hrange)
    omega)

lemma mem_owned {b : Nat} (h : b ∈ owned cs offset count owner) :
    b < cs.nblocks ∧ (cs.entry b).state ≠ .empty ∧ (cs.entry b).owner = owner := by
  obtain ⟨hstate, howner⟩ := of_decide_eq_true (mem_filter.mp h).2
  refine ⟨?_, hstate, howner⟩
  by_contra hge
  exact hstate (congrArg Block.state (entry_of_le (by omega)))

/-- A rollback takes the first block from those of its owner, and no block from those of another. -/
lemma owned_setState {other : Owner} {off : Nat}
    {rest : List Nat} (howned : owned cs offset count owner = off :: rest) :
    owned (cs.setState off .empty) offset count other =
      if other = owner then rest else owned cs offset count other := by
  obtain ⟨hlt, -, howner⟩ := mem_owned (howned ▸ mem_cons_self)
  have hnodup : (owned cs offset count owner).Nodup := List.Nodup.filter _ (nodup_range' ..)
  have hout : owned (cs.setState off .empty) offset count other =
      (owned cs offset count other).filter fun b => decide (b ≠ off) := by
    unfold owned
    rw [filter_filter]
    refine filter_congr fun b _ => ?_
    rw [setState_entry .empty hlt]
    by_cases hb : b = off
    · simp [hb]
    · simp [hb]
  rw [hout]
  split
  · next hother =>
    rw [hother, howned, filter_cons, if_neg (by simp)]
    rw [howned, nodup_cons] at hnodup
    exact filter_eq_self.mpr fun b hb => decide_eq_true fun heq => hnodup.1 (heq ▸ hb)
  · next hother =>
    refine filter_eq_self.mpr fun b hb => decide_eq_true fun heq => hother ?_
    rw [← (mem_owned hb).2.2, heq, howner]

lemma rollback_done (hrange : rangeOk offset count)
    (owner : Owner) : cs.rollback offset count owner = .done cs' ↔
      ∃ off rest, owned cs offset count owner = off :: rest ∧ (cs.entry off).state ≠ .committed ∧
        cs' = cs.setState off .empty := by
  unfold rollback
  rw [owned_head hrange]
  cases howned : owned cs offset count owner with
  | nil => simp
  | cons off rest =>
    obtain ⟨hlt, hstate, -⟩ := mem_owned (howned ▸ mem_cons_self)
    rw [entry_of_lt hlt] at hstate
    simp only [head?_cons]
    constructor
    · intro h
      refine ⟨off, rest, rfl, ?_, ?_⟩
      · rw [entry_of_lt hlt]
        intro hs
        rw [hs] at h
        cases h
      · split at h <;> cases h <;> rfl
    · rintro ⟨off', rest', hcons, hnot, rfl⟩
      obtain ⟨rfl, -⟩ := cons.inj hcons
      rw [entry_of_lt hlt] at hnot
      cases hs : (cs.blocks off).state with
      | empty => exact absurd hs hstate
      | pending => rfl
      | finalized => rfl
      | committed => exact absurd hs hnot

lemma rollback_iff {offset : UInt64} {count : UInt32} (hrange : rangeOk offset count)
    (owner : Owner) : (∃ cs', cs.rollback offset count owner = .done cs') ↔
      0 < rollbacks cs offset count owner := by
  simp only [rollback_done hrange]
  unfold rollbacks
  cases owned cs offset count owner with
  | nil => simp
  | cons off rest => by_cases hs : (cs.entry off).state = .committed <;> simp [hs]

lemma rollbacks_done (hrange : rangeOk offset count)
    (h : cs.rollback offset count owner = .done cs') (other : Owner) :
    rollbacks cs offset count other = rollbacks cs' offset count other + if other =
      owner then 1 else 0 := by
  obtain ⟨off, rest, howned, hnot, rfl⟩ := (rollback_done hrange owner).mp h
  obtain ⟨hlt, -, -⟩ := mem_owned (howned ▸ mem_cons_self)
  have hstate : ∀ b, ((cs.setState off .empty).entry b).state ≠ .committed ↔
      (cs.entry b).state ≠ .committed := by
    intro b
    rw [setState_entry .empty hlt]
    split
    · next hb =>
      rw [hb]
      exact ⟨fun _ => hnot, fun _ => nofun⟩
    · exact Iff.rfl
  unfold rollbacks
  simp only [owned_setState howned, hstate]
  by_cases hother : other = owner
  · rw [hother, howned, takeWhile_cons, if_pos (decide_eq_true hnot), if_pos rfl, if_pos rfl]
    rfl
  · rw [if_neg hother, if_neg hother, add_zero]

lemma rollbackAll_ok (hrange : rangeOk offset count) :
    ∀ (owners : List Owner) (cs : Store), (rollbackAll offset count owners cs).1 = .ok ↔
      ∀ owner ∈ owners, owners.count owner ≤ rollbacks cs offset count owner
  | [], cs => by simp [rollbackAll]
  | owner :: owners, cs => by
    unfold rollbackAll
    have hiff := @rollback_iff cs offset count hrange owner
    have hself : 0 < (owner :: owners).count owner := count_pos_iff.mpr mem_cons_self
    cases hr : cs.rollback offset count owner with
    | done cs' =>
      rw [rollbackAll_ok hrange owners cs']
      have hdone := rollbacks_done hrange hr
      have hcount : ∀ other, (owner :: owners).count other =
          owners.count other + if other = owner then 1 else 0 := by
        intro other
        rw [count_cons]
        by_cases hother : other = owner
        · simp [hother]
        · simp [hother, Ne.symm hother]
      constructor
      · intro h other _
        rw [hcount, hdone]
        by_cases hmem : other ∈ owners
        · exact Nat.add_le_add_right (h other hmem) _
        · rw [count_eq_zero_of_not_mem hmem]
          omega
      · intro h other hmem
        have hother := h other (mem_cons_of_mem _ hmem)
        rw [hcount, hdone] at hother
        exact Nat.le_of_add_le_add_right hother
    | inval | notSup =>
      refine ⟨nofun, fun h => ?_⟩
      obtain ⟨cs', hdone⟩ := hiff.mpr (Nat.lt_of_lt_of_le hself (h owner mem_cons_self))
      rw [hr] at hdone
      cases hdone

lemma rollbackAll_view (offset : UInt64) (count : UInt32) : ∀ (owners : List Owner) (cs : Store),
    (rollbackAll offset count owners cs).2.highWater = cs.highWater ∧
      (∀ o, escrowView ((rollbackAll offset count owners cs).2.blocks o) =
        escrowView (cs.blocks o)) ∧
      (cs.dirty → (rollbackAll offset count owners cs).2.dirty)
  | [], cs => ⟨rfl, fun _ => rfl, id⟩
  | owner :: owners, cs => by
    unfold rollbackAll
    cases hr : cs.rollback offset count owner with
    | inval => exact ⟨rfl, fun _ => rfl, id⟩
    | notSup => exact ⟨rfl, fun _ => rfl, id⟩
    | done cs' =>
      obtain ⟨-, off, -, -, -, -, -, rfl⟩ := rollback_spec hr
      obtain ⟨hhw, hview, hdirty⟩ := rollbackAll_view offset count owners (cs.setState off .empty)
      refine ⟨hhw, fun o => (hview o).trans ?_, fun _ => hdirty rfl⟩
      show escrowView (if o = off then { cs.blocks off with state := .empty } else cs.blocks o) = _
      split
      · next ho =>
        rw [ho]
        rfl
      · rfl

lemma rollbackAll_first {offset : UInt64} {count : UInt32} {owner : Owner} {owners : List Owner}
    (h : cs.rollback offset count owner = .done cs') : ∃ b, (cs.entry b).state ≠ .empty ∧
      ((rollbackAll offset count (owner :: owners) cs).2.entry b).state = .empty := by
  obtain ⟨-, off, -, -, hlt, hstate, -, rfl⟩ := rollback_spec h
  refine ⟨off, ?_, ?_⟩
  · rcases hstate with hstate | hstate <;> rw [hstate] <;> decide
  unfold rollbackAll
  rw [h]
  have hempty : ((cs.setState off .empty).entry off).state = .empty := by
    rw [setState_entry .empty hlt, if_pos rfl]
  rcases (@rollbackAll_rolledBack (fun _ => True) offset count owners (cs.setState off .empty)).2
    off
    with hsame | hback
  · rw [hsame]
    exact hempty
  · rw [hback.2.2.2]

lemma rollbackAll_stop {owners : List Owner}
    (h : ∀ cs', cs.rollback offset count owner ≠ .done cs') :
    (rollbackAll offset count (owner :: owners) cs).2 = cs := by
  grind [rollbackAll]

lemma owners_of_check {a : LifeArgs} (h : a.check e = .ok) : a.owners ≠ [] := by
  intro hnil
  unfold LifeArgs.check at h
  split at h
  · next hfile => exact hfile h
  · cases h

lemma RollbackPasses.atomic_iff {a : LifeArgs} (h : RollbackPasses w a e) :
    ((rollbackPassed w a e w.current).1 ≠ .ok → Unchanged w (rollbackPassed w a e w.current).2) ↔
      (∀ owner, a.owners.head? = some owner → rollbacks w.current a.offset a.count owner = 0) ∨
      (∀ owner ∈ a.owners, a.owners.count owner ≤ rollbacks w.current a.offset a.count owner) ∧
        Persists w e := by
  have hrange := range_of_check h.admitted
  rw [← rollbackAll_ok hrange]
  obtain ⟨owner, owners, howners⟩ := exists_cons_of_ne_nil (owners_of_check h.admitted)
  have hentry : ∀ b, (rollbackPassed w a e w.current).2.entry b =
      (rollbackAll a.offset a.count a.owners w.current).2.entry b := by
    intro b
    unfold rollbackPassed
    dsimp only
    split
    · rfl
    · rw [persisted_entry]
  have hbytes : (rollbackPassed w a e w.current).2.bytes = w.bytes := by
    unfold rollbackPassed
    dsimp only
    split <;> rfl
  simp only [howners, head?_cons, Option.some.injEq, forall_eq']
  rw [← howners]
  by_cases hdone : ∃ cs', w.current.rollback a.offset a.count owner = .done cs'
  · -- a block has become empty, so that only success is atomic
    rw [or_iff_right (ne_of_gt ((rollback_iff hrange owner).mp hdone))]
    obtain ⟨cs', hfirst⟩ := hdone
    obtain ⟨b, hne, hempty⟩ := @rollbackAll_first _ _ _ _ _ owners hfirst
    rw [← howners, ← hentry] at hempty
    have hdirty : (rollbackAll a.offset a.count a.owners w.current).2.dirty := by
      obtain ⟨-, off, -, -, -, -, -, rfl⟩ := rollback_spec hfirst
      rw [howners]
      unfold rollbackAll
      rw [hfirst]
      exact (rollbackAll_view a.offset a.count owners _).2.2 rfl
    obtain ⟨hhw, hview, -⟩ := rollbackAll_view a.offset a.count a.owners w.current
    have hok : (rollbackPassed w a e w.current).1 = .ok ↔
        (rollbackAll a.offset a.count a.owners w.current).1 = .ok ∧ Persists w e := by
      unfold rollbackPassed
      dsimp only
      split
      · next hstop => exact ⟨fun hyes => absurd hyes hstop, fun hyes => absurd hyes.1 hstop⟩
      · next hgo =>
        exact (persisted_iff hdirty hhw hview).trans (and_iff_right (not_not.mp hgo)).symm
    rw [← hok]
    refine ⟨fun hatomic => ?_, fun hyes hfails => absurd hyes hfails⟩
    by_contra hfails
    exact hne (((hatomic hfails).block b).state.symm.trans hempty)
  · refine iff_of_true (fun _ => ⟨fun b => ?_, hbytes⟩) (Or.inl ?_)
    · push Not at hdone
      rw [hentry, howners, rollbackAll_stop hdone]
      exact .refl _
    · rw [rollback_iff hrange] at hdone
      omega

/-! ## CHUNK_LOCK -/

def LockArgs.room (a : LockArgs) (w : Inode) (e : Env) : Nat :=
  Chunk.room a.offset e.growMemory a.count.toNat 0 w.current.nblocks

lemma mark_changes {a : LockArgs} {session : UInt64} {blk blk' : Block}
    (hcheck : a.checkBlock (some blk) = .ok) (hmark : a.mark session blk = some blk') :
    ¬ SameView blk blk' := by
  intro hsame
  have hflags := hsame.flags
  unfold LockArgs.checkBlock at hcheck
  unfold LockArgs.mark at hmark
  by_cases hadopts : a.adopts
  · rw [if_pos hadopts] at hcheck hmark
    cases hmark
    have hescrow : blk.flags.escrow := by
      by_contra hno
      rw [if_neg] at hcheck
      · cases hcheck
      · simp [escrowMatches, hno]
    have hnew := congrArg Flags.escrow hflags
    rw [hescrow] at hnew
    cases hnew
  · rw [if_neg hadopts] at hmark
    split at hmark
    · cases hmark
    · next hunlocked =>
      cases hmark
      exact hunlocked (congrArg Flags.locked hflags).symm

lemma LockPasses.atomic_iff {a : LockArgs} (h : LockPasses w a e) (hindexed : Indexed w cs) :
    ((lockPassed w a e cs).1 ≠ .ok → Unchanged w (lockPassed w a e cs).2) ↔
      (a.room w e = a.count.toNat ∨
        ∀ i < a.room w e, a.mark e.session (w.entry (blockAt a.offset i)) = none) := by
  have hrange := LockArgs.range_of_check h.admitted
  have hcount := count_lt a.count
  obtain ⟨hlen, hdone, hclaimed⟩ :=
    claimBlocks_spec (T := (Op.lock a).Claims) hrange (fun _ h => h) false
    (a.mark e.session) e.growMemory cs
  have hroom : a.room w e = Chunk.room a.offset e.growMemory a.count.toNat 0 cs.nblocks := by
    unfold LockArgs.room
    rw [hindexed.same.nblocks]
  have hle : a.room w e ≤ a.count.toNat := hroom.trans_le (room_le _ _ _ _ _)
  rw [← hroom] at hlen hdone
  have hrestored := hclaimed.restored hindexed (by omega)
  have hsame {cs'} (hsame') (hprogress) : Unchanged w { w with
      store := some (restoreBlocks a.offset
        (claimBlocks a.offset false (a.mark e.session) e.growMemory a.count.toNat 0 cs []).2.2 0
        cs') } :=
    ⟨fun b => by
      show SameView _ ((restoreBlocks _ _ _ _).entry b)
      rw [(hrestored cs' hsame' hprogress).2]
      exact .refl _, rfl⟩
  unfold lockPassed
  dsimp only
  by_cases hall : a.room w e = a.count.toNat
  · -- all is claimed, and a failure behind that gives it back
    rw [if_neg (by rw [hdone.mpr hall]; decide)]
    refine iff_of_true ?_ (Or.inl hall)
    split
    · exact fun _ => hsame (.refl _) (.refl _)
    split
    · exact fun hfails => absurd rfl hfails
    · next hfailed =>
      have hfailed := Bool.eq_false_iff.mpr hfailed
      rw [Store.persist_file_of_failed hfailed]
      exact fun _ => hsame (Store.persist_same _ _ _) (persist_failed_progress hfailed)
  · rw [if_pos (Bool.eq_false_iff.mpr fun hyes => hall (hdone.mp hyes)), or_iff_right hall]
    generalize claimBlocks _ _ _ _ _ _ _ _ = r at hlen hclaimed
    refine ⟨fun hatomic i hi => ?_, fun hclean _ => ⟨fun b => ?_, rfl⟩⟩
    · by_contra hmark
      obtain ⟨blk', hblk'⟩ := Option.ne_none_iff_exists'.mp hmark
      have hview : SameView _ (r.2.1.entry _) := (hatomic nofun).block (blockAt a.offset i)
      have hin := hclaimed.inside i (by omega)
      rw [Nat.zero_add, hindexed.entry, hblk'] at hin
      rw [hin] at hview
      exact mark_changes (h.block _ (inRange_blockAt hrange (by omega))) hblk' hview
    · show SameView _ (r.2.1.entry b)
      by_cases hb : ∃ k < r.2.2.length, b = blockAt a.offset (0 + k)
      · obtain ⟨k, hk, rfl⟩ := hb
        rw [hclaimed.inside k hk, Nat.zero_add, hindexed.entry, hclean k (by omega)]
        exact .refl _
      · push Not at hb
        rw [hclaimed.outside b hb, hindexed.entry]
        exact .refl _

/-! ## CHUNK_WRITE -/

def WriteArgs.room (a : WriteArgs) (w : Inode) (e : Env) : Nat :=
  Chunk.room a.offset e.growMemory a.nchunks 0 w.current.nblocks

/-- The bytes that come to be stored are those that are there. -/
structure PayloadThere (w : Inode) (a : WriteArgs) (e : Env) : Prop where
  placed : ∀ pos, a.position = some pos → ∀ k, k < e.data.stored → k < a.chunks.length →
    w.bytes (pos + k) = a.chunks.getD k 0
  unplaced : a.position = none → e.wild = w.bytes

/-- The block is pending, and as the write of chunk `i` leaves it. -/
structure PendingThere (a : WriteArgs) (i : Nat) (blk : Block) : Prop where
  state : blk.state = .pending
  owner : blk.owner = a.owner i
  repair : blk.flags.repairProvenance = false
  error : blk.flags.error = false
  escrow : blk.flags.escrow = false
  lock : blk.flags.locked = false → blk.lock = .zero

lemma stored_eq_iff (a : WriteArgs) : a.stored e w.bytes = w.bytes ↔ PayloadThere w a e := by
  unfold WriteArgs.stored
  cases hpos : a.position with
  | none =>
    refine ⟨fun h => ⟨fun pos hsome => ?_, fun _ => h⟩, fun h => h.unplaced hpos⟩
    rw [hpos] at hsome
    cases hsome
  | some pos =>
    dsimp only
    constructor
    · intro h
      refine ⟨fun pos' hpos' k hk hlen => ?_, fun hnone => nomatch hpos.symm.trans hnone⟩
      obtain rfl := Option.some.inj (hpos.symm.trans hpos')
      have hat := congrFun h (pos + k)
      rw [← hat]
      unfold patch
      rw [if_pos ⟨by omega, by rw [length_take]; omega⟩, Nat.add_sub_cancel_left]
      simp [getD_eq_getElem?_getD, hk]
    · intro h
      funext x
      unfold patch
      split
      · next hx =>
        rw [length_take] at hx
        have hat := h.placed pos hpos (x - pos) (by omega) (by omega)
        rw [Nat.add_sub_cancel' hx.1] at hat
        rw [hat]
        simp [getD_eq_getElem?_getD, show x - pos < e.data.stored by omega]
      · rfl

lemma rewritten_same_iff (a : WriteArgs) (i : Nat) (blk : Block) :
    SameView blk (rewritten a e false i blk) ↔ PendingThere a i blk := by
  constructor
  · intro h
    have hflags := h.flags
    have hlock := h.lock
    refine ⟨h.state.symm, h.owner.symm, (congrArg Flags.repairProvenance hflags).symm,
      (congrArg Flags.error hflags).symm, (congrArg Flags.escrow hflags).symm, fun hno => ?_⟩
    simpa [rewritten, newBlock, hno] using hlock.symm
  · intro h
    refine ⟨h.state.symm, h.owner.symm, ?_, ?_⟩
    · show (⟨blk.flags.locked, false, false, false⟩ : Flags) =
        ⟨blk.flags.locked, blk.flags.repairProvenance, blk.flags.error, blk.flags.escrow⟩
      rw [h.repair, h.error, h.escrow]
    · show (if blk.flags.locked then blk.lock else .zero) = blk.lock
      split
      · rfl
      · next hno => exact (h.lock (Bool.eq_false_iff.mpr hno)).symm

/-- A write that passes its checks is atomic if it has stored nothing, comes to its end, or leaves
all that it rewrites as it was. -/
def WriteClean (w : Inode) (a : WriteArgs) (e : Env) : Prop :=
  (w.data = none ∧ e.data.fails = true) ∨
  (e.data.fails = false ∧ e.responseMemory = true ∧ a.room w e = a.nchunks) ∨
  PayloadThere w a e ∧ (e.data.fails = false → e.responseMemory = true →
    ∀ i, i < a.room w e → PendingThere a i (w.entry (blockAt a.offset i)))

lemma writeData_eq (a : WriteArgs) (h : ¬ (w.data = none ∧ e.data.fails)) :
    w.writeData a e = (if e.data.fails = true then .io else .ok, some (a.stored e w.bytes)) := by
  grind [Inode.bytes, Inode.writeData]

lemma unchanged_iff_payload {a : WriteArgs} {w' : Inode} (hentry : ∀ b, w'.entry b = w.entry b)
    (hbytes : w'.bytes = a.stored e w.bytes) : Unchanged w w' ↔ PayloadThere w a e := by
  rw [← stored_eq_iff, ← hbytes]
  refine ⟨fun h => h.bytes, fun h => ⟨fun b => ?_, h⟩⟩
  rw [hentry]
  exact .refl _

lemma writePassed_atomic_iff {a : WriteArgs} (h : a.establish w.current = some cs) :
    ((writePassed w a e cs).1 ≠ .ok → Unchanged w (writePassed w a e cs).2) ↔ WriteClean w a e := by
  obtain ⟨hentry, hn, -⟩ := establish_spec h
  unfold writePassed WriteClean
  by_cases hnospc : w.data = none ∧ e.data.fails
  · -- nothing has been stored
    refine iff_of_true (fun _ => ?_) (Or.inl hnospc)
    have hdata : w.writeData a e = (.nospc, none) := by
      unfold Inode.writeData
      rw [hnospc.1]
      exact if_pos hnospc.2
    rw [hdata]
    refine ⟨fun b => ?_, ?_⟩
    · show SameView (w.entry b) (cs.entry b)
      rw [hentry]
      exact .refl _
    · show (none : Option (Nat → UInt8)).getD _ = w.data.getD _
      rw [hnospc.1]
  rw [writeData_eq a hnospc, or_iff_right hnospc]
  have hpayload : Unchanged w { w with store := some cs, data := some (a.stored e w.bytes) } ↔
      PayloadThere w a e := unchanged_iff_payload hentry rfl
  dsimp only
  by_cases hfails : e.data.fails
  · rw [if_pos hfails, if_pos (show Nfsstat.io ≠ .ok from nofun), hfails, hpayload]
    simp
  rw [if_neg hfails, if_neg (not_not.mpr rfl), Bool.eq_false_iff.mpr hfails]
  by_cases hmemory : e.responseMemory = false
  · rw [if_pos hmemory, hmemory, hpayload]
    simp
  rw [if_neg hmemory, Bool.eq_true_of_not_eq_false hmemory]
  obtain ⟨hdone, hrecorded⟩ := recordBlocks_written a e false cs
  rw [hn] at hdone hrecorded
  change Recorded a.Covers a e false 0 (a.room w e) cs _ at hrecorded
  by_cases hall : a.room w e = a.nchunks
  · rw [if_pos (hdone.mpr hall)]
    exact ⟨fun _ => Or.inl ⟨rfl, rfl, hall⟩, fun _ hno => absurd rfl hno⟩
  rw [if_neg fun hyes => hall (hdone.mp hyes)]
  constructor
  · intro hatomic
    obtain ⟨hblock, hbytes⟩ := hatomic nofun
    refine Or.inr ⟨(stored_eq_iff a).mp hbytes, fun _ _ i hi => ?_⟩
    have hview : SameView (w.entry (blockAt a.offset i))
        ((recordBlocks a e false a.nchunks 0 cs).2.entry (blockAt a.offset i)) := hblock _
    rw [(hrecorded.inside i (Nat.zero_le _) (by omega)).2, hentry] at hview
    exact (rewritten_same_iff a i _).mp hview
  · rintro (⟨-, -, hyes⟩ | ⟨hpayload, hpending⟩) _
    · exact absurd hyes hall
    refine ⟨fun b => ?_, (stored_eq_iff a).mpr hpayload⟩
    show SameView (w.entry b) ((recordBlocks a e false a.nchunks 0 cs).2.entry b)
    rcases hrecorded.cases b with hsame | ⟨i, hi, rfl, -, hnew⟩
    · rw [hsame, hentry]
      exact .refl _
    · rw [hnew, hentry]
      exact (rewritten_same_iff a i _).mpr (hpending rfl rfl i hi)

/-! ## All operations -/

/-- What a failure does not leave behind: for each operation, the condition under which it takes
back all that it has done. -/
def Clean (w : Inode) (op : Op) (e : Env) : Prop :=
  match op with
  | .write a => WritePasses w a e → WriteClean w a e
  | .error a error => ErrorPasses w a error e →
      Persists w e ∨ ∀ b, inRange a.offset a.count b = true → (w.entry b).flags.error = true
  | .rollback a => RollbackPasses w a e →
      (∀ owner, a.owners.head? = some owner → rollbacks w.current a.offset a.count owner = 0) ∨
      (∀ owner ∈ a.owners, a.owners.count owner ≤ rollbacks w.current a.offset a.count owner) ∧
        Persists w e
  | .lock a => LockPasses w a e → a.room w e = a.count.toNat ∨
      ∀ i, i < a.room w e → a.mark e.session (w.entry (blockAt a.offset i)) = none
  | _ => True

/-- The ten operations that are to change nothing when they fail. -/
def Op.Atomics : Op → Bool
  | .writeRepair _ | .expire _ => false
  | _ => true

/-- The operations that take back all that they have done. -/
def Op.Undoes : Op → Bool
  | .finalize _ | .commit _ | .repaired _ | .unlock _ | .escrowInstall _ | .escrowRelease _ => true
  | _ => false

lemma undone_atomic [Loads w e] (hop : op.Undoes) : Atomic w op e := by
  intro hfails
  have hwrites : op.writes = none := by cases op <;> first | rfl | cases hop
  refine ⟨fun b => ?_, step_bytes hwrites⟩
  · have hchange := step_change w op e b
    generalize (step w op e).2.entry b = blk' at hchange
    generalize (step w op e).1 = st at hfails hchange
    cases hchange with
    | same => exact .refl _
    | finalized _ _ _ hst | committed _ _ _ hst | mended _ _ hst | unlocked _ _ hst
    | installed _ _ _ hst | released _ _ hst => exact absurd hst hfails
    | written _ _ heq => exact absurd (hwrites.symm.trans heq) nofun
    | rolledBack _ _ heq | failed _ _ heq | locked _ _ heq | expired _ _ heq =>
      rw [heq] at hop; cases hop

/-- **What a failure leaves behind.** An operation that finds the store and fails, for whatever
cause, has changed no block and no byte, exactly if its failure comes where the operation takes back
what it has done. -/
theorem failure_atomic_iff (w : Inode) (op : Op) (e : Env) (hload : Loads w e)
    (hop : op.Atomics = true) : Atomic w op e ↔ Clean w op e := by
  cases op with
  | write a =>
    rw [atomic_iff_of_cases (chunkWrite_cases w a e) fun _ h => h.spec.1]
    refine forall_congr' fun hpasses => ?_
    obtain ⟨cs, hest⟩ := Option.isSome_iff_exists.mp hpasses.established
    rw [hest]
    exact writePassed_atomic_iff hest
  | error a error =>
    rw [atomic_iff_of_cases (chunkError_cases w a error e) fun _ h => h.elim]
    exact forall_congr' fun hpasses => hpasses.atomic_iff
  | rollback a =>
    rw [atomic_iff_of_cases (chunkRollback_cases w a e) fun _ h => h.elim]
    exact forall_congr' fun hpasses => hpasses.atomic_iff
  | lock a =>
    rw [atomic_iff_of_cases (chunkLock_cases w a e) fun _ h => h.entry]
    refine forall_congr' fun hpasses => ?_
    obtain ⟨cs, hcs, hindexed⟩ := a.exists_indexed w e
    rw [hcs]
    exact hpasses.atomic_iff hindexed
  | writeRepair a => cases hop
  | expire clientid => cases hop
  | _ => exact ⟨fun _ => trivial, fun _ => undone_atomic rfl⟩

end

def pendingFile : Inode := (step Inode.init (.write (blockWrite 1 1 none)) (.calm 1)).2

/-- A rollback for the writer of the block and for an owner without a block. -/
def twoOwners : LifeArgs := ⟨0, 1, [⟨0, 1, 1⟩, ⟨0, 9, 9⟩]⟩

/-- With the owners the other way round the rollback stops before it has changed anything. -/
theorem pendingFile_atomic :
    (step pendingFile (.rollback ⟨0, 1, [⟨0, 9, 9⟩, ⟨0, 1, 1⟩]⟩) (.calm 1)).1 = .inval ∧
    Atomic pendingFile (.rollback ⟨0, 1, [⟨0, 9, 9⟩, ⟨0, 1, 1⟩]⟩) (.calm 1) := by
  refine ⟨by decide +kernel, (failure_atomic_iff pendingFile _ (.calm 1) inferInstance rfl).mpr
    fun _ => Or.inl ?_⟩
  intro owner howner
  cases howner
  decide +kernel

/-- The rollback fails for the second owner, and the block of the first is empty. -/
theorem rollback_not_atomic : ¬ Atomic pendingFile (.rollback twoOwners) (.calm 1) := by
  intro hatomic
  have hstate := ((hatomic (by decide +kernel)).block 0).state
  exact absurd hstate (by decide +kernel)

end Reffs.Chunk
