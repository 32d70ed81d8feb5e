import Reffs.Lib.ByteLocks
import Reffs.Locks.List

/-!
# The lock list, byte by byte

`held` reads a list of locks as a map from owners and bytes to modes: a byte is held exclusively if
one of the owner's locks on it is exclusive. What the list operations do to that map, for ranges
that fit: removing clears exactly the bytes of the range (`held_lockRemove`) unless memory is short,
which leaves all of them to their owner (`unlock_bytes`), a conflict is found if the map has one
(`findConflict_isSome`), and adding gives the bytes of the range the requested mode or leaves them
exclusive where another lock of the same owner makes them so (`held_lockAdd`).
-/

namespace Reffs.Locks

open ByteLocks List Option

variable {offset len : UInt64} {lock l : Lock}

/-- One of the owner's locks on the byte has a mode that satisfies `p`. -/
def Held (locks : List Lock) (o : Owner) (b : Nat) (p : Bool → Bool) : Prop :=
  ∃ l ∈ locks, l.owner = o ∧ p l.exclusive = true ∧ InRange l.offset l.len b

instance (locks : List Lock) (o : Owner) (b : Nat) (p : Bool → Bool) :
    Decidable (Held locks o b p) := inferInstanceAs (Decidable (∃ l ∈ locks, _))

def isAny : Bool → Bool := fun _ => true

def held (locks : List Lock) : Map Owner Nat := fun o b =>
  if Held locks o b id then some true else if Held locks o b isAny then some false else none

def AllFit (locks : List Lock) : Prop := ∀ l ∈ locks, Fits l.offset l.len

section

variable {locks : List Lock} {o : Owner} {b : Nat}

lemma Held.any {p : Bool → Bool} (h : Held locks o b p) : Held locks o b isAny := by
  obtain ⟨l, hl, ho, -, hb⟩ := h
  exact ⟨l, hl, ho, rfl, hb⟩

lemma held_congr {locks' : List Lock} (h : ∀ p, Held locks' o b p ↔ Held locks o b p) :
    held locks' o b = held locks o b := by
  unfold held
  simp only [h]

lemma held_some_of (h : Held locks o b isAny) :
    held locks o b = some (decide (Held locks o b id)) := by
  unfold held
  by_cases hx : Held locks o b id
  · rw [if_pos hx, decide_eq_true hx]
  · rw [if_neg hx, if_pos h, decide_eq_false hx]

lemma held_excludes (exclusive : Bool) :
    (∃ mode, held locks o b = some mode ∧ (exclusive || mode)) ↔
      Held locks o b (exclusive || ·) := by
  constructor
  · rintro ⟨mode, hheld, hmode⟩
    unfold held at hheld
    split at hheld
    · next hx =>
      obtain ⟨l, hl, ho, hp, hb⟩ := hx
      refine ⟨l, hl, ho, ?_, hb⟩
      change (exclusive || l.exclusive)
      rw [show l.exclusive from hp, Bool.or_true]
    · split at hheld
      · next hx =>
        obtain ⟨l, hl, ho, -, hb⟩ := hx
        cases hheld
        rw [Bool.or_false] at hmode
        exact ⟨l, hl, ho, by rw [hmode]; rfl, hb⟩
      · cases hheld
  · rintro ⟨l, hl, ho, hp, hb⟩
    refine ⟨_, held_some_of ⟨l, hl, ho, rfl, hb⟩, ?_⟩
    cases hx : l.exclusive with
    | true => rw [decide_eq_true ⟨l, hl, ho, hx, hb⟩, Bool.or_true]
    | false => grind

/-! ## Finding a conflict -/

/-- A lock of another owner than `owner` that excludes the range. -/
def Lock.StandsAgainst (l : Lock) (offset len : UInt64) (exclusive : Bool) (owner : Option Owner) :
    Prop :=
  some l.owner ≠ owner ∧ (exclusive || l.exclusive) = true ∧
    rangeOverlap l.offset l.len offset len = true

lemma findConflict_isSome {exclusive : Bool} {owner : Option Owner} {isMatch : Owner → Bool} :
    (findConflict locks offset len exclusive owner isMatch).isSome ↔
      ∃ l ∈ locks, l.StandsAgainst offset len exclusive owner ∧
        (owner.isSome → isMatch l.owner = false) := by
  unfold findConflict Lock.StandsAgainst
  rw [find?_isSome]
  refine exists_congr fun l => and_congr_right fun _ => ?_
  cases owner with
  | none => simp
  | some o => simp; grind

/-- **The map has a conflict if a lock of another owner stands against the range.** -/
theorem held_conflicts (hfit : AllFit locks) (hrange : Fits offset len) {exclusive : Bool}
    {owner : Option Owner} : (held locks).Conflicts owner (InRange offset len) exclusive ↔
      ∃ l ∈ locks, l.StandsAgainst offset len exclusive owner := by
  constructor
  · rintro ⟨o, b, mode, hne, hb, hheld, hmode⟩
    obtain ⟨l, hl, rfl, hp, hlb⟩ := (held_excludes exclusive).mp ⟨mode, hheld, hmode⟩
    exact ⟨l, hl, hne, hp, (rangeOverlap_inRange (hfit l hl) hrange).mpr ⟨b, hlb, hb⟩⟩
  · rintro ⟨l, hl, hne, hp, hover⟩
    obtain ⟨b, hlb, hb⟩ := (rangeOverlap_inRange (hfit l hl) hrange).mp hover
    obtain ⟨mode, hheld, hmode⟩ := (held_excludes exclusive).mpr ⟨l, hl, rfl, hp, hlb⟩
    exact ⟨l.owner, b, mode, hne, hb, hheld, hmode⟩

/-! ## Adding -/

lemma sameRange_iff {le : Lock} : lock.sameRange le ↔
    le.owner = lock.owner ∧ le.offset = lock.offset ∧ le.len = lock.len := by
  unfold Lock.sameRange
  rw [Bool.and_eq_true, Bool.and_eq_true, beq_iff_eq, beq_iff_eq, beq_iff_eq, and_assoc]

lemma mem_lockAdd : l ∈ lockAdd locks lock ↔ l = lock ∨ l ∈ locks.eraseP lock.sameRange := by
  have hset : ∀ locks', setMode lock locks = some locks' →
      (l ∈ locks' ↔ l = lock ∨ l ∈ locks.eraseP lock.sameRange) := by
    induction locks with
    | nil => exact fun _ h => nomatch h
    | cons le rest ih =>
      intro locks' h
      unfold setMode at h
      by_cases hsame : lock.sameRange le
      · rw [if_pos hsame] at h
        obtain ⟨howner, hoffset, hlen⟩ := sameRange_iff.mp hsame
        have hlock : { le with exclusive := lock.exclusive } = lock := by
          rw [howner, hoffset, hlen]
        rw [← some.inj h, hlock, eraseP_cons_of_pos hsame, mem_cons]
      · rw [if_neg hsame] at h
        obtain ⟨rest', hrest, rfl⟩ := map_eq_some_iff.mp h
        rw [eraseP_cons_of_neg hsame, mem_cons, mem_cons, ih rest' hrest]
        exact or_left_comm
  unfold lockAdd
  cases h : setMode lock locks with
  | some locks' => exact hset locks' h
  | none =>
    have hnone : ∀ le ∈ locks, ¬ lock.sameRange le := by
      clear hset
      induction locks with
      | nil => exact fun _ hle => nomatch hle
      | cons le rest ih =>
        unfold setMode at h
        by_cases hsame : lock.sameRange le
        · rw [if_pos hsame] at h
          cases h
        · rw [if_neg hsame] at h
          intro le' hle'
          rcases mem_cons.mp hle' with rfl | hle'
          · exact hsame
          · exact ih (map_eq_none_iff.mp h) le' hle'
    rw [getD_none, mem_cons, eraseP_of_forall_not hnone]

lemma mem_eraseP_or (h : l ∈ locks) : l ∈ locks.eraseP lock.sameRange ∨ lock.sameRange l := by
  by_cases hsame : lock.sameRange l
  · exact .inr hsame
  · exact .inl ((mem_eraseP_of_neg hsame).mpr h)

lemma held_lockAdd_apart
    (h : ∀ l, l = lock ∨ lock.sameRange l → l.owner = o → ¬ InRange l.offset l.len b) :
    held (lockAdd locks lock) o b = held locks o b := by
  refine held_congr fun p => ?_
  constructor
  · rintro ⟨l, hl, ho, hp, hb⟩
    rcases mem_lockAdd.mp hl with rfl | hl
    · exact absurd hb (h l (.inl rfl) ho)
    · exact ⟨l, mem_of_mem_eraseP hl, ho, hp, hb⟩
  · rintro ⟨l, hl, ho, hp, hb⟩
    refine ⟨l, mem_lockAdd.mpr (.inr ?_), ho, hp, hb⟩
    exact (mem_eraseP_or hl).resolve_right fun hs => h l (.inr hs) ho hb

lemma held_lockAdd_other (h : o ≠ lock.owner) : held (lockAdd locks lock) o = held locks o := by
  refine funext fun b => held_lockAdd_apart fun l hl ho => absurd ?_ h
  rcases hl with rfl | hs
  exacts [ho.symm, ho.symm.trans (sameRange_iff.mp hs).1]

lemma held_lockAdd_out (h : ¬ InRange lock.offset lock.len b) :
    held (lockAdd locks lock) lock.owner b = held locks lock.owner b := by
  refine held_lockAdd_apart fun l hl _ => ?_
  rcases hl with rfl | hs
  · exact h
  · obtain ⟨-, hoffset, hlen⟩ := sameRange_iff.mp hs
    rwa [hoffset, hlen]

/-- **On the bytes of the request** the mode is the requested one, or stays exclusive where a lock
of the owner that the request does not replace is. -/
theorem held_lockAdd_in (h : InRange lock.offset lock.len b) :
    held (lockAdd locks lock) lock.owner b = some (lock.exclusive ||
      decide (Held (locks.eraseP lock.sameRange) lock.owner b id)) := by
  rw [held_some_of ⟨lock, mem_lockAdd.mpr (.inl rfl), rfl, rfl, h⟩]
  congr 1
  rw [Bool.eq_iff_iff, decide_eq_true_eq, Bool.or_eq_true, decide_eq_true_eq]
  constructor
  · rintro ⟨l, hl, ho, hp, hb⟩
    rcases mem_lockAdd.mp hl with rfl | hl
    · exact .inl hp
    · exact .inr ⟨l, hl, ho, hp, hb⟩
  · rintro (hx | ⟨l, hl, ho, hp, hb⟩)
    · exact ⟨lock, mem_lockAdd.mpr (.inl rfl), rfl, hx, h⟩
    · exact ⟨l, mem_lockAdd.mpr (.inr hl), ho, hp, hb⟩

lemma AllFit.lockAdd (h : AllFit locks) (hlock : Fits lock.offset lock.len) :
    AllFit (lockAdd locks lock) := by
  intro l hl
  rcases mem_lockAdd.mp hl with rfl | hl
  · exact hlock
  · exact h l (mem_of_mem_eraseP hl)

/-! ## Removing -/

lemma mem_lockRemove {owner : Owner} : l ∈ lockRemove locks offset len owner ↔ ∃ le ∈ locks,
      if le.owner = owner ∧ rangeOverlap le.offset le.len offset len then l ∈ lockCut offset len le
      else l = le := by
  grind [lockRemove, lockLeft]

lemma AllFit.lockRemove (h : AllFit locks) (offset len : UInt64) (owner : Owner) :
    AllFit (lockRemove locks offset len owner) := by
  intro l hl
  obtain ⟨le, hle, hl⟩ := mem_lockRemove.mp hl
  split at hl
  · next hcut => exact ((lockCut_spec (h le hle) hcut.2).1 l hl).2.2
  · exact hl ▸ h le hle

lemma held_lockRemove_iff (hfit : AllFit locks) {owner : Owner} {p : Bool → Bool} :
    Held (lockRemove locks offset len owner) o b p ↔
      Held locks o b p ∧ ¬ (o = owner ∧ InRange offset len b) := by
  constructor
  · rintro ⟨l, hl, ho, hp, hb⟩
    obtain ⟨le, hle, hl⟩ := mem_lockRemove.mp hl
    split at hl
    · next hcut =>
      obtain ⟨hpart, hbytes⟩ := lockCut_spec (hfit le hle) hcut.2
      obtain ⟨howner, hmode, -⟩ := hpart l hl
      obtain ⟨hin, hout⟩ := (hbytes b).mp ⟨l, hl, hb⟩
      exact ⟨⟨le, hle, howner ▸ ho, hmode ▸ hp, hin⟩, fun hat => hout hat.2⟩
    · next hkeep =>
      subst hl
      refine ⟨⟨l, hle, ho, hp, hb⟩, fun hat => hkeep ⟨ho.trans hat.1, ?_⟩⟩
      exact rangeOverlap_iff.mpr ⟨hb.1.trans hat.2.2, hat.2.1.trans hb.2⟩
  · rintro ⟨⟨le, hle, ho, hp, hb⟩, hout⟩
    by_cases hcut : le.owner = owner ∧ rangeOverlap le.offset le.len offset len
    · obtain ⟨hpart, hbytes⟩ := lockCut_spec (hfit le hle) hcut.2
      have hnot : ¬ InRange offset len b := fun hin => hout ⟨ho.symm.trans hcut.1, hin⟩
      obtain ⟨l, hl, hlb⟩ := (hbytes b).mpr ⟨hb, hnot⟩
      obtain ⟨howner, hmode, -⟩ := hpart l hl
      refine ⟨l, mem_lockRemove.mpr ⟨le, hle, ?_⟩, howner.trans ho, hmode ▸ hp, hlb⟩
      rw [if_pos hcut]
      exact hl
    · refine ⟨le, mem_lockRemove.mpr ⟨le, hle, ?_⟩, ho, hp, hb⟩
      rw [if_neg hcut]

end

/-! ## Unlocking without memory -/

/-- Where a removal stops for want of memory: at a lock of the owner that has bytes on both sides of
the range. -/
def Stopped (offset len : UInt64) (owner : Owner) (locks : List (Lock × Bool)) (left : List Lock) :
    Prop :=
  ∃ before le after, locks = before ++ (le, false) :: after ∧
    left = lockRemove (before.map Prod.fst) offset len owner ++ le :: after.map Prod.fst ∧
    le.owner = owner ∧ le.offset < offset ∧ lockEnd offset len < lockEnd le.offset le.len

lemma inRange_of_split {le : Lock} {b : Nat}
    (h : le.offset < offset ∧ lockEnd offset len < lockEnd le.offset le.len)
    (hb : InRange offset len b) : InRange le.offset le.len b := by
  rw [UInt64.lt_iff_toNat_lt, UInt64.lt_iff_toNat_lt] at h
  exact ⟨h.1.le.trans hb.1, hb.2.trans h.2.le⟩

lemma lockLeft_split {owner : Owner} {le : Lock} (h : (lockLeft offset len owner le).length = 2) :
    le.owner = owner ∧ le.offset < offset ∧ lockEnd offset len < lockEnd le.offset le.len := by
  grind [lockLeft, lockCut]

lemma lockRemoveWith_cases (offset len : UInt64) (owner : Owner) (locks : List (Lock × Bool)) :
    ((lockRemoveWith offset len owner locks).1 = true ∧
      (lockRemoveWith offset len owner locks).2 =
        lockRemove (locks.map Prod.fst) offset len owner) ∨
    ((lockRemoveWith offset len owner locks).1 = false ∧
      Stopped offset len owner locks (lockRemoveWith offset len owner locks).2) := by
  induction locks with
  | nil => exact .inl ⟨rfl, rfl⟩
  | cons l rest ih =>
    obtain ⟨le, memory⟩ := l
    unfold lockRemoveWith
    dsimp only
    by_cases hstop : (lockLeft offset len owner le).length = 2 ∧ memory = false
    · rw [if_pos hstop]
      obtain ⟨hsplit, rfl⟩ := hstop
      exact .inr ⟨rfl, [], le, rest, rfl, rfl, lockLeft_split hsplit⟩
    rw [if_neg hstop]
    rcases ih with ⟨hok, hleft⟩ | ⟨hok, before, le', after, rfl, hleft, hrest⟩
    · exact .inl ⟨hok, congrArg (lockLeft offset len owner le ++ ·) hleft⟩
    · refine .inr ⟨hok, (le, memory) :: before, le', after, rfl, ?_, hrest⟩
      dsimp only
      rw [hleft, map_cons, lockRemove, lockRemove, flatMap_cons, append_assoc]

section

variable {locks : List (Lock × Bool)} {owner o : Owner} {b : Nat}
    (hfit : AllFit (locks.map Prod.fst))

include hfit

lemma AllFit.lockRemoveWith : AllFit (lockRemoveWith offset len owner locks).2 := by
  rcases lockRemoveWith_cases offset len owner locks with ⟨-, hleft⟩ | ⟨-, before, le, after, rfl,
    hleft, -⟩
  · rw [hleft]
    exact hfit.lockRemove _ _ _
  · rw [hleft]
    rw [map_append] at hfit
    obtain ⟨hbefore, hafter⟩ := forall_mem_append.mp hfit
    exact forall_mem_append.mpr ⟨AllFit.lockRemove hbefore _ _ _, hafter⟩

lemma held_lockRemoveWith {p : Bool → Bool} (h : Held (locks.map Prod.fst) o b p)
    (hout : ¬ (o = owner ∧ InRange offset len b)) :
    Held (Locks.lockRemoveWith offset len owner locks).2 o b p := by
  rcases lockRemoveWith_cases offset len owner locks with ⟨-, hleft⟩ | ⟨-, before, le, after, rfl,
    hleft, -⟩
  · rw [hleft]
    exact (held_lockRemove_iff hfit).mpr ⟨h, hout⟩
  · rw [hleft]
    rw [map_append] at hfit h
    obtain ⟨l, hl, hat⟩ := h
    rcases mem_append.mp hl with hl | hl
    · obtain ⟨l', hl', hat'⟩ :=
        (held_lockRemove_iff (forall_mem_append.mp hfit).1).mpr ⟨⟨l, hl, hat⟩, hout⟩
      exact ⟨l', mem_append_left _ hl', hat'⟩
    · exact ⟨l, mem_append_right _ hl, hat⟩

end

/-- **Unlocking takes the bytes of the range from their owner**, in every mode, and no other byte
from anyone: whenever it succeeds, and it does when it gets the memory it asks for. When it does
not, it stops at the lock that it cannot split: that one and those behind it stay as they are, and
hold the bytes of the range. -/
theorem unlock_bytes (locks : List (Lock × Bool)) (hfit : AllFit (locks.map Prod.fst))
    (offset len : UInt64)
    (owner : Owner) :
    ((∀ l ∈ locks, l.2 = true) → (lockRemoveWith offset len owner locks).1 = true) ∧
      ((lockRemoveWith offset len owner locks).1 = true → ∀ o b mode,
        Held (lockRemoveWith offset len owner locks).2 o b mode ↔
          Held (locks.map Prod.fst) o b mode ∧ ¬ (o = owner ∧ InRange offset len b)) ∧
      ((lockRemoveWith offset len owner locks).1 = false → ∃ before le after,
        locks = before ++ (le, false) :: after ∧
        (lockRemoveWith offset len owner locks).2 =
          lockRemove (before.map Prod.fst) offset len owner ++ le :: after.map Prod.fst ∧
        ∀ b, InRange offset len b → le.owner = owner ∧ InRange le.offset le.len b) := by
  refine ⟨fun hall => ?_, fun hok o b mode => ?_, fun hfail => ?_⟩
  · clear hfit
    induction locks with
    | nil => rfl
    | cons l rest ih =>
      obtain ⟨hfirst, hrest⟩ := forall_mem_cons.mp hall
      unfold lockRemoveWith
      rw [if_neg fun h => Bool.noConfusion (hfirst.symm.trans h.2)]
      exact ih hrest
  · rcases lockRemoveWith_cases offset len owner locks with ⟨-, hleft⟩ | ⟨hfail, -⟩
    · rw [hleft]
      exact held_lockRemove_iff hfit
    · cases hok.symm.trans hfail
  · rcases lockRemoveWith_cases offset len owner locks with ⟨hok, -⟩ | ⟨-, before, le, after, h,
      hleft, hsplit⟩
    · cases hok.symm.trans hfail
    · exact ⟨before, le, after, h, hleft, fun b hb => ⟨hsplit.1, inRange_of_split hsplit.2 hb⟩⟩

theorem unlock_bytes_middle :
    let locks : List (Lock × Bool) := [(⟨.nlm 1 [] [], 0, 0, true⟩, true)]
    ¬ Held (lockRemoveWith 4 2 (.nlm 1 [] []) locks).2 (.nlm 1 [] []) 5 isAny := by
  intro locks h
  have hfit : AllFit (locks.map Prod.fst) := by
    unfold AllFit
    decide
  exact (((unlock_bytes locks hfit 4 2 (.nlm 1 [] [])).2.1 (by decide) _ 5 _).mp h).2 (by decide)

/-- Without memory for the second half of a lock, the bytes between the halves stay locked. -/
theorem unlock_noMemory :
    let locks : List (Lock × Bool) := [(⟨.nlm 1 [] [], 0, 10, true⟩, false)]
    Held (lockRemoveWith 4 2 (.nlm 1 [] []) locks).2 (.nlm 1 [] []) 4 isAny ∧ InRange 4 2 4 := by
  decide

end Reffs.Locks
