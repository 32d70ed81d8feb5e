import Reffs.Lib.Bytes

/-!
# The list of byte-range locks

`reffs_lock_range_overlap`, `reffs_lock_find_conflict`, `reffs_lock_add` and `reffs_lock_remove`:
the locks of one inode are a list of ranges, each with its owner and mode. A range is an offset and
a length, both 64 bits wide; length zero means to the end. The last byte of a range is computed
modulo `2 ^ 64`, so a range that passes the end has its last byte before its first (`lockEnd`).
Ranges that do not (`Fits`) are intervals of bytes, and for them the functions do what their names
say.
-/

namespace Reffs.Locks

open ByteCodec List UInt64

/-- Whose lock it is: `struct reffs_lock_owner` as its two users extend it. An NFSv4 owner is an
object of its own (`object` tells it from the others); NLM keeps one owner object for each name. -/
inductive Owner where
  | nfs4 (object : Nat) (clientid : UInt64) (owner : Bytes)
  | nlm (svid : UInt32) (oh caller : Bytes)
  deriving DecidableEq, Repr

structure Lock where
  owner : Owner
  offset : UInt64
  len : UInt64
  exclusive : Bool
  deriving DecidableEq, Repr

/-- `UINT64_MAX`, which is also the length that means "to the end of the file" in NFSv4. -/
def allOnes : UInt64 := 0xffffffffffffffff

def lockEnd (offset len : UInt64) : UInt64 := if len = 0 then allOnes else offset + len - 1

def rangeOverlap (off1 len1 off2 len2 : UInt64) : Bool :=
  off1 ≤ lockEnd off2 len2 && off2 ≤ lockEnd off1 len1

/-- The first lock that stands in the way of a range. A lock of `owner` does not, nor one whose
owner `lo_match` takes for the same; without an owner every lock may. -/
def findConflict (locks : List Lock) (offset len : UInt64) (exclusive : Bool) (owner : Option Owner)
    (isMatch : Owner → Bool) : Option Lock :=
  locks.find? fun rl =>
    (exclusive || rl.exclusive) && !(owner.any fun o => rl.owner == o || isMatch rl.owner) &&
      rangeOverlap rl.offset rl.len offset len

def Lock.sameRange (lock le : Lock) : Bool :=
  le.owner == lock.owner && le.offset == lock.offset && le.len == lock.len

/-- Put the mode of `lock` on the first entry of the same range, if there is one. -/
def setMode (lock : Lock) : List Lock → Option (List Lock)
  | [] => none
  | le :: rest =>
    if lock.sameRange le then some ({ le with exclusive := lock.exclusive } :: rest)
    else (setMode lock rest).map (le :: ·)

def lockAdd (locks : List Lock) (lock : Lock) : List Lock :=
  (setMode lock locks).getD (lock :: locks)

/-- What an unlocked range leaves of an entry it overlaps: nothing, the entry with a part cut off,
or the entry and a new one behind it. -/
def lockCut (offset len : UInt64) (le : Lock) : List Lock :=
  let uEnd := lockEnd offset len
  let lEnd := lockEnd le.offset le.len
  let front := { le with len := offset - le.offset }
  let back := { le with
    offset := uEnd + 1
    len := if le.len = 0 then 0 else lEnd - (uEnd + 1) + 1 }
  if offset ≤ le.offset ∧ uEnd ≥ lEnd then []
  else if offset > le.offset ∧ uEnd < lEnd then [front, back]
  else if offset ≤ le.offset then [back]
  else [front]

/-- What `reffs_lock_remove` leaves of an entry. -/
def lockLeft (offset len : UInt64) (owner : Owner) (le : Lock) : List Lock :=
  if le.owner ≠ owner then [le]
  else if !rangeOverlap le.offset le.len offset len then [le]
  else lockCut offset len le

/-- `reffs_lock_remove`, when there is memory for every lock that is split. -/
def lockRemove (locks : List Lock) (offset len : UInt64) (owner : Owner) : List Lock :=
  locks.flatMap (lockLeft offset len owner)

/-- `reffs_lock_remove` on entries that each come with the allocator's answer, should a split ask
for it. At a refusal it returns `-ENOMEM`, with the entries before as it has left them. -/
def lockRemoveWith (offset len : UInt64) (owner : Owner) : List (Lock × Bool) → Bool × List Lock
  | [] => (true, [])
  | (le, memory) :: rest =>
    let left := lockLeft offset len owner le
    if left.length = 2 ∧ memory = false then (false, le :: rest.map Prod.fst)
    else
      let (ok, more) := lockRemoveWith offset len owner rest
      (ok, left ++ more)

/-- The count of an object that is freed when it comes to zero, and is not counted any more. -/
def getRef (n : Nat) : Nat := if n = 0 then 0 else n + 1

def putRef (n : Nat) : Nat := n - 1

/-- The references to the owner in the course of `reffs_lock_remove`: an entry that goes puts one,
and a split gets one. -/
def removeRefs (offset len : UInt64) (owner : Owner) : List (Lock × Bool) → Nat → Nat
  | [], n => n
  | (le, memory) :: rest, n =>
    match (lockLeft offset len owner le).length with
    | 0 => removeRefs offset len owner rest (putRef n)
    | 2 => if memory = false then n else removeRefs offset len owner rest (getRef n)
    | _ => removeRefs offset len owner rest n

/-! ## Ranges as intervals -/

def Fits (offset len : UInt64) : Prop := len = 0 ∨ offset.toNat + len.toNat ≤ 2 ^ 64

instance (offset len : UInt64) : Decidable (Fits offset len) := inferInstanceAs (Decidable (_ ∨ _))

/-- Byte `b` is between the first and the last byte of the range. -/
def InRange (offset len : UInt64) (b : Nat) : Prop :=
  offset.toNat ≤ b ∧ b ≤ (lockEnd offset len).toNat

instance (offset len : UInt64) (b : Nat) : Decidable (InRange offset len b) :=
  inferInstanceAs (Decidable (_ ∧ _))

section

variable {offset len off1 len1 off2 len2 : UInt64}

lemma Fits.lockEnd (h : Fits offset len) : (lockEnd offset len).toNat =
    if len = 0 then 2 ^ 64 - 1 else offset.toNat + len.toNat - 1 := by
  unfold Locks.lockEnd
  split
  · rfl
  · next hlen =>
    have hfits := h.resolve_left hlen
    have hpos : 0 < len.toNat := by
      refine Nat.pos_of_ne_zero fun hzero => hlen ?_
      exact UInt64.toNat_inj.mp hzero
    have hone : (1 : UInt64).toNat = 1 := rfl
    rw [UInt64.toNat_sub, UInt64.toNat_add, hone]
    omega

lemma Fits.first_le (h : Fits offset len) : offset.toNat ≤ (Locks.lockEnd offset len).toNat := by
  rw [h.lockEnd]
  have hlt := offset.toNat_lt
  split
  · omega
  · next hlen =>
    have hpos : len.toNat ≠ 0 := fun hzero => hlen (UInt64.toNat_inj.mp hzero)
    omega

lemma rangeOverlap_iff : rangeOverlap off1 len1 off2 len2 ↔
    off1.toNat ≤ (lockEnd off2 len2).toNat ∧ off2.toNat ≤ (lockEnd off1 len1).toNat := by
  unfold rangeOverlap
  rw [Bool.and_eq_true, decide_eq_true_eq, decide_eq_true_eq, le_iff_toNat_le, le_iff_toNat_le]

theorem rangeOverlap_inRange (h1 : Fits off1 len1) (h2 : Fits off2 len2) :
    rangeOverlap off1 len1 off2 len2 ↔ ∃ b, InRange off1 len1 b ∧ InRange off2 len2 b := by
  rw [rangeOverlap_iff]
  have hfirst := h1.first_le
  have hfirst' := h2.first_le
  unfold InRange
  constructor
  · rintro ⟨h12, h21⟩
    exact ⟨max off1.toNat off2.toNat, by omega, by omega⟩
  · rintro ⟨b, hb1, hb2⟩
    omega

end

/-! ## Cutting an entry -/

section

variable {le : Lock} {offset len : UInt64}

lemma front_range (h : le.offset.toNat < offset.toNat) : Fits le.offset (offset - le.offset) ∧
      (lockEnd le.offset (offset - le.offset)).toNat = offset.toNat - 1 := by
  have hlt := offset.toNat_lt
  have hsub : (offset - le.offset).toNat = offset.toNat - le.offset.toNat :=
    UInt64.toNat_sub_of_le _ _ (UInt64.le_iff_toNat_le.mpr h.le)
  have hfits : Fits le.offset (offset - le.offset) := .inr (by omega)
  refine ⟨hfits, ?_⟩
  rw [hfits.lockEnd, if_neg]
  · omega
  · intro hzero
    have : (0 : UInt64).toNat = 0 := rfl
    rw [hzero] at hsub
    omega

lemma back_range {uEnd : UInt64} (h : uEnd.toNat < (lockEnd le.offset le.len).toNat) :
    let len := if le.len = 0 then 0 else lockEnd le.offset le.len - (uEnd + 1) + 1
    (uEnd + 1).toNat = uEnd.toNat + 1 ∧ Fits (uEnd + 1) len ∧
      lockEnd (uEnd + 1) len = lockEnd le.offset le.len := by
  have hlt := (lockEnd le.offset le.len).toNat_lt
  have hone : (1 : UInt64).toNat = 1 := rfl
  have hnext : (uEnd + 1).toNat = uEnd.toNat + 1 := by
    rw [UInt64.toNat_add, hone]
    omega
  refine ⟨hnext, ?_⟩
  split
  · next hzero =>
    refine ⟨.inl rfl, ?_⟩
    unfold lockEnd
    rw [if_pos rfl, if_pos hzero]
  · next hlen =>
    generalize hend : lockEnd le.offset le.len = lEnd at h hlt ⊢
    have hsub : (lEnd - (uEnd + 1) + 1).toNat = lEnd.toNat - uEnd.toNat := by
      rw [UInt64.toNat_add, UInt64.toNat_sub_of_le _ _ (UInt64.le_iff_toNat_le.mpr (by omega)),
        hnext, hone]
      omega
    have hfits : Fits (uEnd + 1) (lEnd - (uEnd + 1) + 1) := .inr (by omega)
    refine ⟨hfits, UInt64.toNat_inj.mp ?_⟩
    rw [hfits.lockEnd, if_neg]
    · omega
    · grind

/-- The parts that are left of an entry: what they cover is what it covered, without the bytes
between the first and the last byte that is unlocked. A range that passes the end has no such bytes,
and then the parts overlap. -/
lemma lockCut_spec (hle : Fits le.offset le.len)
    (hover : rangeOverlap le.offset le.len offset len) :
    (∀ p ∈ lockCut offset len le, p.owner = le.owner ∧ p.exclusive = le.exclusive ∧
      Fits p.offset p.len) ∧
    ∀ b, (∃ p ∈ lockCut offset len le, InRange p.offset p.len b) ↔
      InRange le.offset le.len b ∧ ¬ InRange offset len b := by
  obtain ⟨hfirst, hlast⟩ := rangeOverlap_iff.mp hover
  have hordered := hle.first_le
  unfold lockCut InRange
  dsimp only
  generalize lockEnd offset len = uEnd at hfirst
  by_cases hall : offset ≤ le.offset ∧ uEnd ≥ lockEnd le.offset le.len
  · rw [if_pos hall]
    rw [ge_iff_le, le_iff_toNat_le, le_iff_toNat_le] at hall
    refine ⟨fun p hp => (nomatch hp), fun b => ?_⟩
    simp only [not_mem_nil, false_and, exists_false, false_iff]
    omega
  rw [if_neg hall]
  rw [ge_iff_le, le_iff_toNat_le, le_iff_toNat_le] at hall
  by_cases hmiddle : offset > le.offset ∧ uEnd < lockEnd le.offset le.len
  · rw [if_pos hmiddle]
    rw [gt_iff_lt, lt_iff_toNat_lt, lt_iff_toNat_lt] at hmiddle
    obtain ⟨hfront, hfrontEnd⟩ := front_range hmiddle.1
    obtain ⟨hnext, hback, hbackEnd⟩ := back_range hmiddle.2
    refine ⟨fun p hp => ?_, fun b => ?_⟩
    · grind
    · simp only [mem_cons, not_mem_nil, or_false, exists_eq_or_imp, exists_eq_left,
        hfrontEnd, hbackEnd, hnext]
      omega
  rw [if_neg hmiddle]
  rw [gt_iff_lt, lt_iff_toNat_lt, lt_iff_toNat_lt] at hmiddle
  by_cases hhead : offset ≤ le.offset
  · rw [if_pos hhead]
    rw [le_iff_toNat_le] at hhead
    obtain ⟨hnext, hback, hbackEnd⟩ := @back_range le uEnd (by omega)
    refine ⟨fun p hp => ?_, fun b => ?_⟩
    · rw [mem_singleton] at hp
      exact hp ▸ ⟨rfl, rfl, hback⟩
    · simp only [mem_singleton, exists_eq_left, hbackEnd, hnext]
      omega
  · rw [if_neg hhead]
    rw [le_iff_toNat_le] at hhead
    obtain ⟨hfront, hfrontEnd⟩ := @front_range le offset (by omega)
    refine ⟨fun p hp => ?_, fun b => ?_⟩
    · rw [mem_singleton] at hp
      exact hp ▸ ⟨rfl, rfl, hfront⟩
    · simp only [mem_singleton, exists_eq_left, hfrontEnd]
      omega

end

end Reffs.Locks
