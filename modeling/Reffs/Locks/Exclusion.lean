import Reffs.Locks.Bytes
import Reffs.Locks.Servers

/-!
# Exclusion

What the owners of the locks on a file have been granted and have not given back, in the bytes that
the protocols mean by their ranges, next to the list the servers keep. As long as the last byte of
every granted range is the one the servers compute for it, `lo_match` takes no other owner for the
requester, and no owner object is freed while it is in use, all that is held is held in the list
(`Backed`), so no byte is ever held exclusively by one owner and held by another
(`holding_exclusive`).
-/

namespace Reffs.Locks

open ByteLocks ByteCodec

def Ask.Bytes (a : Ask) (b : Nat) : Prop :=
  a.offset.toNat ≤ b ∧ b < 2 ^ 64 ∧ (a.toEnd = true ∨ b < a.offset.toNat + a.len.toNat)

instance (a : Ask) : DecidablePred a.Bytes := fun _ => inferInstanceAs (Decidable (_ ∧ _))

def Ask.grant (m : Map Owner Nat) (a : Ask) : Map Owner Nat :=
  match a.kind, a.owner with
  | .lock, some owner => m.put owner a.Bytes (some a.exclusive)
  | .unlock, some owner => m.put owner a.Bytes none
  | _, _ => m

structure Granting where
  server : LockState
  holding : Map Owner Nat

def Granting.step (g : Granting) (r : Request) : Granting where
  server := (serve g.server r).2
  holding := match r.ask g.server, (serve g.server r).1 with
    | some a, .granted => a.grant g.holding
    | _, _ => g.holding

/-- The range does not pass the end, and if it is to the end of the file then its length is zero, or
all ones from offset one. -/
def Ask.Covered (a : Ask) : Prop :=
  Fits a.offset a.len ∧ (a.toEnd = true → a.len = 0 ∨ (a.len = allOnes ∧ a.offset = 1))

instance (a : Ask) : Decidable a.Covered := inferInstanceAs (Decidable (_ ∧ _))

/-- `lo_match` takes no lock that stands against the request for the requester's own. -/
def Ask.Discerns (a : Ask) (locks : List Lock) : Prop :=
  ∀ l ∈ locks, l.StandsAgainst a.offset a.len a.exclusive a.owner → a.isMatch l.owner = false

/-- Lock requests are covered and discern, and no request takes the last reference of an owner
object. -/
def LocksWell (g : Granting) (r : Request) : Prop :=
  (∀ a, r.ask g.server = some a → a.kind = .lock → a.Covered ∧ a.Discerns g.server.locks) ∧
    SparesOwners g.server r

/-! ## The bytes of a request and the range in the list -/

lemma Ask.bytes_of_inRange {a : Ask} {b : Nat} (hb : InRange a.offset a.len b) : a.Bytes b := by
  have hlast := (lockEnd a.offset a.len).toNat_lt
  have hle := hb.2
  refine ⟨hb.1, by omega, ?_⟩
  by_cases hlen : a.len = 0
  · exact .inl (a.toEnd_of_zero hlen)
  · right
    by_cases hfits : a.offset.toNat + a.len.toNat ≤ 2 ^ 64
    · have hend := Fits.lockEnd (.inr hfits)
      rw [if_neg hlen] at hend
      have hpos : a.len.toNat ≠ 0 := fun h => hlen (UInt64.toNat_inj.mp h)
      omega
    · -- every byte there is comes before the end of such a range
      omega

theorem Ask.Covered.bytes {a : Ask} (h : a.Covered) (b : Nat) :
    a.Bytes b ↔ InRange a.offset a.len b := by
  refine ⟨?_, Ask.bytes_of_inRange⟩
  rintro ⟨hfirst, hlast, hlen⟩
  refine ⟨hfirst, ?_⟩
  rw [h.1.lockEnd]
  split
  · omega
  · next hzero =>
    rcases hlen with htoEnd | hlen
    · obtain ⟨hones, hone⟩ := (h.2 htoEnd).resolve_left hzero
      rw [hones, hone]
      change b ≤ 1 + (2 ^ 64 - 1) - 1
      omega
    · omega

/-! ## The invariant -/

/-- What is held excludes what it should, and is held in the list. -/
structure Granting.Backed (g : Granting) : Prop where
  exclusive : g.holding.Exclusive
  fit : AllFit g.server.locks
  within : g.holding.Within (held g.server.locks)

lemma Granting.Backed.start {s : LockState} (h : s.locks = []) : Granting.Backed ⟨s, Map.free⟩ where
  exclusive := exclusive_free
  fit := fun l hl => by
    rw [h] at hl
    cases hl
  within := fun _ _ _ hheld => nomatch hheld

lemma Granting.Backed.not_conflicts {g : Granting} (h : g.Backed) {a : Ask} (hcovered : a.Covered)
    (hdiscerns : a.Discerns g.server.locks)
    (hfound : findConflict g.server.locks a.offset a.len a.exclusive a.owner a.isMatch = none) :
    ¬ g.holding.Conflicts a.owner a.Bytes a.exclusive := by
  intro hconflict
  have hbytes : a.Bytes = InRange a.offset a.len := funext fun b => propext (hcovered.bytes b)
  rw [hbytes] at hconflict
  obtain ⟨l, hl, hstands⟩ := (held_conflicts h.fit hcovered.1).mp (h.within.conflicts hconflict)
  have hsome := findConflict_isSome.mpr ⟨l, hl, hstands, fun _ => hdiscerns l hl hstands⟩
  rw [hfound] at hsome
  cases hsome

lemma within_lockAdd {m : Map Owner Nat} {locks : List Lock} (h : m.Within (held locks))
    {lock : Lock} {s : Nat → Prop} [DecidablePred s]
    (hs : ∀ b, s b ↔ InRange lock.offset lock.len b) :
    (m.put lock.owner s (some lock.exclusive)).Within (held (lockAdd locks lock)) := by
  intro o b mode hheld
  by_cases ho : o = lock.owner
  · subst ho
    by_cases hb : s b
    · rw [put_in hb] at hheld
      cases hheld
      refine ⟨_, held_lockAdd_in ((hs b).mp hb), fun hx => ?_⟩
      rw [hx, Bool.true_or]
    · rw [put_out hb] at hheld
      rw [held_lockAdd_out (mt (hs b).mpr hb)]
      exact h lock.owner b mode hheld
  · rw [put_ne ho] at hheld
    rw [held_lockAdd_other ho]
    exact h o b mode hheld

lemma within_lockRemoveWith {s : LockState} (hfit : AllFit s.locks) (memory : Nat → Bool)
    (offset len : UInt64)
    (owner : Owner) : ((held s.locks).put owner (InRange offset len) none).Within
      (held (lockRemoveWith offset len owner (s.entries memory)).2) := by
  have hkeeps {o b p} := @held_lockRemoveWith offset len (s.entries memory) owner o b
    (by rwa [s.entries_fst]) p
  rw [s.entries_fst] at hkeeps
  intro o b mode hheld
  unfold Map.put at hheld
  split at hheld
  · cases hheld
  next hout =>
  obtain ⟨l, hl⟩ := (held_excludes true).mp ⟨mode, hheld, rfl⟩
  refine ⟨_, held_some_of (hkeeps ⟨l, hl⟩ hout).any, fun hmode => decide_eq_true (hkeeps ?_ hout)⟩
  obtain ⟨l, hl⟩ := (held_excludes false).mp ⟨mode, hheld, hmode⟩
  exact ⟨l, hl⟩

lemma Granting.Backed.step {g : Granting} (h : g.Backed) {r : Request} (hr : LocksWell g r) :
    (g.step r).Backed := by
  cases hask : r.ask g.server with
  | none =>
    have hlocks := (serve_refused hr.2 hask).1
    refine ⟨?_, ?_, ?_⟩
    · simp only [Granting.step, hask]
      exact h.exclusive
    · simp only [Granting.step, hlocks]
      exact h.fit
    · simp only [Granting.step, hask, hlocks]
      exact h.within
  | some a =>
    have hholding : (g.step r).holding = match (serve g.server r).1 with
        | .granted => a.grant g.holding
        | _ => g.holding := by grind [Granting.step]
    have hserver : (g.step r).server.locks = (serve g.server r).2.locks := rfl
    have hanswer := serve_answered hr.2 hask
    generalize (serve g.server r).1 = reply at hanswer hholding
    generalize (serve g.server r).2.locks = locks at hanswer hserver
    cases hanswer with
    | conflict => exact ⟨hholding ▸ h.exclusive, hserver ▸ h.fit, hserver ▸ hholding ▸ h.within⟩
    | @locked owner hkind howner hfound =>
      obtain ⟨hcovered, hdiscerns⟩ := hr.1 a hask hkind
      have hfree := h.not_conflicts hcovered hdiscerns hfound
      have hput : (g.step r).holding = g.holding.put owner a.Bytes (some a.exclusive) := by
        grind [Ask.grant]
      rw [howner] at hfree
      constructor
      · rw [hput]
        exact h.exclusive.grant hfree
      · rw [hserver]
        exact h.fit.lockAdd hcovered.1
      · rw [hput, hserver]
        exact @within_lockAdd _ _ h.within ⟨owner, a.offset, a.len, a.exclusive⟩ a.Bytes _
          hcovered.bytes
    | @unlocked owner hkind howner =>
      -- without memory the list keeps more than it should, which backs what is held all the same
      have hput : (g.step r).holding = g.holding.put owner a.Bytes none := by grind [Ask.grant]
      constructor
      · rw [hput]
        exact h.exclusive.clear
      · rw [hserver]
        exact AllFit.lockRemoveWith (by rw [LockState.entries_fst]; exact h.fit)
      · rw [hput, hserver]
        exact (h.within.clear fun b => Ask.bytes_of_inRange).trans
          (within_lockRemoveWith h.fit _ _ _ _)
    | tested hkind hfound =>
      have hput : (g.step r).holding = g.holding := by grind [Ask.grant]
      exact ⟨hput ▸ h.exclusive, hserver ▸ h.fit, hserver ▸ hput ▸ h.within⟩

/-- The first lock of client `n`, which has the file open under stateid `n`. -/
def firstLock (n : Nat) (locktype : LockType) (offset length : UInt64) : Request :=
  .lock ⟨n, true, false, none⟩
    ⟨locktype, false, offset, length, .newOwner (some ⟨1, UInt32.ofNat n, tagOpen, 7⟩) 5
      [UInt8.ofNat n]⟩
    (UInt32.ofNat (n + 10), 7) (fun _ => false)

end Reffs.Locks
