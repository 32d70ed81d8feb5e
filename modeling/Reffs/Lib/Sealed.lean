import Reffs.Lib.Bytes

/-!
# Sealed strings

A string of bytes with its checksum behind it, and the check a reader makes of the first bytes of
its input. The checksum is any function of the bytes. What passes the check was sealed, and what was
sealed passes it whatever follows.
-/

namespace ByteCodec

open Dec List

def addSeal (sum : Bytes → UInt32) (bs : Bytes) : Bytes := bs ++ encU32 (sum bs)

/-- Whether the last four of the first `total` bytes are the checksum of those before them. -/
def sealOk (sum : Bytes → UInt32) (bs : Bytes) (total : Nat) : Bool :=
  decide (4 ≤ total) &&
    decide (Dec.whole decU32 ((bs.drop (total - 4)).take 4) = some (sum (bs.take (total - 4))))

@[simp] lemma addSeal_length (sum : Bytes → UInt32) (bs : Bytes) :
    (addSeal sum bs).length = bs.length + 4 := by
  simp [addSeal]

lemma addSeal_of_sealOk {sum : Bytes → UInt32} {bs : Bytes} {total : Nat}
    (h : sealOk sum bs total) : bs.take total = addSeal sum (bs.take (total - 4)) := by
  unfold sealOk at h
  rw [Bool.and_eq_true, decide_eq_true_iff, decide_eq_true_iff] at h
  obtain ⟨h4, hsum⟩ := h
  have hbytes : (bs.drop (total - 4)).take 4 = encU32 (sum (bs.take (total - 4))) :=
    Accepts.whole spells_u32 hsum
  calc bs.take total = bs.take (total - 4 + 4) := by rw [Nat.sub_add_cancel h4]
    _ = bs.take (total - 4) ++ (bs.drop (total - 4)).take 4 := take_add
    _ = addSeal sum (bs.take (total - 4)) := by rw [hbytes, addSeal]

lemma sealOk_addSeal (sum : Bytes → UInt32) (bs rest : Bytes) :
    sealOk sum (addSeal sum bs ++ rest) (bs.length + 4) := by
  have htake : (addSeal sum bs ++ rest).take bs.length = bs := by
    grind [append_assoc, take_left', addSeal]
  have hdrop : ((addSeal sum bs ++ rest).drop bs.length).take 4 = encU32 (sum bs) := by
    rw [addSeal, append_assoc, drop_left' rfl, take_left']
    simp
  unfold sealOk
  rw [Bool.and_eq_true, decide_eq_true_iff, decide_eq_true_iff]
  refine ⟨by omega, ?_⟩
  rw [Nat.add_sub_cancel, htake, hdrop]
  exact (reads_u32 _).whole

end ByteCodec
