import Reffs.D1.Ordinary

/-!
# Taking an ordinary member back

The undo record of an ordinary member is exact: applied to the state the member left, at whatever
point it stopped, it gives the state the member found, and applied to that state it changes nothing.
The second half matters because a refused member is taken back at once, and taken back once more
when its record cannot be made durable.
-/

namespace Reffs.D1

open SlotTable Table

variable {c : Core} {key : ObjKey} {s : ObjectSlot} {o : Object} {fresh : Bool}
  {objects : Table maxObjects Object} {ti : Fin maxTxns} {t : Txn}

/-- `undo` takes the state an operation left back to the state it found, and leaves the latter as it
is. -/
structure TakesBack (c core : Core) (undo : Core → Core) : Prop where
  left : undo core = c
  found : undo c = c

def Outcome.Exact (o : Outcome) (c : Core) : Prop := TakesBack c o.core (undoApply · o.undo)

lemma objectGet_spec (h : objectGet c key = some (s, o, fresh, objects)) :
    (fresh = false ∧ objects = c.objects ∧ c.objects s = some o ∧ o.key = key) ∨
      (fresh ∧ objects = c.objects.set s (Object.fresh key) ∧ c.objects s = none ∧
        o = Object.fresh key ∧ objectFind c key = none) := by
  unfold objectGet at h
  split at h
  · next s' o' hf =>
    obtain ⟨rfl, rfl, rfl, rfl⟩ : s' = s ∧ o' = o ∧ false = fresh ∧ c.objects = objects := by grind
    obtain ⟨hs, hk⟩ := findRow_some hf
    exact .inl ⟨rfl, rfl, hs, by simpa using hk⟩
  · next hf =>
    split at h
    · cases h
    · next s' hs =>
      obtain ⟨rfl, rfl, rfl, rfl⟩ : s' = s ∧ Object.fresh key = o ∧ true = fresh ∧
            c.objects.set s' (Object.fresh key) = objects := by
        simpa using h
      exact .inr ⟨rfl, rfl, spare_some hs, rfl, hf⟩

/-- The object table of a write is taken back: a fresh row is dropped, and the chunk of an old one
is put back when it was remembered. -/
lemma undoObjects_write (h : objectGet c key = some (s, o, fresh, objects)) (i : ChunkIndex)
    {u : Undo} (hf : u.freshObject = if fresh then some s else none)
    (hc : u.chunk = none ∨ u.chunk = some (s, i, o.chunks i)) :
    undoObjects u objects = c.objects ∧ undoObjects u c.objects = c.objects ∧
      (u.chunk = some (s, i, o.chunks i) →
        ∀ ch, undoObjects u (setChunk objects s i ch) = c.objects) := by
  rcases objectGet_spec h with ⟨rfl, rfl, hs, -⟩ | ⟨rfl, rfl, hs, rfl, -⟩ <;>
    rcases hc with hc | hc <;> simp only [undoObjects, hf, hc, dropFresh, if_true, if_false,
      Bool.false_eq_true]
  · simp
  · exact ⟨setChunk_self hs i, setChunk_self hs i, fun _ ch => setChunk_back hs i ch⟩
  · exact ⟨clear_set hs, clear_eq_self hs, by simp⟩
  · refine ⟨setChunk_clear hs _ _ _, ?_, fun _ ch => ?_⟩
    · have : setChunk c.objects s i ((Object.fresh key).chunks i) = c.objects :=
        modify_eq_self fun r hr => by rw [hs] at hr; cases hr
      rw [this, clear_eq_self hs]
    · rw [setChunk_setChunk, setChunk_clear hs]

lemma txn_back {txns : Table maxTxns Txn} (h : txns ti = some t) (phase : Phase) :
    (txns.set ti { t with phase := phase }).modify ti
      (fun r => { r with phase := t.phase, admission := t.admission }) = txns ∧
    txns.modify ti (fun r => { r with phase := t.phase, admission := t.admission }) = txns := by
  refine ⟨?_, modify_eq_self fun r hr => ?_⟩
  · rw [modify_eq_set (set_self _ _ _), set_set]
    exact set_eq_self h
  · obtain rfl : r = t := Option.some.inj (hr.symm.trans h)
    rfl

lemma moved_exact (hs : c.objects s = some o) (i : ChunkIndex) (ht : c.txns ti = some t)
    (phase : Phase) (ch : Chunk) (epoch : UInt64) : TakesBack c
      { c with
        txns := c.txns.set ti { t with phase := phase }
        objects := setChunk c.objects s i ch
        indexEpoch := epoch }
      (undoApply · { undoBegin c with
        txn := some (ti, t.phase, t.admission)
        chunk := some (s, i, o.chunks i) }) := by
  obtain ⟨hback, hsame⟩ := txn_back ht phase
  constructor <;> apply Core.ext <;>
    first | rfl | exact hback | exact hsame | exact setChunk_back hs i _ | exact setChunk_self hs i

end Reffs.D1
