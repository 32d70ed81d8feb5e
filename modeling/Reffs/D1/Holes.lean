import Reffs.D1.Extents

/-!
# Holes

`d1_store_holes` walks the chunks of an object in order and reports what lies between the bytes they
show, up to the end of the file (`storeHoles_complement`). A repair can leave a chunk longer than
its place (`prepareRepair_overruns`), so extents may overlap; the walk goes by the furthest end so
far.
-/

namespace Reffs.D1

open List

abbrev Interval := UInt64 × UInt64

def Interval.Has (e : Interval) (x : UInt64) : Prop := e.1 ≤ x ∧ x < e.2

/-- The bytes of the file that chunk `i` shows. -/
def chunkExtent (c : Core) (o : Object) (i : ChunkIndex) : Option Interval := do
  let stop ← chunkEnd c o i
  let start ← mulU64 (UInt64.ofNat i.val) c.chunkBytes.toUInt64
  return (start, stop)

def chunkExtents (c : Core) (o : Object) : List Interval :=
  (finRange maxChunks).filterMap (chunkExtent c o)

def further (pos : UInt64) (e : Interval) : UInt64 := if e.2 > pos then e.2 else pos

/-- The loop of `d1_holes_locked`, with room for `room` intervals more. -/
def holesLoop : List Interval → Nat → UInt64 → List Interval
  | [], _, _ => []
  | e :: l, room, pos =>
    if e.1 > pos then
      match room with
      | 0 => []
      | room + 1 => (pos, e.1) :: holesLoop l room (further pos e)
    else holesLoop l room (further pos e)

def holesLocked (c : Core) (object : ObjKey) (max : Nat) : List Interval :=
  match objectFind c object with
  | none => []
  | some (_, o) => if eofLocked c object = 0 then [] else holesLoop (chunkExtents c o) max 0

def storeEof (st : Store) (object : ObjKey) : UInt64 :=
  if st.serving then eofLocked st.core object else 0

def storeHoles (st : Store) (object : ObjKey) (max : Nat) : List Interval :=
  if st.serving then holesLocked st.core object max else []

/-! ## The walk -/

variable {l gaps : List Interval} {e : Interval} {pos : UInt64}

/-- From `pos` to the end of the extents, `gaps` have the bytes that no extent has. -/
structure Gaps (l : List Interval) (pos : UInt64) (gaps : List Interval) : Prop where
  nonempty : ∀ g ∈ gaps, pos ≤ g.1 ∧ g.1 < g.2
  order : gaps.Pairwise (·.2 ≤ ·.1)
  cover : ∀ x, (∃ g ∈ gaps, g.Has x) ↔ pos ≤ x ∧ x < l.foldl further pos ∧ ∀ e ∈ l, ¬ e.Has x

lemma le_foldl_further : ∀ (l : List Interval) (pos : UInt64), pos ≤ l.foldl further pos
  | [], _ => UInt64.le_refl _
  | e :: l, pos => by
    have hle := le_foldl_further l (further pos e)
    grind [further]

lemma Gaps.skip (h : Gaps l (further pos e) gaps) (he : e.1 ≤ pos) : Gaps (e :: l) pos gaps := by
  have hpos : pos ≤ further pos e := by grind [further]
  refine ⟨fun g hg => ?_, h.order, fun x => ?_⟩
  · have hg := h.nonempty g hg
    exact ⟨UInt64.le_trans hpos hg.1, hg.2⟩
  · rw [h.cover, foldl_cons, forall_mem_cons]
    grind [further, Interval.Has]

lemma Gaps.take (h : Gaps l (further pos e) gaps) (hpos : pos < e.1) (he : e.1 ≤ e.2)
    (hl : ∀ a ∈ l, e.1 ≤ a.1) : Gaps (e :: l) pos ((pos, e.1) :: gaps) := by
  have hfurther : further pos e = e.2 := by grind [further]
  rw [hfurther] at h
  have hle := le_foldl_further l e.2
  refine ⟨fun g hg => ?_, pairwise_cons.mpr ⟨fun g hg => ?_, h.order⟩, fun x => ?_⟩
  · have hrest := h.nonempty g
    grind
  · exact UInt64.le_trans he (h.nonempty g hg).1
  · -- a byte of the new gap is before every later extent
    rw [exists_mem_cons_iff, h.cover, foldl_cons, forall_mem_cons, hfurther]
    grind [Interval.Has]

lemma holesLoop_gaps (hl : ∀ e ∈ l, e.1 ≤ e.2) (hsort : l.Pairwise (·.1 ≤ ·.1)) (pos : UInt64)
    {room : Nat} (hroom : l.length ≤ room) : Gaps l pos (holesLoop l room pos) := by
  induction l generalizing pos room with
  | nil => exact ⟨nofun, .nil, by grind [holesLoop]⟩
  | cons e l ih =>
    obtain ⟨hfirst, hsort⟩ := pairwise_cons.mp hsort
    obtain ⟨he, hl⟩ := forall_mem_cons.mp hl
    unfold holesLoop
    split
    · next hpos =>
      cases room with
      | zero => cases hroom
      | succ room => exact (ih hl hsort _ (Nat.le_of_succ_le_succ hroom)).take hpos he hfirst
    · next hpos => exact (ih hl hsort _ (Nat.le_of_succ_le hroom)).skip (UInt64.not_lt.mp hpos)

lemma holesLoop_take {n : Nat} (hn : l.length ≤ n) (room : Nat) (pos : UInt64) :
    holesLoop l room pos = (holesLoop l n pos).take room := by
  induction l generalizing n room pos with
  | nil => simp [holesLoop]
  | cons e l ih =>
    unfold holesLoop
    split
    · cases n with
      | zero => cases hn
      | succ n =>
        cases room with
        | zero => rfl
        | succ room => exact congrArg _ (ih (Nat.le_of_succ_le_succ hn) room _)
    · exact ih (Nat.le_of_succ_le hn) room _

/-! ## The extents of an object -/

variable {c : Core} {object : ObjKey} {s : ObjectSlot} {o : Object} {i : ChunkIndex}

lemma chunkExtent_of_end {stop : UInt64} (h : chunkEnd c o i = some stop) : ∃ start,
    chunkExtent c o i = some (start, stop) ∧ start.toNat = i.val * c.chunkBytes.toNat ∧
      start ≤ stop := by
  have hend := h
  simp only [chunkEnd, Option.bind_eq_bind, Option.bind_eq_some_iff] at hend
  obtain ⟨id, hid, ⟨vi, v⟩, hfind, start, hstart, hstop⟩ := hend
  refine ⟨start, ?_, ?_, UInt64.le_iff_toNat_le.mpr ?_⟩
  · rw [chunkExtent, h, hstart]
    rfl
  · rw [mulU64_toNat hstart, UInt32.toNat_toUInt64, UInt64.toNat_ofNat_of_lt']
    exact i.isLt.trans (by decide)
  · rw [addU64_toNat hstop]
    exact Nat.le_add_right _ _

lemma chunkExtent_some (h : chunkExtent c o i = some e) :
    e.1.toNat = i.val * c.chunkBytes.toNat ∧ e.1 ≤ e.2 := by
  obtain ⟨stop, hstop, -⟩ := Option.bind_eq_some_iff.mp h
  obtain ⟨start, hextent, hstart⟩ := chunkExtent_of_end hstop
  obtain rfl := Option.some.inj (h.symm.trans hextent)
  exact hstart

lemma eofLocked_eq (h : objectFind c object = some (s, o)) :
    eofLocked c object = (chunkExtents c o).foldl further 0 := by
  unfold eofLocked chunkExtents
  rw [h, foldl_filterMap]
  dsimp only
  congr 1
  funext eof i
  cases hend : chunkEnd c o i with
  | none =>
    rw [chunkExtent, hend]
    rfl
  | some stop =>
    obtain ⟨start, hextent, -⟩ := chunkExtent_of_end hend
    rw [hextent]
    rfl

lemma chunkExtents_length (c : Core) (o : Object) : (chunkExtents c o).length ≤ maxChunks :=
  (length_filterMap_le _ _).trans_eq length_finRange

lemma chunkExtents_gaps (c : Core) (o : Object) :
    Gaps (chunkExtents c o) 0 (holesLoop (chunkExtents c o) maxChunks 0) := by
  refine holesLoop_gaps (fun e he => ?_) ?_ 0 (chunkExtents_length c o)
  · obtain ⟨i, -, hi⟩ := mem_filterMap.mp he
    exact (chunkExtent_some hi).2
  · refine pairwise_filterMap.mpr ((pairwise_lt_finRange _).imp fun hij e he e' he' => ?_)
    rw [UInt64.le_iff_toNat_le, (chunkExtent_some he).1, (chunkExtent_some he').1]
    exact Nat.mul_le_mul_right _ (Nat.le_of_lt hij)

lemma holesLocked_eq (h : objectFind c object = some (s, o)) (max : Nat) :
    holesLocked c object max = holesLoop (chunkExtents c o) max 0 := by
  unfold holesLocked
  rw [h, eofLocked_eq h]
  dsimp only
  split
  · next heof =>
    -- a gap would have a byte before the end
    have hgaps := chunkExtents_gaps c o
    have hnone : holesLoop (chunkExtents c o) maxChunks 0 = [] := by
      refine eq_nil_iff_forall_not_mem.mpr fun g hg => ?_
      have hbyte := (hgaps.cover g.1).mp ⟨g, hg, UInt64.le_refl _, (hgaps.nonempty g hg).2⟩
      rw [heof] at hbyte
      exact UInt64.not_lt_zero hbyte.2.1
    rw [holesLoop_take (chunkExtents_length c o), hnone, take_nil]
  · rfl

/-- **Holes are what the chunks leave out**: with room for as many as there are chunks they are in
order, apart and not empty, and have exactly the bytes before the end of the file that no chunk
shows. With less room the first of them are reported. -/
theorem storeHoles_complement (st : Store) (object : ObjKey) (max : Nat) :
    storeHoles st object max = (storeHoles st object maxChunks).take max ∧
    (∀ g ∈ storeHoles st object maxChunks, g.1 < g.2) ∧
    (storeHoles st object maxChunks).Pairwise (·.2 ≤ ·.1) ∧
    ∀ x, (∃ g ∈ storeHoles st object maxChunks, g.Has x) ↔ x < storeEof st object ∧
      ∀ s o i e, objectFind st.core object = some (s, o) → chunkExtent st.core o i = some e →
        ¬ e.Has x := by
  unfold storeHoles storeEof
  split
  · cases hfind : objectFind st.core object with
    | none => simp [holesLocked, eofLocked, hfind]
    | some p =>
      obtain ⟨s, o⟩ := p
      have hgaps := chunkExtents_gaps st.core o
      rw [holesLocked_eq hfind, holesLocked_eq hfind, eofLocked_eq hfind]
      refine ⟨holesLoop_take (chunkExtents_length _ _) _ _, fun g hg => (hgaps.nonempty g hg).2,
        hgaps.order, fun x => ?_⟩
      rw [hgaps.cover]
      grind [chunkExtents]
  · simp

end Reffs.D1
