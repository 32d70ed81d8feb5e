import Reffs.Lib.UndoLog
import Reffs.D1.Undo.Ordinary
import Reffs.D1.Repair

/-!
# Taking a repair operation back

`RepairCovered orig cur u` says that the undo record `u` covers everything in which `cur` differs
from `orig`, table by table; applying the record to `cur` then gives `orig` back. Each loop of a
repair operation notes before it writes, so it keeps the record covering, and every operation starts
with a record that covers nothing of a state that has not changed.
-/

namespace Reffs.D1

open SlotTable UndoLog Table List Option RepairUndo Prod

variable {n : Nat} {α : Type} {i : Fin n} {ti : Fin maxTxns} {t : Table n α} {ri : Fin maxRepairs}
  {r cohort : Repair} {b : BeginState} {c : Core}

/-! ## Playing a record back -/

lemma restoreRows_eq (l : List (Fin n × α)) (t : Table n α) :
    restoreRows l t = replay (l.map fun p => (p.1, some p.2)) t := by
  unfold restoreRows replay
  rw [foldl_map]
  simp only [set_eq_update]

lemma dropRows_eq (l : List (Fin n)) (t : Table n α) :
    dropRows l t = replay (l.map fun i => (i, none)) t := by
  unfold dropRows replay
  rw [foldl_map]
  simp only [clear_eq_update]

lemma restoreOwners_eq (l : List (Fin maxOwners × Option OwnerAssoc))
    (t : Table maxOwners OwnerAssoc) : restoreOwners l t = replay l t := by
  unfold restoreOwners replay
  congr 1
  funext t p
  cases h : p.2 with
  | none => exact clear_eq_update t p.1
  | some r => exact set_eq_update t p.1 r

/-! ## Chunks as a map -/

def chunkMap (objects : Table maxObjects Object) (k : ObjectSlot × ChunkIndex) : Option Chunk :=
  getChunk objects k.1 k.2

/-- Two object tables have the same objects, if not the same chunks. -/
def SameObjects (objects objects' : Table maxObjects Object) : Prop :=
  ∀ s, (objects s).map Object.key = (objects' s).map Object.key

lemma objects_eq {objects objects' : Table maxObjects Object} (h : SameObjects objects objects')
    (hc : chunkMap objects = chunkMap objects') : objects = objects' := by
  funext s
  have hs := h s
  have hc : ∀ i, getChunk objects s i = getChunk objects' s i := fun i => congrFun hc (s, i)
  unfold getChunk at hc
  cases ho : objects s with
  | none => simpa [ho, eq_comm] using hs
  | some o =>
    cases ho' : objects' s with
    | none => simp [ho, ho'] at hs
    | some o' =>
      simp only [ho, ho', map_some, some.injEq] at hs hc
      obtain ⟨k, f⟩ := o
      obtain ⟨k', f'⟩ := o'
      obtain rfl : k = k' := hs
      obtain rfl : f = f' := funext hc
      rfl

lemma modifyChunk_sameObjects (objects : Table maxObjects Object) (s : ObjectSlot) (i : ChunkIndex)
    (f : Chunk → Chunk) : SameObjects (modifyChunk objects s i f) objects := by
  intro s'
  unfold modifyChunk
  rw [modify_apply]
  split
  · cases objects s' <;> rfl
  · rfl

section

variable (l : List (ObjectSlot × ChunkIndex × Chunk)) (objects : Table maxObjects Object)

lemma restoreChunks_sameObjects : SameObjects (restoreChunks l objects) objects := by
  unfold restoreChunks
  induction l generalizing objects with
  | nil => intro s; rfl
  | cons p l ih =>
    intro s
    exact (ih _ s).trans (modifyChunk_sameObjects objects p.1 p.2.1 _ s)

lemma chunkMap_restoreChunks (hl : ∀ p ∈ l, ∃ o, objects p.1 = some o) :
    chunkMap (restoreChunks l objects) =
      replay (l.map fun p => ((p.1, p.2.1), some p.2.2)) (chunkMap objects) := by
  unfold restoreChunks replay
  induction l generalizing objects with
  | nil => rfl
  | cons p l ih =>
    obtain ⟨o, ho⟩ := hl p mem_cons_self
    rw [foldl_cons, map_cons, foldl_cons, ih]
    · congr 1
      funext k
      obtain ⟨s, i⟩ := k
      rw [Function.update_apply]
      simp only [chunkMap, setChunk, getChunk_modifyChunk, Prod.mk.injEq]
      split
      · next h => obtain ⟨rfl, rfl⟩ := h; simp [getChunk, ho]
      · rfl
    · intro q hq
      obtain ⟨o', ho'⟩ := hl q (mem_cons_of_mem _ hq)
      have := modifyChunk_sameObjects objects p.1 p.2.1 (fun _ => p.2.2) q.1
      rw [ho'] at this
      cases h : setChunk objects p.1 p.2.1 p.2.2 q.1 with
      | none => rw [setChunk] at h; rw [h] at this; cases this
      | some o'' => exact ⟨o'', rfl⟩

end

lemma restoreChunks_covers {orig cur : Table maxObjects Object}
    {l : List (ObjectSlot × ChunkIndex × Chunk)} (hsame : SameObjects cur orig)
    (h : Covers (chunkMap orig) (chunkMap cur) (l.map fun p => ((p.1, p.2.1), some p.2.2))) :
    restoreChunks l cur = orig := by
  have hused : ∀ p ∈ l, ∃ o, cur p.1 = some o := by
    intro p hp
    have hlog := h.logged (p.1, p.2.1) (some p.2.2) (mem_map_of_mem hp)
    have hsame := hsame p.1
    cases ho : cur p.1 with
    | some o => exact ⟨o, rfl⟩
    | none =>
      rw [ho] at hsame
      cases ho' : orig p.1 with
      | none => simp [chunkMap, getChunk, ho'] at hlog
      | some o' => rw [ho'] at hsame; cases hsame
  refine objects_eq (fun s => (restoreChunks_sameObjects _ _ s).trans (hsame s)) ?_
  rw [chunkMap_restoreChunks _ _ hused, h.replay]

/-! ## What a record covers -/

def Core.rest (c : Core) :=
  (c.uuid, c.chunkBytes, c.maxFileBytes, c.incarnation, c.nextAdmission, c.nextCustody,
    c.nextPostcond, c.certificate, c.admissions, c.receipts, c.custody)

/-- A transaction row without what `prepare_repair` and `commit_repair` change. -/
def Txn.unstaged (t : Txn) : Txn := { t with phase := .admitted, version := 0 }

/-- Slot `i` holds `o'` where the original table holds `o`: the same, or a change the record notes.
-/
def TxnNoted (u : RepairUndo) (i : Fin maxTxns) (o o' : Option Txn) : Prop :=
  o' = o ∨ (o'.map Txn.unstaged = o.map Txn.unstaged ∧ ∃ p, (i, p) ∈ u.txns)

/-- The undo record `u` covers everything that changed from `orig` to `cur`. -/
structure RepairCovered (orig cur : Core) (u : RepairUndo) : Prop where
  same : SameObjects cur.objects orig.objects
  chunks : Covers (chunkMap orig.objects) (chunkMap cur.objects)
    (u.chunks.map fun p => ((p.1, p.2.1), some p.2.2))
  fresh : ∀ i, u.fresh = some i → orig.repairs i = none
  cohort : ∀ i r, u.cohort = some (i, r) → orig.repairs i = some r
  repairs : ∀ i, u.fresh ≠ some i → (∀ r, u.cohort ≠ some (i, r)) → cur.repairs i = orig.repairs i
  freshEpisode : ∀ i, u.freshEpisode = some i → orig.episodes i = none
  episodes : ∀ i, u.freshEpisode ≠ some i → cur.episodes i = orig.episodes i
  freshVersions : ∀ i ∈ u.freshVersions, orig.versions i = none
  dropVersions : ∀ i r, (i, r) ∈ u.dropVersions → i ∈ u.freshVersions ∨ orig.versions i = some r
  versions : ∀ i, i ∉ u.freshVersions → (∀ r, (i, r) ∉ u.dropVersions) →
    cur.versions i = orig.versions i
  freshTxns : ∀ i ∈ u.freshTxns, orig.txns i = none
  noted : ∀ i p, (i, p) ∈ u.txns → ∃ t, orig.txns i = some t ∧ p = (t.phase, t.version)
  dropTxns : ∀ i r, (i, r) ∈ u.dropTxns → i ∈ u.freshTxns ∨ TxnNoted u i (orig.txns i) (some r)
  txns : ∀ i, i ∉ u.freshTxns → (∀ r, (i, r) ∉ u.dropTxns) → TxnNoted u i (orig.txns i) (cur.txns i)
  owners : Covers orig.owners cur.owners u.owners
  postconds : Covers orig.postconds cur.postconds (u.postconds.map fun p => (p.1, some p.2))
  rest : cur.rest = orig.rest
  counters : (u.epochBefore, u.nextVersionBefore, u.nextTxnBefore, u.nextRepairBefore,
    u.nextEpisodeBefore) = (orig.indexEpoch, orig.nextVersion, orig.nextTxn, orig.nextRepair,
      orig.nextEpisode)

attribute [grind cases] RepairCovered

lemma RepairCovered.start (c : Core) : RepairCovered c c (repairUndoBegin c) where
  same := fun _ => rfl
  chunks := Covers.start _
  fresh := nofun
  cohort := nofun
  repairs := fun _ _ _ => rfl
  freshEpisode := nofun
  episodes := fun _ _ => rfl
  freshVersions := nofun
  dropVersions := nofun
  versions := fun _ _ _ => rfl
  freshTxns := nofun
  noted := nofun
  dropTxns := nofun
  txns := fun _ _ _ => .inl rfl
  owners := Covers.start _
  postconds := Covers.start _
  rest := rfl
  counters := rfl

section

variable {orig cur : Core} {u : RepairUndo}

lemma RepairCovered.origin (h : RepairCovered orig cur u) : RepairCovered orig orig u :=
  { h with
    same := fun _ => rfl
    chunks := h.chunks.origin
    repairs := fun _ _ _ => rfl
    episodes := fun _ _ => rfl
    versions := fun _ _ _ => rfl
    txns := fun _ _ _ => .inl rfl
    owners := h.owners.origin
    postconds := h.postconds.origin
    rest := rfl }

lemma dropFresh_apply (slot : Option (Fin n)) (t : Table n α) (i : Fin n) :
    dropFresh slot t i = if slot = some i then none else t i := by
  cases slot with
  | none => simp [dropFresh]
  | some j => simp [dropFresh, clear_apply, eq_comm]

lemma RepairCovered.restoreRepairs_eq (h : RepairCovered orig cur u) :
    dropFresh u.fresh (restoreCohort u.cohort cur.repairs) = orig.repairs := by
  funext i
  rw [dropFresh_apply]
  split
  · next hf => exact (h.fresh i hf).symm
  · next hf =>
    have hrest := h.repairs i hf
    cases hc : u.cohort with
    | none => exact hrest fun r hr => by rw [hc] at hr; cases hr
    | some p =>
      obtain ⟨j, r⟩ := p
      show cur.repairs.set j r i = _
      by_cases hij : i = j
      · subst hij
        rw [h.cohort i r hc, set_self]
      · grind

lemma RepairCovered.restoreEpisodes_eq (h : RepairCovered orig cur u) :
    dropFresh u.freshEpisode cur.episodes = orig.episodes := by
  funext i
  rw [dropFresh_apply]
  split
  · next hf => exact (h.freshEpisode i hf).symm
  · next hf => exact h.episodes i hf

lemma mem_rows_map {l : List (Fin n × α)} {v : Option α} :
    (i, v) ∈ l.map (fun p => (p.1, some p.2)) ↔ ∃ r, v = some r ∧ (i, r) ∈ l := by
  constructor
  · grind
  · grind

lemma restoreRows_cases (l : List (Fin n × α)) (t : Table n α) (i : Fin n) :
    (∃ r, (i, r) ∈ l ∧ restoreRows l t i = some r) ∨
      ((∀ r, (i, r) ∉ l) ∧ restoreRows l t i = t i) := by
  rw [restoreRows_eq]
  rcases replay_cases (l.map fun p => (p.1, some p.2)) t i with ⟨v, hv, h⟩ | ⟨hno, h⟩
  · obtain ⟨r, rfl, hr⟩ := mem_rows_map.mp hv
    exact .inl ⟨r, hr, h⟩
  · exact .inr ⟨fun r hr => hno (some r) (mem_rows_map.mpr ⟨r, rfl, hr⟩), h⟩

lemma dropRows_apply (l : List (Fin n)) (t : Table n α) (i : Fin n) :
    dropRows l t i = if i ∈ l then none else t i := by
  rw [dropRows_eq]
  rcases replay_cases (l.map fun i => (i, none)) t i with ⟨v, hv, h⟩ | ⟨hno, h⟩
  · grind
  · rw [if_neg, h]
    exact fun hi => hno none (mem_map_of_mem hi)

lemma RepairCovered.restoreVersions_eq (h : RepairCovered orig cur u) :
    dropRows u.freshVersions (restoreRows u.dropVersions cur.versions) = orig.versions := by
  funext i
  rw [dropRows_apply]
  split
  · next hi => exact (h.freshVersions i hi).symm
  · next hi =>
    rcases restoreRows_cases u.dropVersions cur.versions i with ⟨r, hr, he⟩ | ⟨hno, he⟩
    · rw [he]
      exact ((h.dropVersions i r hr).resolve_left hi).symm
    · rw [he, h.versions i hi hno]

lemma restoreTxns_cases (l : List (Fin maxTxns × Phase × UInt64)) (t : Table maxTxns Txn)
    (i : Fin maxTxns) :
    (∃ p, (i, p) ∈ l ∧ restoreTxns l t i = (t i).map fun r =>
      { r with phase := p.1, version := p.2 }) ∨
      ((∀ p, (i, p) ∉ l) ∧ restoreTxns l t i = t i) := by
  rcases foldl_modify_cases (fun p : Fin maxTxns × Phase × UInt64 => p.1)
      (fun p (t : Txn) => { t with phase := p.2.1, version := p.2.2 }) (fun _ _ _ => rfl) l t i with
    ⟨p, hp, rfl, h⟩ | ⟨hno, h⟩
  · exact .inl ⟨p.2, hp, h⟩
  · exact .inr ⟨fun p hp => hno (i, p) hp rfl, h⟩

lemma RepairCovered.restoreTxns_eq (h : RepairCovered orig cur u) :
    restoreTxns u.txns (dropRows u.freshTxns (restoreRows u.dropTxns cur.txns)) = orig.txns := by
  funext i
  -- Before phases and versions are put back, the slot is as noted.
  have hmid :
      TxnNoted u i (orig.txns i) (dropRows u.freshTxns (restoreRows u.dropTxns cur.txns) i) := by
    rw [dropRows_apply]
    split
    · next hi => exact .inl (h.freshTxns i hi).symm
    · next hi =>
      rcases restoreRows_cases u.dropTxns cur.txns i with ⟨r, hr, he⟩ | ⟨hno, he⟩
      · rw [he]
        exact (h.dropTxns i r hr).resolve_left hi
      · rw [he]
        exact h.txns i hi hno
  rcases restoreTxns_cases u.txns (dropRows u.freshTxns (restoreRows u.dropTxns cur.txns)) i with
    ⟨p, hp, he⟩ | ⟨hno, he⟩
  · obtain ⟨t, ht, rfl⟩ := h.noted i p hp
    have hun : (dropRows u.freshTxns (restoreRows u.dropTxns cur.txns) i).map Txn.unstaged =
        some t.unstaged := by
      rcases hmid with hmid | ⟨hmid, -⟩
      · rw [hmid, ht]; rfl
      · rw [hmid, ht]; rfl
    rw [he, ht]
    cases hr : dropRows u.freshTxns (restoreRows u.dropTxns cur.txns) i with
    | none => rw [hr] at hun; cases hun
    | some r =>
      rw [hr] at hun
      have hun : r.unstaged = t.unstaged := some.inj hun
      simp only [Txn.unstaged, Txn.mk.injEq] at hun
      cases r
      cases t
      simp_all
  · rw [he]
    rcases hmid with hmid | ⟨-, p, hp⟩
    · exact hmid
    · exact absurd hp (hno p)

lemma RepairCovered.apply_eq (h : RepairCovered orig cur u) : repairUndoApply cur u = orig := by
  have hrest := h.rest
  have hcount := h.counters
  simp only [Core.rest, Prod.mk.injEq] at hrest hcount
  apply Core.ext
  case objects => exact restoreChunks_covers h.same h.chunks
  case repairs => exact h.restoreRepairs_eq
  case episodes => exact h.restoreEpisodes_eq
  case versions => exact h.restoreVersions_eq
  case txns => exact h.restoreTxns_eq
  case owners => exact (restoreOwners_eq _ _).trans h.owners.replay
  case postconds => exact (restoreRows_eq _ _).trans h.postconds.replay
  all_goals
    simp only [repairUndoApply]
    first | exact hrest.1 | simp only [hrest, hcount]

/-! ### What noting changes -/

lemma noteChunk_eq (u : RepairUndo) (objects : Table maxObjects Object) (s : ObjectSlot)
    (i : ChunkIndex) : ∃ l, u.noteChunk objects s i = { u with chunks := l } := by
  unfold noteChunk
  split
  · exact ⟨_, rfl⟩
  · split <;> exact ⟨_, rfl⟩

lemma noteTxn_eq (u : RepairUndo) (i : Fin maxTxns) (t : Txn) :
    ∃ l, u.noteTxn i t = { u with txns := l } := by
  unfold noteTxn
  split <;> exact ⟨_, rfl⟩

lemma noteOwner_eq (u : RepairUndo) (owners : Table maxOwners OwnerAssoc) (i : Fin maxOwners) :
    ∃ l, u.noteOwner owners i = { u with owners := l } := by
  unfold noteOwner
  split <;> exact ⟨_, rfl⟩

lemma notePostcond_eq (u : RepairUndo) (i : Fin maxPostconds) (p : Postcond) :
    ∃ l, u.notePostcond i p = { u with postconds := l } := by
  unfold notePostcond
  split <;> exact ⟨_, rfl⟩

/-! ### How a record keeps covering -/

namespace RepairCovered

variable (h : RepairCovered orig cur u)

include h

lemma modifyChunk (s : ObjectSlot) (i : ChunkIndex)
    (f : Chunk → Chunk) :
    RepairCovered orig { cur with objects := Reffs.D1.modifyChunk cur.objects s i f }
      (u.noteChunk cur.objects s i) := by
  have hsame : SameObjects (Reffs.D1.modifyChunk cur.objects s i f) orig.objects := fun s' =>
    (modifyChunk_sameObjects cur.objects s i f s').trans (h.same s')
  have hother : ∀ k, k ≠ (s, i) →
      chunkMap (Reffs.D1.modifyChunk cur.objects s i f) k = chunkMap cur.objects k := by
    intro k hk
    have : ¬ (k.1 = s ∧ k.2 = i) := fun hk' => hk (Prod.ext hk'.1 hk'.2)
    simp only [chunkMap, getChunk_modifyChunk, if_neg this]
  unfold noteChunk
  split
  · next hin =>
    obtain ⟨p, hp, hpk⟩ := any_eq_true.mp hin
    obtain ⟨rfl, rfl⟩ : p.1 = s ∧ p.2.1 = i := by simpa using hpk
    exact { h with
      same := hsame
      chunks := h.chunks.write (v := some p.2.2) (mem_map_of_mem hp) hother }
  · next hout =>
    split
    · next hnone =>
      have hsame' : chunkMap (Reffs.D1.modifyChunk cur.objects s i f) = chunkMap cur.objects := by
        grind [chunkMap, getChunk_modifyChunk]
      exact { h with same := hsame, chunks := hsame' ▸ h.chunks }
    · next ch hch =>
      have hnote := h.chunks.noteWrite (k := (s, i)) (by grind) hother
      rw [show chunkMap cur.objects (s, i) = some ch from hch] at hnote
      exact { h with same := hsame, chunks := map_append ▸ hnote }

lemma freshTxn (hti : cur.txns ti = none)
    (hdrop : u.dropTxns = []) (row : Txn) (next : UInt64) :
    RepairCovered orig { cur with txns := cur.txns.set ti row, nextTxn := next }
      { u with freshTxns := u.freshTxns ++ [ti] } := by
  refine { h with freshTxns := ?_, dropTxns := ?_, txns := ?_ }
  · intro i hi
    rcases mem_append.mp hi with hi | hi
    · exact h.freshTxns i hi
    obtain rfl := mem_singleton.mp hi
    by_cases hf : i ∈ u.freshTxns
    · exact h.freshTxns i hf
    rcases h.txns i hf (by simp [hdrop]) with ht | ⟨ht, -⟩
    · rw [← ht, hti]
    rw [hti] at ht
    cases ho : orig.txns i with
    | none => rfl
    | some r => rw [ho] at ht; cases ht
  · intro i r hr
    rw [hdrop] at hr
    cases hr
  · intro i hi hno
    have hne : i ≠ ti := fun he => hi (mem_append_right _ (by simp [he]))
    show TxnNoted u i _ (cur.txns.set ti row i)
    rw [set_ne hne]
    exact h.txns i (fun hi' => hi (mem_append_left _ hi')) hno

lemma setOwner (ai : Fin maxOwners) (row : OwnerAssoc) :
    RepairCovered orig { cur with owners := cur.owners.set ai row }
      (u.noteOwner cur.owners ai) := by
  have hother : ∀ k, k ≠ ai → cur.owners.set ai row k = cur.owners k := fun k hk => set_ne hk
  unfold noteOwner
  split
  · next hin =>
    obtain ⟨v, hv⟩ : ∃ v, (ai, v) ∈ u.owners := by simpa using hin
    exact { h with owners := h.owners.write hv hother }
  · next hout => exact { h with owners := h.owners.noteWrite (by simpa using hout) hother }

lemma setPostcond {pi : Fin maxPostconds}
    {p : Postcond} (hp : cur.postconds pi = some p) (row : Postcond) :
    RepairCovered orig { cur with postconds := cur.postconds.set pi row }
      (u.notePostcond pi p) := by
  have hother : ∀ k, k ≠ pi → cur.postconds.set pi row k = cur.postconds k :=
    fun k hk => set_ne hk
  unfold notePostcond
  split
  · next hin =>
    obtain ⟨q, hq, hqk⟩ := any_eq_true.mp hin
    obtain rfl : q.1 = pi := by simpa using hqk
    exact { h with postconds :=
      h.postconds.write (v := some q.2) (mem_rows_map.mpr ⟨_, rfl, hq⟩) hother }
  · next hout =>
    have hnote := h.postconds.noteWrite (k := pi) (by grind) hother
    rw [hp] at hnote
    exact { h with postconds := map_append ▸ hnote }

lemma stageTxn {t : Txn} (ht : cur.txns ti = some t)
    (t' : Txn) (ht' : t'.unstaged = t.unstaged) (hfresh : u.freshTxns = [])
    (hdrop : u.dropTxns = []) :
    RepairCovered orig { cur with txns := cur.txns.set ti t' } (u.noteTxn ti t) := by
  have hcur := h.txns ti (by simp [hfresh]) (by simp [hdrop])
  have hother : ∀ i, i ≠ ti → TxnNoted u i (orig.txns i) (cur.txns.set ti t' i) := fun i hi => by
    rw [set_ne hi]
    exact h.txns i (by simp [hfresh]) (by simp [hdrop])
  have hun : (some t').map Txn.unstaged = (orig.txns ti).map Txn.unstaged := by
    rcases hcur with hcur | ⟨hcur, -⟩ <;> rw [← hcur, ht, map_some, ht', map_some]
  have hset : (cur.txns.set ti t' ti).map Txn.unstaged = (some t').map Txn.unstaged := by grind
  unfold noteTxn
  split
  · next hin =>
    obtain ⟨p, hp, hpk⟩ := any_eq_true.mp hin
    obtain rfl : p.1 = ti := by simpa using hpk
    refine { h with txns := fun i _ _ => ?_ }
    by_cases hi : i = p.1
    · subst hi
      exact .inr ⟨hset.trans hun, p.2, hp⟩
    · exact hother i hi
  · next hout =>
    have hno : ∀ p, (ti, p) ∉ u.txns := fun p hp =>
      hout (any_eq_true.mpr ⟨_, hp, by simp⟩)
    have hti : orig.txns ti = some t := by
      rcases hcur with hcur | ⟨-, p, hp⟩
      · rw [← hcur, ht]
      · exact absurd hp (hno p)
    refine { h with noted := ?_, dropTxns := ?_, txns := fun i _ _ => ?_ }
    · grind
    · intro i r hr
      rw [hdrop] at hr
      cases hr
    · by_cases hi : i = ti
      · subst hi
        exact .inr ⟨hset.trans hun, _, mem_append_right _ (mem_singleton_self _)⟩
      rcases hother i hi with hi' | ⟨hi', p, hp⟩
      · exact .inl hi'
      · exact .inr ⟨hi', p, mem_append_left _ hp⟩

lemma freshVersion {vi : Fin maxVersions}
    (hvi : cur.versions vi = none) (hdrop : u.dropVersions = []) (row : Version) (next : UInt64) :
    RepairCovered orig { cur with versions := cur.versions.set vi row, nextVersion := next }
      { u with freshVersions := u.freshVersions ++ [vi] } := by
  refine { h with freshVersions := ?_, dropVersions := ?_, versions := ?_ }
  · grind
  · intro i r hr
    rw [hdrop] at hr
    cases hr
  · grind

lemma setRepair (hri : u.fresh = some ri ∨ ∃ r, u.cohort = some (ri, r)) (row : Repair) :
    RepairCovered orig { cur with repairs := cur.repairs.set ri row } u := by
  refine { h with repairs := fun i hf hc => ?_ }
  have hne : i ≠ ri := by grind
  show cur.repairs.set ri row i = _
  rw [set_ne hne]
  exact h.repairs i hf hc

end RepairCovered

structure RepairUndo.Dropped (u : RepairUndo) (cur : Core) : Prop where
  versions : ∀ i r, (i, r) ∈ u.dropVersions → cur.versions i = none
  txns : ∀ i r, (i, r) ∈ u.dropTxns → cur.txns i = none

attribute [grind cases] RepairUndo.Dropped

lemma dropFresh_found {found : Option (Fin n × α)} {r : α} (h : (i, r) ∈ found.toList) :
    dropFresh (found.map fst) t i = none := by
  rw [mem_toList.mp h]
  exact clear_self _ _

lemma dropFresh_other {found : Option (Fin n × α)} (h : ∀ r, (i, r) ∉ found.toList) :
    dropFresh (found.map fst) t i = t i := by
  rw [dropFresh_apply, if_neg]
  intro hf
  obtain ⟨p, hp, rfl⟩ := map_eq_some_iff.mp hf
  exact h p.2 (mem_toList.mpr hp)

lemma dropFresh_unused {slot : Option (Fin n)} (h : t i = none) : dropFresh slot t i = none := by
  rw [dropFresh_apply]
  split
  · rfl
  · exact h

lemma RepairUndo.Dropped.modifyChunk (h : u.Dropped cur) (s : ObjectSlot) (i : ChunkIndex)
    (f : Chunk → Chunk) :
    (u.noteChunk cur.objects s i).Dropped
      { cur with objects := Reffs.D1.modifyChunk cur.objects s i f } := by
  obtain ⟨l, hl⟩ := noteChunk_eq u cur.objects s i
  rw [hl]
  exact ⟨h.versions, h.txns⟩

/-- A row that was found is dropped and noted: the slots noted are unused, and each was fresh or
held what is asked of it. -/
lemma dropFresh_noted {drop : List (Fin n × α)} {f : Option (Fin n × α)} {fresh : List (Fin n)}
    {Q : Fin n → Option α → Prop} (hfound : ∀ i r, f = some (i, r) → t i = some r)
    (hd : ∀ i r, (i, r) ∈ drop → t i = none)
    (hdrop : ∀ i r, (i, r) ∈ drop → i ∈ fresh ∨ Q i (some r))
    (hkeep : ∀ i, i ∉ fresh → (∀ r, (i, r) ∉ drop) → Q i (t i)) :
    let t' := dropFresh (f.map fst) t
    (∀ i r, (i, r) ∈ drop ++ f.toList → t' i = none ∧ (i ∈ fresh ∨ Q i (some r))) ∧
      ∀ i, i ∉ fresh → (∀ r, (i, r) ∉ drop ++ f.toList) → Q i (t' i) := by
  refine ⟨fun i r hr => ?_, fun i hf hno => ?_⟩
  · rcases mem_append.mp hr with hr | hr
    · exact ⟨dropFresh_unused (hd i r hr), hdrop i r hr⟩
    have hrow := hfound i r (mem_toList.mp hr)
    refine ⟨dropFresh_found hr, or_iff_not_imp_left.mpr fun hf => ?_⟩
    rw [← hrow]
    exact hkeep i hf fun r' hr' => nomatch (hd i r' hr').symm.trans hrow
  · rw [dropFresh_other fun r hr => hno r (mem_append_right _ hr)]
    exact hkeep i hf fun r hr => hno r (mem_append_left _ hr)

lemma RepairCovered.memberDrop (h : RepairCovered orig cur u) (hd : u.Dropped cur)
    (m : RepairMember) :
    RepairCovered orig (Reffs.D1.memberDrop cur m u).1 (Reffs.D1.memberDrop cur m u).2.2 ∧
      (Reffs.D1.memberDrop cur m u).2.2.Dropped (Reffs.D1.memberDrop cur m u).1 := by
  have hversions := dropFresh_noted (Q := fun i row => row = orig.versions i)
    (f := versionFind cur m.version) (fun _ _ hf => (findById_some hf).1) hd.versions
    (fun i r hr => (h.dropVersions i r hr).imp_right Eq.symm) h.versions
  have htxns :=
    dropFresh_noted (f := txnFind cur m.txn) (fun _ _ hf => (findById_some hf).1) hd.txns
    h.dropTxns h.txns
  exact ⟨{ h with
    dropVersions := fun i r hr => (hversions.1 i r hr).2.imp_right Eq.symm
    versions := hversions.2
    dropTxns := fun i r hr => (htxns.1 i r hr).2
    txns := htxns.2 }, fun i r hr => (hversions.1 i r hr).1, fun i r hr => (htxns.1 i r hr).1⟩

lemma RepairCovered.noteCohort (h : RepairCovered orig cur u) (hr : orig.repairs ri = some r) :
    RepairCovered orig cur (u.noteCohort ri r) := by
  unfold RepairUndo.noteCohort
  split
  · exact h
  · next hno =>
    refine { h with cohort := ?_, repairs := fun i hf _ => h.repairs i hf fun r' hr' => ?_ }
    · grind
    · rw [hr'] at hno
      exact hno rfl

/-! ### The loops -/

namespace RepairCovered

variable (h : RepairCovered orig cur u)

include h

lemma markErrorStage (s : ObjectSlot)
    (episode : UInt64) (entries : List (RepairEntry UInt64)) :
    RepairCovered orig
      { cur with objects := (Reffs.D1.markErrorStage s episode entries cur.objects u).1 }
      (Reffs.D1.markErrorStage s episode entries cur.objects u).2 := by
  induction entries generalizing cur u with
  | nil => exact h
  | cons e rest ih =>
    unfold Reffs.D1.markErrorStage
    split
    · exact ih h
    · next i _ =>
      exact ih (h.modifyChunk s i fun ch => { ch with
        error := some ⟨episode, e.custody.getD 0, ch.visible.getD 0, false⟩ })

lemma changeChunks (s : ObjectSlot)
    (f : Chunk → Chunk) (members : List RepairMember) :
    RepairCovered orig { cur with objects := (Reffs.D1.changeChunks s f members cur.objects u).1 }
      (Reffs.D1.changeChunks s f members cur.objects u).2 := by
  induction members generalizing cur u with
  | nil => exact h
  | cons m rest ih => exact ih (h.modifyChunk s m.index f)

lemma dropMembers (hd : u.Dropped cur) (s : ObjectSlot) (members : List RepairMember) :
    RepairCovered orig (Reffs.D1.dropMembers s members cur u).1
      (Reffs.D1.dropMembers s members cur u).2.2 ∧
      (Reffs.D1.dropMembers s members cur u).2.2.cohort = u.cohort := by
  induction members generalizing cur u with
  | nil => exact ⟨h, rfl⟩
  | cons m rest ih =>
    have hch := h.modifyChunk s m.index fun ch => { ch with repair := none }
    have hd' := hd.modifyChunk s m.index fun ch => { ch with repair := none }
    have hdropped := hch.memberDrop hd' m
    have hrest := ih hdropped.1 hdropped.2
    refine ⟨hrest.1, hrest.2.trans ?_⟩
    obtain ⟨l, hl⟩ := noteChunk_eq u cur.objects s m.index
    rw [hl]
    rfl

lemma abortCohort (hd : u.Dropped cur) (hri : u.cohort = some (ri, r)) (cohort : Repair) :
    RepairCovered orig (Reffs.D1.abortCohort cur ri cohort u).1
      (Reffs.D1.abortCohort cur ri cohort u).2 := by
  have hdrop := h.dropMembers hd cohort.object cohort.members
  exact hdrop.1.setRepair (.inr ⟨r, hdrop.2.trans hri⟩) _

end RepairCovered

/-- The record of an operation that has neither added nor dropped a transaction or version. -/
structure RepairUndo.Plain (u : RepairUndo) (ri : Fin maxRepairs) (r : Repair) : Prop where
  cohort : u.cohort = some (ri, r)
  freshTxns : u.freshTxns = []
  dropTxns : u.dropTxns = []
  dropVersions : u.dropVersions = []

attribute [grind cases] RepairUndo.Plain

lemma RepairUndo.Plain.dropped (h : u.Plain ri r) (c : Core) : u.Dropped c :=
  ⟨by simp [h.dropVersions], by simp [h.dropTxns]⟩

lemma RepairCovered.commitStage (h : RepairCovered orig cur u) (hu : u.Plain ri r) (s : ObjectSlot)
    (members : List RepairMember) :
    RepairCovered orig (Reffs.D1.commitStage s members cur u).1
      (Reffs.D1.commitStage s members cur u).2 ∧
      (Reffs.D1.commitStage s members cur u).2.Plain ri r := by
  induction members generalizing cur u with
  | nil => exact ⟨h, hu⟩
  | cons m rest ih =>
    have hch := h.modifyChunk s m.index fun ch =>
      { ch with visible := some m.version, repairLocked := true }
    have hu' : (u.noteChunk cur.objects s m.index).Plain ri r := by
      obtain ⟨l, hl⟩ := noteChunk_eq u cur.objects s m.index
      rw [hl]
      exact ⟨hu.cohort, hu.freshTxns, hu.dropTxns, hu.dropVersions⟩
    unfold Reffs.D1.commitStage
    cases hf : txnFind cur m.txn with
    | none => exact ih hch hu'
    | some p =>
      obtain ⟨ti, t⟩ := p
      refine ih (hch.stageTxn (findById_some hf).1 { t with phase := .committed } rfl
        hu'.freshTxns hu'.dropTxns) ?_
      obtain ⟨l, hl⟩ := noteTxn_eq (u.noteChunk cur.objects s m.index) ti t
      rw [hl]
      exact ⟨hu'.cohort, hu'.freshTxns, hu'.dropTxns, hu'.dropVersions⟩

lemma RepairCovered.prepareMember {p : PrepareState} (h : RepairCovered orig p.core p.undo)
    (hu : p.undo.Plain ri r) (exportUuid : Uuid) (s : ObjectSlot) (ch : Chunk) (n : Nat)
    (e : RepairEntry UInt64) (m : RepairMember) :
    let q := (Reffs.D1.prepareMember exportUuid s ch n e m p).2
    RepairCovered orig q.core q.undo ∧ q.undo.Plain ri r := by
  unfold Reffs.D1.prepareMember
  dsimp only
  split
  · exact ⟨h, hu⟩
  split
  · exact ⟨h, hu⟩
  split
  · next vi ti txn hv ht =>
    have hst := h.stageTxn (findById_some ht).1
      { txn with version := p.core.nextVersion, phase := .prepared } rfl hu.freshTxns hu.dropTxns
    obtain ⟨l, hl⟩ := noteTxn_eq p.undo ti txn
    have hu' : (p.undo.noteTxn ti txn).Plain ri r := by
      rw [hl]
      exact ⟨hu.cohort, hu.freshTxns, hu.dropTxns, hu.dropVersions⟩
    have hver := hst.freshVersion (spare_some hv) hu'.dropVersions
      { id := p.core.nextVersion, object := s, index := m.index
        bytes := (e.payload.getD ⟨[], ⟨0, 0, ByteCodec.zeros 4⟩⟩).payload
        checksum := (e.payload.getD ⟨[], ⟨0, 0, ByteCodec.zeros 4⟩⟩).checksum
        owner := m.owner, predecessor := some m.successor, released := false }
      (p.core.nextVersion + 1)
    have hplain : ({ p.undo.noteTxn ti txn with
        freshVersions := (p.undo.noteTxn ti txn).freshVersions ++ [vi] } : RepairUndo).Plain ri r :=
      ⟨hu'.cohort, hu'.freshTxns, hu'.dropTxns, hu'.dropVersions⟩
    split
    · exact ⟨hver, hplain⟩
    · next ai assoc _ =>
      refine ⟨hver.setOwner ai { assoc with version := p.core.nextVersion }, ?_⟩
      obtain ⟨l', hl'⟩ := noteOwner_eq { p.undo.noteTxn ti txn with
        freshVersions := (p.undo.noteTxn ti txn).freshVersions ++ [vi] } p.core.owners ai
      rw [hl']
      exact ⟨hplain.cohort, hplain.freshTxns, hplain.dropTxns, hplain.dropVersions⟩
  · exact ⟨h, hu⟩

lemma RepairCovered.prepareStage {p : PrepareState} (h : RepairCovered orig p.core p.undo)
    (hu : p.undo.Plain ri r) (exportUuid : Uuid) (s : ObjectSlot) (o : Object) (n : Nat)
    (l : List (RepairEntry UInt64 × RepairMember)) :
    let q := (Reffs.D1.prepareStage exportUuid s o n l p).2
    RepairCovered orig q.core q.undo ∧ q.undo.Plain ri r := by
  induction l generalizing n p with
  | nil => exact ⟨h, hu⟩
  | cons em rest ih =>
    obtain ⟨e, m⟩ := em
    have hm := h.prepareMember hu exportUuid s (o.chunks m.index) n e m
    unfold Reffs.D1.prepareStage
    split
    · next p' hp' =>
      rw [hp'] at hm
      exact ih hm.1 hm.2 (n + 1)
    · next status p' _ hp' =>
      rw [hp'] at hm
      exact hm

/-- The record of a `begin_repair` in progress. -/
structure BeginState.Covered (b : BeginState) (orig : Core) (ri : Fin maxRepairs) : Prop where
  covered : RepairCovered orig b.core b.undo
  fresh : b.undo.fresh = some ri
  dropTxns : b.undo.dropTxns = []

attribute [grind cases] BeginState.Covered

namespace BeginState.Covered

variable (h : b.Covered orig ri)

include h

lemma beginTxn (hti : b.core.txns ti = none)
    (env : Envelope UInt64) (s : ObjectSlot) (o : Object) (e : RepairEntry UInt64)
    (i : ChunkIndex) : (Reffs.D1.beginTxn env s o e i ti b).Covered orig ri :=
  ⟨h.covered.freshTxn hti h.dropTxns _ _, h.fresh, h.dropTxns⟩

lemma beginOwner (env : Envelope UInt64) (s : ObjectSlot)
    (e : RepairEntry UInt64) (i : ChunkIndex) (ai : Fin maxOwners) :
    (Reffs.D1.beginOwner env s e i ai b).Covered orig ri := by
  obtain ⟨l, hl⟩ := noteOwner_eq b.undo b.core.owners ai
  refine ⟨h.covered.setOwner ai _, ?_, ?_⟩
  · exact (congrArg RepairUndo.fresh hl).trans h.fresh
  · exact (congrArg RepairUndo.dropTxns hl).trans h.dropTxns

lemma beginConsume {b' : BeginState} {e : RepairEntry UInt64}
    (hb : Reffs.D1.beginConsume e b = some b') : b'.Covered orig ri := by
  unfold Reffs.D1.beginConsume at hb
  split at hb
  · cases hb
    exact h
  split at hb
  · cases hb
  · next pi p hp =>
    cases hb
    obtain ⟨l, hl⟩ := notePostcond_eq b.undo pi p
    obtain ⟨raw, -, hp⟩ := bind_eq_some_iff.mp hp
    refine ⟨h.covered.setPostcond (findById_some hp).1 _, ?_, ?_⟩
    · exact (congrArg RepairUndo.fresh hl).trans h.fresh
    · exact (congrArg RepairUndo.dropTxns hl).trans h.dropTxns

lemma beginChunk (s : ObjectSlot) (i : ChunkIndex)
    (repair : UInt64) : (Reffs.D1.beginChunk s i repair b).Covered orig ri := by
  obtain ⟨l, hl⟩ := noteChunk_eq b.undo b.core.objects s i
  refine ⟨h.covered.modifyChunk s i _, ?_, ?_⟩
  · exact (congrArg RepairUndo.fresh hl).trans h.fresh
  · exact (congrArg RepairUndo.dropTxns hl).trans h.dropTxns

section

variable (env : Envelope UInt64) (s : ObjectSlot) (repair : UInt64) (o : Object)

lemma beginMember (e : RepairEntry UInt64) (i : ChunkIndex) :
    (Reffs.D1.beginMember env s repair o e i b).2.Covered orig ri := by
  unfold Reffs.D1.beginMember
  split
  · exact h
  next ti ht =>
  have h1 := h.beginTxn (spare_some ht) env s o e i
  dsimp only
  split
  · exact h1
  next ai _ =>
  have h2 := h1.beginOwner env s e i ai
  split
  · exact h2
  next b' hb' => exact (h2.beginConsume hb').beginChunk s i repair

lemma beginStage (entries : List (RepairEntry UInt64)) :
    (Reffs.D1.beginStage env s repair o entries b).2.Covered orig ri := by
  induction entries generalizing b with
  | nil => exact h
  | cons e rest ih =>
    unfold Reffs.D1.beginStage
    split
    · exact h
    next i _ =>
    have hm := h.beginMember env s repair o e i
    split
    · next b' hb' => rw [hb'] at hm; exact ih hm
    · next status b' _ hb' => rw [hb'] at hm; exact hm

end

end BeginState.Covered

end

def RepairOutcome.Covered (o : RepairOutcome) (c : Core) : Prop := RepairCovered c o.core o.undo

end Reffs.D1
