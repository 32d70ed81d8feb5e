import Reffs.D1.Board
import Reffs.D1.Undo.Repair
import Reffs.D1.Control

/-!
# Taking a control operation back

The undo entries of a control operation are applied in the order they were made. Each remembers its
transaction as the operation found it, and the first transaction of a cohort remembers the cohort.
A chunk is remembered by each reaped transaction as it stands then, which is how the operation found
it only because no two staged transactions sit on one chunk (`StagedApart`).
-/

namespace Reffs.D1

open SlotTable UndoLog Table List ControlUndoEntry

variable {orig cur c : Core} {l : List ControlUndoEntry} {s : ObjectSlot} {old : Admission}
  {named : List (Fin maxTxns × Txn)}

/-! ## What the entries cover -/

def Core.controlRest (c : Core) :=
  (c.rest.1, c.chunkBytes, c.maxFileBytes, c.incarnation, c.indexEpoch, c.nextTxn, c.nextVersion,
    c.nextAdmission, c.nextCustody, c.nextRepair, c.nextPostcond, c.nextEpisode, c.certificate,
    c.versions, c.owners, c.receipts, c.custody, c.postconds, c.episodes)

/-- A transaction row without what a control operation changes. -/
def Txn.unmoved (t : Txn) : Txn := { t with phase := .admitted, admission := 0, readEpoch := 0 }

/-- The entries cover what changed from `orig` to `cur`, admissions apart. -/
structure ControlCovered (orig cur : Core) (l : List ControlUndoEntry) : Prop where
  noted : ∀ u ∈ l, ∃ t, orig.txns u.txn = some t ∧
    (t.phase, t.admission, t.readEpoch) = (u.phase, u.admission, u.readEpoch)
  txns : ∀ i, cur.txns i = orig.txns i ∨
    ((cur.txns i).map Txn.unmoved = (orig.txns i).map Txn.unmoved ∧ ∃ u ∈ l, u.txn = i)
  same : SameObjects cur.objects orig.objects
  chunks : Covers (chunkMap orig.objects) (chunkMap cur.objects)
    ((l.filterMap (·.chunk)).map fun p => ((p.1, p.2.1), some p.2.2))
  cohorts : ∀ u ∈ l, ∀ i admission, u.cohort = some (i, admission) →
    ∃ r, orig.repairs i = some r ∧ r.admission = admission
  repairs : ∀ i, cur.repairs i = orig.repairs i ∨
    ((cur.repairs i).map Repair.unmoved = (orig.repairs i).map Repair.unmoved ∧
      ∃ u ∈ l, ∃ admission, u.cohort = some (i, admission))
  rest : cur.controlRest = orig.controlRest
  admissions : cur.admissions = orig.admissions

lemma ControlCovered.start (c : Core) : ControlCovered c c [] where
  noted := by intro u h; cases h
  txns := fun _ => .inl rfl
  same := fun _ => rfl
  chunks := Covers.start _
  cohorts := by intro u h; cases h
  repairs := fun _ => .inl rfl
  rest := rfl
  admissions := rfl

lemma ControlCovered.origin (h : ControlCovered orig cur l) : ControlCovered orig orig l :=
  { h with
    txns := fun _ => .inl rfl
    same := fun _ => rfl
    chunks := h.chunks.origin
    repairs := fun _ => .inl rfl
    rest := rfl
    admissions := rfl }

lemma foldl_controlUndoEntry (l : List ControlUndoEntry) (c : Core) :
    l.foldl controlUndoEntry c = { c with
      txns := l.foldl (fun txns u => txns.modify u.txn fun t =>
        { t with phase := u.phase, admission := u.admission, readEpoch := u.readEpoch }) c.txns
      objects := restoreChunks (l.filterMap (·.chunk)) c.objects
      repairs := (l.filterMap (·.cohort)).foldl (fun repairs p =>
        repairs.modify p.1 fun r => { r with admission := p.2 }) c.repairs } := by
  induction l generalizing c with
  | nil => rfl
  | cons u l ih =>
    rw [foldl_cons, ih]
    obtain ⟨txn, phase, admission, readEpoch, chunk, cohort⟩ := u
    cases chunk <;> cases cohort <;> rfl

/-- Entries that note what `g` forgets of a row put every row back that differs from its origin in
no more than that. -/
lemma restored_eq {n : Nat} {α ε : Type} {orig cur : Table n α} {l : List ε} {at_ : ε → Fin n}
    {put : ε → α → α} {g : α → α} (hput : ∀ e e' r, put e (put e' r) = put e r)
    (hnoted : ∀ e ∈ l, ∃ r, orig (at_ e) = some r ∧ ∀ q, g q = g r → put e q = r)
    (h : ∀ i, cur i = orig i ∨ (cur i).map g = (orig i).map g ∧ ∃ e ∈ l, at_ e = i) :
    l.foldl (fun t e => t.modify (at_ e) (put e)) cur = orig := by
  funext i
  rcases foldl_modify_cases at_ put hput l cur i with ⟨e, he, rfl, hrow⟩ | ⟨hno, hrow⟩
  · obtain ⟨r, hr, hback⟩ := hnoted e he
    have hg : (cur (at_ e)).map g = some (g r) := by
      rcases h (at_ e) with hi | ⟨hi, -⟩ <;> rw [hi, hr] <;> rfl
    obtain ⟨q, hq, hqr⟩ := Option.map_eq_some_iff.mp hg
    rw [hrow, hr, hq, Option.map_some, hback q hqr]
  · rw [hrow]
    rcases h i with hi | ⟨-, e, he, rfl⟩
    · exact hi
    · exact absurd rfl (hno e he)

namespace ControlCovered

variable (h : ControlCovered orig cur l)

include h

lemma txns_eq :
    l.foldl (fun txns u => txns.modify u.txn fun t =>
      { t with phase := u.phase, admission := u.admission, readEpoch := u.readEpoch }) cur.txns =
      orig.txns := by
  refine restored_eq (g := Txn.unmoved) (fun _ _ _ => rfl) (fun u hu => ?_) h.txns
  obtain ⟨t, ht, hnote⟩ := h.noted u hu
  refine ⟨t, ht, fun q hq => ?_⟩
  simp only [Txn.unmoved, Txn.mk.injEq, Prod.mk.injEq] at hq hnote
  cases q
  cases t
  simp_all

lemma repairs_eq : (l.filterMap (·.cohort)).foldl (fun repairs p =>
      repairs.modify p.1 fun r => { r with admission := p.2 }) cur.repairs = orig.repairs := by
  refine restored_eq (g := Repair.unmoved) (fun _ _ _ => rfl) (fun p hp => ?_) fun i => ?_
  · obtain ⟨u, hu, hc⟩ := mem_filterMap.mp hp
    obtain ⟨r, hr, hadm⟩ := h.cohorts u hu p.1 p.2 hc
    refine ⟨r, hr, fun q hq => ?_⟩
    simp only [Repair.unmoved, Repair.mk.injEq] at hq
    cases q
    cases r
    simp_all
  · refine (h.repairs i).imp_right fun hmoved => ?_
    obtain ⟨hi, u, hu, admission, hc⟩ := hmoved
    exact ⟨hi, (i, admission), mem_filterMap.mpr ⟨u, hu, hc⟩, rfl⟩

lemma apply_eq : l.foldl controlUndoEntry cur = orig := by
  have hrest := h.rest
  simp only [Core.controlRest, Core.rest, Prod.mk.injEq] at hrest
  rw [foldl_controlUndoEntry]
  apply Core.ext
  case objects => exact restoreChunks_covers h.same h.chunks
  case txns => exact h.txns_eq
  case repairs => exact h.repairs_eq
  case admissions => exact h.admissions
  all_goals simp only [hrest]

/-- One transaction is moved and remembered, with its cohort if it has one. What becomes of the
chunks is left to the caller. -/
lemma move {ti : Fin maxTxns} {t : Txn} {u : ControlUndoEntry} {f : Txn → Txn}
    {objects : Table maxObjects Object} (hti : orig.txns ti = some t)
    (hu : u.txn = ti ∧ (t.phase, t.admission, t.readEpoch) = (u.phase, u.admission, u.readEpoch))
    (hf : ∀ t, (f t).unmoved = t.unmoved) (hsame : SameObjects objects orig.objects)
    (hchunks : Covers (chunkMap orig.objects) (chunkMap objects)
      (((l ++ [u]).filterMap (·.chunk)).map fun p => ((p.1, p.2.1), some p.2.2)))
    (hcohort : ∀ i admission, u.cohort = some (i, admission) →
      ∃ r, orig.repairs i = some r ∧ r.admission = admission) :
    ControlCovered orig { cur with objects := objects, txns := cur.txns.modify ti f }
      (l ++ [u]) := by
  obtain ⟨rfl, hnote⟩ := hu
  refine { h with noted := ?_, txns := fun i => ?_, same := hsame, chunks := hchunks, cohorts := ?_,
                  repairs := fun i => ?_ }
  · intro d hd
    rcases mem_append.mp hd with hd | hd
    · exact h.noted d hd
    · obtain rfl := mem_singleton.mp hd
      exact ⟨t, hti, hnote⟩
  · show cur.txns.modify u.txn f i = _ ∨ (cur.txns.modify u.txn f i).map _ = _ ∧ _
    rw [modify_apply]
    by_cases hi : i = u.txn
    · rw [if_pos hi]
      refine .inr ⟨?_, _, mem_append_right _ (mem_singleton_self _), hi.symm⟩
      have hun : (cur.txns i).map Txn.unmoved = (orig.txns i).map Txn.unmoved := by
        rcases h.txns i with hi | ⟨hi, -⟩ <;> rw [hi]
      rw [← hun, Option.map_map]
      exact congrArg (Option.map · _) (funext hf)
    · rw [if_neg hi]
      rcases h.txns i with hi | ⟨hi, d, hd, hdi⟩
      · exact .inl hi
      · exact .inr ⟨hi, d, mem_append_left _ hd, hdi⟩
  · intro d hd
    rcases mem_append.mp hd with hd | hd
    · exact h.cohorts d hd
    · obtain rfl := mem_singleton.mp hd
      exact hcohort
  · rcases h.repairs i with hi | ⟨hi, d, hd, hdi⟩
    · exact .inl hi
    · exact .inr ⟨hi, d, mem_append_left _ hd, hdi⟩

end ControlCovered

lemma recoveryMove_covered (fresh readEpoch : UInt64) (named : List (Fin maxTxns × Txn))
    (hnamed : ∀ p ∈ named, orig.txns p.1 = some p.2) (h : ControlCovered orig cur l) :
    ControlCovered orig (recoveryMove fresh readEpoch named cur l).1
      (recoveryMove fresh readEpoch named cur l).2 := by
  induction named generalizing cur l with
  | nil => exact h
  | cons p rest ih =>
    obtain ⟨ti, t⟩ := p
    have hti := hnamed (ti, t) mem_cons_self
    have hrest := fun q hq => hnamed q (mem_cons_of_mem _ hq)
    -- One transaction moved and remembered, whatever is remembered of its cohort.
    have hmoved : ∀ cohort : Option (Fin maxRepairs × UInt64),
        (∀ i admission, cohort = some (i, admission) →
          ∃ r, orig.repairs i = some r ∧ r.admission = admission) →
        ControlCovered orig
          { cur with txns := cur.txns.modify ti fun t =>
            { t with admission := fresh, readEpoch := readEpoch } }
          (l ++ [{ ControlUndoEntry.ofTxn (ti, t) with cohort := cohort }]) := fun _ hcohort =>
      h.move hti ⟨rfl, rfl⟩ (fun _ => rfl) h.same
        (by simpa [ControlUndoEntry.ofTxn] using h.chunks) hcohort
    unfold recoveryMove
    split
    · exact ih hrest (hmoved none (fun _ _ h => nomatch h))
    · next ri cohort hf =>
      have hri : cur.repairs ri = some cohort := by
        split at hf
        · exact (findRow_some hf).1
        · cases hf
      have hseen : (l.any fun d => d.cohort.any fun p => p.1 = ri) ↔
          ∃ u ∈ l, ∃ admission, u.cohort = some (ri, admission) := by
        simp only [any_eq_true, Option.any_eq_true, decide_eq_true_eq, Prod.exists]
        constructor
        · rintro ⟨u, hu, i, admission, hc, rfl⟩
          exact ⟨u, hu, admission, hc⟩
        · rintro ⟨u, hu, admission, hc⟩
          exact ⟨u, hu, ri, admission, hc, rfl⟩
      -- The cohort's admission is remembered here, unless an earlier transaction did.
      have hentry := hmoved
        (if (l.any fun d => d.cohort.any fun p => p.1 = ri) then none
          else some (ri, cohort.admission)) (by
          intro i admission hc
          split at hc
          · cases hc
          · next hno =>
            cases hc
            rcases h.repairs ri with hr | ⟨-, hu⟩
            · exact ⟨cohort, hr.symm.trans hri, rfl⟩
            · exact absurd (hseen.mpr hu) hno)
      refine ih hrest { hentry with repairs := fun i => ?_ }
      show cur.repairs.modify ri _ i = _ ∨ (cur.repairs.modify ri _ i).map _ = _ ∧ _
      rw [modify_apply]
      by_cases hi : i = ri
      · subst hi
        rw [if_pos rfl]
        refine .inr ⟨?_, ?_⟩
        · have hun : (cur.repairs i).map Repair.unmoved = (orig.repairs i).map Repair.unmoved := by
            rcases h.repairs i with hi | ⟨hi, -⟩ <;> rw [hi]
          rw [← hun, Option.map_map]
          rfl
        · by_cases hs : (l.any fun d => d.cohort.any fun p => p.1 = i)
          · obtain ⟨u, hu, hc⟩ := hseen.mp hs
            exact ⟨u, mem_append_left _ hu, hc⟩
          · exact ⟨_, mem_append_right _ (mem_singleton_self _), cohort.admission,
              if_neg hs⟩
      · rw [if_neg hi]
        exact hentry.repairs i

/-- Reaping remembers each chunk as it stands. The named transactions sit on different chunks, so
that is how the operation found it. -/
lemma reapMove_covered (s : ObjectSlot) (named : List (Fin maxTxns × Txn))
    (hnamed : ∀ p ∈ named, orig.txns p.1 = some p.2) (hapart : (named.map fun p => p.2.index).Nodup)
    (h : ControlCovered orig cur l)
    (hl : ∀ u ∈ l, ∀ ch, u.chunk = some ch → ∀ p ∈ named, ch.2.1 ≠ p.2.index) :
    ControlCovered orig (reapMove s named cur l).1 (reapMove s named cur l).2 := by
  induction named generalizing cur l with
  | nil => exact h
  | cons p rest ih =>
    obtain ⟨ti, t⟩ := p
    have hti := hnamed (ti, t) mem_cons_self
    obtain ⟨hhead, hrest⟩ := nodup_cons.mp hapart
    have hno : ∀ v, ((s, t.index), v) ∉
        (l.filterMap (·.chunk)).map fun p => ((p.1, p.2.1), some p.2.2) := by
      intro v hv
      obtain ⟨q, hq, he⟩ := mem_map.mp hv
      obtain ⟨u, hu, hc⟩ := mem_filterMap.mp hq
      exact hl u hu q hc (ti, t) mem_cons_self (Prod.mk.inj (Prod.mk.inj he).1).2
    unfold reapMove
    refine ih (fun q hq => hnamed q (mem_cons_of_mem _ hq)) hrest ?_ ?_
    · refine h.move hti ⟨rfl, rfl⟩ (fun _ => rfl) (fun s' => ?_) ?_ nofun
      · exact (modifyChunk_sameObjects cur.objects s t.index (·.dropPending t.id) s').trans
          (h.same s')
      have hother : ∀ f : Chunk → Chunk, ∀ k, k ≠ (s, t.index) →
          chunkMap (modifyChunk cur.objects s t.index f) k = chunkMap cur.objects k := by
        intro f k hk
        have : ¬ (k.1 = s ∧ k.2 = t.index) := fun hk' => hk (Prod.ext hk'.1 hk'.2)
        simp only [chunkMap, getChunk_modifyChunk, if_neg this]
      rw [filterMap_append]
      cases hch : getChunk cur.objects s t.index with
      | none =>
        have heq : ∀ f : Chunk → Chunk,
            chunkMap (modifyChunk cur.objects s t.index f) = chunkMap cur.objects := by
          intro f
          funext k
          by_cases hk : k = (s, t.index)
          · subst hk
            simp [chunkMap, getChunk_modifyChunk, hch]
          · exact hother f k hk
        rw [heq]
        simpa using h.chunks
      | some ch =>
        have hnote := h.chunks.note hno
        rw [show chunkMap cur.objects (s, t.index) = some ch from hch] at hnote
        have hlog := hnote.write (mem_append_right _ (mem_singleton_self _))
          (hother (·.dropPending t.id))
        simpa using hlog
    · intro u hu ch hc q hq
      rcases mem_append.mp hu with hu | hu
      · exact hl u hu ch hc q (mem_cons_of_mem _ hq)
      obtain rfl := mem_singleton.mp hu
      obtain ⟨ch', -, rfl⟩ := Option.map_eq_some_iff.mp hc
      intro he
      exact hhead (mem_map.mpr ⟨q, hq, he.symm⟩)

def StagedApart (c : Core) : Prop :=
  ∀ ti tj t t', c.txns ti = some t → c.txns tj = some t' → t.Staged → t'.Staged →
    t.object = t'.object → t.index = t'.index → ti = tj

lemma Board.Inv.stagedApart (h : c.board.Inv) : StagedApart c := by
  intro ti tj t t' ht ht' hs hs' ho hi
  have hp := (h.staged_chunk ht hs).1
  have hp' := (h.staged_chunk ht' hs').1
  rw [ho, hi, hp'] at hp
  exact h.txn.unique ti tj t t' ht ht' (Option.some.inj hp).symm

lemma controlNamed_ok {reap : Bool} {raws : List UInt64}
    (h : controlNamed c reap s old raws = .ok named) : named.map (fun p => p.2.id) = raws ∧
      ∀ p ∈ named, c.txns p.1 = some p.2 ∧ controlTxnCheck c reap s old p.2 = none := by
  induction raws generalizing named with
  | nil =>
    obtain rfl : [] = named := Except.ok.inj h
    simp
  | cons raw rest ih =>
    unfold controlNamed at h
    split at h
    · cases h
    next ti t ht =>
    split at h
    · cases h
    next hcheck =>
    split at h
    · cases h
    next more hmore =>
    cases h
    obtain ⟨hids, hrows⟩ := ih hmore
    obtain ⟨hti, hid, -⟩ := findById_some ht
    refine ⟨by simp [hids, hid], fun p hp => ?_⟩
    rcases mem_cons.mp hp with rfl | hp
    · exact ⟨hti, hcheck⟩
    · exact hrows p hp

lemma controlTxnCheck_reap {t : Txn} (h : controlTxnCheck c true s old t = none) :
    t.object = s ∧ t.Staged := by
  unfold controlTxnCheck at h
  split at h
  · cases h
  next hobj =>
  split at h
  · cases h
  next hmode =>
  split at h
  · cases h
  next hphase =>
  have hmode : t.mode = .ordinary := by simpa using hmode
  refine ⟨by simpa using hobj, hmode, ?_⟩
  by_contra hno
  rw [not_or] at hno
  exact hphase ⟨hno.1, hno.2, fun hr => by rw [hmode] at hr; exact nomatch hr.1⟩

lemma named_indexes_nodup (hapart : StagedApart c) {raws : List UInt64} (hraws : raws.Nodup)
    (h : controlNamed c true s old raws = .ok named) : (named.map fun p => p.2.index).Nodup := by
  obtain ⟨hids, hrows⟩ := controlNamed_ok h
  rw [← hids] at hraws
  rw [List.Nodup, pairwise_map] at hraws ⊢
  refine (List.Pairwise.and_mem.mp hraws).imp ?_
  rintro p q ⟨hp, hq, hne⟩ hindex
  obtain ⟨hpt, hpc⟩ := hrows p hp
  obtain ⟨hqt, hqc⟩ := hrows q hq
  obtain ⟨hpo, hps⟩ := controlTxnCheck_reap hpc
  obtain ⟨hqo, hqs⟩ := controlTxnCheck_reap hqc
  have hslot := hapart p.1 q.1 p.2 q.2 hpt hqt hps hqs (hpo.trans hqo.symm) hindex
  rw [hslot, hqt] at hpt
  exact hne (by rw [Option.some.inj hpt])

def ControlOutcome.Exact (o : ControlOutcome) (c : Core) : Prop :=
  TakesBack c o.core (controlUndoApply · o.undo)

lemma refuseControl_exact (c : Core) (status : Status) (res : EntryResult) :
    (refuseControl c status res).Exact c := ⟨rfl, rfl⟩

lemma controlUndoApply_some (c : Core) (l : List ControlUndoEntry) (oi : Fin maxAdmissions)
    (revoked : Bool) :
    controlUndoApply c ⟨l, some (oi, revoked)⟩ = { l.foldl controlUndoEntry c with
      admissions := (l.foldl controlUndoEntry c).admissions.modify oi
        fun a => { a with revoked := revoked } } := rfl

lemma admissions_self {oi : Fin maxAdmissions} (hold : c.admissions oi = some old) :
    c.admissions.modify oi (fun a => { a with revoked := old.revoked }) = c.admissions :=
  modify_eq_self fun a ha => by
    obtain rfl : a = old := Option.some.inj (ha.symm.trans hold)
    rfl

lemma ControlCovered.exact {oi : Fin maxAdmissions} (hold : c.admissions oi = some old)
    (h : ControlCovered c cur l) {admissions : Table maxAdmissions Admission}
    (hadm : admissions.modify oi (fun a => { a with revoked := old.revoked }) = c.admissions)
    (status : Status) (res : EntryResult) :
    ControlOutcome.Exact ⟨status, res, { cur with admissions := admissions },
      ⟨l, some (oi, old.revoked)⟩⟩ c := by
  have hkeep : l.foldl controlUndoEntry { cur with admissions := admissions } =
      { l.foldl controlUndoEntry cur with admissions := admissions } := by
    rw [foldl_controlUndoEntry, foldl_controlUndoEntry]
  constructor
  · dsimp only
    rw [controlUndoApply_some, hkeep, h.apply_eq]
    simp only [hadm]
  · dsimp only
    rw [controlUndoApply_some, h.origin.apply_eq, admissions_self hold]

lemma doRecoveryAdmit_exact (env : Envelope UInt64) (k : ControlBatch UInt64)
    {oi : Fin maxAdmissions}
    (hold : c.admissions oi = some old) (hnamed : ∀ p ∈ named, c.txns p.1 = some p.2)
    (res : EntryResult) : (doRecoveryAdmit c env k oi old named res).Exact c := by
  have hsame : ControlCovered c c (named.map ofTxn) := by
    refine { ControlCovered.start c with noted := ?_, chunks := ?_, cohorts := ?_, repairs := ?_,
                                         txns := fun _ => .inl rfl }
    · intro u hu
      obtain ⟨p, hp, rfl⟩ := mem_map.mp hu
      exact ⟨p.2, hnamed p hp, rfl⟩
    · have : (named.map ofTxn).filterMap (·.chunk) = [] := by
        simp [filterMap_map, ofTxn, Function.comp_def]
      rw [this]
      exact Covers.start _
    · intro u hu i admission hc
      obtain ⟨p, -, rfl⟩ := mem_map.mp hu
      cases hc
    · exact fun _ => .inl rfl
  unfold doRecoveryAdmit
  split
  · exact hsame.exact hold (admissions_self hold) _ _
  dsimp only
  split
  · exact hsame.exact hold (admissions_self hold) _ _
  · refine (recoveryMove_covered _ _ named hnamed (ControlCovered.start c)).exact hold ?_ _ _
    rw [modify_eq_set hold, modify_eq_set (set_self _ _ _), Table.set_set]
    exact set_eq_self hold

lemma doControl_exact (hapart : StagedApart c) (env : Envelope UInt64) (reap : Bool)
    {k : ControlBatch UInt64} (hk : k.txns.Nodup) (res : EntryResult) :
    (doControl c env reap k res).Exact c := by
  unfold doControl
  split
  · exact refuseControl_exact ..
  next s o hs =>
  split
  · exact refuseControl_exact ..
  next oi old hold =>
  have hold := (findById_some hold).1
  iterate 3
    split
    · exact refuseControl_exact ..
  next named hn =>
  have hnamed := fun p hp => ((controlNamed_ok hn).2 p hp).1
  cases reap with
  | false => exact doRecoveryAdmit_exact env k hold hnamed res
  | true =>
    have hcov := reapMove_covered s named hnamed (named_indexes_nodup hapart hk hn)
      (ControlCovered.start c) (by intro u hu; cases hu)
    have hself : (reapMove s named c []).1.admissions.modify oi
        (fun a => { a with revoked := old.revoked }) = c.admissions := by
      rw [hcov.admissions]
      exact admissions_self hold
    exact hcov.exact hold hself _ _

end Reffs.D1
