import Reffs.D1.Retained

/-!
# Rolling a committed transaction back

A rollback of a committed transaction makes the predecessor of its version visible again. Which
version that is was settled when the transaction was prepared: the one that was visible then
(`Prepares`). A predecessor whose release was recorded is never made visible, and a rollback that
would is answered `NO_PREDECESSOR`.
-/

namespace Reffs.D1

open SlotTable Table Machine Option Status

variable {c c' : Core} {w w₀ : World} {vi : Fin maxVersions} {v : Version} {ti : Fin maxTxns}
    {t : Txn}
  {p : UInt64}

/-! ## Transactions and their versions -/

/-- The version of a transaction has been made, and that of an ordinary one is not zero. -/
def Core.Versioned (c : Core) : Prop :=
  ∀ ti t, c.txns ti = some t → t.version.toNat < c.nextVersion.toNat ∧
    (t.mode = .ordinary → t.version ≠ 0)

lemma Core.Versioned.grows (h : c.Versioned) (hnext : 1 ≤ c.nextVersion.toNat) (hg : c.Grows c') :
    c'.Versioned := by
  have hgiven : ∀ {id}, Given c.nextVersion c'.nextVersion id → id.toNat < c'.nextVersion.toNat ∧
      id ≠ 0 := by
    intro id hid
    refine ⟨hid.2, ?_⟩
    rintro rfl
    exact absurd (hnext.trans hid.1) (by decide)
  intro ti t' ht'
  rcases hg.txn.row ti t' ht' with ⟨t, ht, hlater⟩ | ⟨hmade, -⟩
  · rcases hlater.version with hsame | hnew
    · obtain ⟨hlt, hne⟩ := h ti t ht
      rw [hsame, ← (Txn.of_fixed hlater.fixed).2.2.2]
      exact ⟨hlt.trans_le hg.version.counter, hne⟩
    · exact ⟨(hgiven hnew).1, fun _ => (hgiven hnew).2⟩
  · rcases hmade with ⟨hmode, hzero⟩ | hnew
    · refine ⟨?_, fun hord => ?_⟩
      · rw [hzero]
        exact hnext.trans hg.version.counter
      · rw [hmode] at hord
        cases hord
    · exact ⟨(hgiven hnew).1, fun _ => (hgiven hnew).2⟩

lemma Reachable.versioned (h : Reachable w) : w.store.core.Versioned := by
  refine h.induct (P := Core.Versioned) (fun hopen ti t ht => ?_) fun {w e} hw hv => ?_
  · rw [(coreOpen_empty hopen).txns] at ht
    cases ht
  · exact hv.grows hw.stocked.inv.next (step_grows hw e)

/-! ## Where a predecessor comes from -/

/-- Event `prep`, taken in `u`, prepares transaction `t` over version `p`: no transaction had the
version of `t` before, `t` has it from then on, and the version records as its predecessor what was
visible at the chunk of `t`. -/
structure Prepares (u : World) (prep : Event) (t : Txn) (p : UInt64) : Prop where
  before : ∀ ti t', u.store.core.txns ti = some t' → t'.version ≠ t.version
  prepared : ∃ ti t', (step u prep).store.core.txns ti = some t' ∧ t'.id = t.id ∧
    t'.version = t.version
  recorded : ∃ vi v, (step u prep).store.core.versions vi = some v ∧ v.id = t.version ∧
    v.predecessor = some p
  visible : (chunkAt u.store.core.objects t.object t.index).visible = some p

lemma step_made (h : Reachable w) (e : Event) (hv : (step w e).store.core.versions vi = some v)
    (hnew : w.store.core.nextVersion.toNat ≤ v.id.toNat) :
    v.predecessor = (chunkAt w.store.core.objects v.object v.index).visible := by
  have hold : ∀ u, w.store.core.versions vi = some u → u.id ≠ v.id := by
    intro u hu hid
    have hlt := (h.stocked.inv.below vi u hu).2
    rw [hid] at hlt
    exact absurd hlt (Nat.not_lt.mpr hnew)
  refine (step_effect h.inv e).elim (P := fun _ c => c.versions vi = some v →
    v.predecessor = (chunkAt w.store.core.objects v.object v.index).visible) h.inv ?_ ?_ ?_ ?_ hv
  · exact fun hsame => absurd rfl (hold v hsame)
  · exact fun _ hsame => absurd rfl (hold v hsame)
  · intro r hsame
    obtain ⟨u, hu, hf⟩ := controlLocked_versions h.stocked.inv r hsame
    exact absurd (Version.of_fixed hf).1 (hold u hu)
  · rintro ans core ⟨receipt, valid, spare, code, ground, change⟩ hmade
    rcases change with ⟨-, rfl⟩ | change
    · exact absurd rfl (hold v hmade)
    have hn := used_lt_of_spare (spare_some spare)
    rcases change.versions h.stocked h.pointers.toUnstaged h.inv.store.core.numbered hn
      h.inv.store.core.board valid vi v hmade with hsame | hmade
    · exact absurd rfl (hold v hsame)
    · exact hmade.above

/-- **The transaction of a version was prepared at one event of the run**, over the version that is
recorded as the predecessor. -/
theorem run_prepares (h : Reachable w₀) (hnone : w₀.store.core.nextVersion = 1) {es : List Event}
    (ht : (run step w₀ es).store.core.txns ti = some t)
    (hv : (run step w₀ es).store.core.versions vi = some v) (hid : v.id = t.version)
    (hplace : v.object = t.object ∧ v.index = t.index) (hp : v.predecessor = some p) :
    ∃ before prep after, es = before ++ prep :: after ∧ Prepares (run step w₀ before) prep t p := by
  obtain ⟨hne, hlt⟩ := (h.run es).stocked.inv.below vi v hv
  -- the event at which the counter of versions passed the number
  obtain ⟨before, prep, after, rfl, hbefore, hafter⟩ := run_turns (s := w₀)
    (P := fun w => v.id.toNat < w.store.core.nextVersion.toNat) (by
      rw [hnone]
      have : v.id.toNat ≠ 0 := fun h0 => hne (UInt64.toNat_inj.mp h0)
      exact fun hone => this (Nat.lt_one_iff.mp hone)) hlt
  have hu := h.run before
  have hu' : Reachable (step (run step w₀ before) prep) := hu.run [prep]
  have hg := run_grows hu' after
  rw [run_append, run_cons] at ht hv
  refine ⟨before, prep, after, rfl, fun tj t' ht' he => ?_, ?_, ?_, ?_⟩
  · have := (hu.versioned tj t' ht').1
    rw [he, ← hid] at this
    exact hbefore this
  · -- a later version than this one has a later number
    have hnotnew : ∀ {n'}, ¬ Given (step (run step w₀ before) prep).store.core.nextVersion
        n' t.version := fun hgiven => absurd hafter (Nat.not_lt.mpr (hid ▸ hgiven.1))
    rcases hg.txn.row ti t ht with ⟨t', ht', hlater⟩ | ⟨⟨-, hzero⟩ | hgiven, -⟩
    · rcases hlater.version with hsame | hgiven
      · exact ⟨ti, t', ht', hlater.id_eq, hsame.symm⟩
      · exact absurd hgiven hnotnew
    · exact absurd (hid.trans hzero) hne
    · exact absurd hgiven hnotnew
  · obtain ⟨v', hv', hlater⟩ := hg.version.origin hv hafter
    exact ⟨vi, v', hv', hlater.id_eq.trans hid, (Version.of_fixed hlater.fixed).2.2.2.2.2.trans hp⟩
  · obtain ⟨v', hv', hlater⟩ := hg.version.origin hv hafter
    obtain ⟨hid', hobject, hindex, -, -, hpred⟩ := Version.of_fixed hlater.fixed
    have hmade := step_made hu prep hv' (by rw [hid']; exact Nat.not_lt.mp hbefore)
    rw [hpred, hp, hobject, hindex, hplace.1, hplace.2] at hmade
    exact hmade.symm

lemma Prepares.predecessor (h : Reachable w₀) {before after : List Event} {prep : Event}
    (hprep : Prepares (run step w₀ before) prep t p)
    (hv : (run step w₀ (before ++ prep :: after)).store.core.versions vi = some v)
    (hid : v.id = t.version) : v.predecessor = some p := by
  have hu' : Reachable (step (run step w₀ before) prep) := (h.run before).run [prep]
  have hg := run_grows hu' after
  rw [run_append, run_cons] at hv
  obtain ⟨vj, u, hu, huid, hpred⟩ := hprep.recorded
  have hlt := (hu'.stocked.inv.below vj u hu).2
  rw [huid, ← hid] at hlt
  obtain ⟨v', hv', hlater⟩ := hg.version.origin hv hlt
  obtain rfl := hu'.stocked.inv.number.row_eq hv' hu (hlater.id_eq.trans (hid.trans huid.symm))
  exact (Version.of_fixed hlater.fixed).2.2.2.2.2.symm.trans hpred

/-! ## Releases -/

/-- The version whose release an event records. -/
def releasedBy (w : World) : Event → Option UInt64
  | .fixture call => match call.request w.store with
    | some ⟨object, .release version⟩ =>
      if (fixtureControl w.store ⟨object, .release version⟩).1.status = Status.ok.code then
        some version
      else none
    | _ => none
  | _ => none

def Core.Released (c : Core) (id : UInt64) : Prop :=
  ∃ vi v, c.versions vi = some v ∧ v.id = id ∧ v.released = true

lemma fixtureControl_ok {s : Store} (hs : s.journaling) {r : ControlRequest}
    (h : (fixtureControl s r).1.status = ok.code) :
    (fixtureControl s r).1 = (controlLocked s.core r).1 ∧
      (fixtureControl s r).2.core = (controlLocked s.core r).2 := by
  have hissue : r.body.issues → (controlLocked s.core r).1.id = 0 →
      (controlLocked s.core r).1.status ≠ ok.code := by
    intro hissues hid
    obtain ⟨object, body⟩ := r
    cases body with
    | admitUnder auth =>
      have hid : (admitLocked s.core object auth).1 = 0 := hid
      simp only [controlLocked, hid]
      decide
    | custody version =>
      have hid : (custodyLocked s.core version).1 = 0 := hid
      simp only [controlLocked, hid]
      decide
    | _ => cases hissues
  unfold fixtureControl at h ⊢
  dsimp only at h ⊢
  split at h
  · grind
  next hgiven =>
  rw [if_neg hgiven]
  rw [hs] at h ⊢
  rw [if_neg (by decide)] at h ⊢
  split at h
  · exact ⟨rfl, rfl⟩
  · have h : io.code = ok.code := h
    exact absurd h (by decide)

lemma releasedBy_released (hw : w.Inv) {e : Event} {id : UInt64} (h : releasedBy w e = some id) :
    (step w e).store.core.Released id := by
  cases e with
  | fixture call =>
    unfold releasedBy at h
    dsimp only at h
    split at h
    · next object version hreq =>
      split at h
      · next hok =>
        obtain rfl := some.inj h
        obtain ⟨hresult, hcore⟩ := fixtureControl_ok hw.store.journaling hok
        have hstep : (step w (.fixture call)).store.core =
            (controlLocked w.store.core ⟨object, .release version⟩).2 := by
          rw [← hcore]
          rcases fixture_cases w.store call with ⟨r, hr, -, he⟩ | ⟨hnone, -⟩
          · obtain rfl := some.inj (hreq.symm.trans hr)
            exact congrArg Store.core he
          · rw [hreq] at hnone
            cases hnone
        rw [hstep]
        rcases releaseLocked_cases w.store.core version with he | ⟨i, v, hf, -, he⟩
        · rw [hresult] at hok
          simp only [controlLocked, he] at hok
          exact absurd hok (by decide)
        · simp only [controlLocked, he]
          exact ⟨i, _, set_self _ _ _, (findById_some hf).2.1, rfl⟩
      · cases h
    · cases h
  | _ => cases h

/-- **A release stays**: a version that was released and still has a row is released. -/
theorem Core.Released.grows {id : UInt64} (h : c.Released id) (hg : c.Grows c') (hinv : c.stock.Inv)
    (hv : c'.versions vi = some v) (hid : v.id = id) : v.released := by
  obtain ⟨vj, u, hu, huid, hreleased⟩ := h
  have hlt := (hinv.below vj u hu).2
  rw [huid, ← hid] at hlt
  obtain ⟨v', hv', hlater⟩ := hg.version.origin hv hlt
  obtain rfl := hinv.number.row_eq hv' hu (hlater.id_eq.trans (hid.trans huid.symm))
  exact hlater.released hreleased

/-! ## The rollback itself -/

/-- A rollback of a committed transaction that was recorded `OK`: the version of the transaction was
visible, and its predecessor, which is there and not released, is visible now. -/
structure RolledBack (c c' : Core) (t : Txn) (v p : Version) : Prop where
  version : ∃ vi, c.versions vi = some v ∧ v.id = t.version
  visible : (chunkAt c.objects t.object t.index).visible = some t.version
  predecessor : ∃ pi, c.versions pi = some p ∧ v.predecessor = some p.id
  kept : p.released = false
  restored : (chunkAt c'.objects t.object t.index).visible = some p.id

lemma Records.rolledBack {ans : MemberAnswer} (h : Records c ans c') {r : RollbackBatch UInt64}
    {e : RollbackEntry UInt64} (hbody : ans.env.body = .rollbackBatch r)
    (hentry : r.entries[ans.ordinal]? = some e) (hfound : txnFind c e.txn = some (ti, t))
    (hphase : t.phase = .committed) (hok : ans.entry.status = ok.code) :
    ∃ v p, RolledBack c c' t v p := by
  obtain @⟨env, ordinal, entry, slot, status, core, receipt, valid, spare, code, ground, change⟩ :=
    h
  obtain rfl : status = .ok := code_injective (code.symm.trans hok)
  rcases change with ⟨hne, -⟩ | change
  · exact absurd rfl hne
  have hnot : ∀ {b : Body UInt64}, env.body = b → b = .rollbackBatch r :=
    fun hb => hb.symm.trans hbody
  cases change with
  | ordinary _ _ change =>
    cases change with
    | write _ body => cases hnot body
    | finalize body | commit body => obtain ⟨l, body⟩ := body; cases hnot body
    | @rollback r' e' ti' t' o body entry found staged =>
      cases hnot body
      obtain rfl := some.inj (entry.symm.trans hentry)
      obtain ⟨-, rfl⟩ := Prod.mk.inj (some.inj (found.symm.trans hfound))
      rcases staged.2 with hp | hp <;> rw [hphase] at hp <;> cases hp
    | @rollbackCommitted r' e' ti' t' o vi pi ver pred body entry found phase right object writable
        pending visible version number predecessor pointer released =>
        cases hnot body
        obtain rfl := some.inj (entry.symm.trans hentry)
        obtain ⟨-, rfl⟩ := Prod.mk.inj (some.inj (found.symm.trans hfound))
        refine ⟨ver, pred, ⟨vi, version, number⟩, ?_, ⟨pi, predecessor, pointer⟩, released, ?_⟩
        · rw [chunkAt_of object, visible]
        · dsimp only
          rw [chunkAt_setChunk object, putChunk_self]
  | repair body => cases hnot body
  | control _ _ change =>
    cases change with
    | recovery body | reap body => cases hnot body

/-- What a rollback of a committed transaction has to pass before its predecessor is looked at. -/
structure RollbackPasses (c : Core) (env : Envelope UInt64) (r : RollbackBatch UInt64)
    (e : RollbackEntry UInt64) (a : Admission) (o : Object) (t : Txn) : Prop where
  admission : admissionCheck c env (opRights env.body) = .ok a
  right : hasRight a.rights rightRepair = true
  object : objectFind c env.object = some (t.object, o)
  index : chunkIndex e.index = some t.index
  range : r.rangeBegin ≤ e.index ∧ e.index < r.rangeEnd
  writable : chunkWritable (o.chunks t.index) = true
  pending : (o.chunks t.index).pending = none
  owner : t.owner = e.owner
  shown : e.visible = some t.version
  visible : (o.chunks t.index).visible = some t.version
  custody : ∃ raw ci k, e.custody = some raw ∧ custodyFind c raw = some (ci, k) ∧
    k.version = t.version

lemma doRollbackEntry_released (x : Exhaust) {env : Envelope UInt64} {r : RollbackBatch UInt64}
    {e : RollbackEntry UInt64} {a : Admission} {o : Object} (h : RollbackPasses c env r e a o t)
    (hfound : txnFind c e.txn = some (ti, t)) (hphase : t.phase = .committed)
    (hv : versionFind c t.version = some (vi, v))
    (hgone : ((v.predecessor.bind (versionFind c)).map Prod.snd).filter (!·.released) = none)
    (res : EntryResult) : (doRollbackEntry x c env r e a res).status = .noPredecessor ∨
      (doRollbackEntry x c env r e a res).status = .nospc := by
  obtain ⟨raw, ci, k, hraw, hk, hkv⟩ := h.custody
  have hrange : ¬ (e.index < r.rangeBegin ∨ r.rangeEnd ≤ e.index) := by
    rw [not_or, UInt64.not_lt, UInt64.not_le]
    exact h.range
  unfold doRollbackEntry
  rw [h.object, h.index]
  dsimp only
  rw [if_neg hrange, hfound]
  dsimp only
  rw [if_neg (by rw [hphase]; simp), if_neg (by simp [h.writable]), if_neg (by simp),
    if_neg (by simp [h.owner]), if_neg (by rw [hphase]; simp), if_neg (by simp [hphase])]
  unfold rollbackCommitted
  rw [hraw]
  dsimp only
  rw [if_neg (by simp [h.right]), if_neg (by simp [h.shown, h.visible]), hk]
  dsimp only
  rw [if_neg (by simp [h.visible, hkv]), if_neg (by simp [h.visible]),
    if_neg (by simp [h.pending]), hv]
  dsimp only
  split
  · exact .inl rfl
  rw [hgone]
  unfold rollbackPostcond
  dsimp only
  split
  · exact .inr rfl
  split
  · exact .inr rfl
  · exact .inl rfl

/-! ## Over whole runs -/

/-- In the run `es` from `w₀`, transaction `t` was prepared over version `p`. -/
def PreparedOver (w₀ : World) (es : List Event) (t : Txn) (p : UInt64) : Prop :=
  ∃ before prep after, es = before ++ prep :: after ∧ Prepares (Machine.run step w₀ before) prep t p

/-- In the run `es` from `w₀`, the release of version `p` was recorded. -/
def ReleaseRecorded (w₀ : World) (es : List Event) (p : UInt64) : Prop :=
  ∃ before rel after, es = before ++ rel :: after ∧
    releasedBy (Machine.run step w₀ before) rel = some p

lemma ReleaseRecorded.released (h : Reachable w₀) {es : List Event} (hrel : ReleaseRecorded w₀ es p)
    (hv : (run step w₀ es).store.core.versions vi = some v) (hid : v.id = p) : v.released := by
  obtain ⟨before, rel, after, rfl, hrel⟩ := hrel
  have hu' : Reachable (step (run step w₀ before) rel) := (h.run before).run [rel]
  rw [run_append, run_cons] at hv
  exact (releasedBy_released (h.run before).inv hrel).grows
    (run_grows hu' after) hu'.stocked.inv hv hid

/-- **Rolling back a committed transaction.** Recorded `OK`, it makes visible exactly the version
the transaction was prepared over, and that is never one whose release was recorded. Where the
release of that version was recorded, the rollback is not recorded `OK`; if it passes what is asked
before the predecessor, it is recorded `NO_PREDECESSOR`. -/
theorem rollback_restores {inst : UInt64} {uuid : Uuid} {chunkBytes : UInt32}
    {maxFileBytes : UInt64}
    {w₀ : World} (hopen : World.open inst uuid chunkBytes maxFileBytes = some w₀) {es : List Event}
    {e : Event} {ans : MemberAnswer} (hrec : recordedBy (Machine.run step w₀ es) e = some ans)
    {r : RollbackBatch UInt64} {en : RollbackEntry UInt64} (hbody : ans.env.body = .rollbackBatch r)
    (hentry : r.entries[ans.ordinal]? = some en) {ti : Fin maxTxns} {t : Txn}
    (hfound : txnFind (Machine.run step w₀ es).store.core en.txn = some (ti, t))
    (hphase : t.phase = .committed) :
    (ans.entry.status = Status.ok.code → ∃ p, PreparedOver w₀ es t p ∧ ¬ ReleaseRecorded w₀ es p ∧
      (chunkAt (step (Machine.run step w₀ es) e).store.core.objects t.object t.index).visible =
        some p) ∧
    ∀ p, PreparedOver w₀ es t p → ReleaseRecorded w₀ es p → ans.entry.status ≠ Status.ok.code ∧
      ∀ a o, RollbackPasses (Machine.run step w₀ es).store.core ans.env r en a o t →
        ans.entry.status = Status.noPredecessor.code := by
  have h₀ : Reachable w₀ := .opened hopen
  have hw := h₀.run es
  have hrecords := recordedBy_records hw.inv hrec
  have hone : w₀.store.core.nextVersion = 1 := (coreOpen_empty (World.open_core hopen)).nextVersion
  have ht := (findById_some hfound).1
  have hover : ∀ {p vi v}, PreparedOver w₀ es t p →
      (run step w₀ es).store.core.versions vi = some v → v.id = t.version →
        v.predecessor = some p := by
    rintro p vi v ⟨before, prep, after, rfl, hprep⟩ hv hid
    exact hprep.predecessor h₀ hv hid
  refine ⟨fun hok => ?_, fun p hprep hrel => ⟨fun hok => ?_, fun a o hpass => ?_⟩⟩
  · obtain ⟨v, p, ⟨vi, hv, hid⟩, hvisible, ⟨pi, hp, hpred⟩, hkept, hrestored⟩ :=
      hrecords.rolledBack hbody hentry hfound hphase hok
    have hplace := (hw.pointers.visible _ _ _ hvisible).place vi v hv hid
    refine ⟨p.id, run_prepares h₀ hone ht hv hid hplace hpred, fun hrel => ?_, hrestored⟩
    rw [hrel.released h₀ hp rfl] at hkept
    cases hkept
  · obtain ⟨v, q, ⟨vi, hv, hid⟩, -, ⟨qi, hq, hpred⟩, hkept, -⟩ :=
      hrecords.rolledBack hbody hentry hfound hphase hok
    have hqp : q.id = p := some.inj (hpred.symm.trans (hover hprep hv hid))
    rw [hrel.released h₀ hq hqp] at hkept
    cases hkept
  · -- the version of the transaction is visible, so it is there, and records the predecessor
    have hvisible : (chunkAt (run step w₀ es).store.core.objects t.object t.index).visible =
        some t.version := by
      rw [chunkAt_of (findRow_some hpass.object).1, hpass.visible]
    obtain ⟨vi, v, hfind⟩ := (hw.retained.visible _ _ _ hvisible).found hw.stocked.inv
    obtain ⟨hv, hid, -⟩ := findById_some hfind
    have hgone : ((v.predecessor.bind (versionFind (run step w₀ es).store.core)).map
        Prod.snd).filter (!·.released) = none := by
      rw [hover hprep hv hid, bind_some]
      cases hp : versionFind (run step w₀ es).store.core p with
      | none => rfl
      | some q =>
        obtain ⟨hq, hqid, -⟩ := findById_some hp
        simp [hrel.released h₀ hq hqid]
    obtain ⟨red, ⟨x, hred⟩, ⟨hspace, -⟩, hent⟩ := recordedBy_reduced hw.inv hrec
    have hstatus : red.status = (doRollbackEntry x (run step w₀ es).store.core ans.env r en a
        (completeStart (run step w₀ es).store.core ans.env.key).entry).status := by
      rw [hred]
      unfold reduceEnvelope reduceOne reduceOrdinary
      rw [hpass.admission, hbody]
      dsimp only
      rw [hentry]
      rfl
    rw [hent]
    dsimp only
    rcases doRollbackEntry_released x hpass hfound hphase hfind hgone
      (completeStart (run step w₀ es).store.core ans.env.key).entry with hno | hfull
    · rw [hstatus, hno]
    · exact absurd (hstatus.trans hfull) hspace

/-- The first chunk is written a second time and committed; version 1 is released or not; and the
second transaction is rolled back, up to the event that records it. -/
def rollbackEvents (release : List Item) : List Event :=
  let cl := smallClient
  smallEvents.1 ++ (cl.script 2 ([.apply (cl.write 2 0 [66] false),
    .apply (.finalizeBatch (cl.lifecycle 2 0 2 (some 1))),
    .apply (.commitBatch (cl.lifecycle 2 0 2 (some 1))),
    .fixture (.custody (cl.handle .version 2))] ++ release ++
    [.apply (.rollbackBatch ⟨0, 1, [⟨0, cl.owner 2, cl.handle .txn 2, some (cl.handle .version 2),
      some (cl.handle .version 1), some (cl.handle .custody 1)⟩]⟩)])).dropLast

def releaseFirst : Item := .fixture (.release (smallClient.handle .version 1))

/-- The event records the rollback of a committed transaction, with this status. -/
def rollsBack (w : World) (e : Event) (status : Status) : Bool :=
  (recordedBy w e).any fun ans => ans.entry.status == status.code && match ans.env.body with
    | .rollbackBatch r => (r.entries[ans.ordinal]?).any fun en =>
      (txnFind w.store.core en.txn).any fun p => decide (p.2.phase = .committed)
    | _ => false

lemma rollsBack_some {e : Event} {status : Status} (h : rollsBack w e status) :
    ∃ ans r en ti t, recordedBy w e = some ans ∧ ans.env.body = .rollbackBatch r ∧
      r.entries[ans.ordinal]? = some en ∧ txnFind w.store.core en.txn = some (ti, t) ∧
      t.phase = .committed ∧ ans.entry.status = status.code := by
  obtain ⟨ans, hrec, h⟩ := (any_eq_true _ _).mp h
  rw [Bool.and_eq_true, beq_iff_eq] at h
  obtain ⟨hstatus, h⟩ := h
  split at h
  · next r hbody =>
    obtain ⟨en, hentry, h⟩ := (any_eq_true _ _).mp h
    obtain ⟨⟨ti, t⟩, hfound, h⟩ := (any_eq_true _ _).mp h
    exact ⟨ans, r, en, ti, t, hrec, hbody, hentry, hfound, of_decide_eq_true h, hstatus⟩
  · cases h

theorem rollback_restores_small : (∃ t p, PreparedOver firstWorld (rollbackEvents []) t p ∧
      ¬ ReleaseRecorded firstWorld (rollbackEvents []) p ∧
      (chunkAt
        (step (Machine.run step firstWorld (rollbackEvents [])) (.advance 5)).store.core.objects
        t.object t.index).visible = some p) ∧
    ReleaseRecorded firstWorld (rollbackEvents [releaseFirst]) 1 ∧
    rollsBack (Machine.run step firstWorld (rollbackEvents [releaseFirst])) (.advance 5)
      .noPredecessor = true := by
  refine ⟨?_, ⟨(rollbackEvents [releaseFirst]).take 14,
    .fixture (.release (smallClient.handle .version 1)), (rollbackEvents [releaseFirst]).drop 15,
    by decide +kernel, by decide +kernel⟩, by decide +kernel⟩
  have hrolls : rollsBack (run step firstWorld (rollbackEvents [])) (.advance 5) .ok :=
    by decide +kernel
  obtain ⟨ans, r, en, ti, t, hrec, hbody, hentry, hfound, hphase, hok⟩ := rollsBack_some hrolls
  have hopen : World.open 1 (ByteCodec.zeros 16) 4096 1000000 = some firstWorld :=
    (some_get _).symm
  exact ⟨t, (rollback_restores hopen hrec hbody hentry hfound hphase).1 hok⟩

end Reffs.D1
