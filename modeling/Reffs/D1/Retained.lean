import Reffs.D1.Extents
import Reffs.D1.Ledgers
import Reffs.D1.Refusals

/-!
# Versions that last

The only versions the store ever drops are replacements that a repair staged and then gave up. A
version that has a row and that no open cohort holds as a replacement lasts (`Lasting`): no
operation drops it and no cohort takes hold of it later. Every version that is visible, staged by an
ordinary transaction or recorded as a predecessor lasts, and a cohort that is prepared has its
replacements (`Retained`).
-/

namespace Reffs.D1

open SlotTable Table

variable {id : UInt64} {rj : Fin maxRepairs} {q : Repair} {m k : RepairMember} {ans : MemberAnswer}

variable {ri : Fin maxRepairs} {r : Repair} {env : Envelope UInt64} {ordinal n : Nat}
    {a : Admission}
  {status : Status} {core : Core} {rb : RepairBatch UInt64} {op : RepairOp} {named : Option UInt64}
  {vi : Fin maxVersions} {v : Version} {w : World}

/-- The replacement `id` is held by an open cohort. -/
def Core.Holds (c : Core) (id : UInt64) : Prop :=
  ∃ ri r m, c.repairs ri = some r ∧ r.Open ∧ m ∈ r.members ∧ m.version = id

/-- A version with a row, which no open cohort can give up. -/
structure Core.Lasting (c : Core) (id : UInt64) : Prop where
  row : ∃ vi v, c.versions vi = some v ∧ v.id = id
  free : ¬ c.Holds id

/-- What every operation does to the rows and to who holds them: a row is dropped only if an open
cohort held it, and what a cohort newly holds is newly made. -/
structure Core.Retains (c c' : Core) : Prop where
  row : ∀ vi v, c.versions vi = some v → ¬ c.Holds v.id → ∃ v', c'.versions vi = some v' ∧
    v'.id = v.id
  held : ∀ id, c'.Holds id → id = 0 ∨ c.nextVersion.toNat ≤ id.toNat ∨ c.Holds id

section

variable {c c' : Core}

lemma Core.Lasting.retained (h : c.Lasting id) (hinv : c.stock.Inv) (hr : c.Retains c') :
    c'.Lasting id := by
  obtain ⟨⟨vi, v, hv, rfl⟩, hfree⟩ := h
  obtain ⟨hne, hlt⟩ := hinv.below vi v hv
  refine ⟨?_, fun hheld => ?_⟩
  · obtain ⟨v', hv', hid⟩ := hr.row vi v hv hfree
    exact ⟨vi, v', hv', hid⟩
  · rcases hr.held v.id hheld with hzero | hge | hold
    · exact hne hzero
    · exact absurd hlt (Nat.not_lt.mpr hge)
    · exact hfree hold

lemma Core.Lasting.found (h : c.Lasting id) (hinv : c.stock.Inv) :
    ∃ vi v, versionFind c id = some (vi, v) := by
  obtain ⟨vi, v, hv, rfl⟩ := h.row
  refine ⟨vi, v, findById_eq hv rfl (hinv.below vi v hv).1 fun vj u hu he => ?_⟩
  exact hinv.number vj vi u v hu hv he

/-! ## What an operation drops -/

lemma Core.Retains.rows (hrow : ∀ vi v, c.versions vi = some v → c'.versions vi = some v)
    (hrep : c'.repairs = c.repairs) : c.Retains c' := by
  refine ⟨fun vi v hv _ => ⟨v, hrow vi v hv, rfl⟩, fun id hheld => .inr (.inr ?_)⟩
  unfold Core.Holds at hheld
  rwa [hrep] at hheld

lemma Core.Retains.cohort {r' : Repair}
    (hrow : ∀ vi v, c.versions vi = some v → ¬ c.Holds v.id → c'.versions vi = some v)
    (hrep : c'.repairs = c.repairs.set ri r')
    (hheld : r'.Open → ∀ m ∈ r'.members, m.version = 0 ∨ c.nextVersion.toNat ≤ m.version.toNat ∨
      c.Holds m.version) : c.Retains c' := by
  refine ⟨fun vi v hv hfree => ⟨v, hrow vi v hv hfree, rfl⟩, ?_⟩
  rintro _ ⟨rj, q, m, hq, hopen, hm, rfl⟩
  rw [hrep, set_apply] at hq
  split at hq
  · cases hq
    exact hheld hopen m hm
  · exact .inr (.inr ⟨rj, q, m, hq, hopen, hm, rfl⟩)

lemma OrdinaryChange.rows (hc : OrdinaryChange c env ordinal a status core) :
    (∀ vi v, c.versions vi = some v → core.versions vi = some v) ∧ core.repairs = c.repairs := by
  cases hc with
  | write activate body entry form unowned get index check next txn version =>
    refine ⟨fun vi v hv => (set_ne ?_).trans hv, rfl⟩
    rintro rfl
    rw [spare_some version] at hv
    cases hv
  | finalize | commit | rollback | rollbackCommitted | postcond => exact ⟨fun _ _ hv => hv, rfl⟩

lemma RepairMoved.retains (h : RepairMoved c core rb op) : c.Retains core := by
  cases h with
  | kept versions repairs => exact .rows (fun _ _ hv => versions ▸ hv) repairs
  | begun versions repairs phase members =>
    exact .cohort (fun _ _ hv _ => versions ▸ hv) repairs fun _ m hm => .inl (members m hm)
  | prepared row phase asked named made places repairs =>
    exact .cohort (fun vi v hv _ => made.kept vi v hv) repairs fun _ m hm =>
      .inr (.inl (made.fresh m hm))
  | aborted row still versions repairs =>
    refine .cohort (fun vi v hv hfree => (versions vi v).mpr ⟨hv, fun m hm he => ?_⟩) repairs
      fun hopen => ?_
    · exact hfree ⟨_, _, m, row, still, hm, he⟩
    · rcases hopen with h | h | h <;> cases h
  | turned row versions turn repairs =>
    refine .cohort (fun _ _ hv _ => versions ▸ hv) repairs fun _ m hm =>
      .inr (.inr ⟨_, _, m, row, ?_, hm, rfl⟩)
    rcases turn with ⟨hphase, -⟩ | ⟨hphase, -⟩
    · exact .inr (.inl hphase)
    · exact .inr (.inr hphase)

lemma ControlChange.retains (hc : ControlChange c env core) : c.Retains core := by
  have hver : core.versions = c.versions := congrArg Stock.versions hc.stock
  refine ⟨fun vi v hv _ => ⟨v, hver ▸ hv, rfl⟩, ?_⟩
  rintro _ ⟨ri, r, m, hr, hopen, hm, rfl⟩
  obtain ⟨q, hq, he⟩ := hc.cohort_row hr
  obtain ⟨-, -, -, hphase, hmembers⟩ := Repair.mk.inj he
  refine .inr (.inr ⟨ri, q, m, hq, ?_, hmembers ▸ hm, rfl⟩)
  unfold Repair.Open at hopen ⊢
  rwa [hphase]

lemma Change.retains (hst : Stocked c n) (hun : c.Unstaged) (hnum : Numbered c n)
    (hn : n < maxReceipts)
    (hb : c.board.Inv) (hv : envelopeValidate env) (hc : Change c env ordinal named status core) :
    c.Retains core := by
  cases hc with
  | ordinary _ _ change => exact .rows change.rows.1 change.rows.2
  | repair body _ change =>
    exact (change.moved hst hun hnum hn hb (validateRepair_of_envelope hv body)).retains
  | control _ _ change => exact change.retains

/-! ## What lasts -/

structure Retained (c : Core) : Prop where
  visible : ∀ s i id, (chunkAt c.objects s i).visible = some id → c.Lasting id
  staged : ∀ ti t, c.txns ti = some t → t.Staged → c.Lasting t.version
  replacement : ∀ ri r m, c.repairs ri = some r → r.phase = .prepared ∨ r.phase = .finalized →
    m ∈ r.members → ∃ vi v, c.versions vi = some v ∧ v.id = m.version
  predecessor : ∀ vi v p, c.versions vi = some v → v.predecessor = some p → c.Lasting p

/-- Two open cohorts have no replacement in common: a replacement is at the place of its member, and
no two hold the same chunk. -/
lemma replacement_apart (hb : c.board.Inv) (hp : Pointers c) (hr : c.repairs ri = some r)
    (hopen : r.Open) (hq : c.repairs rj = some q) (hopen' : q.Open) (hne : rj ≠ ri)
    (hm : m ∈ r.members)
    (hk : k ∈ q.members) (hv : c.versions vi = some v) (hid : v.id = m.version) :
    k.version ≠ m.version := by
  intro he
  obtain ⟨hobject, hindex⟩ := ((hp.cohort ri r hr).place m hm).place vi v hv hid
  obtain ⟨hobject', hindex'⟩ := ((hp.cohort rj q hq).place k hk).place vi v hv (hid.trans he.symm)
  refine open_apart hb hr hopen hq hopen' hne hk ⟨hobject'.symm.trans hobject, ?_⟩
  rw [← hindex', hindex]
  exact List.mem_map_of_mem hm

lemma replacement_kept (hb : c.board.Inv) (hp : Pointers c) (h : Retained c)
    (hr : c.repairs ri = some r) (hopen : r.Open)
    (hrow : ∀ vi v, c.versions vi = some v → (∀ m ∈ r.members, m.version ≠ v.id) →
      c'.versions vi = some v)
    (hq : c.repairs rj = some q) (hphase : q.phase = .prepared ∨ q.phase = .finalized)
    (hne : rj ≠ ri) (hk : k ∈ q.members) : ∃ vi v, c'.versions vi = some v ∧ v.id = k.version := by
  obtain ⟨vi, v, hv, hid⟩ := h.replacement rj q k hq hphase hk
  refine ⟨vi, v, hrow vi v hv fun m hm he => ?_, hid⟩
  exact replacement_apart hb hp hq (.inr hphase) hr hopen hne.symm hk hm hv hid (he.trans hid)

lemma lasting_new (hp : Pointers c) (hrep : c'.repairs = c.repairs) (hv : c'.versions vi = some v)
    (hid : v.id = c.nextVersion) : c'.Lasting c.nextVersion := by
  refine ⟨⟨vi, v, hv, hid⟩, ?_⟩
  rintro ⟨ri, r, m, hrow, -, hm, he⟩
  have hlt : m.version.toNat < c.nextVersion.toNat :=
    ((hp.cohort ri r (hrep ▸ hrow)).place m hm).given
  exact absurd (congrArg UInt64.toNat he) hlt.ne

lemma Retained.follows (h : Retained c) : Follows c fun id _ _ => c.Lasting id :=
  ⟨h.visible, h.staged, h.predecessor⟩

lemma replacement_set {P : RepairMember → Prop} {repairs : Table maxRepairs Repair}
    (hold : ∀ rj q m, rj ≠ ri → repairs rj = some q → q.phase = .prepared ∨ q.phase = .finalized →
      m ∈ q.members → P m) (hnew : r.phase = .prepared ∨ r.phase = .finalized →
        ∀ m ∈ r.members, P m) :
    ∀ rj q m, repairs.set ri r rj = some q → q.phase = .prepared ∨ q.phase = .finalized →
      m ∈ q.members → P m := by
  grind

lemma RepairMoved.replacements (hm : RepairMoved c core rb op) (hp : Pointers c) (hb : c.board.Inv)
    (h : Retained c) : ∀ ri r m, core.repairs ri = some r → r.phase = .prepared ∨
      r.phase = .finalized →
      m ∈ r.members → ∃ vi v, core.versions vi = some v ∧ v.id = m.version := by
  cases hm with
  | kept versions repairs =>
    rw [versions, repairs]
    exact h.replacement
  | begun versions repairs phase =>
    rw [versions, repairs]
    refine replacement_set (fun rj q m _ => h.replacement rj q m) fun hphase => ?_
    rcases hphase with hphase | hphase <;> cases phase.symm.trans hphase
  | prepared row phase asked named made places repairs =>
    rw [repairs]
    refine replacement_set (fun rj q m _ hq hphase hm => ?_) fun _ m hm => made.row m hm
    obtain ⟨vi, v, hv, hid⟩ := h.replacement rj q m hq hphase hm
    exact ⟨vi, v, made.kept vi v hv, hid⟩
  | aborted row still versions repairs =>
    rw [repairs]
    refine replacement_set (fun rj q m hne hq hphase hm => ?_) fun hphase => ?_
    · exact replacement_kept hb hp h row still
        (fun vi v hv hfree => (versions vi v).mpr ⟨hv, hfree⟩)
        hq hphase hne hm
    · rcases hphase with hphase | hphase <;> cases hphase
  | turned row versions turn repairs =>
    rw [versions, repairs]
    refine replacement_set (fun rj q m _ => h.replacement rj q m) fun _ m hm => ?_
    exact h.replacement _ _ m row (turn.imp And.left And.left) hm

/-- What `commit_repair` makes visible lasts from then on: its cohort is not open any more, and no
other holds it. -/
lemma committed_lasting (hb : c.board.Inv) (hp : Pointers c) (h : Retained c)
    (hr : c.repairs ri = some r) (hphase : r.phase = .finalized) (hm : m ∈ r.members)
    (hver : c'.versions = c.versions)
    (hrep : c'.repairs = c.repairs.set ri { r with phase := .committed }) :
    c'.Lasting m.version := by
  obtain ⟨vi, v, hv, hid⟩ := h.replacement ri r m hr (.inr hphase) hm
  refine ⟨⟨vi, v, hver ▸ hv, hid⟩, ?_⟩
  rintro ⟨rj, q, k, hq, hopen, hk, he⟩
  rw [hrep, set_apply] at hq
  split at hq
  · rw [← Option.some.inj hq] at hopen
    rcases hopen with ho | ho | ho <;> cases ho
  · next hne =>
    exact replacement_apart hb hp hr (.inr (.inr hphase)) hq hopen hne hm hk hv hid he

theorem Change.retained (h : Retained c) (hp : Pointers c) (hst : Stocked c n) (hnum : Numbered c n)
    (hn : n < maxReceipts) (hb : c.board.Inv) (hv : envelopeValidate env)
    (hc : Change c env ordinal named status core) : Retained core := by
  have hr := hc.retains hst hp.toUnstaged hnum hn hb hv
  obtain ⟨hvisible, hstaged, hpred⟩ := hc.follows hst hp.toUnstaged hnum hn hb hv h.follows
    (Q := fun id _ _ => core.Lasting id)
    { old := fun id _ _ hid => hid.retained hst.inv hr
      new := fun vi v hv hid hrep => hid ▸ lasting_new hp hrep hv hid
      switched :=
        fun ri r m hrow hphase hm hver hrep => committed_lasting hb hp h hrow hphase hm hver hrep
      place := fun _ _ _ _ _ _ _ hbefore => hbefore }
  refine ⟨hvisible, hstaged, ?_, hpred⟩
  cases hc with
  | ordinary _ _ change =>
    intro ri r m hrow hphase hm
    obtain ⟨hkept, hrep⟩ := change.rows
    obtain ⟨vi, v, hver, hid⟩ := h.replacement ri r m (hrep ▸ hrow) hphase hm
    exact ⟨vi, v, hkept vi v hver, hid⟩
  | repair body _ change =>
    have hrb := validateRepair_of_envelope hv body
    exact (change.moved hst hp.toUnstaged hnum hn hb hrb).replacements hp hb h
  | control _ _ change =>
    intro ri r m hrow hphase hm
    have hver : core.versions = c.versions := congrArg Stock.versions change.stock
    obtain ⟨q, hq, he⟩ := change.cohort_row hrow
    obtain ⟨-, -, -, hphase', hmembers⟩ := Repair.mk.inj he
    rw [hver]
    exact h.replacement ri q m hq (hphase' ▸ hphase) (hmembers ▸ hm)

/-! ## Along runs -/

lemma controlLocked_rows (c : Core) (r : ControlRequest) (hv : c.versions vi = some v) :
    ∃ v', (controlLocked c r).2.versions vi = some v' ∧ v.Later v' := by
  have hdone := controlLocked_done c r
  generalize (controlLocked c r).2 = core at hdone
  cases hdone with
  | quiet | custody => exact ⟨v, hv, .refl v⟩
  | @release version i u body row unreleased =>
    have hu := (findById_some row).1
    by_cases hi : vi = i
    · subst hi
      obtain rfl : u = v := Option.some.inj (hu.symm.trans hv)
      exact ⟨_, set_self _ _ _, rfl, fun _ => rfl⟩
    · exact ⟨v, (set_ne hi).trans hv, .refl v⟩

lemma controlLocked_retains (c : Core) (r : ControlRequest) : c.Retains (controlLocked c r).2 := by
  obtain ⟨_, _, _, _, _, _, hframe⟩ := controlLocked_frame c r
  have hrep : (controlLocked c r).2.repairs = c.repairs := by rw [hframe]
  refine ⟨fun vi v hv _ => ?_, fun id hheld => .inr (.inr ?_)⟩
  · obtain ⟨v', hv', hlater⟩ := controlLocked_rows c r hv
    exact ⟨v', hv', hlater.id_eq.symm⟩
  · unfold Core.Holds at hheld
    rwa [hrep] at hheld

lemma controlLocked_retained (h : Retained c) (hinv : c.stock.Inv) (r : ControlRequest) :
    Retained (controlLocked c r).2 := by
  obtain ⟨_, _, _, _, _, _, hframe⟩ := controlLocked_frame c r
  have hr := controlLocked_retains c r
  obtain ⟨hvisible, hstaged, hpred⟩ := controlLocked_follows h.follows hinv r
    (Q := fun id _ _ => (controlLocked c r).2.Lasting id) fun id _ _ hid => hid.retained hinv hr
  refine ⟨hvisible, hstaged, ?_, hpred⟩
  rw [show (controlLocked c r).2.repairs = c.repairs by rw [hframe]]
  intro ri q m hq hphase hm
  obtain ⟨vi, v, hv, hid⟩ := h.replacement ri q m hq hphase hm
  obtain ⟨v', hv', hlater⟩ := controlLocked_rows c r hv
  exact ⟨vi, v', hv', hlater.id_eq.symm.trans hid⟩

lemma Retained.receipts (h : Retained c) (receipts : Table maxReceipts Receipt) :
    Retained { c with receipts := receipts } :=
  ⟨fun s i id hid => { h.visible s i id hid with }, fun ti t ht hs => { h.staged ti t ht hs with },
    h.replacement, fun vi v p hv hp => { h.predecessor vi v p hv hp with }⟩

section

variable (hrec : Records c ans c') (hc : c.Inv) (hst : Stocked c c.receipts.used) (hp : Pointers c)

include hrec hc hst hp

lemma Records.retains : c.Retains c' := by
  obtain @⟨_, _, _, _, _, core, _, valid, spare, _, _, change⟩ := hrec
  have hcore : c.Retains core := by
    rcases change with ⟨-, rfl⟩ | change
    · exact .rows (fun _ _ hv => hv) rfl
    · exact change.retains hst hp.toUnstaged hc.numbered
        (used_lt_of_spare (spare_some spare)) hc.board valid
  exact { hcore with }

lemma Records.retained (h : Retained c) : Retained c' := by
  obtain @⟨_, _, _, _, _, core, _, valid, spare, _, _, change⟩ := hrec
  refine Retained.receipts ?_ _
  rcases change with ⟨-, rfl⟩ | change
  · exact h
  · exact change.retained h hp hst hc.numbered (used_lt_of_spare (spare_some spare))
      hc.board valid

end

end

lemma step_retains (hw : Reachable w) (e : Event) : w.store.core.Retains (step w e).store.core := by
  have hsame : w.store.core.Retains w.store.core := .rows (fun _ _ hv => hv) rfl
  refine (step_effect hw.inv e).elim (P := fun _ c => w.store.core.Retains c) hw.inv hsame ?_ ?_ ?_
  · exact fun _ => { hsame with }
  · exact controlLocked_retains _
  · exact fun ans core hrec => hrec.retains hw.inv.store.core hw.stocked hw.pointers

lemma step_retained (hw : Reachable w) (h : Retained w.store.core) (e : Event) :
    Retained (step w e).store.core := by
  refine (step_effect hw.inv e).elim (P := fun _ c => Retained c) hw.inv h ?_ ?_ ?_
  · exact fun _ => ⟨fun s i id hid => { h.visible s i id hid with },
      fun ti t ht hs => { h.staged ti t ht hs with }, h.replacement,
      fun vi v p hv hp => { h.predecessor vi v p hv hp with }⟩
  · exact fun r => controlLocked_retained h hw.stocked.inv r
  · exact fun ans core hrec => hrec.retained hw.inv.store.core hw.stocked hw.pointers h

lemma Core.Empty.retained {c : Core} (h : c.Empty) : Retained c := by
  obtain ⟨hvisible, hstaged, hpred⟩ := h.follows fun id _ _ => c.Lasting id
  obtain ⟨-, -, -, -, -, -, hrepairs, -⟩ := h
  refine ⟨hvisible, hstaged, ?_, hpred⟩
  rw [hrepairs]
  exact fun _ _ _ h => nomatch h

theorem Reachable.retained (h : Reachable w) : Retained w.store.core :=
  h.induct (fun hopen => (coreOpen_empty hopen).retained) fun hw hr => step_retained hw hr _

/-- **No pointer dangles**: a version that is visible at a place, staged for it or the predecessor
of one there is found, and is a version of that place. -/
theorem followed_found (h : Reachable w) {s : ObjectSlot} {i : ChunkIndex}
    (hid : (chunkAt w.store.core.objects s i).visible = some id ∨
      (∃ ti t, w.store.core.txns ti = some t ∧ t.Staged ∧ t.object = s ∧ t.index = i ∧
        t.version = id) ∨
      ∃ vi v, w.store.core.versions vi = some v ∧ v.object = s ∧ v.index = i ∧
        v.predecessor = some id) :
    ∃ vi v, versionFind w.store.core id = some (vi, v) ∧ v.object = s ∧ v.index = i := by
  have hfollowed : w.store.core.Lasting id ∧ w.store.core.stock.AtPlace id s i := by
    rcases hid with hid | ⟨ti, t, ht, hstaged, rfl, rfl, rfl⟩ | ⟨vi, v, hv, rfl, rfl, hid⟩
    · exact ⟨h.retained.visible s i id hid, h.pointers.visible s i id hid⟩
    · exact ⟨h.retained.staged ti t ht hstaged, h.pointers.staged ti t ht hstaged⟩
    · exact ⟨h.retained.predecessor vi v id hv hid, h.pointers.predecessor vi v id hv hid⟩
  obtain ⟨vi, v, hfind⟩ := hfollowed.1.found h.stocked.inv
  obtain ⟨hv, hid, -⟩ := findById_some hfind
  exact ⟨vi, v, hfind, hfollowed.2.place vi v hv hid⟩

theorem followed_found_small : ∃ vi v, versionFind smallWorld.store.core 1 = some (vi, v) ∧
    v.object = 0 ∧ v.index = 0 :=
  followed_found smallWorld_reachable (.inl (by decide +kernel))

/-- **A run takes nothing back**: no number is given twice or moves to another row, what is bound
stays bound, and receipts stay as they are. -/
theorem run_takes_nothing_back (h : Reachable w) (es : List Event) :
    w.store.core.Grows (Machine.run step w es).store.core ∧
    w.store.core.stock.Grows (Machine.run step w es).store.core.stock ∧
    ∀ i rc, w.store.core.receipts i = some rc →
      (Machine.run step w es).store.core.receipts i = some rc :=
  ⟨run_grows h es, h.run_grows es, fun _ _ => run_receipts h.inv es⟩

theorem run_takes_nothing_back_small :
    writtenWorld.store.core.Grows (Machine.run step writtenWorld smallEvents.2).store.core :=
  (run_takes_nothing_back writtenWorld_reachable smallEvents.2).1

/-- **A chunk under repair is one cohort's**, and looks as the phase of the cohort says: it shows
what was there when the repair began, and from the commit on its replacement, under a lock. Open
cohorts share no chunk, and only chunks under repair are locked. -/
theorem repair_held (h : Reachable w) (s : ObjectSlot) (i : ChunkIndex) :
    (∀ id, (chunkAt w.store.core.objects s i).repair = some id → ∃! ri, ∃ r m,
      w.store.core.repairs ri = some r ∧ r.id = id ∧ r.object = s ∧ m ∈ r.members ∧ m.index = i ∧
      r.Holds m (chunkAt w.store.core.objects s i)) ∧
    (∀ ri r m, w.store.core.repairs ri = some r → r.Open → r.object = s → m ∈ r.members →
      m.index = i → (chunkAt w.store.core.objects s i).repair = some r.id) ∧
    ((chunkAt w.store.core.objects s i).repairLocked →
      (chunkAt w.store.core.objects s i).repair.isSome) := by
  have hcohort := h.inv.store.core.board.cohort
  refine ⟨fun id hid => ?_, ?_, hcohort.locked s i⟩
  · obtain ⟨ri, r, m, hrow, hrid, hheld⟩ := hcohort.held s i id hid
    refine ⟨ri, ⟨r, m, hrow, hrid, hheld⟩, ?_⟩
    rintro rj ⟨r', m', hrow', hrid', -⟩
    exact hcohort.unique rj ri r' r hrow' hrow (hrid'.trans hrid.symm)
  · rintro ri r m hrow hopen rfl hm rfl
    exact hcohort.open_ ri r m hrow hopen hm

theorem repair_held_replaced : (chunkAt (Machine.run step byteWorld
    (replacedEvents [66])).store.core.objects 0 0).repair.isSome :=
  (repair_held ((Reachable.opened byteWorld_opened).run _) 0 0).2.2 (by decide +kernel)

end Reffs.D1
