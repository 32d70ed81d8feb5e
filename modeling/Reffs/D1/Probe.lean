import Reffs.D1.Restore

/-!
# Probing

`d1_store_probe` answers what `d1_store_apply` would, without applying anything: it replays the
store's durable journal into a store of its own, gives the envelope that store's handles, and
applies it there. The answer is the live store's because a call reads nothing but what the log
determines: the live store and the probe stay `Twin`s along the call, and a journal with nothing
armed and with LSNs left records whatever it is handed.
-/

namespace Reffs.D1

open ByteCodec SlotTable

variable {env env' : Envelope Handle} {r : Request} {w : World}

/-! ## The probe -/

/-- `d1_envelope_adopt` on a caller's envelope: the numbers of its handles as another store's. The
transactions that members of a repair name stay as they were. -/
def envelopeRename (instance_ : UInt64) (env : Envelope Handle) : Envelope Handle :=
  env.map fun kind h => match env.body, kind with
    | .repair _ _, .txn => h
    | _, _ => handleOf instance_ kind h.raw

/-- `d1_store_probe`, with the instance its store gets: the store, the status and, once the envelope
has been applied to the probe, the answer. -/
def storeProbe (s : Store) (instance_ : UInt64) (env : Envelope Handle) :
    Store × Status × Option Result :=
  if !s.serving then (s, .invalid, none)
  else
    let asked := { s with harness := { s.harness with failNextSnapshot := false } }
    if s.harness.failNextSnapshot then (asked, .nospc, none)
    else match storeOpen instance_ s.core.uuid s.core.chunkBytes s.core.maxFileBytes with
      | none => (asked, .nospc, none)
      | some probe => match replayLocked probe s.journal.durableBytes with
        | (.ok, probe) => match (storeApply probe (envelopeRename probe.instance_ env)).2 with
          | .done status out => (asked, status, some out)
          | _ => (asked, .invalid, none)
        | (status, _) => (asked, status, none)

lemma envelopeRename_raw (instance_ : UInt64) (env : Envelope Handle) :
    (envelopeRename instance_ env).raw = env.raw := by
  unfold envelopeRename Envelope.raw
  rw [Envelope.map_map]
  congr 1
  funext kind h
  split
  · rfl
  · exact handleOf_raw _ _ _

lemma envelopeOwned_rename {i j : UInt64} (hj : j ≠ 0) (h : envelopeOwned i env) :
    envelopeOwned j (envelopeRename j env) := by
  have hown : ∀ kind (x : Handle), handleOwned j kind (handleOf j kind x.raw) :=
    fun kind x => handleOwned_handleOf hj kind x.raw
  have hopt : ∀ kind (o : Option Handle),
      (o.map fun x => handleOf j kind x.raw).all (handleOwned j kind) := by
    intro kind o
    cases o with
    | none => rfl
    | some x => exact hown kind x
  unfold envelopeOwned at h ⊢
  unfold envelopeRename Envelope.map
  cases hbody : env.body with
  | writeBatch w => simp [Body.map, hown]
  | finalizeBatch l | commitBatch l =>
    rw [hbody] at h
    simp only [Bool.and_eq_true, decide_eq_true_eq] at h
    simp [Body.map, LifecycleBatch.map, LifecycleEntry.map, hown, hopt, h.2.1]
  | rollbackBatch r =>
    rw [hbody] at h
    simp only [Bool.and_eq_true, decide_eq_true_eq] at h
    simp [Body.map, RollbackEntry.map, hown, hopt, h.2.1]
  | recoveryAdmit k | leaseReap k =>
    rw [hbody] at h
    simp only [Bool.and_eq_true, decide_eq_true_eq] at h
    simp [Body.map, hown, hopt, h.2.1.1.1]
  | repair op r =>
    rw [hbody] at h
    simp only [Bool.and_eq_true, decide_eq_true_eq] at h
    simp [Body.map, RepairEntry.map, hown, hopt, h.2.1.1]
  | unknown op =>
    rw [hbody] at h
    simp at h

/-! ## Two stores that answer alike -/

/-- A journal that will take `k` records more. -/
structure Journal.Takes (j : Journal) (k : Nat) : Prop where
  append : j.failAppendIn = 0
  flush : j.failNextFlush = false
  room : j.nextLsn.toNat + k < 2 ^ 64

lemma Journal.Takes.ready {j : Journal} {k : Nat} (h : j.Takes (k + 1)) : j.Ready := by
  refine ⟨h.append, h.flush, fun hmax => ?_⟩
  have hroom := h.room
  rw [hmax] at hroom
  have : (0xffffffffffffffff : UInt64).toNat = 2 ^ 64 - 1 := rfl
  omega

lemma Journal.Takes.extended {j : Journal} {k : Nat} (h : j.Takes (k + 1)) (type : RecordType)
    (body : Bytes) : (j.extended type body).Takes k := by
  refine ⟨h.append, h.flush, ?_⟩
  have hroom := h.room
  unfold Journal.extended
  rw [toNat_succ le_rfl (by omega)]
  omega

/-- A journalling store and one without a journal, of one state and with nothing armed. -/
structure Twin (s p : Store) (k : Nat) : Prop where
  core : p.core = s.core
  serving : s.serving = true ∧ p.serving = true
  exhaust : s.harness.exhaust = .none ∧ p.harness.exhaust = .none
  journaling : s.journaling = true ∧ p.journaling = false
  takes : s.journal.Takes k

section Twins

variable {s p : Store} {k : Nat}

lemma Twin.activeCalls (h : Twin s p k) (m n : Nat) :
    Twin { s with activeCalls := m } { p with activeCalls := n } k :=
  { h with }

lemma Twin.mono (h : Twin s p k) {l : Nat} (hle : l ≤ k) : Twin s p l :=
  { h with
    takes := { h.takes with room := lt_of_le_of_lt (Nat.add_le_add_left hle _) h.takes.room } }

lemma eventRecord_fits (hr : r.Good) (n : Nat) (complete : CompleteResult) :
    recordFits (eventRecord r.env r.bytes n r.digest (encCompleteResult complete)).2 := by
  have hbytes := hr.bytes_length
  have hresult := encCompleteResult_length complete
  have hmax : envelopeMax = 4259840 := rfl
  have hrecord : journalRecordMax = 8388608 := rfl
  unfold recordFits eventRecord journalHeaderBytes journalTrailerBytes
  split <;> simp only [List.length_append, encBytes_length, encU32_length, encRaw_length] <;> omega

theorem Twin.applyMember (h : Twin s p (k + 1)) (hr : r.Good) (n : Nat) :
    (applyMember p r.env r.bytes n r.digest).1 = (applyMember s r.env r.bytes n r.digest).1 ∧
      Twin (applyMember s r.env r.bytes n r.digest).2
        (applyMember p r.env r.bytes n r.digest).2 k := by
  have hatt : coreAttempt p.harness.exhaust p.core r.env n r.digest =
      coreAttempt s.harness.exhaust s.core r.env n r.digest := by
    rw [h.exhaust.1, h.exhaust.2, h.core]
  cases hs : coreAttempt s.harness.exhaust s.core r.env n r.digest with
  | answered complete core =>
    unfold Reffs.D1.applyMember
    rw [hatt, hs]
    exact ⟨rfl, { h.mono (Nat.le_succ k) with core := rfl }⟩
  | staged st =>
    cases he : eventRecord r.env r.bytes n r.digest (encCompleteResult st.complete) with
    | mk type body =>
      have hfits := eventRecord_fits hr n st.complete
      rw [he] at hfits
      rw [applyMember_staged h.journaling.1 hr h.takes.ready hs he hfits]
      unfold Reffs.D1.applyMember
      rw [hatt, hs]
      rw [h.journaling.2]
      refine ⟨rfl, rfl, h.serving, ?_, ⟨h.journaling.1, rfl⟩, h.takes.extended type body⟩
      exact ⟨(published_exhaust _ _).trans h.exhaust.1, (published_exhaust _ _).trans h.exhaust.2⟩

lemma Twin.refusedEntry (h : Twin s p k) (status : UInt32) (d : Disposition) :
    refusedEntry p status d = refusedEntry s status d := by
  unfold Reffs.D1.refusedEntry
  rw [h.serving.1, h.serving.2, h.core]

lemma Twin.callMember (h : Twin s p (k + 1)) (hr : r.Good) (out : Result) :
    (callMember p r out).2 = (callMember s r out).2 ∧
      Twin (callMember s r out).1 (callMember p r out).1 k := by
  obtain ⟨hanswer, htwin⟩ := h.applyMember hr out.entries.length
  unfold Reffs.D1.callMember
  dsimp only
  rw [hanswer]
  split
  · exact ⟨rfl, htwin.activeCalls _ _⟩
  split
  · rw [htwin.refusedEntry, htwin.core]
    exact ⟨rfl, htwin.activeCalls _ _⟩
  split
  · exact ⟨rfl, htwin⟩
  · exact ⟨rfl, htwin.activeCalls _ _⟩

lemma Twin.callRun (fuel : Nat) : ∀ {s p : Store}, Twin s p fuel → ∀ {r : Request}, r.Good →
    ∀ out, (callRun fuel (p, .running r out)).2 = (callRun fuel (s, .running r out)).2 := by
  induction fuel with
  | zero => intro s p _ r _ out; rfl
  | succ fuel ih =>
    intro s p h r hr out
    obtain ⟨hcall, htwin⟩ := h.callMember hr out
    change (Reffs.D1.callRun fuel (Reffs.D1.callMember p r out)).2 =
      (Reffs.D1.callRun fuel (Reffs.D1.callMember s r out)).2
    revert hcall htwin
    have hkind := callMember_progress s r out
    generalize Reffs.D1.callMember s r out = ps at hkind
    generalize Reffs.D1.callMember p r out = pp
    obtain ⟨s', call⟩ := ps
    obtain ⟨p', call'⟩ := pp
    rintro rfl htwin
    rcases hkind with hdone | ⟨out', hrun, -, -⟩
    · cases call' with
      | done status out' => rw [callRun_done, callRun_done]
      | entered env bytes => cases hdone
      | running r' out' => cases hdone
    · dsimp only at hrun
      subst hrun
      exact ih htwin hr out'

lemma raw_eq (h : env'.raw = env.raw) :
    env'.key = env.key ∧ env'.admission.raw = env.admission.raw ∧
      env'.memberCount = env.memberCount ∧ env'.body.op = env.body.op := by
  have hop : ∀ b : Body Handle, (b.map fun _ x => x.raw).op = b.op := fun b => by cases b <;> rfl
  refine ⟨?_, ?_, ?_, ?_⟩
  · change env'.raw.key = env.raw.key
    rw [h]
  · change env'.raw.admission = env.raw.admission
    rw [h]
  · rw [← env.memberCount_map fun _ x => x.raw, ← env'.memberCount_map fun _ x => x.raw]
    exact congrArg Envelope.memberCount h
  · rw [← hop env.body, ← hop env'.body]
    exact congrArg (fun e : Envelope UInt64 => e.body.op) h

/-- **The door**: two envelopes of the same numbers, each of its store's own handles. -/
theorem Twin.callCheck (h : Twin s p k) (hraw : env'.raw = env.raw)
    (howned : envelopeOwned s.instance_ env) (howned' : envelopeOwned p.instance_ env')
    (bytes : Bytes) : (callCheck p env' bytes).2 = (callCheck s env bytes).2 ∧
      Twin (callCheck s env bytes).1 (callCheck p env' bytes).1 k := by
  obtain ⟨hkey, hadmission, hcount, -⟩ := raw_eq hraw
  unfold Reffs.D1.callCheck
  dsimp only
  rw [howned, howned', handleRaw_of_owned howned, handleRaw_of_owned howned', hadmission,
    hraw, hkey,
    hcount, h.refusedEntry, h.refusedEntry, h.core]
  split
  · exact ⟨rfl, h.activeCalls _ _⟩
  split
  · exact ⟨rfl, h.activeCalls _ _⟩
  split
  · exact ⟨rfl, h.activeCalls _ _⟩
  · exact ⟨rfl, h⟩

theorem Twin.storeApply (h : Twin s p batchEntriesMax) (hraw : env'.raw = env.raw)
    (howned : envelopeOwned s.instance_ env) (howned' : envelopeOwned p.instance_ env') :
    (storeApply p env').2 = (storeApply s env).2 := by
  obtain ⟨hkey, -, hcount, hop⟩ := raw_eq hraw
  cases henc : envelopeEncode env.raw envelopeMax with
  | none =>
    unfold Reffs.D1.storeApply callEnter
    rw [h.serving.1, h.serving.2, hraw, henc, hkey, hop, hcount]
    cases env.body.op with
    | none | some op => rw [if_neg (by decide), if_neg (by decide), callRun_done, callRun_done]
  | some bytes =>
    have henc' : envelopeEncode env'.raw envelopeMax = some bytes := hraw ▸ henc
    rw [storeApply_checked h.serving.1 henc, storeApply_checked h.serving.2 henc', hcount]
    have hvalid := envelopeEncode_valid henc
    have hfew : env.memberCount ≤ batchEntriesMax := by
      rw [← env.memberCount_map fun _ x => x.raw]
      exact (memberCount_ok hvalid).2
    obtain ⟨hcall, htwin⟩ := (h.activeCalls (s.activeCalls + 1) (p.activeCalls + 1)).callCheck hraw
      howned howned' bytes
    have hgood := callCheck_good (s := { s with activeCalls := s.activeCalls + 1 }) henc
    have hkind := callCheck_progress { s with activeCalls := s.activeCalls + 1 } env bytes
    revert hcall htwin hgood hkind
    generalize Reffs.D1.callCheck { s with activeCalls := s.activeCalls + 1 } env bytes = ps
    generalize Reffs.D1.callCheck { p with activeCalls := p.activeCalls + 1 } env' bytes = pp
    obtain ⟨s', call⟩ := ps
    obtain ⟨p', call'⟩ := pp
    rintro rfl htwin hgood hkind
    cases call' with
    | done status out => rw [callRun_done, callRun_done]
    | running r out => exact Twin.callRun _ (htwin.mono hfew) hgood.1 out
    | entered env bytes =>
      rcases hkind with hdone | ⟨r, out, hrun⟩
      · cases hdone
      · cases hrun

end Twins

/-! ## The probe's answer -/

/-- What events and restores make of newly opened stores, when each event meets `ok` in the world it
is taken in. -/
inductive Grown (ok : World → Event → Prop) : World → Prop where
  | opened {i : UInt64} {uuid : Uuid} {chunkBytes : UInt32} {maxFileBytes : UInt64} {w : World}
      (h : World.open i uuid chunkBytes maxFileBytes = some w) : Grown ok w
  | step {w : World} (h : Grown ok w) (e : Event) (he : ok w e) : Grown ok (step w e)
  | restore {w w₀ : World} (h : Grown ok w) {i : UInt64} (hr : w.restore i = some w₀) : Grown ok w₀

lemma Grown.replays (h : Grown Stamped w) : w.Replays := by
  induction h with
  | opened h => exact (World.open_inv h).replays
  | step _ e he ih => exact step_replays _ e ih he
  | restore _ hr ih => exact ih.restored hr

lemma Reachable.grown (h : Reachable w) : Grown Stamped w := by
  obtain ⟨i, uuid, chunkBytes, maxFileBytes, w₀, es, hopen, rfl⟩ := h
  have hrun : w₀.Inv ∧ Grown Stamped w₀ := ⟨World.open_inv hopen, .opened hopen⟩
  refine (Machine.run_invariant (I := fun w => w.Inv ∧ Grown Stamped w) ?_ hrun es).2
  intro w e ⟨hinv, hgrown⟩
  exact ⟨step_inv w e hinv, hgrown.step e (.inl hinv.store.incarnation)⟩

/-- No fault that could refuse a request or a probe is armed. -/
structure Store.Unarmed (s : Store) : Prop where
  append : s.journal.failAppendIn = 0
  flush : s.journal.failNextFlush = false
  snapshot : s.harness.failNextSnapshot = false
  exhaust : s.harness.exhaust = .none

lemma storeApply_unsupported {s : Store} (hserving : s.serving) (hop : env.body.op = none) :
    (storeApply s env).2 = .done .unsupported (Result.start env.key) := by
  unfold storeApply callEnter
  rw [hserving, hop, if_neg (by decide), callRun_done]

lemma probe_twin (h : w.Replays) (hserving : w.store.serving) (hunarmed : w.store.Unarmed)
    (hsize : w.store.journal.buf.length < 2 ^ 64) {i : UInt64} (hi : i ≠ 0) :
    ∃ fresh probe, storeOpen i w.store.core.uuid w.store.core.chunkBytes
        w.store.core.maxFileBytes = some fresh ∧
      replayLocked fresh w.store.journal.durableBytes = (.ok, probe) ∧ probe.instance_ = i ∧
      Twin w.store probe batchEntriesMax := by
  obtain ⟨c₀, -, hopen, -, -⟩ := h.store.log
  obtain ⟨fresh, hfresh, ho, hinst, -⟩ := storeOpen_eq hi hopen
  obtain ⟨_, -, -, hreplay⟩ := h.store.replayLocked hopen ho
  obtain ⟨-, hlsn⟩ := h.store.room hsize
  have hmax : batchEntriesMax = 16 := rfl
  refine ⟨fresh, _, hfresh, hreplay, hinst, rfl, ⟨hserving, ?_⟩, ⟨hunarmed.exhaust, rfl⟩,
    ⟨h.store.journaling, ho.journaling⟩, hunarmed.append, hunarmed.flush, by omega⟩
  unfold Store.serving
  rw [ho.poisoned, ho.closed]
  rfl

/-- **A probe answers what the call would**, and leaves the store as it was: for an envelope of the
store's own handles, or of an operation there is not, on a serving store with nothing armed that
grew under `Stamped`. -/
theorem storeProbe_eq {w : World} (h : Grown Stamped w) (hserving : w.store.serving = true)
    (hunarmed : w.store.Unarmed) (hsize : w.store.journal.buf.length < 2 ^ 64) {i : UInt64}
    (hi : i ≠ 0) {env : Envelope Handle}
    (hown : envelopeOwned w.store.instance_ env = true ∨ env.body.op = none) :
    ∃ status out, (storeApply w.store env).2 = .done status out ∧
      storeProbe w.store i env = (w.store, status, some out) := by
  obtain ⟨fresh, probe, hfresh, hreplay, rfl, htwin⟩ :=
    probe_twin h.replays hserving hunarmed hsize hi
  have hasked : { w.store with
      harness := { w.store.harness with failNextSnapshot := false } } = w.store := by
    rw [← hunarmed.snapshot]
  have hraw := envelopeRename_raw probe.instance_ env
  have hanswer :
      (storeApply probe (envelopeRename probe.instance_ env)).2 = (storeApply w.store env).2 := by
    rcases hown with howned | hop
    · exact htwin.storeApply hraw howned (envelopeOwned_rename hi howned)
    · obtain ⟨hkey, -, -, hop'⟩ := raw_eq hraw
      rw [storeApply_unsupported hserving hop, storeApply_unsupported htwin.serving.2
        (hop'.trans hop), hkey]
  have hdone := storeApply_finished w.store env
  cases hcall : (storeApply w.store env).2 with
  | entered env bytes | running r out => rw [hcall] at hdone; cases hdone
  | done status out =>
    refine ⟨status, out, rfl, ?_⟩
    unfold storeProbe
    rw [hserving, if_neg (by decide), hunarmed.snapshot]
    dsimp only
    rw [hfresh]
    dsimp only
    rw [hreplay]
    dsimp only
    rw [hanswer, hcall]
    exact congrArg (fun s => (s, status, some out)) hasked

def nextWrite (cl : Client) : Envelope Handle := cl.envelope 5 (cl.write 5 0 [67] true)

def Store.probeOk (s : Store) (env : Envelope Handle) : Bool :=
  s.serving && s.journal.failAppendIn == 0 && !s.journal.failNextFlush &&
    !s.harness.failNextSnapshot && s.harness.exhaust == .none && envelopeOwned s.instance_ env &&
    decide (s.journal.buf.length < 2 ^ 64)

lemma probeOk_iff {s : Store} : s.probeOk env ↔
    s.serving ∧ s.Unarmed ∧ envelopeOwned s.instance_ env ∧ s.journal.buf.length < 2 ^ 64 := by
  simp only [Store.probeOk, Bool.and_eq_true, beq_iff_eq, Bool.not_eq_true', decide_eq_true_eq]
  constructor
  · rintro ⟨⟨⟨⟨⟨⟨hserving, happend⟩, hflush⟩, hsnapshot⟩, hexhaust⟩, howned⟩, hsize⟩
    exact ⟨hserving, ⟨happend, hflush, hsnapshot, hexhaust⟩, howned, hsize⟩
  rintro ⟨hserving, hunarmed, howned, hsize⟩
  exact ⟨⟨⟨⟨⟨⟨hserving, hunarmed.append⟩, hunarmed.flush⟩, hunarmed.snapshot⟩, hunarmed.exhaust⟩,
    howned⟩, hsize⟩

theorem storeProbe_eq_small : ∃ status out,
    (storeApply smallWorld.store (nextWrite smallClient)).2 = .done status out ∧
      storeProbe smallWorld.store 7 (nextWrite smallClient) =
        (smallWorld.store, status, some out) := by
  have hok : smallWorld.store.probeOk (nextWrite smallClient) := by decide +kernel
  obtain ⟨hserving, hunarmed, howned, hsize⟩ := probeOk_iff.mp hok
  exact storeProbe_eq smallWorld_reachable.grown hserving hunarmed hsize (by decide) (.inl howned)

def restoredClient : Client := { smallClient with instance_ := 2 }

def unstampedWorld : World := step restoredWorld smallAdmit

/-- **A restored store that has gone on cannot be probed**: the call would be answered, and the
probe says `INVALID`. -/
theorem restored_not_probed : Grown (fun _ _ => True) unstampedWorld ∧
    unstampedWorld.store.serving = true ∧ unstampedWorld.store.Unarmed ∧
    envelopeOwned unstampedWorld.store.instance_ (nextWrite restoredClient) = true ∧
    (∃ out, (storeApply unstampedWorld.store (nextWrite restoredClient)).2 = .done .ok out) ∧
    (storeProbe unstampedWorld.store 7 (nextWrite restoredClient)).2 = (.invalid, none) := by
  have hopen : World.open 1 (zeros 16) 4096 1000000 = some firstWorld := (Option.some_get _).symm
  have hgrown : Grown (fun _ _ => True) unstampedWorld :=
    .step (.restore (.opened hopen) restoredWorld_eq) smallAdmit trivial
  have hprobe : unstampedWorld.store.probeOk (nextWrite restoredClient) := by decide +kernel
  obtain ⟨hserving, hunarmed, howned, -⟩ := probeOk_iff.mp hprobe
  refine ⟨hgrown, hserving, hunarmed, howned, ?_, by decide +kernel⟩
  have hok : (match (storeApply unstampedWorld.store (nextWrite restoredClient)).2 with
      | .done status _ => status
      | _ => .invalid) = Status.ok := by decide +kernel
  cases hcall : (storeApply unstampedWorld.store (nextWrite restoredClient)).2 with
  | entered env bytes | running r out => rw [hcall] at hok; cases hok
  | done status out => grind

end Reffs.D1
