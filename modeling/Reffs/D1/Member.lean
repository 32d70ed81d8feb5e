import Reffs.D1.Exhaust
import Reffs.D1.Refine.Control

/-!
# What one member does

The reducers were shown to be taken back exactly by their undo records and to make moves of the
board. Here this is said once for `reduceEnvelope`, whichever reducer it picks, and then for
`coreAttempt`: an attempt that is answered leaves the state as it was, and one that is staged made a
move, is taken back exactly, and is what the same attempt stages when no fault arm is set.
-/

namespace Reffs.D1

open SlotTable

variable {P : Outcome → Prop} {need : UInt32} {op : RepairOp} {rb : RepairBatch UInt64}
    {o : RepairOutcome}

variable {status : Status} {core : Core} {digest : Digest} {st : Staged} {r : Reduced}

/-- The move an envelope makes; a repair operation's answer names the cohort. -/
def Envelope.act (env : Envelope UInt64) (res : EntryResult) : Act :=
  match env.body with
  | .repair op _ => repairAct op res.cohort
  | .recoveryAdmit _ => .control
  | .leaseReap _ => .control
  | _ => .ordinary

/-! ## Dispatch

A reducer either refuses before anything else or runs one entry; what holds in both cases holds of
the reducer. -/

section Dispatch

variable {x : Exhaust} {c : Core} {env : Envelope UInt64} {ordinal : Nat} {a : Admission}
  {res : EntryResult}

lemma reduceOrdinary_rule (hrefuse : ∀ status, status ≠ .ok → P (refuse c status res))
    (hwrite : ∀ w e, env.body = .writeBatch w → w.entries[ordinal]? = some e →
      P (doWriteEntry x c env w e a res))
    (hlifecycle : ∀ l e commit, (env.body = if commit then .commitBatch l else .finalizeBatch l) →
      P (doLifecycleEntry x c env l e a commit res))
    (hrollback : ∀ r e, env.body = .rollbackBatch r → r.entries[ordinal]? = some e →
      P (doRollbackEntry x c env r e a res)) : P (reduceOrdinary x c env ordinal a res) := by
  unfold reduceOrdinary
  dsimp only
  split
  · grind
  · grind
  · grind
  · grind
  · exact hrefuse _ (by decide)

lemma admissionCheck_ok (h : admissionCheck c env need = .ok a) :
    (∃ ai, admissionFind c env.admission = some (ai, a)) ∧ (a.revoked = false ∧ a.expired = false) ∧
      a.object = env.object ∧ hasRight a.rights need ∧ a.incarnation = c.incarnation ∧
      env.incarnation = c.incarnation := by
  unfold admissionCheck at h
  split at h
  · cases h
  next ai row hrow =>
  split at h
  · cases h
  next hlive =>
  split at h
  · cases h
  next hobject =>
  split at h
  · cases h
  next hrights =>
  split at h
  · cases h
  next hinc =>
  split at h
  · cases h
  next henv =>
  cases h
  rw [not_or, Bool.not_eq_true, Bool.not_eq_true] at hlive
  exact ⟨⟨ai, hrow⟩, hlive, not_not.mp hobject,
    by simpa using hrights, not_not.mp hinc, not_not.mp henv⟩

lemma admissionCheck_error (h : admissionCheck c env need = .error status) :
    status = .staleAuth := by
  grind [admissionCheck]

lemma reduceOne_rule (hrefuse : ∀ status, status ≠ .ok → P (refuse c status res))
    (hwrite : ∀ w e a, env.body = .writeBatch w → w.entries[ordinal]? = some e →
      admissionCheck c env (opRights env.body) = .ok a → P (doWriteEntry x c env w e a res))
    (hlifecycle : ∀ l e a commit, (env.body = if commit then .commitBatch l else .finalizeBatch l) →
      admissionCheck c env (opRights env.body) = .ok a →
      P (doLifecycleEntry x c env l e a commit res))
    (hrollback : ∀ r e a, env.body = .rollbackBatch r → r.entries[ordinal]? = some e →
      admissionCheck c env (opRights env.body) = .ok a → P (doRollbackEntry x c env r e a res)) :
    ∃ o, P o ∧ reduceOne x c env ordinal res = o.reduced := by
  unfold reduceOne
  split
  · next hadm =>
    exact ⟨_, hrefuse _ (by rw [admissionCheck_error hadm]; decide), rfl⟩
  · next a hadm =>
    exact ⟨_, reduceOrdinary_rule hrefuse (fun w e hb he => hwrite w e a hb he hadm)
      (fun l e commit hb => hlifecycle l e a commit hb hadm)
      (fun r e hb he => hrollback r e a hb he hadm), rfl⟩

lemma reduceControl_rule {P : ControlOutcome → Prop} (hv : envelopeValidate env = true)
    (hrefuse : ∀ status, status ≠ .ok → P (refuseControl c status res))
    (hcontrol : ∀ reap k,
      k.txns.Nodup → (env.body = if reap then .leaseReap k else .recoveryAdmit k) →
      (reap = true ∧ env.key.origin = ByteCodec.zeros 16 ∨
        ∃ a, admissionCheck c env (opRights env.body) = .ok a) → P (doControl c env reap k res)) :
    ∃ o, P o ∧ reduceControl c env res = o.reduced := by
  unfold envelopeValidate at hv
  unfold reduceControl
  dsimp only
  split
  · next k hbody =>
    rw [hbody] at hv
    have hrun := hcontrol false k (validate_control hv) hbody
    split
    · next hown => exact ⟨_, hrun (.inl hown), rfl⟩
    split
    · next hadm => exact ⟨_, hrefuse _ (by rw [admissionCheck_error hadm]; decide), rfl⟩
    · next a hadm => exact ⟨_, hrun (.inr ⟨a, hadm⟩), rfl⟩
  · next k hbody =>
    rw [hbody] at hv
    have hrun := hcontrol true k (validate_control hv) hbody
    split
    · next hown => exact ⟨_, hrun (.inl hown), rfl⟩
    split
    · next hadm => exact ⟨_, hrefuse _ (by rw [admissionCheck_error hadm]; decide), rfl⟩
    · next a hadm => exact ⟨_, hrun (.inr ⟨a, hadm⟩), rfl⟩
  · exact ⟨_, hrefuse _ (by decide), rfl⟩

lemma runRepair_rule {P : RepairOutcome → Prop} (hbody : env.body = .repair op rb)
    (hrefuse : ∀ status, status ≠ .ok → P (refuseRepair c status res))
    (hrepair : ∀ a, admissionCheck c env (opRights env.body) = .ok a →
      P (doRepair x c env op rb a res)) :
    P (runRepair x c env res) := by
  grind [admissionCheck_error, runRepair]

end Dispatch

/-! ## Whichever reducer -/

def Reduced.Exact (r : Reduced) (c : Core) : Prop := TakesBack c r.core r.undo

/-- What a member of `env` that stays does, whichever reducer ran it: under which authority, and
which change. The answer names `cohort`. -/
inductive Change (c : Core) (env : Envelope UInt64) (ordinal : Nat) :
    Option UInt64 → Status → Core → Prop where
  | ordinary {a : Admission} {status : Status} {core : Core} (cohort : Option UInt64)
      (admission : admissionCheck c env (opRights env.body) = .ok a)
      (change : OrdinaryChange c env ordinal a status core) :
      Change c env ordinal cohort status core
  | repair {op : RepairOp} {rb : RepairBatch UInt64} {a : Admission} {cohort : Option UInt64}
      {status : Status} {core : Core} (body : env.body = .repair op rb)
      (admission : admissionCheck c env (opRights env.body) = .ok a)
      (change : RepairChange c env rb a op cohort status core) :
      Change c env ordinal cohort status core
  | control {core : Core} (cohort : Option UInt64)
      (authority : (∃ k, env.body = .leaseReap k) ∧ env.key.origin = ByteCodec.zeros 16 ∨
        ∃ a, admissionCheck c env (opRights env.body) = .ok a)
      (change : ControlChange c env core) : Change c env ordinal cohort .ok core

def Reduced.Changes (r : Reduced) (c : Core) (env : Envelope UInt64) (ordinal : Nat) : Prop :=
  r.status = .ok ∨ r.keep = true → Change c env ordinal r.res.cohort r.status r.core

variable {ordinal : Nat} {x : Exhaust}

section

variable {c : Core} {n : Nat} {env : Envelope UInt64}

/-! ## What no reducer touches -/

/-- Geometry, incarnation, receipts, custody, and the admissions up to their revocation. -/
def Core.ground (c : Core) :=
  (c.uuid, c.chunkBytes, c.maxFileBytes, c.incarnation, c.nextAdmission, c.nextCustody,
    c.certificate, c.custody, c.receipts,
    fun i => (c.admissions i).map fun a => { a with revoked := false })

lemma controlUndoApply_ground (c : Core) (u : ControlUndo) :
    (controlUndoApply c u).ground = c.ground := by
  have hfold :
      ∀ (l : List ControlUndoEntry) (c : Core), (l.foldl controlUndoEntry c).ground = c.ground := by
    intro l
    induction l with
    | nil => intro c; rfl
    | cons e l ih => intro c; exact ih (controlUndoEntry c e)
  unfold controlUndoApply
  dsimp only
  split
  · exact hfold _ c
  · next i revoked _ =>
    rw [← hfold u.entries c]
    unfold Core.ground
    dsimp only
    congr
    funext j
    rw [Table.modify_apply]
    split
    · rw [Option.map_map]
      rfl
    · rfl

/-! ## Whichever way a reducer went -/

/-- What a reducer that was given `res` to fill in hands back: its undo record is exact, what stays
is one of the changes, the ground is left alone, the answer can be logged, and a refusal moves no
visible pointer, so that there is none to publish. -/
structure Reduced.Lawful (r : Reduced) (c : Core) (env : Envelope UInt64) (ordinal : Nat)
    (res : EntryResult) : Prop where
  exact : r.Exact c
  changes : r.Changes c env ordinal
  ground : r.core.ground = c.ground
  logs : res.Loggable → r.res.Loggable
  quiet : r.status ≠ .ok → r.published = []

section

variable {res : EntryResult} {ordinal : Nat} {a : Admission}

lemma Reduced.Lawful.refused (hno : r.status ≠ .ok) (hkeep : r.keep = false) (hcore : r.core = c)
    (hundo : r.undo c = c) (hl : res.Loggable → r.res.Loggable) (hp : r.published = []) :
    r.Lawful c env ordinal res := by
  refine ⟨⟨hcore ▸ hundo, hundo⟩, ?_, congrArg Core.ground hcore, hl, fun _ => hp⟩
  rintro (hok | hk)
  · exact absurd hok hno
  · rw [hkeep] at hk
    cases hk

lemma Outcome.Lawful.reduced {o : Outcome} (h : o.Lawful c env ordinal a res)
    (hadm : admissionCheck c env (opRights env.body) = .ok a) :
    o.reduced.Lawful c env ordinal res := by
  have hground := congrArg Core.ground h.exact.left
  exact ⟨h.exact, fun hstays => .ordinary _ hadm (h.changes hstays), hground, h.logs, h.quiet⟩

lemma RepairOutcome.Lawful.trimmed (h : o.Lawful c env rb a op res)
    (hbody : env.body = .repair op rb)
    (hrb : validateRepair op rb) (hadm : admissionCheck c env (opRights env.body) = .ok a) :
    o.trimmed.Lawful c env ordinal res := by
  have hexact := RepairCovered.apply_eq h.covered
  have hfound := (RepairCovered.origin h.covered).apply_eq
  have hground := congrArg Core.ground hexact
  unfold RepairOutcome.trimmed
  split
  · exact ⟨⟨hexact, hfound⟩, fun hstays => .repair hbody hadm (h.changes hstays), hground,
      h.logs hrb, h.quiet⟩
  · exact ⟨⟨hexact, hfound⟩, fun hstays => .repair hbody hadm (h.changes hstays), hground,
      fun hres => ⟨Nat.zero_le _, (h.logs hrb hres).2⟩, h.quiet⟩

lemma reduceControl_lawful (hb : c.board.Inv) (hv : envelopeValidate env = true) :
    (reduceControl c env res).Lawful c env ordinal res := by
  obtain ⟨o, ho, he⟩ :=
    reduceControl_rule (c := c) (P := fun o => o.reduced.Lawful c env ordinal res) hv
    (fun status hno => .refused hno rfl rfl rfl id rfl)
    (fun reap k hk hbody hauth => by
      have hexact := doControl_exact hb.stagedApart env reap hk res
      have hauthority : (∃ k, env.body = .leaseReap k) ∧ env.key.origin = ByteCodec.zeros 16 ∨
          ∃ a, admissionCheck c env (opRights env.body) = .ok a := by grind
      refine ⟨hexact, ?_, ?_, fun h => doControl_loggable h env reap k, fun _ => rfl⟩
      · rintro (hok | hk)
        · have hok : (doControl c env reap k res).status = .ok := hok
          change Change c env ordinal _ (doControl c env reap k res).status _
          rw [hok]
          exact .control _ hauthority (doControl_changes hbody res hok)
        · cases hk
      · have hground := congrArg Core.ground hexact.left
        rw [controlUndoApply_ground] at hground
        exact hground)
  exact he ▸ ho

theorem reduceEnvelope_lawful (hb : c.board.Inv) (hv : envelopeValidate env) (x : Exhaust)
    (ordinal : Nat) (res : EntryResult) :
    (reduceEnvelope x c env ordinal res).Lawful c env ordinal res := by
  unfold reduceEnvelope
  split
  · next op rb hbody =>
    have hrb : validateRepair op rb := by
      unfold envelopeValidate at hv
      rwa [hbody] at hv
    refine runRepair_rule (P := fun o => o.trimmed.Lawful c env ordinal res) (x := x) hbody
      (fun status hno => ?_) (fun a hadm => (doRepair_lawful x res).trimmed hbody hrb hadm)
    have hno : (refuseRepair c status res).status ≠ .ok := hno
    unfold RepairOutcome.trimmed
    rw [if_neg hno]
    exact .refused hno rfl rfl (RepairCovered.start c).apply_eq (fun h => ⟨Nat.zero_le _, h.2⟩) rfl
  · exact reduceControl_lawful hb hv
  · exact reduceControl_lawful hb hv
  · obtain ⟨o, ho, he⟩ :=
      reduceOne_rule (x := x) (c := c) (P := fun o => o.reduced.Lawful c env ordinal res)
      (fun status hno => .refused hno rfl rfl rfl id rfl)
      (fun w e a hbody hentry hadm => (doWriteEntry_lawful x hbody hentry res).reduced hadm)
      (fun l e a commit hbody hadm => (doLifecycleEntry_lawful x hbody res).reduced hadm)
      (fun r e a hbody hentry hadm => (doRollbackEntry_lawful x hbody hentry res).reduced hadm)
    exact he ▸ ho

end

lemma OrdinaryChange.act {a : Admission}
    (h : OrdinaryChange c env ordinal a status core) (res : EntryResult) :
    env.act res = .ordinary := by
  unfold Envelope.act
  cases h with
  | write _ body => rw [body]
  | finalize body | commit body | postcond body => rw [body.choose_spec]
  | rollback body => rw [body]
  | rollbackCommitted body => rw [body]

lemma ControlChange.act (h : ControlChange c env core) (res : EntryResult) :
    env.act res = .control := by
  unfold Envelope.act
  cases h with
  | recovery body => rw [body]
  | reap body => rw [body]

theorem Change.sound {res : EntryResult} (h : Numbered c n) (hn : n < maxReceipts)
    (hb : c.board.Inv) (hv : envelopeValidate env)
    (hc : Change c env ordinal res.cohort status core) :
    Board.Moves (env.act res) c.board core.board ∧ Numbered core (n + 1) := by
  cases hc with
  | ordinary _ _ change =>
    obtain ⟨hstep, hnum⟩ := change.sound h hn.le
    rw [change.act]
    exact ⟨.single hstep, hnum⟩
  | @repair op rb _ _ _ _ body _ change =>
    have hrb := validateRepair_of_envelope hv body
    obtain ⟨hstep, hnum⟩ := change.sound h hn hb hrb
    unfold Envelope.act
    rw [body]
    exact ⟨.single hstep, hnum⟩
  | control _ _ change =>
    rw [change.act]
    exact change.sound h hv

/-! ## An attempt -/

/-- What a staged attempt comes from: the reducer's answer in a state without a receipt for the
member and with a slot for one. -/
structure Staged.Of (st : Staged) (x : Exhaust) (c : Core) (env : Envelope UInt64) (ordinal : Nat)
    (digest : Digest) (r : Reduced) : Prop where
  binding : bindingOk c env = true
  free : keyConflicts c env.object.exportUuid env.key digest = false
  fresh : receiptFind c env.object.exportUuid env.key ordinal = none
  slot : c.receipts.spare = some st.slot
  reduced : r = reduceEnvelope x c env ordinal (completeStart c env.key).entry
  answered : r.status ≠ .nospc ∧ r.status ≠ .io
  core : st.core = if r.status ≠ .ok ∧ !r.keep then r.undo r.core else r.core
  undo : st.undo = r.undo
  published : st.published = r.published
  complete : st.complete = { completeStart c env.key with
    entry := { r.res with status := r.status.code }
    indexEpoch := st.core.indexEpoch
    eof := eofLocked st.core env.object }

lemma coreAttempt_staged
    (h : coreAttempt x c env ordinal digest = .staged st) :
    ∃ r, st.Of x c env ordinal digest r := by
  unfold coreAttempt attempt at h
  dsimp only at h
  split at h
  · cases h
  next hbind =>
  split at h
  · cases h
  next hconf =>
  split at h
  · cases h
  next hfind =>
  split at h
  · cases h
  next slot hslot =>
  split at h
  · cases h
  next hstatus =>
  rw [not_or] at hstatus
  obtain rfl := Attempt.staged.inj h
  exact ⟨_,
    by simpa using hbind, by simpa using hconf, hfind, hslot, rfl, hstatus, rfl, rfl, rfl, rfl⟩

lemma coreAttempt_answered (hb : c.board.Inv) (hv : envelopeValidate env)
    {complete : CompleteResult}
    (h : coreAttempt x c env ordinal digest = .answered complete core) : core = c := by
  unfold coreAttempt attempt at h
  dsimp only at h
  iterate 4
    split at h
    · exact (Attempt.answered.inj h).2.symm
  split at h
  · rw [← (Attempt.answered.inj h).2]
    exact (reduceEnvelope_lawful hb hv x ordinal _).exact.left
  · cases h

namespace Staged.Of

variable (h : st.Of x c env ordinal digest r)

include h

section

variable (hb : c.board.Inv) (hv : envelopeValidate env = true)

include hb hv

lemma lawful :
    r.Lawful c env ordinal (completeStart c env.key).entry :=
  h.reduced ▸ reduceEnvelope_lawful hb hv ..

lemma takesBack : st.undo st.core = c := by
  have hexact := (h.lawful hb hv).exact
  rw [h.undo, h.core]
  split
  · rw [hexact.left]
    exact hexact.found
  · exact hexact.left

lemma refused (hno : r.status ≠ .ok) (hkeep : r.keep = false) : st.core = c := by
  have hexact := (h.lawful hb hv).exact
  rw [h.core, if_pos ⟨hno, by rw [hkeep]; rfl⟩]
  exact hexact.left

lemma ground : st.core.ground = c.ground := by
  rw [h.core]
  split
  · rw [(h.lawful hb hv).exact.left]
  · exact (h.lawful hb hv).ground

lemma loggable : st.complete.entry.Loggable := by
  have hres := (h.lawful hb hv).logs ⟨Nat.zero_le _, rfl⟩
  rw [h.complete]
  exact hres

/-- **A staged attempt leaves the state as it was, or made one of the changes.** -/
theorem change :
    r.status ≠ .ok ∧ st.core = c ∨
      Change c env ordinal st.complete.entry.cohort r.status st.core := by
  by_cases hstays : r.status = .ok ∨ r.keep
  · right
    have hcore : st.core = r.core := by
      rw [h.core, if_neg]
      rintro ⟨hno, hk⟩
      rcases hstays with hok | hkeep
      · exact hno hok
      · rw [hkeep] at hk
        cases hk
    have hcohort : st.complete.entry.cohort = r.res.cohort := by rw [h.complete]
    rw [hcore, hcohort]
    exact (h.lawful hb hv).changes hstays
  · left
    rw [not_or, Bool.not_eq_true] at hstays
    exact ⟨hstays.1, h.refused hb hv hstays.1 hstays.2⟩

end

lemma sound
    (hnum : Numbered c n) (hn : n < maxReceipts) (hb : c.board.Inv)
    (hv : envelopeValidate env = true) :
    Board.Moves (env.act st.complete.entry) c.board st.core.board ∧ Numbered st.core (n + 1) := by
  rcases h.change hb hv with ⟨-, hsame⟩ | hchange
  · rw [hsame]
    exact ⟨.refl, hnum.succ⟩
  · exact hchange.sound hnum hn hb hv

end Staged.Of

/-- **Arms only refuse:** what is staged under some arms is staged under none. -/
theorem coreAttempt_unarmed (h : coreAttempt x c env ordinal digest = .staged st) :
    coreAttempt .none c env ordinal digest = .staged st := by
  obtain ⟨r, hst⟩ := coreAttempt_staged h
  have hsame := reduceEnvelope_unarmed (hst.reduced ▸ hst.answered.1)
  rw [← h]
  unfold coreAttempt attempt
  dsimp only
  rw [hsame]

end

end Reffs.D1
