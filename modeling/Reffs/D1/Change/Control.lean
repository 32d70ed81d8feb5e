import Reffs.D1.Change.Ordinary
import Reffs.D1.Control

/-!
# What a control operation changes

The two control operations when they go through, with what they found: the admission they act on,
the transactions they name and, for `recovery_admit`, the admission these are handed to.
-/

namespace Reffs.D1

open SlotTable

inductive ControlChange (c : Core) (env : Envelope UInt64) : Core → Prop where
  | recovery {k : ControlBatch UInt64} {s : ObjectSlot} {o : Object} {oi fi : Fin maxAdmissions}
      {old fresh : Admission} {named : List (Fin maxTxns × Txn)}
      (body : env.body = .recoveryAdmit k) (object : objectFind c env.object = some (s, o))
      (found : admissionFind c k.oldAdmission = some (oi, old)) (bound : old.object = env.object)
      (rows : controlNamed c false s old k.txns = .ok named)
      (next : k.newAdmission.bind (admissionFind c) = some (fi, fresh))
      (check : recoveryFreshCheck c env old fresh (k.readEpoch.getD 0) = none) :
      ControlChange c env { (recoveryMove fresh.id (k.readEpoch.getD 0) named c []).1 with
        admissions := c.admissions.modify oi fun a => { a with revoked := true } }
  | reap {k : ControlBatch UInt64} {s : ObjectSlot} {o : Object} {oi : Fin maxAdmissions}
      {old : Admission} {named : List (Fin maxTxns × Txn)} (body : env.body = .leaseReap k)
      (object : objectFind c env.object = some (s, o))
      (found : admissionFind c k.oldAdmission = some (oi, old)) (bound : old.object = env.object)
      (expired : old.expired = true) (rows : controlNamed c true s old k.txns = .ok named) :
      ControlChange c env (reapMove s named c []).1

def ControlOutcome.Changes (o : ControlOutcome) (c : Core) (env : Envelope UInt64) : Prop :=
  o.status = .ok → ControlChange c env o.core

section

variable {c : Core} {env : Envelope UInt64}

lemma refuseControl_changes {status : Status} (h : status ≠ .ok) (res : EntryResult) :
    (refuseControl c status res).Changes c env := fun hok => absurd hok h

lemma controlNamed_ne_ok {reap : Bool} {s : ObjectSlot} {old : Admission} {status : Status}
    (l : List UInt64) : controlNamed c reap s old l = .error status → status ≠ .ok := by
  induction l with
  | nil => intro h; cases h
  | cons raw rest ih =>
    intro h
    unfold controlNamed at h
    split at h
    · obtain rfl := Except.error.inj h
      decide
    split at h
    · next hcheck =>
      obtain rfl := Except.error.inj h
      rintro rfl
      grind [controlTxnCheck]
    split at h
    · next hrest => exact ih ((Except.error.inj h) ▸ hrest)
    · cases h

lemma doControl_changes {reap : Bool} {k : ControlBatch UInt64}
    (body : env.body = if reap then .leaseReap k else .recoveryAdmit k) (res : EntryResult) :
    (doControl c env reap k res).Changes c env := by
  unfold doControl
  split
  · exact refuseControl_changes (by decide) _
  next s o hs =>
  split
  · exact refuseControl_changes (by decide) _
  next oi old hold =>
  split
  · exact refuseControl_changes (by decide) _
  next hbound =>
  split
  · exact refuseControl_changes (by decide) _
  next hexpired =>
  split
  · next hnamed => exact refuseControl_changes (controlNamed_ne_ok k.txns hnamed) _
  next named hnamed =>
  cases reap with
  | true =>
    have hexpired : old.expired := by simpa using hexpired
    exact fun _ => .reap body hs hold (not_not.mp hbound) hexpired hnamed
  | false =>
    rw [if_neg Bool.false_ne_true]
    unfold doRecoveryAdmit
    dsimp only
    split
    · exact nofun
    next fi fresh hfresh =>
    split
    · next hcheck =>
      intro hok
      obtain rfl : _ = Status.ok := hok
      grind [recoveryFreshCheck]
    next hcheck =>
    exact fun _ => .recovery body hs hold (not_not.mp hbound) hnamed hfresh hcheck

lemma doControl_loggable {res : EntryResult} (h : res.Loggable) (env : Envelope UInt64)
    (reap : Bool) (k : ControlBatch UInt64) : (doControl c env reap k res).res.Loggable := by
  unfold doControl
  split
  · exact h
  split
  · exact h
  split
  · exact h
  split
  · exact h
  split
  · exact h
  split
  · exact h
  · unfold doRecoveryAdmit
    dsimp only
    split
    · exact h
    split <;> exact h

end

/-! ## The rows one after the other -/

section

variable {R : Core → Core → Prop} {c core : Core} {env : Envelope UInt64} (refl : ∀ c, R c c)
  (trans : ∀ {c₁ c₂ c₃}, R c₁ c₂ → R c₂ c₃ → R c₁ c₃)
  (txn : ∀ c ti fresh readEpoch, R c { c with
    txns := c.txns.modify ti fun t => { t with admission := fresh, readEpoch := readEpoch } })
  (cohort : ∀ c ri fresh, R c { c with
    repairs := c.repairs.modify ri fun r => { r with admission := fresh } })

include refl trans txn cohort

lemma recoveryMove_closed (fresh readEpoch : UInt64) (named : List (Fin maxTxns × Txn)) (c : Core)
    (done : List ControlUndoEntry) : R c (recoveryMove fresh readEpoch named c done).1 := by
  induction named generalizing c done with
  | nil => exact refl c
  | cons p rest ih =>
    unfold recoveryMove
    dsimp only
    split
    · exact trans (txn c _ _ _) (ih _ _)
    · exact trans (trans (txn c _ _ _) (cohort _ _ _)) (ih _ _)

lemma ControlChange.closed (admissions : ∀ c rows, R c { c with admissions := rows })
    (reap : ∀ c s ti (t : Txn), R c { c with
      objects := modifyChunk c.objects s t.index (·.dropPending t.id)
      txns := c.txns.modify ti fun t => { t with phase := .rolledBack } })
    (hc : ControlChange c env core) : R c core := by
  cases hc with
  | recovery => exact trans (recoveryMove_closed refl trans txn cohort _ _ _ c []) (admissions _ _)
  | @reap _ s _ _ _ named =>
    generalize ([] : List ControlUndoEntry) = done
    clear * - refl trans reap
    induction named generalizing c done with
    | nil => exact refl c
    | cons p rest ih => exact trans (reap c s p.1 p.2) (ih _)

end

end Reffs.D1
