import Reffs.D1.Apply

/-!
# What the exhaustion arms can change

The fixture arms that make the id counters or the index epoch read as exhausted only ever turn an
answer into `NOSPC`, which is not recorded. A member that was recorded therefore runs in the same
way when it is replayed with no arm set: `reduceEnvelope_unarmed`.
-/

namespace Reffs.D1

open SlotTable RepairOutcome

/-- The same outcome, unless the first one ran out of space. -/
def Agrees {α : Type} (status : α → Status) (o o' : α) : Prop := status o = .nospc ∨ o = o'

section

variable {α : Type} {status : α → Status}

lemma Agrees.refl (o : α) : Agrees status o o := .inr rfl

lemma Agrees.ite {p q : Prop} [Decidable p] [Decidable q] {no o o' : α}
    (hno : status no = .nospc) (hpq : q → p) (h : Agrees status o o') :
    Agrees status (if p then no else o) (if q then no else o') := by
  by_cases hp : p
  · exact .inl (by rw [if_pos hp, hno])
  · rw [if_neg hp, if_neg (mt hpq hp)]
    exact h

end

/-- Arms do no more to `f` than to let it run out of space. -/
def OnlyRefused {α : Type} (status : α → Status) (f : Exhaust → α) : Prop :=
  ∀ x, Agrees status (f x) (f .none)

variable {x : Exhaust} (c : Core) (env : Envelope UInt64) (rb : RepairBatch UInt64) (op : RepairOp)
    (a : Admission)
  (s : ObjectSlot) (o : Object) (i : ChunkIndex) (ch : Chunk) (ti : Fin maxTxns) (t : Txn)
    (ri : Fin maxRepairs)
  (cohort : Repair) (ordinal : Nat) (res : EntryResult)

lemma seen_none {armed : Bool} {n : UInt64} :
    (if Exhaust.none.ids then uint64Max else n) = uint64Max →
    (if armed then uint64Max else n) = uint64Max := by
  cases armed <;> simp [Exhaust.none]

/-! ## Ordinary members -/

lemma doWriteEntry_agrees (w : WriteBatch) (e : WriteEntry) :
    OnlyRefused Outcome.status fun x => doWriteEntry x c env w e a res := by
  intro x
  unfold doWriteEntry
  iterate 3
    split
    · exact .refl _
  dsimp only
  split
  · exact .refl _
  split
  · exact .refl _
  refine .ite rfl (Or.imp seen_none seen_none) ?_
  exact .ite rfl (And.imp_right seen_none) (.refl _)

lemma commitTxn_agrees : OnlyRefused Outcome.status fun x => commitTxn x c s i ch ti t res := by
  intro x
  unfold commitTxn
  split
  · exact .refl _
  split
  · exact .refl _
  exact .ite rfl seen_none (.refl _)

lemma doLifecycleEntry_agrees (l : LifecycleBatch UInt64) (e : LifecycleEntry UInt64)
    (commit : Bool) :
    OnlyRefused Outcome.status fun x => doLifecycleEntry x c env l e a commit res := by
  intro x
  unfold doLifecycleEntry
  split
  case h_2 => exact .refl _
  split
  · exact .refl _
  dsimp only
  iterate 6
    split
    · exact .refl _
  split
  · exact commitTxn_agrees ..
  · exact .refl _

lemma rollbackPostcond_agrees (ver : Version) (pred : Option Version) (custody : UInt64) :
    OnlyRefused Outcome.status fun x => rollbackPostcond x c s i t ver pred custody res := by
  intro x
  unfold rollbackPostcond
  split
  · exact .refl _
  · exact .ite rfl seen_none (.refl _)

lemma rollbackCommitted_agrees (e : RollbackEntry UInt64) :
    OnlyRefused Outcome.status fun x => rollbackCommitted x c e a s i ch ti t res := by
  intro x
  unfold rollbackCommitted
  iterate 8
    split
    · exact .refl _
  dsimp only
  split
  · exact .refl _
  split
  · exact rollbackPostcond_agrees ..
  · exact .ite rfl seen_none (.refl _)

lemma doRollbackEntry_agrees (r : RollbackBatch UInt64) (e : RollbackEntry UInt64) :
    OnlyRefused Outcome.status fun x => doRollbackEntry x c env r e a res := by
  intro x
  unfold doRollbackEntry
  split
  case h_2 => exact .refl _
  split
  · exact .refl _
  dsimp only
  split
  · exact .refl _
  iterate 4
    split
    · exact .refl _
  split
  · exact .refl _
  split
  · exact .refl _
  · exact rollbackCommitted_agrees ..

/-! ## Repair operations -/

lemma doMarkError_agrees : OnlyRefused status fun x => doMarkError x c rb s o res := by
  intro x
  unfold doMarkError
  split
  · exact .refl _
  split
  · exact .refl _
  · exact .ite rfl seen_none (.refl _)

lemma beginRepairGo_agrees : OnlyRefused status fun x => beginRepairGo x c env rb s o res := by
  intro x
  unfold beginRepairGo
  split
  · exact .refl _
  split
  · exact .refl _
  · exact .ite rfl seen_none (.refl _)

lemma doBeginRepair_agrees : OnlyRefused status fun x => doBeginRepair x c env rb a s o res := by
  intro x
  unfold doBeginRepair
  dsimp only
  split
  · split
    · exact .refl _
    · exact beginRepairGo_agrees ..
  split
  · exact .refl _
  split
  · exact .refl _
  split
  · exact .refl _
  · exact beginRepairGo_agrees ..

lemma doPrepareRepair_agrees :
    OnlyRefused status fun x => doPrepareRepair x c env rb ri cohort s o res := by
  intro x
  unfold doPrepareRepair
  split
  · exact .refl _
  split
  · exact .refl _
  · exact .ite rfl seen_none (.refl _)

lemma doCommitRepair_agrees : OnlyRefused status fun x => doCommitRepair x c ri cohort s o res := by
  intro x
  unfold doCommitRepair
  split
  · exact .refl _
  split
  · exact .refl _
  · exact .ite rfl seen_none (.refl _)

lemma repairOnCohort_agrees :
    OnlyRefused status fun x => repairOnCohort x c env op rb a s o ri cohort res := by
  intro x
  unfold repairOnCohort
  iterate 5
    split
    · exact .refl _
  split
  · exact .refl _
  split
  · exact doPrepareRepair_agrees ..
  · exact .refl _
  · exact doCommitRepair_agrees ..
  all_goals exact .refl _

lemma doRepair_agrees : OnlyRefused status fun x => doRepair x c env op rb a res := by
  intro x
  unfold doRepair
  split
  · exact .refl _
  split
  · exact doMarkError_agrees ..
  · exact doBeginRepair_agrees ..
  split
  · split
    · exact .refl _
    · exact repairOnCohort_agrees ..
  · split
    · exact .refl _
    · split
      · exact .refl _
      · exact repairOnCohort_agrees ..

/-! ## Envelopes -/

lemma Agrees.reduced {o o' : Outcome} (h : Agrees Outcome.status o o') :
    Agrees Reduced.status o.reduced o'.reduced := h.imp id (congrArg Outcome.reduced)

lemma reduceOrdinary_agrees :
    OnlyRefused Outcome.status fun x => reduceOrdinary x c env ordinal a res := by
  intro x
  unfold reduceOrdinary
  dsimp only
  split
  · split
    · exact .refl _
    · exact doWriteEntry_agrees ..
  · split
    · exact .refl _
    · exact doRollbackEntry_agrees ..
  · split
    · exact .refl _
    · split
      · exact .refl _
      · exact doLifecycleEntry_agrees ..
  · split
    · exact .refl _
    · split
      · exact .refl _
      · exact doLifecycleEntry_agrees ..
  · exact .refl _

lemma reduceOne_agrees : OnlyRefused Reduced.status fun x => reduceOne x c env ordinal res := by
  intro x
  unfold reduceOne
  split
  · exact .refl _
  · exact (reduceOrdinary_agrees ..).reduced

lemma trimmed_status (r : RepairOutcome) : r.trimmed.status = r.status := by
  unfold trimmed
  split <;> rfl

lemma reduceRepair_agrees : OnlyRefused Reduced.status fun x => reduceRepair x c env res := by
  intro x
  have htrim : ∀ r r' : RepairOutcome, Agrees status r r' →
      Agrees Reduced.status r.trimmed r'.trimmed := fun r r' h =>
    h.imp (trimmed_status r).trans (congrArg trimmed)
  refine htrim _ _ ?_
  unfold runRepair
  split
  · split
    · exact .refl _
    · exact doRepair_agrees ..
  · exact .refl _

/-- **Arms only refuse.** A reducer that did not answer `NOSPC` under some arms does the same under
none. -/
theorem reduceEnvelope_unarmed {x : Exhaust} {c : Core} {env : Envelope UInt64} {ordinal : Nat}
    {res : EntryResult} (h : (reduceEnvelope x c env ordinal res).status ≠ .nospc) :
    reduceEnvelope x c env ordinal res = reduceEnvelope .none c env ordinal res := by
  refine Or.resolve_left (?_ : Agrees Reduced.status _ _) h
  unfold reduceEnvelope
  split
  · exact reduceRepair_agrees ..
  · exact .refl _
  · exact .refl _
  · exact reduceOne_agrees ..

end Reffs.D1
