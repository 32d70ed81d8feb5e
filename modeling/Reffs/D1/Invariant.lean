import Reffs.D1.Fixture
import Reffs.D1.Member
import Reffs.D1.Receipts

/-!
# The invariant of the state

What every operation keeps: the board's invariant, counters above the numbers in use, and dense
receipts. Recording a member and running a control request keep it (`Staged.Of.inv`,
`controlLocked_inv`), and a control request whose record could not be made durable is taken back
exactly (`controlTakeBack_eq`).
-/

namespace Reffs.D1

open SlotTable Table Option

/-- The numbers of admissions and custodies are below their counters. -/
structure Core.Issued (c : Core) : Prop where
  admission : ∀ i a, c.admissions i = some a → a.id.toNat < c.nextAdmission.toNat
  custody : ∀ i k, c.custody i = some k → k.id.toNat < c.nextCustody.toNat
  next : 1 ≤ c.nextAdmission.toNat ∧ 1 ≤ c.nextCustody.toNat

structure Core.Inv (c : Core) : Prop where
  board : c.board.Inv
  numbered : Numbered c c.receipts.used
  dense : Dense c.receipts
  issued : c.Issued

lemma used_empty {n : Nat} {α : Type} : (empty : Table n α).used = 0 := by
  simp [used, empty]

lemma coreOpen_inv {uuid : Uuid} {chunkBytes : UInt32} {maxFileBytes : UInt64} {c : Core}
    (h : coreOpen uuid chunkBytes maxFileBytes = some c) : c.Inv := by
  unfold coreOpen at h
  split at h
  · cases h
  split at h
  · cases h
  cases h
  refine ⟨board_inv_blank, ?_, dense_empty, ⟨fun _ _ h => (nomatch h), fun _ _ h => (nomatch h),
    ⟨le_rfl, le_rfl⟩⟩⟩
  rw [used_empty]
  exact ⟨fun _ _ h => (nomatch h), fun _ _ _ h => (nomatch h), fun _ _ h => (nomatch h),
    ⟨le_rfl, le_rfl⟩, ⟨le_rfl, le_rfl⟩⟩

/-! ## Recording a member -/

lemma Core.Issued.ground {c c' : Core} (h : c.Issued) (hg : c'.ground = c.ground) : c'.Issued := by
  simp only [Core.ground, Prod.mk.injEq] at hg
  obtain ⟨-, -, -, -, hna, hnc, -, hcus, -, hadm⟩ := hg
  refine ⟨fun i a ha => ?_, fun i k hk => ?_, by rw [hna, hnc]; exact h.next⟩
  · have hi := congrFun hadm i
    rw [ha, map_some] at hi
    obtain ⟨b, hb, he⟩ := map_eq_some_iff.mp hi.symm
    have hid : b.id = a.id := (Admission.mk.inj he).1
    rw [hna, ← hid]
    exact h.admission i b hb
  · rw [hnc]
    exact h.custody i k (hcus ▸ hk)

lemma Staged.Of.inv {c : Core} {env : Envelope UInt64} {st : Staged} {x : Exhaust} {ordinal : Nat}
    {digest : Digest} {r : Reduced} (h : st.Of x c env ordinal digest r) (hc : c.Inv)
    (hv : envelopeValidate env)
    (hprog : Progress c.receipts env.object.exportUuid env.key digest ordinal) :
    (st.recorded env ordinal digest).Inv := by
  have hslot := spare_some h.slot
  have hground := h.ground hc.board hv
  have hreceipts : st.core.receipts = c.receipts := by
    simp only [Core.ground, Prod.mk.injEq] at hground
    exact hground.2.2.2.2.2.2.2.2.1
  obtain ⟨hmoves, hnum⟩ := h.sound hc.numbered (used_lt_of_spare hslot) hc.board hv
  have hfree : ¬ BoundElsewhere c.receipts env.object.exportUuid env.key digest := by
    rw [← keyConflicts_iff, h.free]
    exact Bool.false_ne_true
  have hnew := receiptFind_none.mp h.fresh
  unfold Staged.recorded
  refine ⟨hmoves.inv hc.board, ?_, ?_, ?_⟩
  · dsimp only
    rw [hreceipts, used_set hslot]
    exact { hnum with }
  · dsimp only
    rw [hreceipts]
    exact hc.dense.record hslot hfree hnew hprog st.complete
  · exact { hc.issued.ground hground with }

/-! ## Control requests -/

section

variable {c : Core}

lemma releaseLocked_cases (c : Core) (version : UInt64) : releaseLocked c version = (false, c) ∨
      ∃ i v, versionFind c version = some (i, v) ∧ v.released = false ∧ releaseLocked c version =
          (true, { c with versions := c.versions.set i { v with released := true } }) := by
  unfold releaseLocked
  split
  · exact .inl rfl
  next i v hf =>
  split
  · exact .inl rfl
  next hfree =>
  simp only [Bool.or_eq_true, not_or, Bool.not_eq_true] at hfree
  exact .inr ⟨i, v, hf, hfree.1.1, rfl⟩

/-- A control request changes the admissions or the certificate, or issues a custody, or releases a
version. -/
inductive ControlDone (c : Core) (r : ControlRequest) : Core → Prop where
  | quiet (admissions : Table maxAdmissions Admission) (nextAdmission : UInt64)
      (certificate : Option Certificate) : ControlDone c r { c with
        admissions := admissions, nextAdmission := nextAdmission, certificate := certificate }
  | custody {version : UInt64} {i : Fin maxCustody} (body : r.body = .custody version)
      (row : (versionFind c version).isSome) (room : c.nextCustody ≠ uint64Max)
      (spare : c.custody.spare = some i) : ControlDone c r { c with
        custody := c.custody.set i ⟨c.nextCustody, version⟩
        nextCustody := c.nextCustody + 1 }
  | release {version : UInt64} {i : Fin maxVersions} {v : Version}
      (body : r.body = .release version)
      (row : versionFind c version = some (i, v)) (unreleased : v.released = false) :
      ControlDone c r { c with versions := c.versions.set i { v with released := true } }

lemma controlLocked_done (c : Core) (r : ControlRequest) :
    ControlDone c r (controlLocked c r).2 := by
  have same : ControlDone c r c := .quiet c.admissions c.nextAdmission c.certificate
  obtain ⟨object, body⟩ := r
  cases body with
  | admitUnder auth =>
    simp only [controlLocked, admitLocked]
    split
    · exact same
    split
    · exact same
    split
    · exact same
    · exact .quiet _ _ _
  | revoke admission =>
    simp only [controlLocked, revokeLocked, admissionChange]
    split
    · exact same
    · exact .quiet _ _ _
  | expire admission =>
    simp only [controlLocked, expireLocked, admissionChange]
    split
    · exact same
    · exact .quiet _ _ _
  | custody version =>
    simp only [controlLocked, custodyLocked]
    split
    · exact same
    next hrow =>
    split
    · exact same
    next hroom =>
    split
    · exact same
    next i hi =>
    exact .custody rfl (isSome_iff_ne_none.mpr (by simpa using hrow)) hroom hi
  | release version =>
    rcases releaseLocked_cases c version with he | ⟨i, v, hf, hrel, he⟩
    · simp only [controlLocked, he]
      exact same
    · simp only [controlLocked, he]
      exact .release rfl hf hrel
  | certificate certificate => exact .quiet _ _ _

lemma controlLocked_frame (c : Core) (r : ControlRequest) :
    ∃ admissions nextAdmission custody nextCustody versions certificate,
      (controlLocked c r).2 = { c with
        admissions := admissions
        nextAdmission := nextAdmission
        custody := custody
        nextCustody := nextCustody
        versions := versions
        certificate := certificate } := by
  have hdone := controlLocked_done c r
  generalize (controlLocked c r).2 = core at hdone
  cases hdone with
  | quiet | custody | release => exact ⟨_, _, _, _, _, _, rfl⟩

lemma admitLocked_issued (h : c.Issued) (object : ObjKey) (auth : Authority) :
    (admitLocked c object auth).2.Issued := by
  unfold admitLocked
  split
  · exact h
  split
  · exact h
  next hmax =>
  split
  · exact h
  next i _ =>
  have hsucc := counter_succ hmax
  refine ⟨fun j a ha => ?_, h.custody, ?_⟩
  · dsimp only at ha ⊢
    rw [hsucc]
    rw [set_apply] at ha
    split at ha
    · rw [← some.inj ha]
      exact Nat.lt_succ_self _
    · exact (h.admission j a ha).trans (Nat.lt_succ_self _)
  · dsimp only
    rw [hsucc]
    exact ⟨Nat.le_add_left 1 _, h.next.2⟩

lemma admissionChange_issued (h : c.Issued) {f : Admission → Admission}
    (hf : ∀ a, (f a).id = a.id) (admission : UInt64) :
    (admissionChange f c admission).2.Issued := by
  unfold admissionChange
  split
  · exact h
  next i a hfind =>
  refine { h with admission := fun j b hb => ?_ }
  dsimp only at hb
  rw [set_apply] at hb
  split at hb
  · rw [← some.inj hb, hf]
    exact h.admission i a (findById_some hfind).1
  · exact h.admission j b hb

lemma custodyLocked_issued (h : c.Issued) (version : UInt64) :
    (custodyLocked c version).2.Issued := by
  unfold custodyLocked
  split
  · exact h
  split
  · exact h
  next hmax =>
  split
  · exact h
  have hsucc := counter_succ hmax
  refine ⟨h.admission, fun j k hk => ?_, ?_⟩
  · dsimp only at hk ⊢
    rw [hsucc]
    rw [set_apply] at hk
    split at hk
    · rw [← some.inj hk]
      exact Nat.lt_succ_self _
    · exact (h.custody j k hk).trans (Nat.lt_succ_self _)
  · dsimp only
    rw [hsucc]
    exact ⟨h.next.1, Nat.le_add_left 1 _⟩

lemma controlLocked_issued (h : c.Issued) (r : ControlRequest) : (controlLocked c r).2.Issued := by
  unfold controlLocked
  dsimp only
  split
  · exact admitLocked_issued h _ _
  · refine admissionChange_issued h ?_ _
    exact fun _ => rfl
  · refine admissionChange_issued h ?_ _
    exact fun _ => rfl
  · exact custodyLocked_issued h _
  · unfold releaseLocked
    split
    · exact h
    split
    · exact h
    · exact { h with }
  · exact { h with }

lemma controlLocked_inv (h : c.Inv) (r : ControlRequest) : (controlLocked c r).2.Inv := by
  have hissued := controlLocked_issued h.issued r
  obtain ⟨admissions, nextAdmission, custody, nextCustody, versions, certificate, he⟩ :=
    controlLocked_frame c r
  rw [he] at hissued ⊢
  exact ⟨h.board, { h.numbered with }, h.dense, hissued⟩

/-! ## Taking a control request back -/

lemma admit_takeBack (h : c.Issued) (object : ObjKey) (auth : Authority) (status : UInt32)
    (hid : (admitLocked c object auth).1 ≠ 0) :
    controlTakeBack c (admitLocked c object auth).2 ⟨object, .admitUnder auth⟩
      ⟨status, (admitLocked c object auth).1⟩ = c := by
  unfold admitLocked at hid ⊢
  split at hid
  · exact absurd rfl hid
  next hwriter =>
  split at hid
  · exact absurd rfl hid
  next hmax =>
  split at hid
  · exact absurd rfl hid
  next i hi =>
  rw [if_neg hwriter, if_neg hmax]
  unfold controlTakeBack
  have hid : c.nextAdmission ≠ 0 := hid
  have hone : ∀ row : Admission, row.id = c.nextAdmission →
      findById Admission.id (c.admissions.set i row) c.nextAdmission = some (i, row) := by
    intro row hrow
    refine findById_eq (set_self _ i row) hrow hid fun j a ha he => ?_
    by_contra hne
    rw [set_ne hne] at ha
    exact absurd (congrArg UInt64.toNat he) (h.admission j a ha).ne
  rw [admissionFind, hone _ rfl, map_some, dropFresh,
    clear_set (spare_some hi), UInt64.add_sub_cancel]

lemma custody_takeBack (h : c.Issued) (object : ObjKey) (version : UInt64) (status : UInt32)
    (hid : (custodyLocked c version).1 ≠ 0) :
    controlTakeBack c (custodyLocked c version).2 ⟨object, .custody version⟩
      ⟨status, (custodyLocked c version).1⟩ = c := by
  unfold custodyLocked at hid ⊢
  split at hid
  · exact absurd rfl hid
  next hver =>
  split at hid
  · exact absurd rfl hid
  next hmax =>
  split at hid
  · exact absurd rfl hid
  next i hi =>
  rw [if_neg hver, if_neg hmax]
  unfold controlTakeBack
  have hrows : (fun j => (c.custody.set i ⟨c.nextCustody, version⟩ j).filter fun k =>
      k.id != c.nextCustody) = c.custody := by
    funext j
    rw [set_apply]
    split
    · next hj => rw [hj, spare_some hi, filter_some, if_neg (by simp)]
    cases hk : c.custody j with
    | none => rfl
    | some k =>
      have hne : k.id ≠ c.nextCustody := fun he =>
        absurd (congrArg UInt64.toNat he) (h.custody j k hk).ne
      rw [filter_some, if_pos (by simpa using hne)]
  rw [hrows, UInt64.add_sub_cancel]

theorem controlTakeBack_eq (h : c.Issued) (r : ControlRequest)
    (hgiven : (r.body.issues && (controlLocked c r).1.id == 0) = false) :
    controlTakeBack c (controlLocked c r).2 r (controlLocked c r).1 = c := by
  obtain ⟨object, body⟩ := r
  cases body with
  | admitUnder auth =>
    refine admit_takeBack h object auth _ ?_
    simpa [ControlBody.issues, controlLocked] using hgiven
  | revoke admission =>
    simp only [controlTakeBack, controlLocked, revokeLocked, admissionChange]
    cases hf : admissionFind c admission with
    | none => rfl
    | some p =>
      obtain ⟨i, a⟩ := p
      have hi := (findById_some hf).1
      dsimp only
      rw [modify_eq_set (set_self _ _ _), set_set]
      rw [show ({ a with revoked := a.revoked } : Admission) = a from rfl, set_eq_self hi]
  | expire admission =>
    simp only [controlTakeBack, controlLocked, expireLocked, admissionChange]
    cases hf : admissionFind c admission with
    | none => rfl
    | some p =>
      obtain ⟨i, a⟩ := p
      have hi := (findById_some hf).1
      dsimp only
      rw [modify_eq_set (set_self _ _ _), set_set]
      rw [show ({ a with expired := a.expired } : Admission) = a from rfl, set_eq_self hi]
  | custody version =>
    refine custody_takeBack h object version _ ?_
    simpa [ControlBody.issues, controlLocked] using hgiven
  | release version =>
    rcases releaseLocked_cases c version with he | ⟨i, v, hf, hrel, he⟩
    · simp only [controlTakeBack, controlLocked, he, Bool.false_eq_true, if_false]
      exact if_neg (by decide)
    · have hfind : versionFind { c with versions := c.versions.set i { v with released := true } }
          version = some (i, { v with released := true }) := findById_set_hit hf rfl
      simp only [controlTakeBack, controlLocked, he, if_true, hfind, set_set]
      rw [show ({ v with released := false } : Version) = v by rw [← hrel],
        set_eq_self (findById_some hf).1]
  | certificate certificate => rfl

end

end Reffs.D1
