import Reffs.D1.Events
import Reffs.D1.Sequential

/-!
# Under whose authority

A member that is recorded with `OK` ran under an admission the store had accepted at that moment;
the store's own `lease_reap` is the one exception. An admission belongs to the incarnation it was
issued in, so that after a reopen none of the earlier ones is accepted again.
-/

namespace Reffs.D1

open ByteCodec SlotTable Table Option Reffs.D1.Core

variable {w : World} {e : WriteEntry} {core c' c₀ : Core} {ans : MemberAnswer}
    {i : Fin maxAdmissions}

/-! ## What an admission allows -/

/-- Member `ans` of an envelope may run in state `c` under admission `a`. A rollback needs the right
that goes with the transaction's phase, and a write without a guard, or one that activates, the
single-writer right. -/
structure Authorised (c : Core) (ans : MemberAnswer) (a : Admission) : Prop where
  found : ∃ ai, admissionFind c ans.env.admission = some (ai, a)
  live : a.revoked = false ∧ a.expired = false
  object : a.object = ans.env.object
  rights : hasRight a.rights (opRights ans.env.body) = true
  rollback : ∀ r e ti t, ans.env.body = .rollbackBatch r → r.entries[ans.ordinal]? = some e →
    txnFind c e.txn = some (ti, t) →
    hasRight a.rights (if t.phase = .committed then rightRepair else rightWrite) = true
  singleWriter : ∀ w e, ans.env.body = .writeBatch w → w.entries[ans.ordinal]? = some e →
    (e.expected = none ∨ w.activate = true) → a.rights &&& rightSingleWriter ≠ 0
  incarnation : a.incarnation = c.incarnation ∧ ans.env.incarnation = c.incarnation

/-- The store's own `lease_reap`: its origin is all zero bytes, and the admission it reaps has
expired. -/
def ReapedByStore (c : Core) (env : Envelope UInt64) : Prop :=
  ∃ k oi old, env.body = .leaseReap k ∧ env.key.origin = zeros 16 ∧
    admissionFind c k.oldAdmission = some (oi, old) ∧ old.object = env.object ∧ old.expired = true

variable {c : Core} {a : Admission}

lemma writeFormCheck_none {w : WriteBatch}
    (h : writeFormCheck c w e a = none) (he : e.expected = none ∨ w.activate) :
    a.rights &&& rightSingleWriter ≠ 0 := by
  intro h0
  have hsingle : (a.rights &&& rightSingleWriter != 0) = false := by simp [h0]
  unfold writeFormCheck at h
  simp only [hsingle, activationAskedWrongly, Bool.not_false, Bool.and_true,
    isNone_iff_eq_none] at h
  grind

section

variable {c : Core} {env : Envelope UInt64} {ordinal : Nat} {entry : EntryResult} {a : Admission}

lemma OrdinaryChange.rollback_right (h : OrdinaryChange c env ordinal a .ok core)
    {r : RollbackBatch UInt64} {e : RollbackEntry UInt64} {ti : Fin maxTxns} {t : Txn}
    (hbody : env.body = .rollbackBatch r) (hentry : r.entries[ordinal]? = some e)
    (hfound : txnFind c e.txn = some (ti, t)) :
    hasRight a.rights (if t.phase = .committed then rightRepair else rightWrite) := by
  have hsame : ∀ {r' : RollbackBatch UInt64} {e' : RollbackEntry UInt64} {tj : Fin maxTxns}
      {t' : Txn}, env.body = .rollbackBatch r' → r'.entries[ordinal]? = some e' →
      txnFind c e'.txn = some (tj, t') → t' = t := by grind
  cases h with
  | write _ body => rw [body] at hbody; cases hbody
  | finalize body | commit body => rw [body.choose_spec] at hbody; cases hbody
  | rollback body entry found staged admission right object => grind
  | rollbackCommitted body entry found phase right => grind

lemma OrdinaryChange.single_writer {status : Status}
    (h : OrdinaryChange c env ordinal a status core)
    {w : WriteBatch} (hbody : env.body = .writeBatch w) (hentry : w.entries[ordinal]? = some e)
    (he : e.expected = none ∨ w.activate) : a.rights &&& rightSingleWriter ≠ 0 := by
  cases h with
  | write _ body entry form =>
    obtain rfl := Body.writeBatch.inj (body.symm.trans hbody)
    obtain rfl := some.inj (entry.symm.trans hentry)
    exact writeFormCheck_none form he
  | finalize body | commit body | postcond body => rw [body.choose_spec] at hbody; cases hbody
  | rollback body | rollbackCommitted body => rw [body] at hbody; cases hbody

lemma Change.authorised (h : Change c env ordinal entry.cohort .ok core) :
    (∃ a, Authorised c ⟨env, ordinal, entry⟩ a) ∨ ReapedByStore c env := by
  cases h with
  | ordinary _ admission change =>
    obtain ⟨found, live, object, rights, incarnation⟩ := admissionCheck_ok admission
    exact .inl ⟨_, found, live, object, rights,
      fun r e ti t hbody hentry hfound => change.rollback_right hbody hentry hfound,
      fun w e hbody hentry he => change.single_writer hbody hentry he, incarnation⟩
  | repair body admission change =>
    obtain ⟨found, live, object, rights, incarnation⟩ := admissionCheck_ok admission
    have hbodies : (∀ r, env.body ≠ .rollbackBatch r) ∧ ∀ w, env.body ≠ .writeBatch w := by grind
    exact .inl ⟨_, found, live, object, rights, fun r e ti t hbody => absurd hbody (hbodies.1 r),
      fun w e hbody => absurd hbody (hbodies.2 w), incarnation⟩
  | control _ authority change =>
    have hbodies : (∀ r, env.body ≠ .rollbackBatch r) ∧ ∀ w, env.body ≠ .writeBatch w := by
      cases change with
      | recovery body | reap body => rw [body]; exact ⟨nofun, nofun⟩
    rcases authority with ⟨⟨k, hk⟩, horigin⟩ | ⟨a, admission⟩
    · cases change with
      | recovery body => rw [body] at hk; cases hk
      | reap body object found bound expired rows =>
        exact .inr ⟨_, _, _, body, horigin, found, bound, expired⟩
    · obtain ⟨found, live, object, rights, incarnation⟩ := admissionCheck_ok admission
      exact .inl ⟨a, found, live, object, rights, fun r e ti t hbody => absurd hbody (hbodies.1 r),
        fun w e hbody => absurd hbody (hbodies.2 w), incarnation⟩

end

/-! ## Admissions over time -/

def Admission.ident (a : Admission) : UInt64 × UInt64 := (a.id, a.incarnation)

def Core.idents (c : Core) (i : Fin maxAdmissions) : Option (UInt64 × UInt64) :=
  (c.admissions i).map Admission.ident

/-- How the admissions of `c` can differ from those of `c₀`: none is new, or one is, issued in the
current incarnation. -/
inductive AdmissionsMoved (c₀ c : Core) : Prop where
  | kept (idents : c.idents = c₀.idents) (count : c₀.incarnation.toNat ≤ c.incarnation.toNat)
  | issued {i : Fin maxAdmissions} {row : Admission} (slot : c₀.admissions i = none)
      (number : row.id = c₀.nextAdmission) (now : row.incarnation = c₀.incarnation)
      (table : c.admissions = c₀.admissions.set i row) (count : c.incarnation = c₀.incarnation)

lemma admissionChange_idents {f : Admission → Admission} (hf : ∀ a, (f a).ident = a.ident)
    (c : Core) (admission : UInt64) : (admissionChange f c admission).2.idents = c.idents := by
  unfold admissionChange
  split
  · rfl
  next i a ha =>
  obtain ⟨hrow, -, -⟩ := findById_some ha
  funext j
  unfold idents
  dsimp only
  rw [set_apply]
  split
  · next hj =>
    subst hj
    rw [hrow, map_some, map_some, hf]
  · rfl

lemma controlLocked_admissions (c : Core) (r : ControlRequest) :
    AdmissionsMoved c (controlLocked c r).2 := by
  unfold controlLocked
  dsimp only
  split
  · unfold admitLocked
    split
    · exact .kept rfl le_rfl
    split
    · exact .kept rfl le_rfl
    split
    · exact .kept rfl le_rfl
    · next i hi => exact .issued (spare_some hi) rfl rfl rfl rfl
  · refine .kept (admissionChange_idents (f := fun a => { a with revoked := true })
      (fun _ => rfl) c _) ?_
    unfold revokeLocked admissionChange
    split <;> exact le_rfl
  · refine .kept (admissionChange_idents (f := fun a => { a with expired := true })
      (fun _ => rfl) c _) ?_
    unfold expireLocked admissionChange
    split <;> exact le_rfl
  · unfold custodyLocked
    split
    · exact .kept rfl le_rfl
    split
    · exact .kept rfl le_rfl
    split <;> exact .kept rfl le_rfl
  · unfold releaseLocked
    split
    · exact .kept rfl le_rfl
    split <;> exact .kept rfl le_rfl
  · exact .kept rfl le_rfl

lemma Records.admissions (h : Records c ans c') : AdmissionsMoved c c' := by
  obtain @⟨_, _, _, _, _, core, receipt, valid, spare, code, ground, change⟩ := h
  have hinc : core.incarnation = c.incarnation := congrArg (·.2.2.2.1) ground
  refine .kept ?_ (congrArg UInt64.toNat hinc).ge
  funext i
  have hadm : ((core.admissions i).map fun a => { a with revoked := false }) =
      (c.admissions i).map fun a => { a with revoked := false } :=
    congrFun (congrArg (·.2.2.2.2.2.2.2.2.2) ground) i
  have hi := congrArg (Option.map Admission.ident) hadm
  rwa [map_map, map_map] at hi

lemma step_admissions (h : w.Inv) (e : Event) :
    AdmissionsMoved w.store.core (step w e).store.core := by
  refine (step_effect h e).elim (P := fun _ c => AdmissionsMoved w.store.core c) h ?_ ?_ ?_ ?_
  · exact .kept rfl le_rfl
  · intro hcount
    refine .kept rfl ?_
    dsimp only
    rw [counter_succ hcount]
    exact Nat.le_succ _
  · exact controlLocked_admissions _
  · exact fun ans core hrec => hrec.admissions

/-- Numbers of admissions are apart, and none is of an incarnation to come. -/
structure Admissions (c : Core) : Prop where
  unique : Table.KeyUnique Admission.id c.admissions
  past : ∀ i a, c.admissions i = some a → a.incarnation.toNat ≤ c.incarnation.toNat

lemma Core.idents_some (h : c.idents = c₀.idents) (ha : c.admissions i = some a) :
    ∃ b, c₀.admissions i = some b ∧ b.id = a.id ∧ b.incarnation = a.incarnation := by
  have hi := congrFun h i
  unfold idents at hi
  rw [ha] at hi
  obtain ⟨b, hb, he⟩ := map_eq_some_iff.mp hi.symm
  exact ⟨b, hb, congrArg Prod.fst he, congrArg Prod.snd he⟩

lemma Admissions.moved (h : Admissions c₀) (hi : c₀.Issued) (hmove : AdmissionsMoved c₀ c) :
    Admissions c := by
  cases hmove with
  | kept idents count =>
    constructor
    · intro i j a b ha hb he
      obtain ⟨a', ha', hida, -⟩ := idents_some idents ha
      obtain ⟨b', hb', hidb, -⟩ := idents_some idents hb
      exact h.unique i j a' b' ha' hb' (hida.trans (he.trans hidb.symm))
    · intro i a ha
      obtain ⟨a', ha', -, hinc⟩ := idents_some idents ha
      rw [← hinc]
      exact (h.past i a' ha').trans count
  | issued slot number now table count =>
    constructor
    · rw [table]
      refine h.unique.set fun j b hb _ he => ?_
      rw [number] at he
      exact absurd (congrArg UInt64.toNat he) (hi.admission j b hb).ne
    · intro i a ha
      rw [count]
      rw [table, set_apply] at ha
      split at ha
      · rw [← some.inj ha, now]
      · exact h.past i a ha

lemma Reachable.admissions (h : Reachable w) : Admissions w.store.core := by
  refine h.induct (fun hopen => ?_)
    (fun hw hadm => hadm.moved hw.inv.store.core.issued (step_admissions hw.inv _))
  constructor
  · rw [(coreOpen_empty hopen).admissions]
    exact keyUnique_empty _
  · rw [(coreOpen_empty hopen).admissions]
    exact fun _ _ ha => nomatch ha

/-- The admissions of an earlier incarnation are still there, under their numbers. -/
structure Outlived (c₀ c : Core) : Prop where
  later : c₀.incarnation.toNat < c.incarnation.toNat
  kept : ∀ i a, c₀.admissions i = some a → c.idents i = some a.ident

lemma Outlived.moved (h : Outlived c₀ c) (hmove : AdmissionsMoved c c') : Outlived c₀ c' := by
  cases hmove with
  | kept idents count =>
    exact ⟨h.later.trans_le count, fun i a ha => (congrFun idents i).trans (h.kept i a ha)⟩
  | @issued j row slot number now table count =>
    refine ⟨by rw [count]; exact h.later, fun i a ha => ?_⟩
    have hold := h.kept i a ha
    have hne : i ≠ j := by
      rintro rfl
      unfold idents at hold
      rw [slot] at hold
      cases hold
    unfold idents at hold ⊢
    rwa [table, set_ne hne]

lemma Outlived.run (hw : w.Inv) (h : Outlived c₀ w.store.core) (es : List Event) :
    Outlived c₀ (Machine.run step w es).store.core :=
  (Machine.run_invariant (I := fun w => w.Inv ∧ Outlived c₀ w.store.core)
    (fun w e hw => ⟨step_inv w e hw.1, hw.2.moved (step_admissions hw.1 e)⟩) ⟨hw, h⟩ es).2

lemma Outlived.refused (h : Outlived c₀ c) (h₀ : Admissions c₀) (hc : Admissions c)
    (ha : Authorised c ans a) {b : Admission} (hb : c₀.admissions i = some b)
    (hid : b.id = ans.env.admission) : False := by
  obtain ⟨j, hj⟩ := ha.found
  obtain ⟨hrow, hnum, -⟩ := findById_some hj
  obtain ⟨b', hb', hident⟩ := map_eq_some_iff.mp (h.kept i b hb)
  have hbid : b'.id = b.id := congrArg Prod.fst hident
  obtain rfl := hc.unique j i a b' hrow hb' (hnum.trans (hid.symm.trans hbid.symm))
  obtain rfl : a = b' := some.inj (hrow.symm.trans hb')
  have hpast := h₀.past _ b hb
  have hinc : a.incarnation = b.incarnation := congrArg Prod.snd hident
  have hlater := h.later
  rw [← hinc, ha.incarnation.1] at hpast
  omega

/-! ## The guarantee -/

lemma Records.authorised (h : Records c ans c') (hok : ans.entry.status = Status.ok.code) :
    (∃ a, Authorised c ans a) ∨ ReapedByStore c ans.env := by
  obtain ⟨receipt, valid, spare, code, ground, change⟩ := h
  obtain rfl := Status.code_injective (code.symm.trans hok)
  rcases change with ⟨hno, -⟩ | change
  · exact absurd rfl hno
  · exact change.authorised

/-- **Whatever is recorded with `OK` ran under an accepted admission:** live, for the envelope's
object, with every right the member needs, and of the current incarnation; or it is the store's own
`lease_reap` of an expired admission. After a reopen nothing runs under an admission from before
it. -/
theorem recorded_ok_authorised {w : World} (h : Reachable w) :
    (∀ e ans, recordedBy w e = some ans → ans.entry.status = Status.ok.code →
      (∃ a, Authorised w.store.core ans a) ∨ ReapedByStore w.store.core ans.env) ∧
    ∀ arm, (step w (.reopen arm)).store.core.incarnation ≠ w.store.core.incarnation →
      ∀ es e ans, recordedBy (Machine.run step (step w (.reopen arm)) es) e = some ans →
        ans.entry.status = Status.ok.code →
        (∃ i a, w.store.core.admissions i = some a ∧ a.id = ans.env.admission) →
        ReapedByStore (Machine.run step (step w (.reopen arm)) es).store.core ans.env := by
  refine ⟨fun e ans hrec hok => (recordedBy_records h.inv hrec).authorised hok, ?_⟩
  intro arm hnew es e ans hrec hok ⟨i, a, hrow, hid⟩
  have hreach := (h.run [.reopen arm]).run es
  have hout : Outlived w.store.core (step w (.reopen arm)).store.core := by
    rcases reopen_core h.inv arm with hsame | ⟨hcount, hnext⟩
    · exact absurd (congrArg incarnation hsame) hnew
    · have hcore : (step w (.reopen arm)).store.core = _ := hnext
      rw [hcore]
      refine ⟨?_, fun i a ha => ?_⟩
      · dsimp only
        rw [counter_succ hcount]
        exact Nat.lt_succ_self _
      · unfold idents
        dsimp only
        rw [ha]
        rfl
  rcases (recordedBy_records hreach.inv hrec).authorised hok with ⟨b, hb⟩ | hreap
  · exact ((hout.run (h.run [.reopen arm]).inv es).refused h.admissions hreach.admissions hb hrow
      hid).elim
  · exact hreap

lemma admittedWorld_write :
    (recordedBy admittedWorld (.advance 1)).map (·.entry.status) = some Status.ok.code := by
  decide +kernel

lemma admittedWorld_reopens : (step admittedWorld (.reopen .ok)).store.core.incarnation ≠
      admittedWorld.store.core.incarnation ∧
    (admittedWorld.store.core.admissions 0).map (·.id) = some 1 := by
  decide +kernel

theorem recorded_ok_authorised_small : (∃ ans, recordedBy admittedWorld (.advance 1) = some ans ∧
      ((∃ a, Authorised admittedWorld.store.core ans a) ∨
        ReapedByStore admittedWorld.store.core ans.env)) ∧
    ∀ es e ans, recordedBy (Machine.run step (step admittedWorld (.reopen .ok)) es) e = some ans →
      ans.entry.status = Status.ok.code → ans.env.admission = 1 →
      ReapedByStore (Machine.run step (step admittedWorld (.reopen .ok)) es).store.core
        ans.env := by
  obtain ⟨ans, hans, hok⟩ := map_eq_some_iff.mp admittedWorld_write
  obtain ⟨a, ha, hid⟩ := map_eq_some_iff.mp admittedWorld_reopens.2
  refine ⟨⟨ans, hans, (recorded_ok_authorised admittedWorld_reachable).1 _ ans hans hok⟩, ?_⟩
  intro es e ans hrec hok hone
  exact (recorded_ok_authorised admittedWorld_reachable).2 .ok admittedWorld_reopens.1 es e ans hrec
    hok ⟨0, a, ha, hid.trans hone.symm⟩

end Reffs.D1
