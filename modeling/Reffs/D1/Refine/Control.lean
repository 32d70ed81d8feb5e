import Reffs.D1.Change.Control
import Reffs.D1.Refine.Repair
import Reffs.D1.Undo.Control

/-!
# The control operations move the board

`recovery_admit` hands transactions and cohorts to another admission, which the board does not show.
`lease_reap` rolls back one staged transaction after another: a sequence of moves.
-/

namespace Reffs.D1

open SlotTable Table Option

def Board.Moves (act : Act) : Board → Board → Prop :=
  Relation.ReflTransGen fun b b' => b.Step act b'

lemma Board.Moves.inv {act : Act} {b b' : Board} (h : b.Inv) (hmoves : Board.Moves act b b') :
    b'.Inv := by
  induction hmoves with
  | refl => exact h
  | tail _ hstep ih => exact hstep.inv ih

/-! ## recovery_admit -/

structure HandedOver (c c' : Core) : Prop where
  objects : c'.objects = c.objects
  nextTxn : c'.nextTxn = c.nextTxn
  nextRepair : c'.nextRepair = c.nextRepair
  claims : ∀ ti, claimAt c'.txns ti = claimAt c.txns ti
  rows : RowsKept c.txns c'.txns
  cohorts : ∀ ri, (c'.repairs ri).map Repair.unmoved = (c.repairs ri).map Repair.unmoved

lemma HandedOver.refl (c : Core) : HandedOver c c :=
  ⟨rfl, rfl, rfl, fun _ => rfl, fun _ t ht => ⟨t, ht, rfl, rfl⟩, fun _ => rfl⟩

lemma HandedOver.trans {c₁ c₂ c₃ : Core} (h : HandedOver c₁ c₂) (h' : HandedOver c₂ c₃) :
    HandedOver c₁ c₃ := by
  refine ⟨h'.objects.trans h.objects, h'.nextTxn.trans h.nextTxn, h'.nextRepair.trans h.nextRepair,
    fun ti => (h'.claims ti).trans (h.claims ti), fun ti t ht => ?_,
    fun ri => (h'.cohorts ri).trans (h.cohorts ri)⟩
  obtain ⟨u, hu, hid, hmode⟩ := h'.rows ti t ht
  obtain ⟨v, hv, hid', hmode'⟩ := h.rows ti u hu
  exact ⟨v, hv, hid'.trans hid, hmode'.trans hmode⟩

lemma HandedOver.txn (c : Core) (ti : Fin maxTxns) (fresh readEpoch : UInt64) :
    HandedOver c { c with
      txns := c.txns.modify ti fun t =>
        { t with admission := fresh, readEpoch := readEpoch } } := by
  refine ⟨rfl, rfl, rfl, fun tj => ?_, fun tj t ht => ?_, fun _ => rfl⟩
  · simp only [claimAt, modify_apply]
    split
    · cases c.txns tj <;> rfl
    · rfl
  · dsimp only at ht
    rw [modify_apply] at ht
    split at ht
    · obtain ⟨u, hu, rfl⟩ := map_eq_some_iff.mp ht
      exact ⟨u, hu, rfl, rfl⟩
    · exact ⟨t, ht, rfl, rfl⟩

lemma HandedOver.cohort (c : Core) (ri : Fin maxRepairs) (fresh : UInt64) :
    HandedOver c { c with repairs := c.repairs.modify ri fun r =>
      { r with admission := fresh } } := by
  refine { HandedOver.refl c with cohorts := fun rj => ?_ }
  dsimp only
  rw [modify_apply]
  split
  · cases c.repairs rj <;> rfl
  · rfl

lemma recoveryMove_handedOver (fresh readEpoch : UInt64) (named : List (Fin maxTxns × Txn))
    (c : Core)
    (done : List ControlUndoEntry) : HandedOver c (recoveryMove fresh readEpoch named c done).1 :=
  recoveryMove_closed .refl .trans .txn .cohort fresh readEpoch named c done

lemma HandedOver.numbered {c c' : Core} {n : Nat} (h : Numbered c n) (hand : HandedOver c c') :
    Numbered c' (n + 1) := by
  have h := h.succ
  -- A cohort that was handed over has the number and the members it had.
  have hold : ∀ ri r', c'.repairs ri = some r' →
      ∃ r, c.repairs ri = some r ∧ r.id = r'.id ∧ r.members = r'.members := by
    intro ri r' hr'
    have hc := hand.cohorts ri
    rw [hr'] at hc
    obtain ⟨r, hr, he⟩ := map_eq_some_iff.mp hc.symm
    exact ⟨r, hr, (Repair.mk.inj he).1, (Repair.mk.inj he).2.2.2.2⟩
  refine ⟨?_, ?_, ?_, by rw [hand.nextTxn]; exact h.nextTxn, by
    rw [hand.nextRepair]; exact h.nextRepair⟩
  · intro ti t ht
    obtain ⟨u, hu, hid, -⟩ := hand.rows ti t ht
    rw [hand.nextTxn, ← hid]
    exact h.txn ti u hu
  · intro ri r' m hr' hm
    obtain ⟨r, hr, -, hms⟩ := hold ri r' hr'
    rw [hand.nextTxn]
    exact h.member ri r m hr (hms ▸ hm)
  · intro ri r' hr'
    obtain ⟨r, hr, hid, -⟩ := hold ri r' hr'
    rw [hand.nextRepair, ← hid]
    exact h.repair ri r hr

section

variable {c : Core} {n : Nat}

lemma HandedOver.moves {c' : Core} (hand : HandedOver c c') :
    Board.Moves .control c.board c'.board := by
  refine .single ?_
  simp only [Core.board, hand.objects]
  exact .handOver (b := c.board) hand.claims hand.rows hand.cohorts

/-! ## lease_reap -/

lemma validate_control {k : ControlBatch UInt64} {recovery : Bool}
    (h : validateControl recovery k) : k.txns.Nodup := by
  unfold validateControl at h
  simp only [Bool.and_eq_true, decide_eq_true_eq] at h
  tauto

lemma reapMove_moves (s : ObjectSlot) (named : List (Fin maxTxns × Txn)) :
    ∀ (c : Core) (done : List ControlUndoEntry), (c.objects s).isSome → (named.map Prod.fst).Nodup →
      (∀ p ∈ named, c.txns p.1 = some p.2 ∧ p.2.object = s ∧ p.2.Staged) →
      Board.Moves .control c.board (reapMove s named c done).1.board ∧
        (Numbered c n → Numbered (reapMove s named c done).1 (n + 1)) := by
  induction named with
  | nil => intro c done _ _ _; exact ⟨.refl, fun h => h.succ⟩
  | cons p rest ih =>
    obtain ⟨ti, t⟩ := p
    intro c done hs hnodup hrows
    obtain ⟨ht, hobj, hstaged⟩ := hrows (ti, t) List.mem_cons_self
    have ht : c.txns ti = some t := ht
    have hobj : t.object = s := hobj
    subst hobj
    rw [List.map_cons, List.nodup_cons] at hnodup
    obtain ⟨o, ho⟩ := isSome_iff_exists.mp hs
    unfold reapMove
    dsimp only
    rw [modify_eq_set ht]
    let c' : Core := { c with
      objects := modifyChunk c.objects t.object t.index (·.dropPending t.id)
      txns := c.txns.set ti { t with phase := .rolledBack } }
    have hstep : c.board.Step .control c'.board := by
      simp only [Core.board, c', chunkAt_modifyChunk ho]
      exact .rollback (b := c.board) .control ht hstaged
    have hrows' : ∀ p ∈ rest, c'.txns p.1 = some p.2 ∧ p.2.object = t.object ∧ p.2.Staged := by
      grind
    obtain ⟨hmoves, hnum⟩ :=
      ih c' _ (modifyChunk_isSome t.index (·.dropPending t.id) hs) hnodup.2 hrows'
    refine ⟨.head hstep hmoves, fun h => hnum (h.rows (txnSet_rowsKept ht ?_ ?_) rfl rfl rfl)⟩
    · rfl
    · rfl

theorem ControlChange.sound {env : Envelope UInt64} {core : Core} (h : Numbered c n)
    (hv : envelopeValidate env) (hc : ControlChange c env core) :
    Board.Moves .control c.board core.board ∧ Numbered core (n + 1) := by
  cases hc with
  | @recovery k s o oi fi old fresh named body object found bound rows next check =>
    have hand := recoveryMove_handedOver fresh.id (k.readEpoch.getD 0) named c []
    exact ⟨hand.moves, { hand.numbered h with }⟩
  | @reap k s o oi old named body object found bound expired rows =>
    obtain ⟨hids, hrows⟩ := controlNamed_ok rows
    have hk : k.txns.Nodup := by
      unfold envelopeValidate at hv
      rw [body] at hv
      exact validate_control hv
    -- One slot named twice would be one number named twice.
    have hslots : (named.map Prod.fst).Nodup := by
      rw [← hids] at hk
      rw [List.Nodup, List.pairwise_map] at hk ⊢
      refine (List.Pairwise.and_mem.mp hk).imp ?_
      rintro p q ⟨hp, hq, hne⟩ hslot
      have hpq := (hrows p hp).1
      rw [hslot, (hrows q hq).1] at hpq
      exact hne (by rw [some.inj hpq])
    obtain ⟨hmoves, hnum⟩ := reapMove_moves (n := n) s named c []
      (by simp [(findRow_some object).1]) hslots
      fun p hp => ⟨(hrows p hp).1, controlTxnCheck_reap (hrows p hp).2⟩
    exact ⟨hmoves, hnum h⟩

end

end Reffs.D1
