import Reffs.Lib.Ledger
import Reffs.D1.Pointers

/-!
# The ledgers: what numbers stand for

Transactions, versions, cohorts, episodes, postconditions and custodies are numbered, each by a
counter of its own. What happens to these six tables, in whatever operation and over whatever run,
is `Core.Grows`: a counter does not fall, a row keeps what it was made with, and a new row has a
number the counter had not reached.
-/

namespace Reffs.D1

open SlotTable Table

variable {n₁ n₂ n₃ : UInt64} {t t' a : Txn} {env : Envelope UInt64} {n : Nat} {status : Status}
  {core : Core}

/-! ## What becomes of a row -/

/-- A number that is given between two states of a counter. -/
def Given (next next' id : UInt64) : Prop := next.toNat ≤ id.toNat ∧ id.toNat < next'.toNat

lemma Given.mono {n₀ id : UInt64} (h : Given n₁ n₂ id) (hl : n₀.toNat ≤ n₁.toNat)
    (hr : n₂.toNat ≤ n₃.toNat) : Given n₀ n₃ id := ⟨hl.trans h.1, h.2.trans_le hr⟩

/-- A transaction without what its life changes. -/
def Txn.fixed (t : Txn) : Txn := { t.unmoved with version := 0 }

/-- A transaction stays what it is, and takes a version only when that is made. -/
structure Txn.Later (next next' : UInt64) (t t' : Txn) : Prop where
  fixed : t.fixed = t'.fixed
  version : t'.version = t.version ∨ Given next next' t'.version

/-- A transaction starts with a version made with it; that of a repair has none yet. -/
def Txn.Made (next next' : UInt64) (t : Txn) : Prop :=
  t.mode = .repair ∧ t.version = 0 ∨ Given next next' t.version

/-- A version stays what it is, and is not taken back once released. -/
structure Version.Later (v v' : Version) : Prop where
  fixed : v.fixed = v'.fixed
  released : v.released = true → v'.released = true

lemma Txn.of_fixed (h : t.fixed = t'.fixed) : t.id = t'.id ∧ t.object = t'.object ∧
    t.index = t'.index ∧ t.mode = t'.mode := by
  obtain ⟨hid, hobject, hindex, -, -, -, -, hmode, -⟩ := Txn.mk.inj h
  exact ⟨hid, hobject, hindex, hmode⟩

lemma Txn.Later.refl (next next' : UInt64) (t : Txn) : Txn.Later next next' t t :=
  ⟨rfl, .inl rfl⟩

lemma Txn.Later.id_eq {next next' : UInt64} (h : Txn.Later next next' t t') : t.id = t'.id :=
  (Txn.of_fixed h.fixed).1

section

variable (h₁₂ : n₁.toNat ≤ n₂.toNat)

include h₁₂

lemma Txn.Later.trans (h₂₃ : n₂.toNat ≤ n₃.toNat) {b c : Txn}
    (h : Txn.Later n₁ n₂ a b) (h' : Txn.Later n₂ n₃ b c) : Txn.Later n₁ n₃ a c := by
  refine ⟨h.fixed.trans h'.fixed, ?_⟩
  rcases h'.version with hsame | hnew
  · rw [hsame]
    exact h.version.imp_right fun hnew => hnew.mono le_rfl h₂₃
  · exact .inr (hnew.mono h₁₂ le_rfl)

lemma Txn.Made.later (h₂₃ : n₂.toNat ≤ n₃.toNat) {b : Txn}
    (h : Txn.Made n₁ n₂ a) (h' : Txn.Later n₂ n₃ a b) : Txn.Made n₁ n₃ b := by
  rcases h'.version with hsame | hnew
  · rcases h with ⟨hmode, hzero⟩ | hgiven
    · exact .inl ⟨(Txn.of_fixed h'.fixed).2.2.2 ▸ hmode, hsame.trans hzero⟩
    · rw [← hsame] at hgiven
      exact .inr (hgiven.mono le_rfl h₂₃)
  · exact .inr (hnew.mono h₁₂ le_rfl)

lemma Txn.Made.mono (h : Txn.Made n₂ n₃ a) : Txn.Made n₁ n₃ a :=
  h.imp_right fun hgiven => hgiven.mono h₁₂ le_rfl

end

lemma Version.Later.refl (v : Version) : v.Later v := ⟨rfl, fun h => h⟩

lemma Version.Later.trans {a b c : Version} (h : a.Later b) (h' : b.Later c) : a.Later c :=
  ⟨h.fixed.trans h'.fixed, fun hr => h'.released (h.released hr)⟩

lemma Version.Later.id_eq {v v' : Version} (h : v.Later v') : v.id = v'.id :=
  (Version.of_fixed h.fixed).1

/-! ## The six ledgers -/

structure Core.Grows (c c' : Core) : Prop where
  txn : Ledger.Grows Txn.id (Txn.Later c.nextVersion c'.nextVersion)
    (Txn.Made c.nextVersion c'.nextVersion) c.txns c'.txns c.nextTxn c'.nextTxn
  version : Ledger.Grows Version.id Version.Later (fun _ => True) c.versions c'.versions
    c.nextVersion c'.nextVersion
  repair : Ledger.Kept Repair.id c.repairs c'.repairs c.nextRepair c'.nextRepair
  episode : Ledger.Kept Episode.id c.episodes c'.episodes c.nextEpisode c'.nextEpisode
  postcond : Ledger.Kept Postcond.id c.postconds c'.postconds c.nextPostcond c'.nextPostcond
  custody : Ledger.Kept Custody.id c.custody c'.custody c.nextCustody c'.nextCustody

lemma Core.Grows.refl (c : Core) : c.Grows c where
  txn := .refl (Txn.Later.refl _ _) _ _
  version := .refl Version.Later.refl _ _
  repair := .refl _ _ _
  episode := .refl _ _ _
  postcond := .refl _ _ _
  custody := .refl _ _ _

lemma Core.Grows.trans {c₁ c₂ c₃ : Core} (h : c₁.Grows c₂) (h' : c₂.Grows c₃) : c₁.Grows c₃ where
  txn := h.txn.trans h'.txn (Txn.Later.trans h.version.counter h'.version.counter)
    (Txn.Made.later h.version.counter h'.version.counter) (Txn.Made.mono h.version.counter)
    Txn.Later.id_eq
  version := h.version.trans h'.version Version.Later.trans (fun _ _ => trivial) (fun _ => trivial)
    Version.Later.id_eq
  repair := h.repair.trans h'.repair
  episode := h.episode.trans h'.episode
  postcond := h.postcond.trans h'.postcond
  custody := h.custody.trans h'.custody

/-! ## One row at a time -/

section

variable {c : Core}

lemma Core.Grows.setTxn {ti : Fin maxTxns} (ht : c.txns ti = some t) (hfixed : t.fixed = t'.fixed)
    (hversion : t'.version = t.version) : c.Grows { c with txns := c.txns.set ti t' } :=
  { Core.Grows.refl c with
    txn := .set (Txn.Later.refl _ _) ht ⟨hfixed, .inl hversion⟩ }

lemma Core.Grows.modifyTxn (c : Core) (ti : Fin maxTxns) {f : Txn → Txn}
    (hfixed : ∀ t, t.fixed = (f t).fixed) (hversion : ∀ t, (f t).version = t.version) :
    c.Grows { c with txns := c.txns.modify ti f } :=
  { Core.Grows.refl c with
    txn := .modify (Txn.Later.refl _ _) ti fun t => ⟨hfixed t, .inl (hversion t)⟩ }

lemma Core.Grows.setRepair {ri : Fin maxRepairs} {r r' : Repair} (hr : c.repairs ri = some r)
    (hid : r.id = r'.id) : c.Grows { c with repairs := c.repairs.set ri r' } :=
  { Core.Grows.refl c with repair := .set hr hid }

lemma Core.Grows.consume {postconds : Table maxPostconds Postcond}
    (h : Consumed c.postconds postconds) : c.Grows { c with postconds := postconds } := by
  rcases h with rfl | ⟨pi, p, hp, rfl⟩
  · exact .refl c
  · exact { Core.Grows.refl c with postcond := .set hp rfl }

lemma Core.Grows.pushTxn (ti : Fin maxTxns) (hid : t.id = c.nextTxn)
    (hmade : t.mode = .repair ∧ t.version = 0)
    (hsucc : (c.nextTxn + 1).toNat = c.nextTxn.toNat + 1) :
    c.Grows { c with txns := c.txns.set ti t, nextTxn := c.nextTxn + 1 } :=
  { Core.Grows.refl c with
    txn := .push (Txn.Later.refl _ _) ti hid hsucc (.inl hmade) }

lemma Core.Grows.stage (exportUuid : Uuid) (s : ObjectSlot) (e : RepairEntry UInt64)
    (m : RepairMember) (vi : Fin maxVersions) {ti : Fin maxTxns} (ht : c.txns ti = some t)
    (hsucc : (c.nextVersion + 1).toNat = c.nextVersion.toNat + 1) :
    c.Grows (staged c exportUuid s e m vi ti t) := by
  have hgiven : Given c.nextVersion (c.nextVersion + 1) c.nextVersion := ⟨le_rfl, by omega⟩
  exact { Core.Grows.refl c with
    txn := .set (Txn.Later.refl _ _) ht ⟨rfl, .inr hgiven⟩
    version := .push Version.Later.refl vi rfl hsucc trivial }

lemma Core.Grows.dropFresh (c : Core) (ver : Option (Fin maxVersions))
    (txn : Option (Fin maxTxns)) : c.Grows { c with
      versions := Reffs.D1.dropFresh ver c.versions
      txns := Reffs.D1.dropFresh txn c.txns } := by
  have hver : c.Grows { c with versions := Reffs.D1.dropFresh ver c.versions } := by
    cases ver with
    | none => exact .refl c
    | some vi => exact { Core.Grows.refl c with version := .clear Version.Later.refl vi }
  refine hver.trans ?_
  cases txn with
  | none => exact .refl _
  | some ti => exact { Core.Grows.refl _ with txn := .clear (Txn.Later.refl _ _) ti }

/-! ## Loops -/

lemma beginStage_grows {s : ObjectSlot} {id : UInt64} {o : Object}
    (es : List (RepairEntry UInt64)) : ∀ {b b' : BeginState},
      b.core.nextTxn.toNat + es.length < 2 ^ 64 → beginStage env s id o es b = (.ok, b') →
        b.core.Grows b'.core := by
  induction es with
  | nil =>
    intro b b' _ h
    obtain rfl : b = b' := congrArg Prod.snd h
    exact .refl _
  | cons e es ih =>
    intro b b' hroom h
    rw [List.length_cons] at hroom
    unfold beginStage at h
    split at h
    · cases h
    next i hi =>
    split at h
    · next b₁ hb₁ =>
      have hsucc := counter_succ (ne_uint64Max (u := b.core.nextTxn) (by omega))
      obtain ⟨ti, ai, postconds, -, -, hpost, -, hcore⟩ := beginMember_ok hb₁
      -- the transaction, the postcondition, and then what no ledger keeps
      have hone : b.core.Grows b₁.core := by
        rw [hcore]
        have hpush := Core.Grows.pushTxn (c := b.core) ti
          (t := beginRow env s o e i b.core.nextTxn) rfl ⟨rfl, rfl⟩ hsucc
        have hconsume := Core.Grows.consume (c := { b.core with
          txns := b.core.txns.set ti (beginRow env s o e i b.core.nextTxn)
          nextTxn := b.core.nextTxn + 1 }) hpost
        exact { hpush.trans hconsume with }
      refine hone.trans (ih ?_ h)
      have hnext : b₁.core.nextTxn = b.core.nextTxn + 1 := by rw [hcore]
      rw [hnext, hsucc]
      omega
    · next status b₁ hne hb₁ => exact absurd (congrArg Prod.fst h) hne

lemma Stages.grows {c' : Core} {exportUuid : Uuid} {s : ObjectSlot}
    {l : List (RepairEntry UInt64 × RepairMember)} {ms : List RepairMember}
    (h : Stages exportUuid s l c ms c') (hroom : c.nextVersion.toNat + l.length < 2 ^ 64) :
    c.Grows c' := by
  induction h with
  | nil c => exact .refl c
  | @cons e m l c c' ms vi ti t slot txn rest ih =>
    rw [List.length_cons] at hroom
    have hsucc := counter_succ (ne_uint64Max (u := c.nextVersion) (by omega))
    have hnext : (staged c exportUuid s e m vi ti t).nextVersion.toNat = c.nextVersion.toNat + 1 :=
      hsucc
    exact (Core.Grows.stage exportUuid s e m vi (findById_some txn).1 hsucc).trans (ih (by omega))

lemma dropMembers_grows (s : ObjectSlot) (ms : List RepairMember) :
    ∀ (c : Core) (u : RepairUndo), c.Grows (dropMembers s ms c u).1 ∧
      (dropMembers s ms c u).1.repairs = c.repairs := by
  induction ms with
  | nil => exact fun c u => ⟨.refl c, rfl⟩
  | cons m ms ih =>
    intro c u
    let released : Core := { c with
      objects := modifyChunk c.objects s m.index fun ch => { ch with repair := none } }
    let dropped := memberDrop released m (u.noteChunk c.objects s m.index)
    have hrelease : c.Grows released := { Core.Grows.refl c with }
    have hdrop : released.Grows dropped.1 := Core.Grows.dropFresh released _ _
    obtain ⟨hrest, hrep⟩ := ih dropped.1 dropped.2.2
    exact ⟨(hrelease.trans hdrop).trans hrest, hrep⟩

lemma abortCohort_grows {ri : Fin maxRepairs} {r cohort : Repair} (hr : c.repairs ri = some r)
    (hid : r.id = cohort.id) (u : RepairUndo) : c.Grows (abortCohort c ri cohort u).1 := by
  obtain ⟨hdrop, hrep⟩ := dropMembers_grows cohort.object cohort.members c u
  refine hdrop.trans (Core.Grows.setRepair ?_ hid)
  rw [hrep]
  exact hr

lemma commitStage_grows (s : ObjectSlot) (ms : List RepairMember) :
    ∀ (c : Core) (u : RepairUndo), c.Grows (commitStage s ms c u).1 ∧
      (commitStage s ms c u).1.repairs = c.repairs := by
  induction ms with
  | nil => exact fun c u => ⟨.refl c, rfl⟩
  | cons m ms ih =>
    intro c u
    let switched : Core := { c with objects := modifyChunk c.objects s m.index fun ch =>
      { ch with visible := some m.version, repairLocked := true } }
    have hswitch : c.Grows switched := { Core.Grows.refl c with }
    unfold commitStage
    dsimp only
    split
    · obtain ⟨hrest, hrep⟩ := ih switched (u.noteChunk c.objects s m.index)
      exact ⟨hswitch.trans hrest, hrep⟩
    · next ti t ht =>
      have htxn : switched.Grows { switched with
          txns := switched.txns.set ti { t with phase := .committed } } :=
        .setTxn (findById_some ht).1 rfl rfl
      obtain ⟨hrest, hrep⟩ := ih _ ((u.noteChunk c.objects s m.index).noteTxn ti t)
      exact ⟨(hswitch.trans htxn).trans hrest, hrep⟩

/-! ## Changes -/

lemma OrdinaryChange.grows {ordinal : Nat} {a : Admission} (hst : Stocked c n) (hnum : Numbered c n)
    (hn : n < maxReceipts) (hc : OrdinaryChange c env ordinal a status core) : c.Grows core := by
  have hphase : ∀ {ti t}, c.txns ti = some t → ∀ phase,
      c.Grows { c with txns := c.txns.set ti { t with phase := phase } } :=
    fun ht _ => .setTxn ht rfl rfl
  cases hc with
  | @write w e s o fresh objects i guard ti vi ai activate =>
    have htxn := hnum.nextTxn_succ hn.le
    have hver := hst.next_succ hn
    have hgiven : Given c.nextVersion (c.nextVersion + 1) c.nextVersion := ⟨le_rfl, by omega⟩
    exact { Core.Grows.refl c with
      txn := .push (Txn.Later.refl _ _) ti rfl htxn (.inr hgiven)
      version := .push Version.Later.refl vi rfl hver trivial }
  | finalize body row => exact hphase row .finalized
  | commit body row => exact { hphase row .committed with }
  | rollback body entry found => exact { hphase (findById_some found).1 .rolledBack with }
  | rollbackCommitted body entry found =>
    exact { hphase (findById_some found).1 .rolledBack with }
  | postcond body slot number room =>
    exact { Core.Grows.refl c with postcond := .push _ number (counter_succ room) }

lemma RepairChange.grows {rb : RepairBatch UInt64} {a : Admission} {op : RepairOp}
    {cohort : Option UInt64} (hst : Stocked c n) (hnum : Numbered c n) (hn : n < maxReceipts)
    (hb : c.board.Inv) (hrb : validateRepair op rb)
    (hc : RepairChange c env rb a op cohort status core) : c.Grows core := by
  cases hc with
  | markError cohort u object free number room =>
    exact { Core.Grows.refl c with episode := .push _ number (counter_succ room) }
  | @beginRepair s o ri u b object capturable unowned apart slot stage =>
    have hcount := validateRepair_count hrb
    have hbegun := beginStage_begun hnum hn hb hcount stage
    have hstage := beginStage_grows rb.entries (hnum.nextTxn_room hn.le hcount) stage
    have hrepair : Ledger.Kept Repair.id c.repairs (b.core.repairs.set ri
        ⟨c.nextRepair, s, env.admission, .admitted, b.members⟩) c.nextRepair
        b.core.nextRepair := by
      rw [hbegun.repairs, hbegun.nextRepair]
      exact .push ri rfl (hnum.nextRepair_succ hn.le)
    exact { hstage with repair := hrepair }
  | @prepareRepair ri r o u res p on length named phase stage =>
    obtain ⟨done, rest, ms, hl, hrun, hms, hok⟩ := prepareStage_stages _ stage
    have hstage := hrun.grows (stages_room hst hn hrb hl)
    obtain ⟨hmoved, -⟩ := prepareStage_cohort hb on.row length stage
    have hrow : p.core.repairs ri = some r := hmoved.repairs ▸ on.row
    exact hstage.trans (.setRepair hrow rfl)
  | @prepareRefused ri r o u res status p on length phase stage refused =>
    obtain ⟨done, rest, ms, hl, hrun, hms, hok⟩ := prepareStage_stages _ stage
    have hstage := hrun.grows (stages_room hst hn hrb hl)
    obtain ⟨hmoved, -⟩ := prepareStage_cohort hb on.row length stage
    have hrow : p.core.repairs ri = some r := hmoved.repairs ▸ on.row
    let row : Repair := { r with members := p.members, phase := .admitted }
    have hheld := hstage.trans (@Core.Grows.setRepair p.core ri r row hrow rfl)
    exact hheld.trans (@abortCohort_grows _ ri row _ (set_self _ ri row) rfl p.undo)
  | abortRepair u on => exact abortCohort_grows on.row rfl u
  | finalizeRepair on => exact .setRepair on.row rfl
  | @commitRepair ri r o u core on phase staged stage =>
    obtain ⟨hstage, hrep⟩ := commitStage_grows r.object r.members c u
    rw [stage] at hstage hrep
    have hrow : core.repairs ri = some r := hrep ▸ on.row
    have hset := @Core.Grows.setRepair core ri r { r with phase := .committed } hrow rfl
    exact { hstage.trans hset with }
  | clearError | unlock => exact { Core.Grows.refl c with }

lemma ControlChange.grows (hc : ControlChange c env core) : c.Grows core :=
  hc.closed .refl .trans (fun c ti _ _ => .modifyTxn c ti (fun _ => rfl) fun _ => rfl)
    (fun c ri _ => { Core.Grows.refl c with repair := .modify ri fun _ => rfl })
    (fun c _ => { Core.Grows.refl c with }) fun c _ ti _ => {
      Core.Grows.modifyTxn c ti (f := fun t => { t with phase := .rolledBack })
        (fun _ => rfl) fun _ => rfl with }

theorem Change.grows {ordinal : Nat} {cohort : Option UInt64} (hst : Stocked c n)
    (hnum : Numbered c n) (hn : n < maxReceipts) (hb : c.board.Inv) (hv : envelopeValidate env)
    (hc : Change c env ordinal cohort status core) : c.Grows core := by
  cases hc with
  | ordinary _ _ change => exact change.grows hst hnum hn
  | @repair op rb _ _ _ _ body _ change =>
    have hrb := validateRepair_of_envelope hv body
    exact change.grows hst hnum hn hb hrb
  | control _ _ change => exact change.grows

lemma controlLocked_grows (c : Core) (r : ControlRequest) : c.Grows (controlLocked c r).2 := by
  have hdone := controlLocked_done c r
  generalize (controlLocked c r).2 = core at hdone
  cases hdone with
  | quiet => exact { Core.Grows.refl c with }
  | @custody version i body row room spare =>
    exact { Core.Grows.refl c with custody := .push i rfl (counter_succ room) }
  | release body row =>
    exact { Core.Grows.refl c with
      version := .set Version.Later.refl (findById_some row).1 ⟨rfl, fun _ => rfl⟩ }

lemma Records.grows {c' : Core} {ans : MemberAnswer} (h : Records c ans c') (hc : c.Inv)
    (hst : Stocked c c.receipts.used) : c.Grows c' := by
  obtain @⟨_, _, _, _, _, core, _, valid, spare, _, _, change⟩ := h
  have hcore : c.Grows core := by
    rcases change with ⟨-, rfl⟩ | change
    · exact .refl _
    · exact change.grows hst hc.numbered (used_lt_of_spare (spare_some spare)) hc.board valid
  exact { hcore with }

end

/-! ## Along runs -/

lemma step_grows {w : World} (h : Reachable w) (e : Event) :
    w.store.core.Grows (step w e).store.core := by
  refine (step_effect h.inv e).elim (P := fun _ c => w.store.core.Grows c) h.inv ?_ ?_ ?_ ?_
  · exact .refl _
  · exact fun _ => { Core.Grows.refl _ with }
  · exact controlLocked_grows _
  · exact fun ans core hrec => hrec.grows h.inv.store.core h.stocked

theorem run_grows {w : World} (h : Reachable w) (es : List Event) :
    w.store.core.Grows (Machine.run step w es).store.core :=
  (Machine.run_invariant (I := fun w' => Reachable w' ∧ w.store.core.Grows w'.store.core)
    (fun _ e hw => ⟨hw.1.run [e], hw.2.trans (step_grows hw.1 e)⟩) ⟨h, .refl _⟩ es).2

end Reffs.D1
