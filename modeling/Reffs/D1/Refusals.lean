import Reffs.D1.Guarantees
import Reffs.D1.Pointers

/-!
# What a refusal leaves behind

A member that is refused for good leaves its receipt and its journal record, and as a rule nothing
else: what it did is taken back before the answer is recorded. Two refusals stay: a rollback that
finds no predecessor leaves a postcondition, and a `prepare_repair` that cannot stage a member
aborts its cohort (`Refused`). Even then what the store shows is as it was.
-/

namespace Reffs.D1

open ByteCodec SlotTable Table List RepairMember PrepareState Disposition

variable {env : Envelope UInt64} {ids : List UInt64} {txns : Table maxTxns Txn} {ti : Fin maxTxns}
    {t : Txn}
  {owners : List Owner} {exportUuid : Uuid} {s : ObjectSlot}
    {l : List (RepairEntry UInt64 × RepairMember)}
  {ms : List RepairMember} {n : Nat} {rb : RepairBatch UInt64} {status : Status}

/-! ## A cohort that is aborted -/

section

variable {c c' : Core}

/-- Transactions that none of `ids` names are as they were. -/
def OthersKept (ids : List UInt64) (txns txns' : Table maxTxns Txn) : Prop :=
  ∀ ti t, t.id ∉ ids → (txns' ti = some t ↔ txns ti = some t)

lemma OthersKept.trans {t₁ t₂ t₃ : Table maxTxns Txn} (h : OthersKept ids t₁ t₂)
    (h' : OthersKept ids t₂ t₃) : OthersKept ids t₁ t₃ :=
  fun ti t hid => (h' ti t hid).trans (h ti t hid)

lemma OthersKept.mono {ids' : List UInt64} {txns' : Table maxTxns Txn}
    (h : OthersKept ids txns txns') (hsub : ids ⊆ ids') : OthersKept ids' txns txns' :=
  fun ti t hid => h ti t fun hin => hid (hsub hin)

lemma OthersKept.set {t' : Txn} (ht : txns ti = some t) (hid : t'.id = t.id) :
    OthersKept [t.id] txns (txns.set ti t') := by
  intro tj u hu
  rw [mem_singleton] at hu
  rw [set_apply]
  split
  · grind
  · exact Iff.rfl

lemma OthersKept.clear (ht : txns ti = some t) : OthersKept [t.id] txns (txns.clear ti) := by
  intro tj u hu
  rw [mem_singleton] at hu
  rw [clear_apply]
  split
  · grind
  · exact Iff.rfl

def OwnerAssoc.unstamped (a : OwnerAssoc) : OwnerAssoc := { a with version := 0 }

/-- Associations are as they were, but for the version that those of `owners` name. -/
structure OwnersKept (owners : List Owner) (t t' : Table maxOwners OwnerAssoc) : Prop where
  rows : ∀ ai, (t' ai).map OwnerAssoc.unstamped = (t ai).map OwnerAssoc.unstamped
  others : ∀ ai a, a.owner ∉ owners → (t' ai = some a ↔ t ai = some a)

lemma OwnersKept.refl (owners : List Owner) (t : Table maxOwners OwnerAssoc) :
    OwnersKept owners t t := ⟨fun _ => rfl, fun _ _ _ => Iff.rfl⟩

lemma OwnersKept.trans {t₁ t₂ t₃ : Table maxOwners OwnerAssoc} (h : OwnersKept owners t₁ t₂)
    (h' : OwnersKept owners t₂ t₃) : OwnersKept owners t₁ t₃ :=
  ⟨fun ai => (h'.rows ai).trans (h.rows ai), fun ai a ha => (h'.others ai a ha).trans
    (h.others ai a ha)⟩

lemma OwnersKept.mono {owners' : List Owner} {t t' : Table maxOwners OwnerAssoc}
    (h : OwnersKept owners t t') (hsub : owners ⊆ owners') : OwnersKept owners' t t' :=
  ⟨h.rows, fun ai a ha => h.others ai a fun hin => ha (hsub hin)⟩

lemma stampOwner_kept (c : Core) (exportUuid : Uuid) {owner : Owner} (hin : owner ∈ owners) :
    OwnersKept owners c.owners (stampOwner c exportUuid owner) := by
  unfold stampOwner
  split
  · exact .refl _ _
  next ai assoc hfind =>
  obtain ⟨hrow, hname⟩ := findRow_some hfind
  rw [Bool.and_eq_true, beq_iff_eq, beq_iff_eq] at hname
  constructor
  · intro aj
    rw [set_apply]
    split
    · next hj => rw [hj, hrow]; rfl
    · rfl
  · grind

lemma Stages.others (h : Stages exportUuid s l c ms c') :
    OthersKept (l.map (·.2.txn)) c.txns c'.txns ∧
      OwnersKept (l.map (·.2.owner)) c.owners c'.owners := by
  have hall : ∀ {ids : List UInt64} {owners : List Owner}, l.map (·.2.txn) ⊆ ids →
      l.map (·.2.owner) ⊆ owners → OthersKept ids c.txns c'.txns ∧
        OwnersKept owners c.owners c'.owners := by
    induction h with
    | nil c => exact fun _ _ => ⟨fun _ _ _ => Iff.rfl, .refl _ _⟩
    | @cons e m l c c' ms vi ti t slot txn rest ih =>
      intro ids owners hids howners
      rw [map_cons, cons_subset] at hids howners
      obtain ⟨hrow, hid, -⟩ := findById_some txn
      obtain ⟨htxns, howned⟩ := ih hids.2 howners.2
      have hone : OthersKept ids c.txns (staged c exportUuid s e m vi ti t).txns := by
        refine OthersKept.mono (.set hrow ?_) ?_
        · rfl
        · rw [cons_subset, hid]
          exact ⟨hids.1, nil_subset _⟩
      exact ⟨hone.trans htxns, (stampOwner_kept c exportUuid howners.1).trans howned⟩
  exact hall (List.Subset.refl _) (List.Subset.refl _)

lemma dropMembers_others (s : ObjectSlot) (ms : List RepairMember) :
    ∀ (c : Core) (u : RepairUndo) {ids : List UInt64}, ms.map (·.txn) ⊆ ids →
      OthersKept ids c.txns (dropMembers s ms c u).1.txns ∧
        (dropMembers s ms c u).1.owners = c.owners := by
  induction ms with
  | nil => exact fun c u ids _ => ⟨fun _ _ _ => Iff.rfl, rfl⟩
  | cons m ms ih =>
    intro c u ids hids
    rw [map_cons, cons_subset] at hids
    let released : Core := { c with
      objects := modifyChunk c.objects s m.index fun ch => { ch with repair := none } }
    let dropped := memberDrop released m (u.noteChunk c.objects s m.index)
    obtain ⟨htxns, howners⟩ := ih dropped.1 dropped.2.2 hids.2
    refine ⟨OthersKept.trans ?_ htxns, howners⟩
    change OthersKept ids c.txns (dropFresh ((txnFind c m.txn).map Prod.fst) c.txns)
    cases hf : txnFind c m.txn with
    | none => exact fun _ _ _ => Iff.rfl
    | some p =>
      obtain ⟨hrow, hid, -⟩ := findById_some hf
      refine OthersKept.mono (.clear hrow) ?_
      rw [cons_subset, hid]
      exact ⟨hids.1, nil_subset _⟩

/-- `c'` is `c` with cohort `r` in slot `ri` aborted: its chunks are released, its transactions
dropped, and nothing else that a reader or another operation looks at has moved. -/
structure CohortAborted (c c' : Core) (ri : Fin maxRepairs) (r : Repair) : Prop where
  row : c.repairs ri = some r
  objects : objectKey c'.objects = objectKey c.objects
  chunks : chunkAt c'.objects = mapChunks (chunkAt c.objects) r.object (r.members.map (·.index))
    fun _ ch => { ch with repair := none }
  versions : c'.versions = c.versions
  txns : OthersKept (r.members.map (·.txn)) c.txns c'.txns
  owners : OwnersKept (r.members.map (·.owner)) c.owners c'.owners
  cohorts : c'.repairs = c.repairs.set ri { r with
    members := r.members.map RepairMember.dropped, phase := .aborted }
  rest : ∃ nextVersion, c' = { c with
    objects := c'.objects, txns := c'.txns, owners := c'.owners, repairs := c'.repairs
    nextVersion := nextVersion }

lemma Stages.dropped (h : Stages exportUuid s l c ms c') :
    ms.map dropped = (l.map Prod.snd).map dropped := by
  induction h with
  | nil => rfl
  | cons slot txn rest ih =>
    rw [map_cons, map_cons, map_cons, ih]
    rfl

/-- **A refused `prepare_repair` that stays has aborted its cohort**, and done nothing else. -/
theorem prepareRefused_aborted (hst : Stocked c n) (hun : c.Unstaged) (hn : n < maxReceipts)
    (hb : c.board.Inv) {a : Admission} {ri : Fin maxRepairs} {r : Repair} {o : Object}
    {u : RepairUndo} {res : EntryResult} {p : PrepareState} (hrb : validateRepair .prepareRepair rb)
    (on : OnCohort c env rb a ri r o) (length : r.members.length = rb.entries.length)
    (phase : r.phase = .admitted)
    (stage : prepareStage env.object.exportUuid r.object o 0 (rb.entries.zip r.members)
      ⟨c, u, res, []⟩ = (status, p)) :
    CohortAborted c (abortCohort (p.held ri r) ri { r with members := p.members } p.undo).1
      ri r := by
  have hs := (findRow_some on.object).1
  have hversions := prepareRefused_versions hst hun hn hb hrb on length phase stage
  obtain ⟨hmoved, hvec⟩ := prepareStage_cohort hb on.row length stage
  obtain ⟨done, rest, ms, hl, hrun, hms, -⟩ := prepareStage_stages _ stage
  have hmem : (done ++ rest).map Prod.snd = r.members := hl ▸ zip_members length
  have hdropped : p.members.map dropped = r.members.map dropped := by
    rw [← hmem, hms, nil_append, map_append, map_append, map_append, hrun.dropped]
  have hindex := map_index_of_vector hvec
  obtain ⟨versions, nextVersion, txns, owners, hcore⟩ := hrun.frame
  obtain ⟨txns', versions', -, he⟩ :=
    @abortCohort_spec (p.held ri r) { r with members := p.members }
    (prepared_repairTxns hb on.row hmoved.txns hvec) ri p.undo
  obtain ⟨hstaged, hstamped⟩ := hrun.others
  obtain ⟨hcleared, hunstamped⟩ :=
    dropMembers_others r.object p.members (p.held ri r) p.undo (List.Subset.refl _)
  have htxn : p.members.map (·.txn) = r.members.map (·.txn) := by
    have := congrArg (map fun v => v.2.2.2) hvec
    simpa [map_map, vector, Function.comp_def] using this
  have hsub :
      ∀ {α : Type} (f : RepairMember → α), done.map (fun em => f em.2) ⊆ r.members.map f := by grind
  refine ⟨on.row, ?_, ?_, hversions, ?_, ?_, ?_, nextVersion, ?_⟩
  · rw [he]
    dsimp only [held]
    rw [modifyChunks_key, hmoved.objects]
  · rw [he]
    dsimp only [held]
    rw [hmoved.objects, hindex]
    exact chunkAt_modifyChunks _ _ _ _ (by simp [hs]) (hb.cohort.nodup ri r on.row)
  · refine (hstaged.mono (hsub _)).trans ?_
    rw [← htxn]
    exact hcleared
  · have howners : (abortCohort (p.held ri r) ri { r with members := p.members } p.undo).1.owners =
        p.core.owners := hunstamped
    rw [howners]
    exact hstamped.mono (hsub _)
  · rw [he]
    dsimp only [held]
    rw [Table.set_set, hmoved.repairs, hdropped]
  · grind

end

/-! ## Refusals that are recorded -/

/-- What a refused member of `env` leaves of the state, its receipt apart: all of it, or a
postcondition more, or its own cohort aborted. -/
inductive Refused (c : Core) (env : Envelope UInt64) (status : UInt32) : Core → Prop where
  | unchanged : Refused c env status c
  | postcond {r : RollbackBatch UInt64} {pi : Fin maxPostconds} {p : Postcond}
      (body : env.body = .rollbackBatch r) (why : status = Status.noPredecessor.code)
      (slot : c.postconds pi = none) :
      Refused c env status { c with
        postconds := c.postconds.set pi p
        nextPostcond := c.nextPostcond + 1 }
  | aborted {rb : RepairBatch UInt64} {ri : Fin maxRepairs} {r : Repair} {c' : Core}
      (body : env.body = .repair .prepareRepair rb) (own : rb.cohort = some r.id)
      (only : CohortAborted c c' ri r) : Refused c env status c'

lemma validateRepair_cohort (h : validateRepair .prepareRepair rb) : rb.cohort.isSome := by
  unfold validateRepair at h
  simp only [Bool.and_eq_true] at h
  have hcohort := h.1.1.1.1.1.1.1.1.2
  rw [if_neg (by decide), Bool.and_eq_true, beq_iff_eq] at hcohort
  exact hcohort.1

lemma Change.refused {c core : Core} (hst : Stocked c n) (hun : c.Unstaged) (hn : n < maxReceipts)
    (hb : c.board.Inv) (hv : envelopeValidate env) {ordinal : Nat} {cohort : Option UInt64}
    (h : Change c env ordinal cohort status core) (hno : status ≠ .ok) :
    Refused c env status.code core := by
  cases h with
  | ordinary _ _ change =>
    cases change with
    | write | finalize | commit | rollback | rollbackCommitted => exact absurd rfl hno
    | postcond body slot =>
      obtain ⟨r, hbody⟩ := body
      exact .postcond hbody rfl (spare_some slot)
  | @repair op rb a _ _ _ body _ change =>
    have hrb := validateRepair_of_envelope hv body
    cases change with
    | markError | beginRepair | prepareRepair
    | abortRepair | finalizeRepair | commitRepair | clearError | unlock => exact absurd rfl hno
    | prepareRefused on length phase stage =>
      obtain ⟨id, hid⟩ := Option.isSome_iff_exists.mp (validateRepair_cohort hrb)
      exact .aborted body (hid.trans (congrArg some (on.named id hid).symm))
        (prepareRefused_aborted hst hun hn hb hrb on length phase stage)
  | control => exact absurd rfl hno

/-- **What one critical section leaves that answered a refusal for good**: everything but the count
of calls, or its receipt and its journal record and what `Refused` lists. -/
inductive RefusalLeft (s : Store) (call : Call) (s' : Store) : Prop where
  | nothing (core : s'.core = s.core) (harness : s'.harness = s.harness)
      (durable : s'.journal.durableBytes = s.journal.durableBytes)
      (lsn : s'.journal.nextLsn = s.journal.nextLsn)
  | recorded {r : Request} {out : Result} {slot : Fin maxReceipts} {receipt : Receipt} {core : Core}
      {type : RecordType} {body : Bytes} (running : call = .running r out)
      (refused : Refused s.core r.env receipt.result.entry.status core)
      (unused : s.core.receipts slot = none)
      (own : receipt.exportUuid = r.env.object.exportUuid ∧ receipt.key = r.env.key ∧
        receipt.ordinal = out.entries.length)
      (state : s'.core = { core with receipts := s.core.receipts.set slot receipt })
      (harness : s'.harness = s.harness)
      (durable : s'.journal.durableBytes = s.journal.durableBytes ++
        recordFrame s.core.uuid s.journal.nextLsn s.core.incarnation type body)
      (lsn : s'.journal.nextLsn = s.journal.nextLsn + 1)

lemma Journal.extended_durableBytes {j : Journal} (h : j.Settled) (type : RecordType)
    (body : Bytes) : (j.extended type body).durableBytes = j.durableBytes ++
      recordFrame j.storeUuid j.nextLsn j.incarnation type body := by
  rw [(j.extended_settled type body).durableBytes, h.durableBytes]
  rfl

lemma applyMember_refused {w : World} (h : Reachable w) {r : Request} (hr : r.Good) (out : Result)
    (hrefused : (applyMember w.store r.env r.bytes out.entries.length r.digest).1.disposition ≠
        unrecorded.code →
      (applyMember w.store r.env r.bytes out.entries.length r.digest).1.entry.status ≠
        Status.ok.code) :
    RefusalLeft w.store (.running r out)
      (applyMember w.store r.env r.bytes out.entries.length r.digest).2 := by
  have hs := h.inv.store
  rcases applyMember_cases hs.toReplays hr out.entries.length with ⟨complete, -, he⟩ | ⟨a, b, he⟩ |
    ⟨st, a, b, type, body, hst, -, -, he⟩
  · rw [he]
    exact .nothing rfl rfl rfl rfl
  · rw [he]
    exact .nothing rfl rfl rfl rfl
  · obtain ⟨red, hof⟩ := coreAttempt_staged hst
    have hslot := spare_some hof.slot
    have hn := used_lt_of_spare hslot
    have hcode : st.complete.entry.status = red.status.code := by rw [hof.complete]
    rw [he] at hrefused ⊢
    have hno : red.status ≠ .ok := by
      intro hok
      refine hrefused ?_ (hcode.trans (congrArg Status.code hok))
      rw [hof.complete]
      exact (by decide : completed.code ≠ unrecorded.code)
    have hcore : Refused w.store.core r.env st.complete.entry.status st.core := by
      rw [hcode]
      rcases hof.change hs.core.board hr.valid with ⟨-, hsame⟩ | hchange
      · rw [hsame]
        exact .unchanged
      · exact hchange.refused h.stocked h.pointers.toUnstaged hn hs.core.board hr.valid hno
    have hreceipts : st.core.receipts = w.store.core.receipts :=
      congrArg (·.2.2.2.2.2.2.2.2.1) (hof.ground hs.core.board hr.valid)
    have hquiet : st.published = [] := by
      rw [hof.published]
      exact (hof.lawful hs.core.board hr.valid).quiet hno
    let receipt : Receipt :=
      ⟨r.env.object.exportUuid, r.env.key, out.entries.length, r.digest, st.complete⟩
    have hown : receipt.exportUuid = r.env.object.exportUuid ∧ receipt.key = r.env.key ∧
        receipt.ordinal = out.entries.length := ⟨rfl, rfl, rfl⟩
    have hdurable : (w.store.journal.extended type body).durableBytes =
        w.store.journal.durableBytes ++ recordFrame w.store.core.uuid w.store.journal.nextLsn
          w.store.core.incarnation type body := by
      rw [Journal.extended_durableBytes hs.settled, hs.storeUuid, hs.incarnation]
    refine .recorded rfl hcore hslot hown ?_ ?_ hdurable rfl
    · unfold Staged.recorded
      dsimp only
      rw [hreceipts]
    · dsimp only
      rw [hquiet]
      rfl

/-- **A refusal that was answered for good leaves nothing but its receipt and its record**: the
tables, counters, epoch, pointers and index are those the member found. A rollback refused
`NO_PREDECESSOR` may leave a postcondition more, and a refused `prepare_repair` may have aborted the
cohort it names, in which case the chunks of that cohort lose their repair mark and nothing else,
the versions are those that were there, and no other row has moved. -/
theorem refused_leaves_receipt {w : World} (h : Reachable w) {id : Nat} {call : Call}
    (hcall : w.calls id = some call)
    (hrefused : ∃ e ∈ (callStep w.store call).2.entries.drop call.entries.length,
      e.disposition = Disposition.completed.code ∧ e.status ≠ Status.ok.code) :
    RefusalLeft w.store call (callStep w.store call).1 := by
  obtain ⟨e, hmem, -, hstatus⟩ := hrefused
  cases call with
  | done status out => exact .nothing rfl rfl rfl rfl
  | entered env bytes =>
    obtain ⟨n, hn⟩ := callCheck_store w.store env bytes
    change RefusalLeft _ _ (callCheck w.store env bytes).1
    rw [hn]
    exact .nothing rfl rfl rfl rfl
  | running r out =>
    obtain ⟨hgood, -, -⟩ := h.inv.calls id _ hcall
    obtain ⟨n, hn⟩ := callMember_store w.store r out
    -- a member that was recorded is answered by one entry, which is the refusal
    have hleft := applyMember_refused h hgood out fun hkept => by
      change e ∈ (callMember w.store r out).2.entries.drop out.entries.length at hmem
      rw [callMember_entries w.store r out hkept, drop_left, mem_singleton] at hmem
      exact hmem ▸ hstatus
    change RefusalLeft _ _ (callMember w.store r out).1
    rw [hn]
    cases hleft with
    | nothing core harness durable lsn => exact .nothing core harness durable lsn
    | recorded running refused unused own state harness durable lsn =>
      exact .recorded running refused unused own state harness durable lsn

/-- The first write of the small run is to be rolled back, and has no predecessor. -/
def refusingWorld : World :=
  let cl := smallClient
  Machine.run step writtenWorld
    ([.fixture (.custody (cl.handle .version 1))] ++ (callEvents 2 (cl.envelope 2 (.rollbackBatch
      ⟨0, 1, [⟨0, cl.owner 1, cl.handle .txn 1, some (cl.handle .version 1), none,
        some (cl.handle .custody 1)⟩]⟩))).dropLast)

lemma refusingWorld_reachable : Reachable refusingWorld := writtenWorld_reachable.run _

theorem refused_leaves_receipt_rollback : ∃ call, refusingWorld.calls 2 = some call ∧
    (callStep refusingWorld.store call).1.core.postconds 0 ≠ none ∧
    RefusalLeft refusingWorld.store call (callStep refusingWorld.store call).1 := by
  have hcall : (refusingWorld.calls 2).any (fun call =>
      ((callStep refusingWorld.store call).1.core.postconds 0).isSome &&
        ((callStep refusingWorld.store call).2.entries.drop call.entries.length).any fun e =>
          e.disposition == completed.code && e.status != Status.ok.code) := by
    decide +kernel
  obtain ⟨call, hc, hboth⟩ := (Option.any_eq_true _ _).mp hcall
  rw [Bool.and_eq_true] at hboth
  obtain ⟨e, he, hd⟩ := any_eq_true.mp hboth.2
  rw [Bool.and_eq_true, beq_iff_eq, bne_iff_ne] at hd
  exact ⟨call, hc, Option.isSome_iff_ne_none.mp hboth.1,
    refused_leaves_receipt refusingWorld_reachable hc ⟨e, he, hd⟩⟩

end Reffs.D1
