import Reffs.D1.Owners

/-!
# Where versions are pointed to from

A chunk points to its visible version, a staged transaction to the one it will make visible, a
repair member to its replacement, and a version to the one before it. Each of these pointers stays
at one place: whatever carries the number is a version of that chunk (`Pointers`). What new versions
a change makes is said once (`Change.versions`).
-/

namespace Reffs.D1

open ByteCodec SlotTable Table Option List

variable {ms : List RepairMember} {held : Core} {done : List (RepairEntry UInt64 × RepairMember)}
  {v : Version} {i : ChunkIndex} {o : Object} {ti : Fin maxTxns} {t : Txn} {w : World}

variable {s : ObjectSlot} {r : Repair} {env : Envelope UInt64} {ordinal n : Nat} {a : Admission}
  {rb : RepairBatch UInt64} {op : RepairOp} {ri : Fin maxRepairs} {status : Status}
    {cohort : Option UInt64}
  {core : Core} {b b' : Board} {k : Stock}

section

variable {c c' : Core}

/-! ## Versions made and dropped -/

/-- What staging does to the versions: none is lost, and each new one replaces what a member
captured. -/
structure Stages.Made (s : ObjectSlot) (l : List (RepairEntry UInt64 × RepairMember))
    (ms : List RepairMember) (c c' : Core) : Prop where
  kept : ∀ vi v, c.versions vi = some v → c'.versions vi = some v
  made : ∀ vi v, c'.versions vi = some v → c.versions vi = some v ∨
    (∃ m ∈ ms, m.version = v.id) ∧ ∃ em ∈ l, ∃ c₀, v = replacement c₀ s em.1 em.2
  fresh : ∀ m ∈ ms, c.nextVersion.toNat ≤ m.version.toNat
  row : ∀ m ∈ ms, ∃ vi v, c'.versions vi = some v ∧ v.id = m.version

lemma Stages.made {exportUuid : Uuid} {l : List (RepairEntry UInt64 × RepairMember)}
    (h : Stages exportUuid s l c ms c') (hroom : c.nextVersion.toNat + l.length < 2 ^ 64) :
    Stages.Made s l ms c c' := by
  induction h with
  | nil c =>
    exact ⟨fun _ _ hv => hv, fun _ _ hv => .inl hv, fun m hm => absurd hm not_mem_nil,
      fun m hm => absurd hm not_mem_nil⟩
  | @cons e m l c c' ms vi ti t slot txn rest ih =>
    rw [length_cons] at hroom
    have hsucc := counter_succ (ne_uint64Max (u := c.nextVersion) (by omega))
    have hnext : (staged c exportUuid s e m vi ti t).nextVersion.toNat = c.nextVersion.toNat + 1 :=
      hsucc
    obtain ⟨hkept, hmade, hfresh, hrow⟩ := ih (by omega)
    refine ⟨fun vj v hv => hkept vj v ?_, fun vj v hv => ?_, fun m' hm' => ?_, fun m' hm' => ?_⟩
    · refine (set_ne ?_).trans hv
      rintro rfl
      rw [slot] at hv
      cases hv
    · rcases hmade vj v hv with hold | ⟨⟨m', hm', hid⟩, em, hem, c₀, he⟩
      · have hold : c.versions.set vi (replacement c s e m) vj = some v := hold
        rw [set_apply] at hold
        split at hold
        · cases hold
          exact .inr ⟨⟨_, mem_cons_self, rfl⟩, (e, m), mem_cons_self, c, rfl⟩
        · exact .inl hold
      · grind
    · grind
    · rcases mem_cons.mp hm' with rfl | hm'
      · exact ⟨vi, _, hkept vi _ (set_self _ vi (replacement c s e m)), rfl⟩
      · exact hrow m' hm'

lemma dropMembers_versions (s : ObjectSlot) (ms : List RepairMember) :
    ∀ (c : Core) (u : RepairUndo), Table.KeyUnique Version.id c.versions →
      (∀ vi v, c.versions vi = some v → v.id ≠ 0) → ∀ vi v,
      (dropMembers s ms c u).1.versions vi = some v ↔
        c.versions vi = some v ∧ ∀ m ∈ ms, m.version ≠ v.id := by
  induction ms with
  | nil =>
    intro c u _ _ vi v
    exact ⟨fun hv => ⟨hv, fun m hm => absurd hm not_mem_nil⟩, fun hv => hv.1⟩
  | cons m ms ih =>
    intro c u hunique hlive vi v
    let released : Core := { c with
      objects := modifyChunk c.objects s m.index fun ch => { ch with repair := none } }
    let dropped := memberDrop released m (u.noteChunk c.objects s m.index)
    -- one member: the row with its number goes, if there is one
    have hone : ∀ vj v', dropped.1.versions vj = some v' ↔ c.versions vj = some v' ∧
        m.version ≠ v'.id := by
      intro vj v'
      change dropFresh ((versionFind c m.version).map Prod.fst) c.versions vj = some v' ↔ _
      cases hf : versionFind c m.version with
      | none =>
        refine ⟨fun hv => ⟨hv, fun he => ?_⟩, fun hv => hv.1⟩
        unfold versionFind findById at hf
        rw [if_neg (he ▸ hlive vj v' hv)] at hf
        have := findRow_none.mp hf vj v' hv
        simp [he] at this
      | some p =>
        obtain ⟨hrow, hid, -⟩ := findById_some hf
        change c.versions.clear p.1 vj = some v' ↔ _
        rw [clear_apply]
        split
        · grind
        · grind
    have hunique' : Table.KeyUnique Version.id dropped.1.versions := fun i j r r' hi hj he =>
      hunique i j r r' ((hone i r).mp hi).1 ((hone j r').mp hj).1 he
    have hrest := ih dropped.1 dropped.2.2 hunique'
      (fun vj v' hv => hlive vj v' ((hone vj v').mp hv).1) vi v
    change (dropMembers s ms dropped.1 dropped.2.2).1.versions vi = some v ↔ _
    rw [hrest, hone, forall_mem_cons, and_assoc]

/-- **A refused `prepare_repair` leaves the versions as they were**: what it staged it dropped. -/
theorem abortCohort_versions {reserved : ObjectSlot → ChunkIndex → Owner → Prop}
    {rest : List RepairMember} (hinv : c.stock.Inv) (hinv' : (held.stockWith reserved).Inv)
    (hmade : Stages.Made s done ms c held) (hzero : ∀ m ∈ rest, m.version = 0)
    (hr : r.members = ms ++ rest) (ri : Fin maxRepairs) (u : RepairUndo) :
    (abortCohort held ri r u).1.versions = c.versions := by
  funext vi
  refine ext fun v => ?_
  have hdrop : (abortCohort held ri r u).1.versions vi = some v ↔
      held.versions vi = some v ∧ ∀ m ∈ r.members, m.version ≠ v.id :=
    dropMembers_versions r.object r.members held u hinv'.number
      (fun vj v' hv => (hinv'.below vj v' hv).1) vi v
  rw [hdrop, hr]
  constructor
  · rintro ⟨hv, hnone⟩
    rcases hmade.made vi v hv with hold | ⟨⟨m, hm, hid⟩, -⟩
    · exact hold
    · exact absurd hid (hnone m (mem_append_left _ hm))
  · intro hv
    obtain ⟨hne, hlt⟩ := hinv.below vi v hv
    refine ⟨hmade.kept vi v hv, fun m hm he => ?_⟩
    rcases mem_append.mp hm with hm | hm
    · have := hmade.fresh m hm
      rw [he] at this
      exact absurd hlt (Nat.not_lt.mpr this)
    · exact hne (he.symm.trans (hzero m hm))

/-! ## What new versions a change makes -/

/-- A version a member of `env` makes: the payload of its entry, at the entry's chunk, over what was
visible there. -/
inductive MadeVersion (c : Core) (env : Envelope UInt64) (ordinal : Nat) (v : Version) : Prop where
  | written {w : WriteBatch} {e : WriteEntry} {a : Admission} (body : env.body = .writeBatch w)
      (entry : w.entries[ordinal]? = some e) (form : writeFormCheck c w e a = none)
      (index : v.index.val = e.index.toNat) (bytes : v.bytes = e.payload)
      (above : v.predecessor = (chunkAt c.objects v.object v.index).visible)
  | replaced {rb : RepairBatch UInt64} {e : RepairEntry UInt64} {p : RepairPayload}
      (body : env.body = .repair .prepareRepair rb) (entry : e ∈ rb.entries)
      (payload : e.payload = some p) (index : v.index.val = e.index.toNat)
      (bytes : v.bytes = p.payload)
      (above : v.predecessor = (chunkAt c.objects v.object v.index).visible)

lemma MadeVersion.above (h : MadeVersion c env ordinal v) :
    v.predecessor = (chunkAt c.objects v.object v.index).visible := by
  cases h with
  | written _ _ _ _ _ above => exact above
  | replaced _ _ _ _ _ above => exact above

/-- No member of an admitted cohort has a replacement. -/
def Core.Unstaged (c : Core) : Prop :=
  ∀ ri r m, c.repairs ri = some r → r.phase = .admitted → m ∈ r.members → m.version = 0

lemma chunkIndex_val {a : UInt64} (h : chunkIndex a = some i) : i.val = a.toNat := by
  unfold chunkIndex at h
  split at h
  · rw [← some.inj h]
  · cases h

lemma validateRepair_payload (h : validateRepair .prepareRepair rb) :
    ∀ e ∈ rb.entries, ∃ p, e.payload = some p ∧ 1 ≤ p.payload.length := by
  intro e he
  unfold validateRepair at h
  simp only [Bool.and_eq_true, List.all_eq_true] at h
  have hentry := h.1.2 e he
  unfold validateRepairEntry at hentry
  simp only [Bool.and_eq_true, beq_self_eq_true, beq_iff_eq] at hentry
  obtain ⟨p, hp⟩ := isSome_iff_exists.mp hentry.1.2
  refine ⟨p, hp, ?_⟩
  have hpay := hentry.2
  rw [hp, all_some, Bool.and_eq_true] at hpay
  unfold payloadOk at hpay
  simp only [Bool.and_eq_true, decide_eq_true_eq] at hpay
  exact hpay.1.1

lemma stages_room (hst : Stocked c n) (hn : n < maxReceipts) (hrb : validateRepair op rb)
    {rest : List (RepairEntry UInt64 × RepairMember)}
    (hl : rb.entries.zip r.members = done ++ rest) :
    c.nextVersion.toNat + done.length < 2 ^ 64 := by
  have hlen := congrArg length hl
  rw [length_zip, length_append] at hlen
  have := validateRepair_count hrb
  have := hst.room hn
  omega

lemma prepareRefused_versions (hst : Stocked c n) (hun : c.Unstaged) (hn : n < maxReceipts)
    (hb : c.board.Inv) (hrb : validateRepair .prepareRepair rb) (on : OnCohort c env rb a ri r o)
    (length : r.members.length = rb.entries.length) (phase : r.phase = .admitted) {u : RepairUndo}
    {res : EntryResult} {p : PrepareState}
    (stage : prepareStage env.object.exportUuid r.object o 0 (rb.entries.zip r.members)
      ⟨c, u, res, []⟩ = (status, p)) :
    (abortCohort (p.held ri r) ri { r with members := p.members } p.undo).1.versions =
      c.versions := by
  obtain ⟨done, rest, ms, hl, hrun, hms, hok⟩ := prepareStage_stages _ stage
  obtain ⟨reserved', hsteps, -⟩ := hrun.cohort hst hn hb on phase hl (zip_members length)
    ((length_zip ..).trans_le ((Nat.min_le_left _ _).trans (validateRepair_count hrb)))
  have hmade := hrun.made (stages_room hst hn hrb hl)
  have hrest : ∀ m ∈ rest.map Prod.snd, m.version = 0 := by
    intro m hm
    refine hun ri r m on.row phase ?_
    rw [← zip_members length, hl, map_append]
    exact mem_append_right _ hm
  have hheld : Stages.Made r.object done ms c (p.held ri r) :=
    ⟨hmade.kept, hmade.made, hmade.fresh, hmade.row⟩
  have hinv : ((p.held ri r).stockWith reserved').Inv := hsteps.inv hst.inv
  exact abortCohort_versions hst.inv hinv hheld hrest hms ri p.undo

/-- What an operation on a repair does to the versions and to the cohorts. -/
inductive RepairMoved (c core : Core) (rb : RepairBatch UInt64) (op : RepairOp) : Prop where
  | kept (versions : core.versions = c.versions) (repairs : core.repairs = c.repairs)
  | begun {ri : Fin maxRepairs} {r : Repair} (versions : core.versions = c.versions)
      (repairs : core.repairs = c.repairs.set ri r) (phase : r.phase = .admitted)
      (members : ∀ m ∈ r.members, m.version = 0)
  | prepared {ri : Fin maxRepairs} {r : Repair} {ms : List RepairMember}
      (row : c.repairs ri = some r)
      (phase : r.phase = .admitted) (asked : op = .prepareRepair)
      (named : ∀ em ∈ rb.entries.zip r.members, em.2.index.val = em.1.index.toNat)
      (made : Stages.Made r.object (rb.entries.zip r.members) ms c core)
      (places : ∀ m ∈ ms, core.stock.AtPlace m.version r.object m.index)
      (repairs : core.repairs = c.repairs.set ri { r with members := ms, phase := .prepared })
  | aborted {ri : Fin maxRepairs} {r : Repair} {l : List RepairMember} (row : c.repairs ri = some r)
      (still : r.Open) (versions : ∀ vi v, core.versions vi = some v ↔
        c.versions vi = some v ∧ ∀ m ∈ r.members, m.version ≠ v.id)
      (repairs : core.repairs = c.repairs.set ri { r with
        members := l.map RepairMember.dropped, phase := .aborted })
  | turned {ri : Fin maxRepairs} {r : Repair} {phase : Phase} (row : c.repairs ri = some r)
      (versions : core.versions = c.versions)
      (turn : r.phase = .prepared ∧ phase = .finalized ∨ r.phase = .finalized ∧ phase = .committed)
      (repairs : core.repairs = c.repairs.set ri { r with phase := phase })

lemma commitStage_kept (hb : c.board.Inv) (hr : c.repairs ri = some r) {u : RepairUndo}
    (stage : (commitStage r.object r.members c u).1 = core) :
    core.versions = c.versions ∧ core.repairs = c.repairs := by
  obtain ⟨version, hver⟩ := exists_byIndex (hb.cohort.nodup ri r hr) RepairMember.version
  obtain ⟨txns, -, he⟩ :=
    commitStage_spec r.object version r.members c u (hb.txn.repairTxns hr) hver
  rw [← stage, he]
  exact ⟨rfl, rfl⟩

lemma RepairChange.moved (hst : Stocked c n) (hun : c.Unstaged) (hnum : Numbered c n)
    (hn : n < maxReceipts) (hb : c.board.Inv) (hrb : validateRepair op rb)
    (hc : RepairChange c env rb a op cohort status core) : RepairMoved c core rb op := by
  cases hc with
  | markError | clearError | unlock => exact .kept rfl rfl
  | beginRepair object capturable unowned apart slot stage =>
    obtain ⟨-, -, -, -, -, hver⟩ := beginStage_stock rb.entries c.reserved
      (fun e he aj a ha => ownerFind_none (unowned e he) aj a ha) apart (objectFind_key object)
      stage
    have hbegun := beginStage_begun hnum hn hb (validateRepair_count hrb) stage
    refine .begun hver (by rw [hbegun.repairs]) rfl fun m hm => ?_
    obtain ⟨e, -, -, he⟩ := captured_mem hbegun.entries hm
    rw [he]
    rfl
  | @prepareRepair ri r o u res p on length named phase stage =>
    obtain ⟨done, rest, ms, hl, hrun, hms, hok⟩ := prepareStage_stages _ stage
    obtain rfl := hok rfl
    obtain ⟨reserved', -, -, -, hrepairs, hplaces⟩ :=
      hrun.cohort hst hn hb on phase hl (zip_members length)
      ((length_zip ..).trans_le ((Nat.min_le_left _ _).trans (validateRepair_count hrb)))
    have hmade := hrun.made (stages_room hst hn hrb hl)
    obtain rfl : done = rb.entries.zip r.members := by rw [hl, append_nil]
    obtain rfl : p.members = ms := by simpa using hms
    exact .prepared on.row phase rfl named ⟨hmade.kept, hmade.made, hmade.fresh, hmade.row⟩
      (fun m hm => ⟨(hplaces m hm).given, (hplaces m hm).place⟩) (by rw [hrepairs])
  | @prepareRefused ri r o u res status p on length phase stage refused =>
    obtain ⟨hmoved, hvec⟩ := prepareStage_cohort hb on.row length stage
    have hversions := prepareRefused_versions hst hun hn hb hrb on length phase stage
    obtain ⟨txns, versions, -, he⟩ :=
      @abortCohort_spec (p.held ri r) { r with members := p.members }
      (prepared_repairTxns hb on.row hmoved.txns hvec) ri p.undo
    have hset : ∀ x, (p.held ri r).repairs.set ri x = c.repairs.set ri x := by
      grind [Table.set_set, hmoved.repairs]
    refine .aborted (l := p.members) on.row (.inl phase) (fun vi v => ?_) ?_
    · -- nothing was staged before, and no version has number zero
      rw [hversions]
      refine ⟨fun hv => ⟨hv, fun m hm hid => (hst.inv.below vi v hv).1 ?_⟩, And.left⟩
      rw [← hid, hun ri r m on.row phase hm]
    · rw [he]
      exact hset _
  | @abortRepair ri r o u on phase =>
    have hopen : r.Open := by
      rcases hb.cohort.phase ri r on.row with hopen | hphase | hphase
      · exact hopen
      · exact absurd hphase phase.1
      · exact absurd hphase phase.2
    obtain ⟨txns, versions, -, he⟩ := abortCohort_spec (hb.txn.repairTxns on.row) ri u
    refine .aborted (l := r.members) on.row hopen (fun vi v => ?_) (by rw [he])
    exact dropMembers_versions r.object r.members c u hst.inv.number
      (fun vj v' hv => (hst.inv.below vj v' hv).1) vi v
  | finalizeRepair on phase => exact .turned on.row rfl (.inl ⟨phase, rfl⟩) rfl
  | commitRepair on phase staged stage =>
    obtain ⟨hversions, hrepairs⟩ := commitStage_kept hb on.row stage
    exact .turned on.row hversions (.inr ⟨phase, rfl⟩) (by rw [hrepairs])

lemma RepairMoved.made (ordinal : Nat) (hb : c.board.Inv) (body : env.body = .repair op rb)
    (hrb : validateRepair op rb) (h : RepairMoved c core rb op) :
    ∀ vi v, core.versions vi = some v → c.versions vi = some v ∨ MadeVersion c env ordinal v := by
  intro vi v hv
  cases h with
  | kept versions | begun versions | turned _ versions => exact .inl (versions ▸ hv)
  | aborted _ _ versions => exact .inl ((versions vi v).mp hv).1
  | prepared row phase asked named made =>
    subst asked
    refine (made.made vi v hv).imp_right ?_
    rintro ⟨-, em, hem, c₀, rfl⟩
    obtain ⟨he, hm⟩ := of_mem_zip hem
    obtain ⟨pay, hpay, -⟩ := validateRepair_payload hrb em.1 he
    refine .replaced body he hpay (named em hem) ?_ ?_
    · simp only [replacement, hpay, getD_some]
    · exact (hb.cohort.open_chunk row (.inl phase) hm).2.2.2.symm

theorem Change.versions (hst : Stocked c n) (hun : c.Unstaged) (hnum : Numbered c n)
    (hn : n < maxReceipts) (hb : c.board.Inv) (hv : envelopeValidate env)
    (hc : Change c env ordinal cohort status core) :
    ∀ vi v, core.versions vi = some v → c.versions vi = some v ∨ MadeVersion c env ordinal v := by
  cases hc with
  | ordinary _ _ change =>
    cases change with
    | @write w e s o fresh objects i guard ti vi ai activate body entry form unowned get index =>
      intro vj v hver
      dsimp only at hver
      rw [set_apply] at hver
      split at hver
      · cases hver
        obtain ⟨hsame, hs⟩ := chunkAt_objectGet get
        refine .inr (.written body entry form (chunkIndex_val index) rfl ?_)
        have hch : chunkAt c.objects s i = o.chunks i := by
          rw [← hsame]
          exact chunkAt_of hs i
        exact congrArg Chunk.visible hch.symm
      · exact .inl hver
    | finalize | commit | rollback | rollbackCommitted | postcond => exact fun vi v hv => .inl hv
  | @repair op rb _ _ _ _ body _ change =>
    have hrb := validateRepair_of_envelope hv body
    exact (change.moved hst hun hnum hn hb hrb).made ordinal hb body hrb
  | control _ _ change =>
    have hsame : core.versions = c.versions := congrArg Stock.versions change.stock
    rw [hsame]
    exact fun vi v hv => .inl hv

/-! ## Which pointers a change moves -/

/-- An operation on a repair switches visible pointers only when it commits a cohort, and then to
what the members of the cohort have staged. -/
lemma Board.Step.visible {act : Act} (h : b.Step act b') (hact : act ≠ .ordinary) (s : ObjectSlot)
    (i : ChunkIndex) : (b'.chunk s i).visible = (b.chunk s i).visible ∨
      ∃ id, act = .repair .commitRepair id ∧ ∃ ri r m, b.repairs ri = some r ∧ r.id = id ∧
        r.object = s ∧ m ∈ r.members ∧ m.index = i ∧ (b'.chunk s i).visible = some m.version ∧
        r.phase = .finalized ∧ b'.repairs = b.repairs.set ri { r with phase := .committed } := by
  cases h with
  | idle => exact .inl rfl
  | write | activate | finalize | commit | rollbackCommitted => exact absurd rfl hact
  | rollback => exact .inl (putChunk_field Chunk.visible (by rfl) s i)
  | markError | beginRepair
  | abortRepair | clearError | unlock =>
    exact .inl (mapChunks_field Chunk.visible (by intro _ _; rfl) _ _ s i)
  | prepareRepair => exact .inl rfl
  | finalizeRepair => exact .inl rfl
  | @commitRepair ri r txns version row phase staged =>
    by_cases hat : s = r.object ∧ i ∈ r.members.map (·.index)
    · obtain ⟨rfl, hi⟩ := hat
      obtain ⟨m, hm, rfl⟩ := mem_map.mp hi
      refine .inr ⟨r.id, rfl, ri, r, m, row, rfl, rfl, hm, rfl, ?_, phase, rfl⟩
      rw [← staged m hm]
      exact congrArg Chunk.visible (if_pos ⟨rfl, hi⟩)
    · exact .inl (congrArg Chunk.visible (if_neg hat))
  | handOver => exact .inl rfl

lemma Board.Moves.control_visible (h : Board.Moves .control b b') (s : ObjectSlot)
    (i : ChunkIndex) : (b'.chunk s i).visible = (b.chunk s i).visible := by
  induction h with
  | refl => rfl
  | tail _ hstep ih =>
    rcases hstep.visible nofun s i with hsame | ⟨id, hact, -⟩
    · exact hsame.trans ih
    · cases hact

lemma Board.Step.staged {id : UInt64} (h : b.Step (.repair op id) b') (ht : b'.txns ti = some t)
    (hstaged : t.Staged) : b.txns ti = some t := by
  cases h with
  | idle => exact ht
  | @rollback _ tj u row _ => grind
  | markError => exact ht
  | beginRepair slot fresh phase nodup free kept grown unique txn => grind
  | prepareRepair row phase same phase' ordinary rows
  | abortRepair _ _ _ _ _ _ _ _ ordinary
  | commitRepair _ _ _ _ ordinary => exact (ordinary ti t hstaged.1).mp ht
  | finalizeRepair => exact ht
  | clearError => exact ht
  | unlock => exact ht

/-- The staged transactions are among those before, with the versions and places they had. -/
def StagedKept (txns txns' : Table maxTxns Txn) : Prop :=
  ∀ ti t', txns' ti = some t' → t'.Staged → ∃ t, txns ti = some t ∧ t.Staged ∧
    t.version = t'.version ∧ t.object = t'.object ∧ t.index = t'.index

lemma StagedKept.refl (txns : Table maxTxns Txn) : StagedKept txns txns :=
  fun _ t ht hs => ⟨t, ht, hs, rfl, rfl, rfl⟩

lemma StagedKept.trans {t₁ t₂ t₃ : Table maxTxns Txn} (h : StagedKept t₁ t₂)
    (h' : StagedKept t₂ t₃) : StagedKept t₁ t₃ := by
  intro ti t ht hs
  obtain ⟨u, hu, hus, hversion, hobject, hindex⟩ := h' ti t ht hs
  obtain ⟨v, hv, hvs, hversion', hobject', hindex'⟩ := h ti u hu hus
  exact ⟨v, hv, hvs, hversion'.trans hversion, hobject'.trans hobject, hindex'.trans hindex⟩

lemma StagedKept.modify (txns : Table maxTxns Txn) (ti : Fin maxTxns) {f : Txn → Txn}
    (h : ∀ t, (f t).Staged → t.Staged)
    (hplace : ∀ t, (f t).version = t.version ∧ (f t).object = t.object ∧ (f t).index = t.index) :
    StagedKept txns (txns.modify ti f) := by
  intro tj t ht hs
  rw [modify_apply] at ht
  split at ht
  · obtain ⟨u, hu, rfl⟩ := map_eq_some_iff.mp ht
    obtain ⟨hversion, hobject, hindex⟩ := hplace u
    exact ⟨u, hu, h u hs, hversion.symm, hobject.symm, hindex.symm⟩
  · exact ⟨t, ht, hs, rfl, rfl, rfl⟩

lemma ControlChange.staged (hc : ControlChange c env core) : StagedKept c.txns core.txns := by
  refine hc.closed (R := fun c core => StagedKept c.txns core.txns) (fun c => .refl _) .trans
    (fun c ti _ _ => .modify _ ti (fun _ hs => hs) fun _ => ⟨rfl, rfl, rfl⟩) (fun c _ _ => .refl _)
    (fun c _ => .refl _) fun c _ ti _ => .modify _ ti (fun t hs => ?_) fun _ => ⟨rfl, rfl, rfl⟩
  rcases hs.2 with hp | hp <;> cases hp

/-! ## Every pointer finds its place -/

/-- A cohort whose members name versions at their places, and none before it is prepared. -/
structure Repair.Placed (r : Repair) (k : Stock) : Prop where
  place : ∀ m ∈ r.members, k.AtPlace m.version r.object m.index
  unstaged : r.phase = .admitted → ∀ m ∈ r.members, m.version = 0

/-- **Every number the store follows is that of a version at the place it is followed from.** -/
structure Pointers (c : Core) : Prop where
  visible : ∀ s i id, (chunkAt c.objects s i).visible = some id → c.stock.AtPlace id s i
  staged : ∀ ti t, c.txns ti = some t → t.Staged → c.stock.AtPlace t.version t.object t.index
  cohort : ∀ ri r, c.repairs ri = some r → r.Placed c.stock
  predecessor : ∀ vi v p, c.versions vi = some v → v.predecessor = some p →
    c.stock.AtPlace p v.object v.index

lemma Pointers.toUnstaged (h : Pointers c) : c.Unstaged :=
  fun ri r m hr hphase hm => (h.cohort ri r hr).unstaged hphase m hm

lemma Repair.Placed.grows {k' : Stock} (h : r.Placed k) (hg : k.Grows k') : r.Placed k' :=
  ⟨fun m hm => (h.place m hm).grows hg, h.unstaged⟩

lemma visible_setChunk {P : ObjectSlot → ChunkIndex → UInt64 → Prop}
    {objects : Table maxObjects Object} {ch : Chunk} (hs : objects s = some o)
    (hold : ∀ s i id, (chunkAt objects s i).visible = some id → P s i id)
    (hnew : ∀ id, ch.visible = some id → P s i id) :
    ∀ s' i' id, (chunkAt (setChunk objects s i ch) s' i').visible = some id → P s' i' id := by
  intro s' i' id hid
  rw [chunkAt_setChunk hs] at hid
  by_cases hat : s' = s ∧ i' = i
  · obtain ⟨rfl, rfl⟩ := hat
    rw [putChunk_self] at hid
    exact hnew id hid
  · rw [putChunk_ne hat] at hid
    exact hold s' i' id hid

lemma staged_set {P : Txn → Prop} {txns : Table maxTxns Txn}
    (hold : ∀ ti t, txns ti = some t → t.Staged → P t) (hnew : t.Staged → P t) :
    ∀ tj t', txns.set ti t tj = some t' → t'.Staged → P t' := by
  grind

/-- Every number that is followed to a version meets `P` at the place it is followed from, cohorts
apart. -/
structure Follows (c : Core) (P : UInt64 → ObjectSlot → ChunkIndex → Prop) : Prop where
  visible : ∀ s i id, (chunkAt c.objects s i).visible = some id → P id s i
  staged : ∀ ti t, c.txns ti = some t → t.Staged → P t.version t.object t.index
  predecessor : ∀ vi v p, c.versions vi = some v → v.predecessor = some p → P p v.object v.index

section

variable {P Q : UInt64 → ObjectSlot → ChunkIndex → Prop}

/-- What a change must do for the numbers that are followed afterwards: `Q` holds where `P` held, of
what was just made, and of what a commit of a cohort switches to; and `P` is of the place where a
version is, if of a place at all. -/
structure Carries (c core : Core) (P Q : UInt64 → ObjectSlot → ChunkIndex → Prop) : Prop where
  old : ∀ id s i, P id s i → Q id s i
  new : ∀ vi v, core.versions vi = some v → v.id = c.nextVersion → core.repairs = c.repairs →
    Q v.id v.object v.index
  switched : ∀ ri r m, c.repairs ri = some r → r.phase = .finalized → m ∈ r.members →
    core.versions = c.versions → core.repairs = c.repairs.set ri { r with phase := .committed } →
    Q m.version r.object m.index
  place : ∀ vi v s i p, c.versions vi = some v → P v.id s i → P p v.object v.index → P p s i

lemma OrdinaryChange.follows (hc : OrdinaryChange c env ordinal a status core) (h : Follows c P)
    (hq : Carries c core P Q) :
    (∀ s i id, (chunkAt core.objects s i).visible = some id → Q id s i) ∧
      ∀ ti t, core.txns ti = some t → t.Staged → Q t.version t.object t.index := by
  have hvisible : ∀ s i id, (chunkAt c.objects s i).visible = some id → Q id s i :=
    fun s i id hid => hq.old id s i (h.visible s i id hid)
  have hstaged : ∀ ti t, c.txns ti = some t → t.Staged → Q t.version t.object t.index :=
    fun ti t ht hs => hq.old _ _ _ (h.staged ti t ht hs)
  cases hc with
  | @write w e s o fresh objects i guard ti vi ai activate body entry form unowned get index check
      next txn version assoc =>
      obtain ⟨hsame, hs⟩ := chunkAt_objectGet get
      have hnew : Q c.nextVersion s i :=
        hq.new vi (writtenVersion c e s i (o.chunks i)) (set_self _ vi _) rfl rfl
      refine ⟨visible_setChunk hs (hsame ▸ hvisible) fun id hid => ?_,
        staged_set hstaged fun _ => hnew⟩
      unfold writtenChunk at hid
      split at hid
      · cases hid
        exact hnew
      · refine hvisible s i id ?_
        rw [← hsame, chunkAt_of hs]
        exact hid
  | finalize body row staged => grind
  | commit body row staged admission object version number =>
    have hplace := hstaged _ _ row staged
    refine ⟨visible_setChunk object hvisible fun id hid => ?_, staged_set hstaged fun _ => hplace⟩
    have hid : id = _ := (some.inj hid).symm.trans number
    rw [hid]
    exact hplace
  | rollback body entry found staged admission right object =>
    have hplace := hstaged _ _ (findById_some found).1 staged
    refine ⟨visible_setChunk object hvisible fun id hid => hvisible _ _ id ?_,
      staged_set hstaged fun _ => hplace⟩
    rw [chunkAt_of object]
    exact hid
  | @rollbackCommitted r e ti t o vi pi ver pred body entry found phase right object
      writable pending
      visible version number predecessor pointer =>
      refine ⟨visible_setChunk object hvisible fun id hid => ?_, staged_set hstaged fun hs => ?_⟩
      · -- what was visible is a version of this place, and so is what it came after
        cases hid
        have hnow : P ver.id t.object t.index := by
          refine h.visible _ _ _ ?_
          rw [chunkAt_of object, visible, number]
        exact hq.old _ _ _
          (hq.place vi ver _ _ _ version hnow (h.predecessor vi ver pred.id version pointer))
      · rcases hs.2 with hphase | hphase <;> cases hphase
  | postcond => exact ⟨hvisible, hstaged⟩

/-- **What is followed after a change was followed before it, or is newly made.** -/
theorem Change.follows (hst : Stocked c n) (hun : c.Unstaged) (hnum : Numbered c n)
    (hn : n < maxReceipts)
    (hb : c.board.Inv) (hv : envelopeValidate env) (hc : Change c env ordinal cohort status core)
    (h : Follows c P) (hq : Carries c core P Q) : Follows core Q := by
  have hpred : ∀ vi v p, core.versions vi = some v → v.predecessor = some p →
      Q p v.object v.index := by
    intro vi v p hver hpred
    rcases hc.versions hst hun hnum hn hb hv vi v hver with hold | hmade
    · exact hq.old _ _ _ (h.predecessor vi v p hold hpred)
    · -- what a version was made over was visible then
      exact hq.old _ _ _ (h.visible _ _ p (hmade.above.symm.trans hpred))
  cases hc with
  | ordinary _ _ change =>
    obtain ⟨hvisible, hstaged⟩ := change.follows h hq
    exact ⟨hvisible, hstaged, hpred⟩
  | @repair op rb _ _ _ _ body _ change =>
    obtain ⟨hstep, -⟩ := change.sound hnum hn hb (validateRepair_of_envelope hv body)
    refine ⟨fun s i id hid => ?_, fun ti t ht hs =>
      hq.old _ _ _ (h.staged ti t (hstep.staged ht hs) hs), hpred⟩
    rcases hstep.visible nofun s i with hsame | ⟨_, hact, ri, r, m, hr, -, rfl, hm, rfl, hswitched,
      hphase, hrep⟩
    · exact hq.old _ _ _ (h.visible s i id (hsame ▸ hid))
    · obtain rfl : m.version = id := some.inj (hswitched.symm.trans hid)
      refine hq.switched ri r m hr hphase hm ?_ hrep
      -- only `commit_repair` switches, and it leaves the versions alone
      cases change with
      | commitRepair on phase staged stage => exact (commitStage_kept hb on.row stage).1
      | _ => cases hact
  | control _ _ change =>
    obtain ⟨hmoves, -⟩ := change.sound hnum hv
    refine ⟨fun s i id hid => hq.old _ _ _ (h.visible s i id ?_), fun ti t' ht' hs' => ?_, hpred⟩
    · rw [← hid]
      exact (hmoves.control_visible s i).symm
    · obtain ⟨t, ht, hs, hversion, hobject, hindex⟩ := change.staged ti t' ht' hs'
      rw [← hversion, ← hobject, ← hindex]
      exact hq.old _ _ _ (h.staged ti t ht hs)

end

lemma Pointers.follows (h : Pointers c) : Follows c c.stock.AtPlace :=
  ⟨h.visible, h.staged, h.predecessor⟩

lemma placed_set {repairs : Table maxRepairs Repair}
    (hold : ∀ rj r', repairs rj = some r' → r'.Placed k) (hnew : r.Placed k) :
    ∀ rj r', repairs.set ri r rj = some r' → r'.Placed k := by
  grind

lemma dropped_placed (hinv : k.Inv) (r : Repair) (ms : List RepairMember) :
    Repair.Placed { r with members := ms.map RepairMember.dropped, phase := .aborted } k := by
  refine ⟨fun m hm => ?_, fun hphase => nomatch hphase⟩
  obtain ⟨m', -, rfl⟩ := mem_map.mp hm
  exact hinv.atPlace_zero _ _

lemma RepairMoved.cohorts (h : RepairMoved c core rb op) (hp : Pointers c) (hinv : core.stock.Inv)
    (hg : c.stock.Grows core.stock) : ∀ ri r, core.repairs ri = some r → r.Placed core.stock := by
  have hold : ∀ ri r, c.repairs ri = some r → r.Placed core.stock :=
    fun ri r hr => (hp.cohort ri r hr).grows hg
  cases h with
  | kept _ repairs =>
    rw [repairs]
    exact hold
  | begun _ repairs phase members =>
    rw [repairs]
    refine placed_set hold ⟨fun m hm => ?_, fun _ => members⟩
    rw [members m hm]
    exact hinv.atPlace_zero _ _
  | prepared row phase asked named made places repairs =>
    rw [repairs]
    exact placed_set hold ⟨places, fun hphase => nomatch hphase⟩
  | aborted row still versions repairs =>
    rw [repairs]
    exact placed_set hold (dropped_placed hinv _ _)
  | turned row versions turn repairs =>
    rw [repairs]
    refine placed_set hold ⟨(hold _ _ row).place, fun hphase => ?_⟩
    rcases turn with ⟨-, rfl⟩ | ⟨-, rfl⟩ <;> cases hphase

lemma ControlChange.cohort_row (hc : ControlChange c env core) (hr : core.repairs ri = some r) :
    ∃ q, c.repairs ri = some q ∧ q.unmoved = r.unmoved := by
  have hrow := hc.closed (R := fun c core =>
      ∀ ri, (core.repairs ri).map Repair.unmoved = (c.repairs ri).map Repair.unmoved)
    (fun _ _ => rfl) (fun h h' ri => (h' ri).trans (h ri)) (fun _ _ _ _ _ => rfl)
    (fun c ri fresh => (HandedOver.cohort c ri fresh).cohorts) (fun _ _ _ => rfl)
      (fun _ _ _ _ _ => rfl) ri
  rw [hr] at hrow
  exact map_eq_some_iff.mp hrow.symm

lemma ControlChange.cohorts (hc : ControlChange c env core) (hp : Pointers c) :
    ∀ ri r, core.repairs ri = some r → r.Placed core.stock := by
  intro ri r hr
  obtain ⟨q, hq, he⟩ := hc.cohort_row hr
  obtain ⟨-, hobject, -, hphase, hmembers⟩ := Repair.mk.inj he
  have hplaced := hp.cohort ri q hq
  have hstock : core.stock = c.stock := hc.stock
  rw [hstock]
  exact ⟨by rw [← hobject, ← hmembers]; exact hplaced.place,
    by rw [← hphase, ← hmembers]; exact hplaced.unstaged⟩

theorem Change.pointers (hp : Pointers c) (hst : Stocked c n) (hnum : Numbered c n)
    (hn : n < maxReceipts)
    (hb : c.board.Inv) (hv : envelopeValidate env) (hc : Change c env ordinal cohort status core) :
    Pointers core := by
  have hmove := hc.stock hst hnum hn hb hv
  have hg := hmove.steps.grows
  have hinv := hmove.steps.inv hst.inv
  obtain ⟨hvisible, hstaged, hpred⟩ := hc.follows hst hp.toUnstaged hnum hn hb hv hp.follows
    (Q := core.stock.AtPlace)
    { old := fun id s i h => h.grows hg
      new := fun vi v hv _ _ => hinv.atPlace hv
      switched := fun ri r m hr _ hm _ _ => ((hp.cohort ri r hr).place m hm).grows hg
      place := fun vi v s i p hv h hbefore => by
        obtain ⟨rfl, rfl⟩ := h.place vi v hv rfl
        exact hbefore }
  refine ⟨hvisible, hstaged, ?_, hpred⟩
  cases hc with
  | ordinary _ _ change =>
    have hrepairs : core.repairs = c.repairs := by cases change <;> rfl
    rw [hrepairs]
    exact fun ri r hr => (hp.cohort ri r hr).grows hg
  | repair body _ change =>
    exact (change.moved hst hp.toUnstaged hnum hn hb (validateRepair_of_envelope hv body)).cohorts
      hp hinv hg
  | control _ _ change => exact change.cohorts hp

/-! ## Along runs -/

lemma controlLocked_versions (hinv : c.stock.Inv) (r : ControlRequest) {vi : Fin maxVersions}
    (hv : (controlLocked c r).2.versions vi = some v) :
    ∃ u, c.versions vi = some u ∧ u.fixed = v.fixed := by
  obtain ⟨hsteps, hnext⟩ := controlLocked_stock c r
  rcases hsteps.grows.version vi v hv with hold | hge
  · exact hold
  · have hbelow := ((hsteps.inv hinv).below vi v hv).2
    have hnext : (controlLocked c r).2.stock.nextVersion = c.stock.nextVersion := hnext
    rw [hnext] at hbelow
    exact absurd hbelow (Nat.not_lt.mpr hge)

lemma controlLocked_follows {P Q : UInt64 → ObjectSlot → ChunkIndex → Prop} (h : Follows c P)
    (hinv : c.stock.Inv) (r : ControlRequest) (hq : ∀ id s i, P id s i → Q id s i) :
    Follows (controlLocked c r).2 Q := by
  obtain ⟨_, _, _, _, _, _, hframe⟩ := controlLocked_frame c r
  refine ⟨?_, ?_, fun vi v p hv hpred => ?_⟩
  · rw [show (controlLocked c r).2.objects = c.objects by rw [hframe]]
    exact fun s i id hid => hq _ _ _ (h.visible s i id hid)
  · rw [show (controlLocked c r).2.txns = c.txns by rw [hframe]]
    exact fun ti t ht hs => hq _ _ _ (h.staged ti t ht hs)
  · obtain ⟨u, hu, hf⟩ := controlLocked_versions hinv r hv
    obtain ⟨-, hobject, hindex, -, -, hpredecessor⟩ := Version.of_fixed hf
    rw [← hobject, ← hindex]
    exact hq _ _ _ (h.predecessor vi u p hu (hpredecessor.trans hpred))

lemma controlLocked_pointers (hp : Pointers c) (hinv : c.stock.Inv) (r : ControlRequest) :
    Pointers (controlLocked c r).2 := by
  have hg := (controlLocked_stock c r).1.grows
  obtain ⟨_, _, _, _, _, _, hframe⟩ := controlLocked_frame c r
  obtain ⟨hvisible, hstaged, hpred⟩ :=
    controlLocked_follows hp.follows hinv r fun id s i h => h.grows hg
  refine ⟨hvisible, hstaged, ?_, hpred⟩
  rw [show (controlLocked c r).2.repairs = c.repairs by rw [hframe]]
  exact fun ri r' hr' => (hp.cohort ri r' hr').grows hg

lemma Pointers.receipts (hp : Pointers c) (receipts : Table maxReceipts Receipt) :
    Pointers { c with receipts := receipts } :=
  ⟨fun s i id hid => ⟨(hp.visible s i id hid).given, (hp.visible s i id hid).place⟩,
    fun ti t ht hs => ⟨(hp.staged ti t ht hs).given, (hp.staged ti t ht hs).place⟩,
    fun ri r hr => ⟨(hp.cohort ri r hr).place, (hp.cohort ri r hr).unstaged⟩,
    fun vi v p hv h => ⟨(hp.predecessor vi v p hv h).given, (hp.predecessor vi v p hv h).place⟩⟩

lemma Records.pointers {ans : MemberAnswer} (h : Records c ans c') (hc : c.Inv)
    (hst : Stocked c c.receipts.used) (hp : Pointers c) : Pointers c' := by
  obtain @⟨_, _, _, _, _, core, _, valid, spare, _, _, change⟩ := h
  refine Pointers.receipts ?_ _
  rcases change with ⟨-, rfl⟩ | change
  · exact hp
  · exact change.pointers hp hst hc.numbered (used_lt_of_spare (spare_some spare)) hc.board valid

end

lemma step_pointers (h : w.Inv) (hst : Stocked w.store.core w.store.core.receipts.used)
    (hp : Pointers w.store.core) (e : Event) : Pointers (step w e).store.core := by
  refine (step_effect h e).elim (P := fun _ c => Pointers c) h hp ?_ ?_ ?_
  · exact fun _ => { hp with }
  · exact fun r => controlLocked_pointers hp hst.inv r
  · exact fun ans core hrec => hrec.pointers h.store.core hst hp

lemma Core.Empty.follows {c : Core} (h : c.Empty) (P : UInt64 → ObjectSlot → ChunkIndex → Prop) :
    Follows c P := by
  obtain ⟨hobjects, htxns, hversions, -⟩ := h
  constructor
  · rw [hobjects]
    exact fun _ _ _ h => nomatch h
  · rw [htxns]
    exact fun _ _ h => nomatch h
  · rw [hversions]
    exact fun _ _ _ h => nomatch h

lemma Core.Empty.pointers {c : Core} (h : c.Empty) : Pointers c := by
  obtain ⟨hvisible, hstaged, hpred⟩ := h.follows c.stock.AtPlace
  obtain ⟨-, -, -, -, -, -, hrepairs, -⟩ := h
  refine ⟨hvisible, hstaged, ?_, hpred⟩
  rw [hrepairs]
  exact fun _ _ h => nomatch h

lemma Reachable.pointers (h : Reachable w) : Pointers w.store.core :=
  h.induct (fun hopen => (coreOpen_empty hopen).pointers) fun hw hp =>
    step_pointers hw.inv hw.stocked hp _

end Reffs.D1
