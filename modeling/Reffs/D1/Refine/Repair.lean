import Reffs.D1.Change.Repair
import Reffs.D1.Refine.Ordinary

/-!
# The repair operations move the board

The loops of a repair operation walk its vector of chunks. What a loop does to the chunks is one map
over their indexes (`modifyChunks`), and what it does to the transactions touches repair
transactions only (`TxnsMoved`); the operation is then one move of the board.
-/

namespace Reffs.D1

open SlotTable Table Option List RepairMember Reffs.D1.Core UInt64

variable {i : ChunkIndex} {txns : Table maxTxns Txn} {ti : Fin maxTxns} {t : Txn}
    {ms : List RepairMember}
  {m : RepairMember} {core : Core} {u : RepairUndo} {p q : PrepareState} {rb : RepairBatch UInt64}
  {es : List (RepairEntry UInt64)} {e : RepairEntry UInt64} {b b' : BeginState}
    {env : Envelope UInt64}
  {id : UInt64}

/-! ## Chunk loops -/

def modifyChunks (objects : Table maxObjects Object) (s : ObjectSlot) (l : List ChunkIndex)
    (f : ChunkIndex → Chunk → Chunk) : Table maxObjects Object :=
  l.foldl (fun objects i => modifyChunk objects s i (f i)) objects

lemma modifyChunk_isSome {objects : Table maxObjects Object} {s : ObjectSlot} (i : ChunkIndex)
    (f : Chunk → Chunk) (h : (objects s).isSome) : (modifyChunk objects s i f s).isSome := by
  rwa [modifyChunk, modify_apply, if_pos rfl, isSome_map]

lemma mapChunks_cons {chunk : ObjectSlot → ChunkIndex → Chunk} (s : ObjectSlot)
    {l : List ChunkIndex} (f : ChunkIndex → Chunk → Chunk) (h : i ∉ l) :
    mapChunks (putChunk chunk s i (f i (chunk s i))) s l f = mapChunks chunk s (i :: l) f := by
  grind

lemma chunkAt_modifyChunks (s : ObjectSlot) (f : ChunkIndex → Chunk → Chunk) :
    ∀ (l : List ChunkIndex) (objects : Table maxObjects Object), (objects s).isSome → l.Nodup →
      chunkAt (modifyChunks objects s l f) = mapChunks (chunkAt objects) s l f := by
  intro l
  induction l with
  | nil =>
    intro objects _ _
    funext s' i'
    simp [modifyChunks, mapChunks]
  | cons i l ih =>
    intro objects hs hl
    obtain ⟨o, ho⟩ := isSome_iff_exists.mp hs
    rw [nodup_cons] at hl
    have := ih _ (modifyChunk_isSome i (f i) hs) hl.2
    rw [chunkAt_modifyChunk ho, mapChunks_cons s f hl.1] at this
    exact this

lemma changeChunks_eq (s : ObjectSlot) (f : Chunk → Chunk) (ms : List RepairMember) :
    ∀ (objects : Table maxObjects Object) (u : RepairUndo),
      (changeChunks s f ms objects u).1 = modifyChunks objects s (ms.map (·.index)) fun _ => f := by
  induction ms with
  | nil => intro objects u; rfl
  | cons m ms ih => intro objects u; exact ih _ _

lemma exists_byIndex {α κ : Type} [DecidableEq κ] {l : List α} {k : α → κ}
    (h : (l.map k).Nodup) (v : α → UInt64) : ∃ g : κ → UInt64, ∀ x ∈ l, g (k x) = v x := by
  induction l with
  | nil => exact ⟨fun _ => 0, fun _ hx => absurd hx not_mem_nil⟩
  | cons a l ih =>
    rw [map_cons, nodup_cons] at h
    obtain ⟨g, hg⟩ := ih h.2
    refine ⟨Function.update g (k a) (v a), fun x hx => ?_⟩
    rcases mem_cons.mp hx with rfl | hx
    · exact Function.update_self ..
    · grind

/-! ## Transaction loops -/

/-- Only repair transactions moved, and those that remain kept their numbers. -/
structure TxnsMoved (txns txns' : Table maxTxns Txn) : Prop where
  ordinary : OrdinaryKept txns txns'
  rows : RowsKept txns txns'

/-- The numbers the members of a vector carry are repair transactions'. -/
def RepairTxns (txns : Table maxTxns Txn) (ms : List RepairMember) : Prop :=
  ∀ m ∈ ms, ∀ ti t, txns ti = some t → t.id = m.txn → t.mode = .repair

lemma TxnsMoved.refl (txns : Table maxTxns Txn) : TxnsMoved txns txns :=
  ⟨fun _ _ _ => Iff.rfl, fun _ t ht => ⟨t, ht, rfl, rfl⟩⟩

lemma TxnsMoved.trans {t₁ t₂ t₃ : Table maxTxns Txn} (h : TxnsMoved t₁ t₂) (h' : TxnsMoved t₂ t₃) :
    TxnsMoved t₁ t₃ := by
  refine ⟨fun ti t hm => (h'.ordinary ti t hm).trans (h.ordinary ti t hm), fun ti t ht => ?_⟩
  obtain ⟨u, hu, hid, hmode⟩ := h'.rows ti t ht
  obtain ⟨v, hv, hid', hmode'⟩ := h.rows ti u hu
  exact ⟨v, hv, hid'.trans hid, hmode'.trans hmode⟩

lemma TxnsMoved.set {t' : Txn} (ht : txns ti = some t) (hmode : t.mode = .repair)
    (hid : t.id = t'.id) (hmode' : t.mode = t'.mode) : TxnsMoved txns (txns.set ti t') := by
  refine ⟨fun tj u hu => ?_, txnSet_rowsKept ht hid hmode'⟩
  rw [set_apply]
  split
  · grind
  · exact Iff.rfl

lemma TxnsMoved.clear (ht : txns ti = some t) (hmode : t.mode = .repair) :
    TxnsMoved txns (txns.clear ti) := by
  refine ⟨fun tj u hu => ?_, fun tj u hu => ?_⟩
  · grind
  · grind

lemma RepairTxns.moved {txns' : Table maxTxns Txn} (h : RepairTxns txns ms)
    (hmoved : TxnsMoved txns txns') : RepairTxns txns' ms := by
  intro m hm ti t ht he
  obtain ⟨u, hu, hid, hmode⟩ := hmoved.rows ti t ht
  rw [← hmode]
  exact h m hm ti u hu (hid.trans he)

lemma RepairTxns.tail (h : RepairTxns txns (m :: ms)) : RepairTxns txns ms :=
  fun m' hm' => h m' (mem_cons_of_mem m hm')

lemma RepairTxns.head {c : Core} (h : RepairTxns c.txns (m :: ms))
    (ht : txnFind c m.txn = some (ti, t)) : c.txns ti = some t ∧ t.mode = .repair := by
  obtain ⟨hrow, hid, -⟩ := findById_some ht
  exact ⟨hrow, h m mem_cons_self ti t hrow hid⟩

lemma Board.TxnInv.repairTxns {c : Core} (h : c.board.TxnInv) {ri : Fin maxRepairs} {r : Repair}
    (hr : c.repairs ri = some r) : RepairTxns c.txns r.members :=
  fun m hm ti t ht he => h.member ri r m ti t hr hm ht he

lemma commitStage_spec (s : ObjectSlot) (version : ChunkIndex → UInt64) (ms : List RepairMember) :
    ∀ (c : Core) (u : RepairUndo), RepairTxns c.txns ms → (∀ m ∈ ms, version m.index = m.version) →
      ∃ txns, TxnsMoved c.txns txns ∧ (commitStage s ms c u).1 = { c with
        objects := modifyChunks c.objects s (ms.map (·.index)) fun i ch =>
          { ch with visible := some (version i), repairLocked := true }
        txns := txns } := by
  induction ms with
  | nil => intro c u _ _; exact ⟨c.txns, .refl _, rfl⟩
  | cons m ms ih =>
    intro c u hrep hver
    unfold commitStage
    rw [← hver m mem_cons_self]
    dsimp only
    let objects := modifyChunk c.objects s m.index fun ch =>
      { ch with visible := some (version m.index), repairLocked := true }
    have hver' : ∀ m' ∈ ms, version m'.index = m'.version := fun m' hm' =>
      hver m' (mem_cons_of_mem m hm')
    split
    · exact ih { c with objects := objects } _ hrep.tail hver'
    · next ti t ht =>
      obtain ⟨hrow, hmode⟩ := hrep.head ht
      have hset : TxnsMoved c.txns (c.txns.set ti { t with phase := .committed }) := by
        refine .set hrow hmode ?_ ?_ <;> rfl
      have hrep' := hrep.tail.moved hset
      obtain ⟨txns, hmoved, he⟩ := ih { c with
        objects := objects
        txns := c.txns.set ti { t with phase := .committed } } _ hrep' hver'
      exact ⟨txns, hset.trans hmoved, he⟩

lemma memberDrop_spec {c : Core} (h : RepairTxns c.txns (m :: ms)) (u : RepairUndo) :
    ∃ txns versions, TxnsMoved c.txns txns ∧
      (memberDrop c m u).1 = { c with txns := txns, versions := versions } := by
  refine ⟨_, _, ?_, rfl⟩
  cases ht : txnFind c m.txn with
  | none => exact .refl _
  | some p =>
    obtain ⟨hrow, hmode⟩ := h.head ht
    exact .clear hrow hmode

def RepairMember.dropped (m : RepairMember) : RepairMember :=
  { m with staged := false, version := 0, txn := 0 }

lemma dropMembers_spec (s : ObjectSlot) (ms : List RepairMember) :
    ∀ (c : Core) (u : RepairUndo), RepairTxns c.txns ms →
      (∃ txns versions, TxnsMoved c.txns txns ∧ (dropMembers s ms c u).1 = { c with
        objects := modifyChunks c.objects s (ms.map (·.index)) fun _ ch =>
          { ch with repair := none }
        txns := txns
        versions := versions }) ∧
      (dropMembers s ms c u).2.1 = ms.map dropped := by
  induction ms with
  | nil => intro c u _; exact ⟨⟨c.txns, c.versions, .refl _, rfl⟩, rfl⟩
  | cons m ms ih =>
    intro c u hrep
    have hrep' : RepairTxns ({ c with objects := modifyChunk c.objects s m.index fun ch =>
      { ch with repair := none } } : Core).txns (m :: ms) := hrep
    obtain ⟨txns, versions, hmoved, hdrop⟩ :=
      memberDrop_spec hrep' (u.noteChunk c.objects s m.index)
    have htail : RepairTxns txns ms := hrep.tail.moved hmoved
    obtain ⟨⟨txns', versions', hmoved', he⟩, hms⟩ := ih { c with
      objects := modifyChunk c.objects s m.index fun ch => { ch with repair := none }
      txns := txns
      versions := versions } _ htail
    refine ⟨⟨txns', versions', hmoved.trans hmoved', ?_⟩, ?_⟩
    · simp only [dropMembers]
      rw [hdrop, he]
      rfl
    · simp only [dropMembers, map_cons]
      rw [hdrop, hms]
      rfl

lemma abortCohort_spec {c : Core} {cohort : Repair} (h : RepairTxns c.txns cohort.members)
    (ri : Fin maxRepairs) (u : RepairUndo) :
    ∃ txns versions, TxnsMoved c.txns txns ∧ (abortCohort c ri cohort u).1 = { c with
      objects := modifyChunks c.objects cohort.object (cohort.members.map (·.index)) fun _ ch =>
        { ch with repair := none }
      txns := txns
      versions := versions
      repairs := c.repairs.set ri { cohort with
        members := cohort.members.map dropped
        phase := .aborted } } := by
  obtain ⟨⟨txns, versions, hmoved, he⟩, hms⟩ := dropMembers_spec cohort.object cohort.members c u h
  refine ⟨txns, versions, hmoved, ?_⟩
  simp only [abortCohort]
  rw [he, hms]

/-! ## The operations on a cohort -/

section

variable {c : Core} {n : Nat} {op : RepairOp}

lemma Numbered.cohort (h : Numbered c n) {ri : Fin maxRepairs} {r r' : Repair}
    (hr : c.repairs ri = some r) (hrep : core.repairs = c.repairs.set ri r') (hid : r'.id = r.id)
    (hms : ∀ m ∈ r'.members, m.txn = 0 ∨ ∃ m' ∈ r.members, m'.txn = m.txn)
    (hrows : RowsKept c.txns core.txns) (hnext : core.nextTxn = c.nextTxn)
    (hnrep : core.nextRepair = c.nextRepair) : Numbered core (n + 1) := by
  have h := h.succ
  refine ⟨?_, ?_, ?_, by rw [hnext]; exact h.nextTxn, by rw [hnrep]; exact h.nextRepair⟩
  · intro tj t ht
    obtain ⟨u, hu, hid, -⟩ := hrows tj t ht
    rw [hnext, ← hid]
    exact h.txn tj u hu
  · intro rj q m hq hm
    rw [hnext]
    rw [hrep, set_apply] at hq
    split at hq
    · cases hq
      rcases hms m hm with h0 | ⟨m', hm', he⟩
      · rw [h0]
        exact h.nextTxn.1
      · rw [← he]
        exact h.member ri r m' hr hm'
    · exact h.member rj q m hq hm
  · intro rj q hq
    rw [hnrep]
    rw [hrep, set_apply] at hq
    split at hq
    · cases hq
      rw [hid]
      exact h.repair ri r hr
    · exact h.repair rj q hq

variable {s : ObjectSlot} {o : Object} {ri : Fin maxRepairs} {r : Repair}

lemma abort_nodup (h : (ms.map (·.index)).Nodup) :
    ((ms.map RepairMember.dropped).map (·.index)).Nodup := by
  rwa [List.map_map]

lemma dropped_txn : ∀ m ∈ ms.map dropped, m.txn = 0 := by
  intro m hm
  obtain ⟨m', -, rfl⟩ := mem_map.mp hm
  rfl

section

variable (h : Numbered c n) (hb : c.board.Inv) (hs : c.objects r.object = some o)
    (hr : c.repairs ri = some r)

include h hb hs hr

lemma abortCohort_sound (hphase : r.Open) (hop : op ≠ .unlock) (u : RepairUndo) :
    c.board.Step (.repair op r.id) (abortCohort c ri r u).1.board ∧
      Numbered (abortCohort c ri r u).1 (n + 1) := by
  have hnodup := hb.cohort.nodup ri r hr
  obtain ⟨txns, versions, hmoved, he⟩ := abortCohort_spec (hb.txn.repairTxns hr) ri u
  rw [he]
  refine ⟨?_, h.cohort hr rfl rfl (fun m hm => .inl (dropped_txn m hm)) hmoved.rows rfl rfl⟩
  simp only [board]
  rw [chunkAt_modifyChunks _ _ _ _ (by simp [hs]) hnodup]
  exact .abortRepair (b := c.board) op hop hr hphase ⟨rfl, rfl⟩ rfl dropped_txn
    (abort_nodup hnodup) hmoved.ordinary hmoved.rows

lemma commitStage_sound (hphase : r.phase = .finalized)
    (hstage : (commitStage r.object r.members c u).1 = core) {core' : Core}
    (hcore : core' = { core with
      indexEpoch := core.indexEpoch + 1
      repairs := core.repairs.set ri { r with phase := .committed } }) :
    c.board.Step (.repair .commitRepair r.id) core'.board ∧ Numbered core' (n + 1) := by
  have hnodup := hb.cohort.nodup ri r hr
  obtain ⟨version, hver⟩ := exists_byIndex hnodup version
  obtain ⟨txns, hmoved, he⟩ :=
    commitStage_spec r.object version r.members c u (hb.txn.repairTxns hr) hver
  rw [he] at hstage
  rw [hcore, ← hstage]
  refine ⟨?_, h.cohort hr rfl rfl (fun m hm => .inr ⟨m, hm, rfl⟩) hmoved.rows rfl rfl⟩
  simp only [board]
  rw [chunkAt_modifyChunks _ _ _ _ (by simp [hs]) hnodup]
  exact .commitRepair (b := c.board) version hr hphase hver hmoved.ordinary hmoved.rows

end

/-! ### prepare_repair -/

structure PrepareState.Moved (p q : PrepareState) : Prop where
  objects : q.core.objects = p.core.objects
  repairs : q.core.repairs = p.core.repairs
  nextTxn : q.core.nextTxn = p.core.nextTxn
  nextRepair : q.core.nextRepair = p.core.nextRepair
  keep : q.undo.keep = p.undo.keep
  txns : TxnsMoved p.core.txns q.core.txns

lemma PrepareState.Moved.trans {r : PrepareState} (h : p.Moved q) (h' : q.Moved r) : p.Moved r :=
  ⟨h'.objects.trans h.objects, h'.repairs.trans h.repairs, h'.nextTxn.trans h.nextTxn,
    h'.nextRepair.trans h.nextRepair, h'.keep.trans h.keep, h.txns.trans h'.txns⟩

def PrepareState.adds (p : PrepareState) (m : RepairMember) (r : Status × PrepareState) : Prop :=
  if r.1 = .ok then ∃ m', m'.vector = m.vector ∧ r.2.members = p.members ++ [m']
  else r.2.members = p.members

lemma prepareMember_spec (h : RepairTxns p.core.txns (m :: ms)) (exportUuid : Uuid) (s : ObjectSlot)
    (ch : Chunk) (n : Nat) (e : RepairEntry UInt64) :
    p.Moved (prepareMember exportUuid s ch n e m p).2 ∧
      p.adds m (prepareMember exportUuid s ch n e m p) := by
  have still : ∀ res, p.Moved { p with res := res } := fun _ =>
    ⟨rfl, rfl, rfl, rfl, rfl, .refl _⟩
  unfold prepareMember
  dsimp only
  split
  · exact ⟨still _, rfl⟩
  split
  · exact ⟨still _, rfl⟩
  split
  · next vi ti t hv ht =>
    obtain ⟨hrow, hmode⟩ := h.head ht
    have hset : TxnsMoved p.core.txns (p.core.txns.set ti
        { t with version := p.core.nextVersion, phase := .prepared }) := by
      refine .set hrow hmode ?_ ?_ <;> rfl
    refine ⟨?_, { m with staged := true, version := p.core.nextVersion }, rfl, rfl⟩
    split
    · exact ⟨rfl, rfl, rfl, rfl, noteTxn_keep .., hset⟩
    · exact ⟨rfl, rfl, rfl, rfl, (noteOwner_keep ..).trans (noteTxn_keep ..), hset⟩
  · exact ⟨still _, rfl⟩

lemma prepareStage_spec (exportUuid : Uuid) (s : ObjectSlot) (o : Object)
    (l : List (RepairEntry UInt64 × RepairMember)) :
    ∀ (n : Nat) (p : PrepareState), RepairTxns p.core.txns (l.map Prod.snd) →
      p.Moved (prepareStage exportUuid s o n l p).2 ∧
        (prepareStage exportUuid s o n l p).2.members.map (·.vector) =
          (p.members ++ l.map Prod.snd).map (·.vector) := by
  induction l with
  | nil =>
    intro n p _
    exact ⟨⟨rfl, rfl, rfl, rfl, rfl, .refl _⟩, by simp [prepareStage]⟩
  | cons em l ih =>
    obtain ⟨e, m⟩ := em
    intro n p h
    obtain ⟨hmoved, hadds⟩ := prepareMember_spec h exportUuid s (o.chunks m.index) n e
    unfold PrepareState.adds at hadds
    unfold prepareStage
    split
    · next q hq =>
      rw [hq] at hmoved hadds
      rw [if_pos rfl] at hadds
      obtain ⟨m', hv, hms⟩ := hadds
      obtain ⟨hmoved', hms'⟩ := ih (n + 1) q (h.tail.moved hmoved.txns)
      refine ⟨hmoved.trans hmoved', ?_⟩
      rw [hms', hms]
      simp [hv]
    · next status q hne hq =>
      rw [hq] at hmoved hadds
      rw [if_neg hne] at hadds
      refine ⟨⟨hmoved.objects, hmoved.repairs, hmoved.nextTxn, hmoved.nextRepair, hmoved.keep,
        hmoved.txns⟩, ?_⟩
      simp [show q.members = p.members from hadds]

lemma map_index_of_vector {ms' : List RepairMember} (h : ms'.map (·.vector) = ms.map (·.vector)) :
    ms'.map (·.index) = ms.map (·.index) := by
  have := congrArg (map fun v : ChunkIndex × UInt32 × UInt64 × UInt64 => v.1) h
  rwa [List.map_map, List.map_map] at this

lemma txn_of_vector {ms' : List RepairMember} (h : ms'.map (·.vector) = ms.map (·.vector))
    (hm : m ∈ ms') : ∃ m' ∈ ms, m'.txn = m.txn := by
  have hv : m.vector ∈ ms.map (·.vector) := h ▸ mem_map_of_mem hm
  obtain ⟨m', hm', he⟩ := mem_map.mp hv
  exact ⟨m', hm', congrArg (·.2.2.2) he⟩

lemma prepareStage_cohort (hb : c.board.Inv) (hr : c.repairs ri = some r) {exportUuid : Uuid}
    (hlen : r.members.length = rb.entries.length) {res : EntryResult} {status : Status}
    (hstage : prepareStage exportUuid r.object o 0 (rb.entries.zip r.members) ⟨c, u, res, []⟩ =
      (status, p)) :
    PrepareState.Moved ⟨c, u, res, []⟩ p ∧ p.members.map (·.vector) = r.members.map (·.vector) := by
  have hzip : (rb.entries.zip r.members).map Prod.snd = r.members := by grind [map_snd_zip]
  obtain ⟨hmoved, hvec⟩ := prepareStage_spec exportUuid r.object o (rb.entries.zip r.members) 0
    ⟨c, u, res, []⟩ (by rw [hzip]; exact hb.txn.repairTxns hr)
  rw [hzip, nil_append, hstage] at hvec
  rw [hstage] at hmoved
  exact ⟨hmoved, hvec⟩

lemma prepared_sound (h : Numbered c n) (hr : c.repairs ri = some r) (hphase : r.phase = .admitted)
    (hq : q.core = c) (hmoved : q.Moved p)
    (hvec : p.members.map (·.vector) = r.members.map (·.vector)) (hcore : core = { p.core with
      repairs := p.core.repairs.set ri { r with members := p.members, phase := .prepared } }) :
    c.board.Step (.repair .prepareRepair r.id) core.board ∧ Numbered core (n + 1) := by
  subst hq hcore
  refine ⟨?_, h.cohort hr (congrArg (Table.set · ri _) hmoved.repairs) rfl
    (fun m hm => .inr (txn_of_vector hvec hm)) hmoved.txns.rows hmoved.nextTxn hmoved.nextRepair⟩
  simp only [board, hmoved.objects, hmoved.repairs]
  exact .prepareRepair (b := q.core.board) hr hphase ⟨rfl, rfl, hvec⟩ rfl hmoved.txns.ordinary
    hmoved.txns.rows

lemma prepared_repairTxns (hb : c.board.Inv) (hr : c.repairs ri = some r)
    (hmoved : TxnsMoved c.txns txns) (hvec : ms.map (·.vector) = r.members.map (·.vector)) :
    RepairTxns txns ms := by
  intro m hm ti t ht he
  obtain ⟨m', hm', he'⟩ := txn_of_vector hvec hm
  exact (hb.txn.repairTxns hr).moved hmoved m' hm' ti t ht (he.trans he'.symm)

/-- The state in which a refused `prepare_repair` aborts its cohort. -/
abbrev PrepareState.held (p : PrepareState) (ri : Fin maxRepairs) (r : Repair) : Core :=
  { p.core with
    repairs := p.core.repairs.set ri { r with members := p.members, phase := .admitted } }

lemma prepareRefused_sound (h : Numbered c n) (hb : c.board.Inv) (hs : c.objects r.object = some o)
    (hr : c.repairs ri = some r) (hphase : r.phase = .admitted) (hq : q.core = c)
    (hmoved : q.Moved p) (hvec : p.members.map (·.vector) = r.members.map (·.vector))
    (hcore : core = (abortCohort (p.held ri r) ri { r with members := p.members } p.undo).1) :
    c.board.Step (.repair .prepareRepair r.id) core.board ∧ Numbered core (n + 1) := by
  subst hq hcore
  have hindex := map_index_of_vector hvec
  have hnodup : (p.members.map (·.index)).Nodup := hindex ▸ hb.cohort.nodup ri r hr
  have hrep := prepared_repairTxns hb hr hmoved.txns hvec
  obtain ⟨txns, versions, hmoved', he⟩ :=
    @abortCohort_spec (p.held ri r) { r with members := p.members } hrep
    ri p.undo
  have hall := hmoved.txns.trans hmoved'
  rw [he]
  have hset : ∀ r', (p.held ri r).repairs.set ri r' = q.core.repairs.set ri r' := by
    intro r'
    rw [← hmoved.repairs, Table.set_set]
  refine ⟨?_, h.cohort hr (hset _) rfl (fun m hm => .inl (dropped_txn m hm)) hall.rows
    hmoved.nextTxn hmoved.nextRepair⟩
  simp only [board, hmoved.objects, hset]
  rw [chunkAt_modifyChunks _ _ _ _ (by simp [hs]) hnodup, hindex]
  exact .abortRepair (b := q.core.board) .prepareRepair (by decide) hr (.inl hphase) ⟨rfl, rfl⟩ rfl
    dropped_txn (abort_nodup hnodup) hall.ordinary hall.rows

/-! ### mark_error -/

lemma chunkIndex_eq {a : UInt64} (h : chunkIndex a = some i) : a = UInt64.ofNat i.val := by
  unfold chunkIndex at h
  split at h
  · rw [← some.inj h]
    exact UInt64.ofNat_toNat.symm
  · cases h

lemma named_nodup {l : List (RepairEntry UInt64)} (h : (l.map (·.index)).Nodup) :
    (l.filterMap (chunkIndex ·.index)).Nodup := by
  have hf : (fun e : RepairEntry UInt64 => chunkIndex e.index) =
      chunkIndex ∘ fun e : RepairEntry UInt64 => e.index := rfl
  rw [hf, ← filterMap_map]
  exact h.filterMap fun a b i ha hb => (chunkIndex_eq ha).trans (chunkIndex_eq hb).symm

lemma markErrorStage_eq (s : ObjectSlot) (episode : UInt64) (custody : ChunkIndex → UInt64)
    (l : List (RepairEntry UInt64)) :
    (∀ e ∈ l, ∀ i, chunkIndex e.index = some i → custody i = e.custody.getD 0) →
    ∀ (objects : Table maxObjects Object) (u : RepairUndo),
      (markErrorStage s episode l objects u).1 =
        modifyChunks objects s (l.filterMap (chunkIndex ·.index)) fun i ch =>
          { ch with error := some ⟨episode, custody i, ch.visible.getD 0, false⟩ } := by
  induction l with
  | nil => intro _ objects u; rfl
  | cons e l ih =>
    intro hcus objects u
    have hrest := ih fun e' he' => hcus e' (mem_cons_of_mem e he')
    unfold markErrorStage
    split
    · next hi =>
      rw [hrest, filterMap_cons, hi]
    · next i hi =>
      rw [hrest, filterMap_cons, hi, ← hcus e mem_cons_self i hi]
      rfl

lemma exists_custody (h : (es.map (·.index)).Nodup) :
    ∃ custody : ChunkIndex → UInt64, ∀ e ∈ es, ∀ i, chunkIndex e.index = some i →
      custody i = e.custody.getD 0 := by
  obtain ⟨g, hg⟩ := exists_byIndex h fun e => e.custody.getD 0
  exact ⟨fun i => g (ofNat i.val), fun e he i hi => by rw [← hg e he, chunkIndex_eq hi]⟩

lemma markErrorStage_board (hs : c.objects s = some o) (hes : (es.map (·.index)).Nodup)
    (hfree : ∀ e ∈ es, ∃ i, chunkIndex e.index = some i ∧ (o.chunks i).error = none ∧
      (o.chunks i).pending = none ∧ (o.chunks i).repair = none ∧ (o.chunks i).visible.isSome)
    (u : RepairUndo) : c.board.Step (.repair .markError 0)
      ⟨chunkAt (markErrorStage s c.nextEpisode es c.objects u).1, c.txns, c.repairs⟩ := by
  obtain ⟨custody, hcus⟩ := exists_custody hes
  rw [markErrorStage_eq s _ custody es hcus, chunkAt_modifyChunks _ _ _ _ (by simp [hs])
    (named_nodup hes)]
  -- The mark names what is visible, which the marks before it did not change.
  let mark (i : ChunkIndex) : ErrorMark :=
    ⟨c.nextEpisode, custody i, (chunkAt c.objects s i).visible.getD 0, false⟩
  have hmap : (mapChunks (chunkAt c.objects) s (es.filterMap (chunkIndex ·.index))
      fun i ch => { ch with error := some ⟨c.nextEpisode, custody i, ch.visible.getD 0, false⟩ }) =
      mapChunks (chunkAt c.objects) s (es.filterMap (chunkIndex ·.index))
        fun i ch => { ch with error := some (mark i) } := by
    funext s' i'
    unfold mapChunks
    split
    · next he => rw [he.1]
    · rfl
  rw [hmap]
  refine .markError (b := c.board) mark ?_ ?_
  · exact fun _ _ => rfl
  intro i hi
  obtain ⟨e, he, hei⟩ := mem_filterMap.mp hi
  obtain ⟨j, hj, herror, hpending, hrepair, -⟩ := hfree e he
  obtain rfl : i = j := some.inj (hei.symm.trans hj)
  have hch : c.board.chunk s i = o.chunks i := chunkAt_of hs i
  rw [hch]
  exact ⟨herror, hpending, hrepair⟩

/-! ### begin_repair -/

/-- The member captures what the entry names, and has nothing staged. -/
def Captured (e : RepairEntry UInt64) (m : RepairMember) : Prop :=
  chunkIndex e.index = some m.index ∧ m = beginVector e m.index m.txn

/-- The staging loop of `begin_repair` once it went through the entries `es`: each has a member, a
repair transaction with a number of its own, and a chunk that points to the cohort. -/
structure BeginState.Begun (c : Core) (s : ObjectSlot) (id : UInt64)
    (es : List (RepairEntry UInt64)) (b : BeginState) : Prop where
  objects : b.core.objects = modifyChunks c.objects s (b.members.map (·.index)) fun _ ch =>
    { ch with repair := some id }
  repairs : b.core.repairs = c.repairs
  nextRepair : b.core.nextRepair = c.nextRepair + 1
  nextTxn : b.core.nextTxn.toNat = c.nextTxn.toNat + b.members.length
  kept : ∀ ti t, c.txns ti = some t → b.core.txns ti = some t
  grown : ∀ ti t, b.core.txns ti = some t → c.txns ti = some t ∨
    (t.mode = .repair ∧ c.nextTxn.toNat ≤ t.id.toNat ∧ t.id.toNat < b.core.nextTxn.toNat)
  unique : Table.KeyUnique Txn.id b.core.txns
  member : ∀ m ∈ b.members, c.nextTxn.toNat ≤ m.txn.toNat ∧ m.txn.toNat < b.core.nextTxn.toNat
  entries : List.Forall₂ Captured es b.members

def Consumed (t t' : Table maxPostconds Postcond) : Prop :=
  t' = t ∨ ∃ pi p, t pi = some p ∧ t' = t.set pi { p with consumed := true }

lemma beginConsume_some (h : beginConsume e b = some b') :
    ∃ postconds, Consumed b.core.postconds postconds ∧
      b'.core = { b.core with postconds := postconds } ∧ b'.members = b.members := by
  unfold beginConsume at h
  split at h
  · cases h
    exact ⟨_, .inl rfl, rfl, rfl⟩
  split at h
  · cases h
  · next pi p hp =>
    cases h
    obtain ⟨raw, -, hfind⟩ := bind_eq_some_iff.mp hp
    exact ⟨_, .inr ⟨pi, p, (findById_some hfind).1, rfl⟩, rfl, rfl⟩

lemma beginMember_ok (h : beginMember env s id o e i b = (.ok, b')) :
    ∃ ti ai postconds, b.core.txns ti = none ∧ b.core.owners ai = none ∧
      Consumed b.core.postconds postconds ∧
      b'.members = b.members ++ [beginVector e i b.core.nextTxn] ∧
      b'.core = { b.core with
        txns := b.core.txns.set ti (beginRow env s o e i b.core.nextTxn)
        nextTxn := b.core.nextTxn + 1
        owners := b.core.owners.set ai ⟨env.object.exportUuid, e.owner, s, i, 0⟩
        postconds := postconds
        objects := modifyChunk b.core.objects s i fun ch => { ch with repair := some id } } := by
  unfold beginMember at h
  split at h
  · cases h
  next ti hti =>
  dsimp only at h
  split at h
  · cases h
  next ai hai =>
  split at h
  · cases h
  next b₃ hconsume =>
  obtain ⟨postconds, hpost, hcore, hmembers⟩ := beginConsume_some hconsume
  obtain rfl : beginChunk s i id b₃ = b' := congrArg Prod.snd h
  refine ⟨ti, ai, postconds, spare_some hti, spare_some hai, hpost, hmembers, ?_⟩
  unfold beginChunk
  dsimp only
  rw [hcore]
  rfl

lemma BeginState.Begun.next (h : b.Begun c s id es)
    (hnum : ∀ ti t, c.txns ti = some t → t.id.toNat < c.nextTxn.toNat) {k : Nat}
    (hk : b.core.nextTxn.toNat ≤ k ∧ k + 1 < 2 ^ 64) (hi : chunkIndex e.index = some i)
    (hb : beginMember env s id o e i b = (.ok, b')) : b'.Begun c s id (es ++ [e]) := by
  obtain ⟨ti, ai, postconds, hti, -, -, hms, hcore⟩ := beginMember_ok hb
  have hnext : (b.core.nextTxn + 1).toNat = b.core.nextTxn.toNat + 1 := toNat_succ hk.1 hk.2
  have hbelow : ∀ tj u, b.core.txns tj = some u → u.id.toNat < b.core.nextTxn.toNat := by
    intro tj u hu
    rcases h.grown tj u hu with hold | ⟨-, -, hlt⟩
    · have := hnum tj u hold
      have := h.nextTxn
      omega
    · exact hlt
  constructor
  · rw [hcore, hms]
    simp only [h.objects, modifyChunks, map_append, foldl_append]
    rfl
  · rw [hcore]
    exact h.repairs
  · rw [hcore]
    exact h.nextRepair
  · rw [hcore, hms]
    simp only [hnext, h.nextTxn, length_append, length_singleton]
    omega
  · intro tj u hu
    have hold := h.kept tj u hu
    have hne : tj ≠ ti := by
      rintro rfl
      rw [hti] at hold
      cases hold
    rw [hcore]
    exact (set_ne hne).trans hold
  · intro tj u hu
    rw [hcore] at hu ⊢
    simp only [hnext] at hu ⊢
    rw [set_apply] at hu
    split at hu
    · obtain rfl := some.inj hu
      have hid : (beginRow env s o e i b.core.nextTxn).id = b.core.nextTxn := rfl
      refine .inr ⟨rfl, ?_⟩
      rw [hid]
      have := h.nextTxn
      omega
    · rcases h.grown tj u hu with hold | ⟨hm, hge, hlt⟩
      · exact .inl hold
      · exact .inr ⟨hm, hge, by omega⟩
  · rw [hcore]
    refine h.unique.set fun tj u hu _ he => ?_
    exact absurd (congrArg toNat he) (hbelow tj u hu).ne
  · intro m' hm'
    rw [hms] at hm'
    rw [hcore]
    simp only [hnext]
    rcases mem_append.mp hm' with hm' | hm'
    · have := h.member m' hm'
      omega
    have htxn : m'.txn = b.core.nextTxn := congrArg txn (mem_singleton.mp hm')
    rw [htxn]
    have := h.nextTxn
    omega
  · rw [hms]
    exact rel_append h.entries (.cons ⟨hi, rfl⟩ .nil)

lemma BeginState.Begun.stage (hnum : ∀ ti t, c.txns ti = some t → t.id.toNat < c.nextTxn.toNat)
    {k : Nat} (hk : k < 2 ^ 64) (rest : List (RepairEntry UInt64)) :
    ∀ {es : List (RepairEntry UInt64)} {b b' : BeginState}, b.Begun c s id es →
      c.nextTxn.toNat + es.length + rest.length ≤ k → beginStage env s id o rest b = (.ok, b') →
        b'.Begun c s id (es ++ rest) := by
  induction rest with
  | nil =>
    intro es b b' h _ hb
    obtain rfl : b = b' := congrArg Prod.snd hb
    rwa [append_nil]
  | cons e rest ih =>
    intro es b b' h hlen hb
    unfold beginStage at hb
    split at hb
    · cases hb
    next i hi =>
    split at hb
    · next b₁ hb₁ =>
      have hnext := h.nextTxn
      rw [← h.entries.length_eq] at hnext
      rw [length_cons] at hlen
      have h₁ := h.next hnum (k := c.nextTxn.toNat + es.length) ⟨hnext.le, by omega⟩ hi hb₁
      have := ih h₁ (by rw [length_append, length_singleton]; omega) hb
      rwa [append_assoc] at this
    · next status b₁ hne hb₁ => exact absurd (congrArg Prod.fst hb) hne

lemma captured_index (h : List.Forall₂ Captured es ms) :
    ms.map (·.index) = es.filterMap (chunkIndex ·.index) := by
  induction h with
  | nil => rfl
  | cons hem _ ih => rw [map_cons, filterMap_cons, hem.1, ih]

lemma captured_mem (h : List.Forall₂ Captured es ms) (hm : m ∈ ms) : ∃ e ∈ es, Captured e m := by
  induction h with
  | nil => cases hm
  | cons hem _ ih => grind

lemma BeginState.Begun.numbered (h : Numbered c n) (hn : n < maxReceipts)
    (hb : b.Begun c s c.nextRepair es) (hcount : es.length ≤ batchEntriesMax) {row : Repair}
    (hid : row.id = c.nextRepair) (hms : row.members = b.members) :
    Numbered { b.core with repairs := b.core.repairs.set ri row } (n + 1) := by
  have hnext := hb.nextTxn
  have hlen := hb.entries.length_eq
  have hrepair : b.core.nextRepair.toNat = c.nextRepair.toNat + 1 := by
    rw [hb.nextRepair]
    exact toNat_succ (h.nextRepair.2.trans (Nat.add_le_add_left hn.le 1)) (by decide)
  refine ⟨?_, ?_, ?_, ?_, ?_⟩
  · intro ti t ht
    rcases hb.grown ti t ht with hold | ⟨-, -, hlt⟩
    · have := h.txn ti t hold
      dsimp only
      omega
    · exact hlt
  · intro rj q m hq hm
    dsimp only at hq ⊢
    rw [set_apply] at hq
    split at hq
    · rw [← some.inj hq, hms] at hm
      exact (hb.member m hm).2
    · rw [hb.repairs] at hq
      have := h.member rj q m hq hm
      omega
  · intro rj q hq
    dsimp only at hq ⊢
    rw [set_apply] at hq
    split at hq
    · rw [← some.inj hq, hid]
      omega
    · rw [hb.repairs] at hq
      have := h.repair rj q hq
      omega
  · have := h.nextTxn
    dsimp only
    rw [Nat.mul_succ]
    omega
  · have := h.nextRepair
    dsimp only
    omega

/-- What a valid `begin_repair` vector promises. -/
structure VectorOk (es : List (RepairEntry UInt64)) : Prop where
  nodup : (es.map (·.index)).Nodup
  count : es.length ≤ batchEntriesMax
  mode : ∀ e ∈ es, e.mode = repairError ∨ e.mode = repairNopre

lemma beginStage_begun (h : Numbered c n) (hn : n < maxReceipts) (hb : c.board.Inv)
    (hcount : es.length ≤ batchEntriesMax)
    (hstage : beginStage env s c.nextRepair o es
      ⟨{ c with nextRepair := c.nextRepair + 1 }, u, []⟩ = (.ok, b)) :
    b.Begun c s c.nextRepair es := by
  have hstart :
      BeginState.Begun c s c.nextRepair [] ⟨{ c with nextRepair := c.nextRepair + 1 }, u, []⟩ :=
    ⟨rfl, rfl, rfl, rfl, fun _ _ ht => ht, fun _ _ ht => .inl ht, hb.txn.unique,
      fun _ hm => absurd hm not_mem_nil, .nil⟩
  have hnext : c.nextTxn.toNat + es.length ≤ 1 + batchEntriesMax * (n + 1) := by
    have := h.nextTxn.2
    rw [Nat.mul_succ]
    omega
  have hsmall : 1 + batchEntriesMax * (n + 1) < 2 ^ 64 := by
    have : batchEntriesMax * (n + 1) ≤ batchEntriesMax * maxReceipts := Nat.mul_le_mul_left _ hn
    exact (Nat.add_le_add_left this 1).trans_lt (by decide)
  exact hstart.stage h.txn hsmall es hnext hstage

lemma begun_sound (h : Numbered c n) (hn : n < maxReceipts) (hs : c.objects s = some o)
    (hes : VectorOk es) (hfree : ∀ e ∈ es, ∀ i, chunkIndex e.index = some i →
      (e.mode = repairError ∨ e.mode = repairNopre) → Capturable (o.chunks i) e)
    (hri : c.repairs ri = none) (hb : b.Begun c s c.nextRepair es) (admission : UInt64)
    (hcore : core = { b.core with
      repairs := b.core.repairs.set ri ⟨c.nextRepair, s, admission, .admitted, b.members⟩ }) :
    c.board.Step (.repair .beginRepair c.nextRepair) core.board ∧ Numbered core (n + 1) := by
  subst hcore
  refine ⟨?_, hb.numbered h hn hes.count rfl rfl⟩
  have hnodup : (b.members.map (·.index)).Nodup := captured_index hb.entries ▸ named_nodup hes.nodup
  simp only [board]
  rw [hb.objects, hb.repairs, chunkAt_modifyChunks _ _ _ _ (by simp [hs]) hnodup]
  let row : Repair := ⟨c.nextRepair, s, admission, .admitted, b.members⟩
  refine .beginRepair (b := c.board) (r := row) hri ?_ rfl hnodup ?_ hb.kept ?_ hb.unique ?_
  · intro rj q hq he
    exact absurd (congrArg toNat he) (h.repair rj q hq).ne
  · intro m hm
    obtain ⟨e, he, hi, hvec⟩ := captured_mem hb.entries hm
    have hmode : m.mode = e.mode := congrArg mode hvec
    have hsucc : m.successor = e.successor.getD 0 := congrArg successor hvec
    have hcap := hfree e he m.index hi (hes.mode e he)
    have hch : c.board.chunk s m.index = o.chunks m.index := chunkAt_of hs m.index
    rw [hch, hmode, hsucc]
    exact ⟨hcap.repair, hcap.unlocked, hcap.pending, hcap.visible, hcap.error⟩
  · intro ti t ht
    rcases hb.grown ti t ht with hold | ⟨hm, hge, -⟩
    · exact .inl hold
    · exact .inr ⟨hm, h.fresh_of hge⟩
  · intro m hm
    exact h.fresh_of (hb.member m hm).1

/-! ### Dispatch -/

lemma validateRepair_vector (h : validateRepair op rb) :
    (rb.entries.map (·.index)).Nodup ∧ (op = .beginRepair → VectorOk rb.entries) := by
  unfold validateRepair at h
  simp only [Bool.and_eq_true, decide_eq_true_eq, List.all_eq_true] at h
  obtain ⟨⟨⟨⟨⟨⟨⟨⟨⟨⟨hcount, -⟩, -⟩, -⟩, -⟩, -⟩, -⟩, -⟩, -⟩, hentries⟩, hnodup⟩ := h
  refine ⟨hnodup, ?_⟩
  rintro rfl
  refine ⟨hnodup, ?_, fun e he => ?_⟩
  · unfold countOk at hcount
    simp only [Bool.and_eq_true, decide_eq_true_eq] at hcount
    exact hcount.2
  · have he := hentries e he
    simp only [validateRepairEntry, beq_self_eq_true, if_true, Bool.and_eq_true, Bool.or_eq_true,
      beq_iff_eq] at he
    tauto

/-- The move a repair operation makes: `mark_error` names no cohort. -/
def repairAct (op : RepairOp) (cohort : Option UInt64) : Act :=
  .repair op (if op = .markError then 0 else cohort.getD 0)

theorem RepairChange.sound {a : Admission} {cohort : Option UInt64} {status : Status}
    (h : Numbered c n) (hn : n < maxReceipts) (hb : c.board.Inv) (hrb : validateRepair op rb)
    (hc : RepairChange c env rb a op cohort status core) :
    c.board.Step (repairAct op cohort) core.board ∧ Numbered core (n + 1) := by
  obtain ⟨hnodup, hvector⟩ := validateRepair_vector hrb
  cases hc with
  | markError cohort u object free =>
    exact ⟨markErrorStage_board (findRow_some object).1 hnodup free u, { h.succ with }⟩
  | beginRepair object capturable unowned apart slot stage =>
    have hvector := hvector rfl
    exact begun_sound h hn (findRow_some object).1 hvector capturable
      (spare_some slot) (beginStage_begun h hn hb hvector.count stage) _ rfl
  | prepareRepair on length named phase stage =>
    obtain ⟨hmoved, hvec⟩ := prepareStage_cohort hb on.row length stage
    exact prepared_sound h on.row phase rfl hmoved hvec rfl
  | prepareRefused on length phase stage refused =>
    obtain ⟨hmoved, hvec⟩ := prepareStage_cohort hb on.row length stage
    exact prepareRefused_sound h hb (findRow_some on.object).1 on.row phase rfl hmoved hvec rfl
  | abortRepair u on phase =>
    refine abortCohort_sound h hb (findRow_some on.object).1 on.row ?_ (by decide) u
    rcases hb.cohort.phase _ _ on.row with hopen | hc | ha
    · exact hopen
    · exact absurd hc phase.1
    · exact absurd ha phase.2
  | finalizeRepair on phase =>
    exact ⟨.finalizeRepair (b := c.board) on.row phase, h.cohort on.row rfl rfl
      (fun m hm => .inr ⟨m, hm, rfl⟩) (TxnsMoved.refl _).rows rfl rfl⟩
  | commitRepair on phase staged stage =>
    exact commitStage_sound h hb (findRow_some on.object).1 on.row phase stage rfl
  | @clearError ri r o ei episode u on phase found certificate marked =>
    have hs := (findRow_some on.object).1
    refine ⟨?_, { h.succ with }⟩
    have hnodup : ((r.members.filter (·.mode = repairError)).map (·.index)).Nodup :=
      (hb.cohort.nodup ri r on.row).sublist (filter_sublist.map _)
    rw [changeChunks_eq]
    simp only [board]
    rw [chunkAt_modifyChunks _ _ _ _ (by simp [hs]) hnodup]
    refine .clearError (b := c.board) on.row phase ?_ ?_
    · grind
    intro i hi
    obtain ⟨m, hm, rfl⟩ := mem_map.mp hi
    obtain ⟨hm, hmode⟩ := mem_filter.mp hm
    obtain ⟨mark, hmark, -⟩ := marked m hm (by simpa using hmode)
    have hch : c.board.chunk r.object m.index = o.chunks m.index := chunkAt_of hs m.index
    rw [hch, hmark]
    rfl
  | @unlock ri r o u on phase locked =>
    have hs := (findRow_some on.object).1
    refine ⟨?_, { h.succ with }⟩
    rw [changeChunks_eq]
    simp only [board]
    rw [chunkAt_modifyChunks _ _ _ _ (by simp [hs]) (hb.cohort.nodup ri r on.row)]
    refine .unlock (b := c.board) on.row phase ?_
    intro m hm
    have := locked m hm
    rwa [← chunkAt_of hs] at this

end

end Reffs.D1
