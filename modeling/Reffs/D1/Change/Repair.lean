import Reffs.D1.Change.Ordinary
import Reffs.D1.Undo.Repair

/-!
# What a repair operation changes

Every outcome of a repair reducer that stays, with what its tests established about the chunks, the
cohort and the vector. The loops that stage a vector stand as the source runs them; what they come
to is said where the board and the tables need it.
-/

namespace Reffs.D1

open SlotTable Table List Option RepairUndo RepairCovered

variable {α : Type} {check : Nat → α → EntryResult → Option Status × EntryResult} {l : List α}
    {k : Nat}
  {res res' : EntryResult} {e : RepairEntry UInt64} {m : RepairMember}

variable (u : RepairUndo) (x : Exhaust)

/-- What every operation on a cohort has found: the cohort in its slot, which is the one the request
names if it names one, its object under the envelope's key, and that the admission holds it. -/
structure OnCohort (c : Core) (env : Envelope UInt64) (rb : RepairBatch UInt64) (a : Admission)
    (ri : Fin maxRepairs) (r : Repair) (o : Object) : Prop where
  row : c.repairs ri = some r
  named : ∀ id, rb.cohort = some id → r.id = id
  object : objectFind c env.object = some (r.object, o)
  admission : r.admission = a.id

/-- What `begin_repair` has found about the chunk of an entry. -/
structure Capturable (ch : Chunk) (e : RepairEntry UInt64) : Prop where
  repair : ch.repair = none
  unlocked : ch.repairLocked = false
  pending : ch.pending = none
  visible : ch.visible = some (e.successor.getD 0)
  error : ch.error.isSome → e.mode = repairError

/-- A repair operation that stays. The answer names `cohort`. -/
inductive RepairChange (c : Core) (env : Envelope UInt64) (rb : RepairBatch UInt64)
    (a : Admission) : RepairOp → Option UInt64 → Status → Core → Prop where
  | markError {s : ObjectSlot} {o : Object} {ei : Fin maxEpisodes} {ep : Episode}
      (cohort : Option UInt64) (u : RepairUndo) (object : objectFind c env.object = some (s, o))
      (free : ∀ e ∈ rb.entries, ∃ i, chunkIndex e.index = some i ∧ (o.chunks i).error = none ∧
        (o.chunks i).pending = none ∧ (o.chunks i).repair = none ∧ (o.chunks i).visible.isSome)
      (number : ep.id = c.nextEpisode) (room : c.nextEpisode ≠ uint64Max) :
      RepairChange c env rb a .markError cohort .ok { c with
        episodes := c.episodes.set ei ep
        nextEpisode := c.nextEpisode + 1
        objects := (markErrorStage s c.nextEpisode rb.entries c.objects u).1 }
  | beginRepair {s : ObjectSlot} {o : Object} {ri : Fin maxRepairs} {u : RepairUndo}
      {b : BeginState} (object : objectFind c env.object = some (s, o))
      (capturable : ∀ e ∈ rb.entries, ∀ i, chunkIndex e.index = some i →
        (e.mode = repairError ∨ e.mode = repairNopre) → Capturable (o.chunks i) e)
      (unowned : ∀ e ∈ rb.entries, ownerFind c env.object.exportUuid e.owner = none)
      (apart : (rb.entries.map (·.owner)).Nodup) (slot : c.repairs.spare = some ri)
      (stage : beginStage env s c.nextRepair o rb.entries
        ⟨{ c with nextRepair := c.nextRepair + 1 }, u, []⟩ = (.ok, b)) :
      RepairChange c env rb a .beginRepair (some c.nextRepair) .ok { b.core with
        repairs := b.core.repairs.set ri ⟨c.nextRepair, s, env.admission, .admitted, b.members⟩ }
  | prepareRepair {ri : Fin maxRepairs} {r : Repair} {o : Object} {u : RepairUndo}
      {res : EntryResult} {p : PrepareState} (on : OnCohort c env rb a ri r o)
      (length : r.members.length = rb.entries.length)
      (named : ∀ em ∈ rb.entries.zip r.members, em.2.index.val = em.1.index.toNat)
      (phase : r.phase = .admitted)
      (stage : prepareStage env.object.exportUuid r.object o 0 (rb.entries.zip r.members)
        ⟨c, u, res, []⟩ = (.ok, p)) :
      RepairChange c env rb a .prepareRepair (some r.id) .ok { p.core with
        repairs := p.core.repairs.set ri { r with members := p.members, phase := .prepared } }
  /-- The one refusal that stays: a member cannot be staged, and the cohort is aborted. -/
  | prepareRefused {ri : Fin maxRepairs} {r : Repair} {o : Object} {u : RepairUndo}
      {res : EntryResult} {status : Status} {p : PrepareState} (on : OnCohort c env rb a ri r o)
      (length : r.members.length = rb.entries.length) (phase : r.phase = .admitted)
      (stage : prepareStage env.object.exportUuid r.object o 0 (rb.entries.zip r.members)
        ⟨c, u, res, []⟩ = (status, p)) (refused : status ≠ .ok) :
      RepairChange c env rb a .prepareRepair (some r.id) status (abortCohort { p.core with
          repairs := p.core.repairs.set ri { r with members := p.members, phase := .admitted } }
          ri { r with members := p.members } p.undo).1
  | abortRepair {ri : Fin maxRepairs} {r : Repair} {o : Object} (u : RepairUndo)
      (on : OnCohort c env rb a ri r o) (phase : r.phase ≠ .committed ∧ r.phase ≠ .aborted) :
      RepairChange c env rb a .abortRepair (some r.id) .ok (abortCohort c ri r u).1
  | finalizeRepair {ri : Fin maxRepairs} {r : Repair} {o : Object} (on : OnCohort c env rb a ri r o)
      (phase : r.phase = .prepared) :
      RepairChange c env rb a .finalizeRepair (some r.id) .ok
        { c with repairs := c.repairs.set ri { r with phase := .finalized } }
  | commitRepair {ri : Fin maxRepairs} {r : Repair} {o : Object} {u : RepairUndo} {core : Core}
      (on : OnCohort c env rb a ri r o) (phase : r.phase = .finalized)
      (staged : ∀ m ∈ r.members, m.staged = true ∧ (o.chunks m.index).visible = some m.successor)
      (stage : (commitStage r.object r.members c u).1 = core) :
      RepairChange c env rb a .commitRepair (some r.id) .ok { core with
        indexEpoch := core.indexEpoch + 1
        repairs := core.repairs.set ri { r with phase := .committed } }
  | clearError {ri : Fin maxRepairs} {r : Repair} {o : Object} {ei : Fin maxEpisodes}
      {episode : Episode} (u : RepairUndo) (on : OnCohort c env rb a ri r o)
      (phase : r.phase = .committed) (found : rb.episode.bind (episodeFind c) = some (ei, episode))
      (certificate : c.certificate.isSome ∧ c.certificate = rb.certificate)
      (marked : ∀ m ∈ r.members, m.mode = repairError → ∃ mark,
        (o.chunks m.index).error = some mark ∧ mark.cleared = false ∧ mark.episode = episode.id ∧
          mark.custody = m.custody ∧ mark.version = m.successor) :
      RepairChange c env rb a .clearError (some r.id) .ok { c with
        objects := (changeChunks r.object
          (fun ch => { ch with error := ch.error.map ({ · with cleared := true }) })
          (r.members.filter (·.mode = repairError)) c.objects u).1 }
  | unlock {ri : Fin maxRepairs} {r : Repair} {o : Object} (u : RepairUndo)
      (on : OnCohort c env rb a ri r o) (phase : r.phase = .committed)
      (locked : ∀ m ∈ r.members, (o.chunks m.index).repairLocked = true ∧
        (m.mode = repairError → (o.chunks m.index).error.any (·.cleared))) :
      RepairChange c env rb a .unlock (some r.id) .ok
        { c with objects := (changeChunks r.object Chunk.unlocked r.members c.objects u).1 }

def RepairOutcome.Changes (o : RepairOutcome) (c : Core) (env : Envelope UInt64)
    (rb : RepairBatch UInt64) (a : Admission) (op : RepairOp) : Prop :=
  o.status = .ok ∨ o.undo.keep = true → RepairChange c env rb a op o.res.cohort o.status o.core

def RepairOutcome.Quiet (o : RepairOutcome) : Prop := o.status ≠ .ok → o.published = []

/-- What the outcome of a repair reducer is whichever way it went, as for an ordinary one. The list
of member transactions is the one part of an answer that has no fixed length; only `begin_repair`
fills it in, with at most one number for each entry of a valid batch. -/
structure RepairOutcome.Lawful (o : RepairOutcome) (c : Core) (env : Envelope UInt64)
    (rb : RepairBatch UInt64) (a : Admission) (op : RepairOp) (res : EntryResult) : Prop where
  changes : o.Changes c env rb a op
  covered : o.Covered c
  quiet : o.Quiet
  logs : validateRepair op rb = true → res.Loggable → o.res.Loggable

/-! ## Vectors -/

lemma checkMembers_get :
    ∀ {k : Nat} {res res' : EntryResult}, checkMembers check k l res = (none, res') →
      ∀ n e, l[n]? = some e → ∃ r r', check (k + n) e r = (none, r') := by
  induction l with
  | nil => intro k res res' _ n e he; cases he
  | cons a l ih =>
    intro k res res' h n e he
    unfold checkMembers at h
    split at h
    · cases h
    next r hr =>
    cases n with
    | zero =>
      cases he
      exact ⟨res, r, hr⟩
    | succ n => grind

lemma checkMembers_none (h : checkMembers check k l res = (none, res')) :
    ∀ e ∈ l, ∃ k r r', check k e r = (none, r') := by
  intro e he
  obtain ⟨n, hn⟩ := mem_iff_getElem?.mp he
  exact ⟨_, checkMembers_get h n e hn⟩

lemma checkMembers_ne_ok (hcheck : ∀ n e res, (check n e res).1 ≠ some .ok) :
    ∀ {k : Nat} {res res' : EntryResult} {status : Status},
      checkMembers check k l res = (some status, res') → status ≠ .ok := by
  induction l with
  | nil => intro k res res' status h; cases h
  | cons a l ih => grind [checkMembers]

lemma checkMembers_loggable (hcheck : ∀ k e r, r.Loggable → (check k e r).2.Loggable) :
    ∀ {k : Nat} {res : EntryResult}, res.Loggable → (checkMembers check k l res).2.Loggable := by
  induction l with
  | nil => intro k res h; exact h
  | cons e l ih =>
    intro k res h
    have he := hcheck k e res h
    unfold checkMembers
    split
    · next hk => rw [hk] at he; exact he
    · next hk => rw [hk] at he; exact ih he

lemma checkMembers_loggable_of (hcheck : ∀ k e r, r.Loggable → (check k e r).2.Loggable)
    {o : Option Status} (h : res.Loggable)
    (hl : checkMembers check k l res = (o, res')) : res'.Loggable := by
  have := checkMembers_loggable hcheck (l := l) (k := k) h
  rwa [hl] at this

/-! ## Staging leaves the undo record unmarked, and the answer fit for the log -/

section

variable {c : Core} {s : ObjectSlot} {o : Object}

lemma noteTxn_keep (i : Fin maxTxns) (t : Txn) : (u.noteTxn i t).keep = u.keep := by
  unfold noteTxn
  split <;> rfl

lemma noteOwner_keep (owners : Table maxOwners OwnerAssoc) (i : Fin maxOwners) :
    (u.noteOwner owners i).keep = u.keep := by
  unfold noteOwner
  split <;> rfl

lemma notePostcond_keep (i : Fin maxPostconds) (p : Postcond) :
    (u.notePostcond i p).keep = u.keep := by
  unfold notePostcond
  split <;> rfl

lemma noteChunk_keep (objects : Table maxObjects Object) (s : ObjectSlot)
    (i : ChunkIndex) : (u.noteChunk objects s i).keep = u.keep := by
  unfold noteChunk
  split
  · rfl
  split <;> rfl

lemma beginMember_keep (env : Envelope UInt64) (id : UInt64) (e : RepairEntry UInt64)
    (i : ChunkIndex) (b : BeginState) : (beginMember env s id o e i b).2.undo.keep = b.undo.keep ∧
      (beginMember env s id o e i b).2.members.length ≤ b.members.length + 1 := by
  have hadd : ∀ ti, (beginTxn env s o e i ti b).members.length = b.members.length + 1 :=
    fun ti => length_append
  unfold beginMember
  split
  · exact ⟨rfl, Nat.le_succ _⟩
  next ti _ =>
  dsimp only
  split
  · exact ⟨rfl, (hadd ti).le⟩
  next ai _ =>
  have howner : (beginOwner env s e i ai (beginTxn env s o e i ti b)).undo.keep = b.undo.keep :=
    noteOwner_keep ..
  split
  · exact ⟨howner, (hadd ti).le⟩
  next b₃ hb₃ =>
  have hconsume : b₃.undo.keep = b.undo.keep ∧ b₃.members.length = b.members.length + 1 := by
    unfold beginConsume at hb₃
    split at hb₃
    · rw [← some.inj hb₃]
      exact ⟨howner, hadd ti⟩
    split at hb₃
    · cases hb₃
    · rw [← some.inj hb₃]
      exact ⟨(notePostcond_keep ..).trans howner, hadd ti⟩
  exact ⟨(noteChunk_keep ..).trans hconsume.1, hconsume.2.le⟩

lemma beginStage_keep (env : Envelope UInt64) (id : UInt64) (es : List (RepairEntry UInt64)) :
    ∀ b : BeginState, (beginStage env s id o es b).2.undo.keep = b.undo.keep ∧
      (beginStage env s id o es b).2.members.length ≤ b.members.length + es.length := by
  induction es with
  | nil => exact fun b => ⟨rfl, le_rfl⟩
  | cons e es ih =>
    intro b
    unfold beginStage
    split
    · exact ⟨rfl, Nat.le_add_right _ _⟩
    next i _ =>
    have hk := beginMember_keep (s := s) (o := o) env id e i b
    rw [length_cons]
    split
    · next b₁ hb₁ =>
      rw [hb₁] at hk
      exact ⟨(ih b₁).1.trans hk.1, by have := (ih b₁).2; have := hk.2; dsimp only at this; omega⟩
    · next status b₁ _ hb₁ =>
      rw [hb₁] at hk
      exact ⟨hk.1, by have := hk.2; dsimp only at this ⊢; omega⟩

/-- Staging replacements neither marks the undo record nor makes an answer that cannot be logged. -/
lemma prepareStage_keep (exportUuid : Uuid) (l : List (RepairEntry UInt64 × RepairMember)) :
    ∀ (n : Nat) (p : PrepareState), (prepareStage exportUuid s o n l p).2.undo.keep = p.undo.keep ∧
      (p.res.Loggable → (prepareStage exportUuid s o n l p).2.res.Loggable) := by
  induction l with
  | nil => exact fun n p => ⟨rfl, id⟩
  | cons em l ih =>
    obtain ⟨e, m⟩ := em
    intro n p
    have hk : (prepareMember exportUuid s (o.chunks m.index) n e m p).2.undo.keep = p.undo.keep ∧
        (p.res.Loggable →
          (prepareMember exportUuid s (o.chunks m.index) n e m p).2.res.Loggable) := by
      unfold prepareMember
      dsimp only
      split
      · exact ⟨rfl, id⟩
      split
      · exact ⟨rfl, id⟩
      split
      · split
        · exact ⟨noteTxn_keep .., id⟩
        · exact ⟨(noteOwner_keep ..).trans (noteTxn_keep ..), id⟩
      · exact ⟨rfl, id⟩
    unfold prepareStage
    split
    · next q hq =>
      rw [hq] at hk
      exact ⟨(ih (n + 1) q).1.trans hk.1, (ih (n + 1) q).2 ∘ hk.2⟩
    · next status q _ hq =>
      rw [hq] at hk
      exact hk

end

/-! ## The operations -/

section

variable {c : Core} {env : Envelope UInt64} {rb : RepairBatch UInt64} {a : Admission}
  {op : RepairOp} {s : ObjectSlot} {o : Object} {ri : Fin maxRepairs} {r : Repair}

lemma refuseRepair_lawful {status : Status} (hl : res.Loggable → res'.Loggable) (h : status ≠ .ok) :
    (refuseRepair c status res').Lawful c env rb a op res := by
  refine ⟨?_, start c, fun _ => rfl, fun _ => hl⟩
  rintro (hok | hkeep)
  · exact absurd hok h
  · cases hkeep

lemma capturedCheck_none {ch : Chunk} (h : capturedCheck c ch e = none) :
    ch.visible = some (e.successor.getD 0) := by
  unfold capturedCheck at h
  split at h
  · cases h
  next hv =>
  rw [not_or, Bool.not_eq_true, isNone_eq_false_iff, not_not] at hv
  obtain ⟨v, hv'⟩ := isSome_iff_exists.mp hv.1
  rw [← hv.2, hv']
  rfl

lemma capturedCheck_ne_ok (c : Core) (ch : Chunk) (e : RepairEntry UInt64) :
    capturedCheck c ch e ≠ some .ok := by
  grind [capturedCheck]

lemma markErrorCheck_none (h : markErrorCheck c o k e res = (none, res')) :
    ∃ i, chunkIndex e.index = some i ∧
      (o.chunks i).error = none ∧ (o.chunks i).pending = none ∧ (o.chunks i).repair = none ∧
      (o.chunks i).visible.isSome := by
  unfold markErrorCheck at h
  split at h
  · cases h
  next i hi =>
  dsimp only at h
  split at h
  · cases h
  next he =>
  split at h
  · cases h
  next hp =>
  rw [not_or] at hp
  have hvis := capturedCheck_none (congrArg Prod.fst h)
  exact ⟨i, hi, by simpa using he, by simpa using hp.1, by simpa using hp.2, by rw [hvis]; rfl⟩

lemma doMarkError_lawful (hs : objectFind c env.object = some (s, o))
    (res : EntryResult) : (doMarkError x c rb s o res).Lawful c env rb a .markError res := by
  have hlog : ∀ k e r, r.Loggable → (markErrorCheck c o k e r).2.Loggable := by
    intro k e r h
    unfold markErrorCheck
    split
    · exact h
    dsimp only
    split
    · exact h
    split <;> exact h
  unfold doMarkError
  split
  · next hcheck =>
    refine refuseRepair_lawful (fun h => checkMembers_loggable_of hlog h hcheck)
      (checkMembers_ne_ok (fun n e res => ?_) hcheck)
    grind [markErrorCheck, capturedCheck_ne_ok]
  next hcheck =>
  have hl := fun h => checkMembers_loggable_of hlog h hcheck
  split
  · exact refuseRepair_lawful hl nofun
  next ei hei =>
  split
  · exact refuseRepair_lawful hl nofun
  next hroom =>
  have hstart : RepairCovered c { c with
      episodes := c.episodes.set ei ⟨c.nextEpisode, s, rb.entries.filterMap (chunkIndex ·.index)⟩
      nextEpisode := c.nextEpisode + 1 } { repairUndoBegin c with freshEpisode := some ei } := by
    refine { start c with freshEpisode := ?_, episodes := fun i hi => ?_ }
    · intro i hi
      cases hi
      exact spare_some hei
    · exact set_ne fun he => hi (by rw [he])
  refine ⟨fun _ => .markError _ _ hs (fun e he => ?_) rfl (room_of_seen hroom),
    hstart.markErrorStage s c.nextEpisode rb.entries, fun _ => rfl, fun _ => hl⟩
  obtain ⟨k, r, r', hk⟩ := checkMembers_none hcheck e he
  exact markErrorCheck_none hk

lemma nopreCheck_none {i : ChunkIndex} {ch : Chunk} (h : nopreCheck c rb s i ch k e = none) :
    ch.error = none := by
  unfold nopreCheck at h
  split at h
  · cases h
  · next he => simpa using he

lemma nopreCheck_ne_ok (i : ChunkIndex) (ch : Chunk) (k : Nat) (e : RepairEntry UInt64) :
    nopreCheck c rb s i ch k e ≠ some .ok := by
  grind [nopreCheck]

lemma errorCheck_ne_ok (ch : Chunk) (episode : Option Episode) (e : RepairEntry UInt64) :
    errorCheck ch episode e ≠ some .ok := by
  grind [errorCheck]

lemma ownerTaken_none {exportUuid : Uuid} {owner : Owner}
    (h : ownerTaken c exportUuid rb o k owner = none) :
    (∀ f ∈ rb.entries.take k, f.owner ≠ owner) ∧ ownerFind c exportUuid owner = none := by
  unfold ownerTaken at h
  split at h
  · cases h
  next hfind =>
  refine ⟨fun f hf he => ?_, map_eq_none_iff.mp h⟩
  exact absurd (beq_iff_eq.mpr he) (find?_eq_none.mp hfind f hf)

lemma beginRepairCheck_none {episode : Option Episode}
    (h : beginRepairCheck c env rb a s o episode k e res = (none, res')) :
    ((∀ f ∈ rb.entries.take k, f.owner ≠ e.owner) ∧
      ownerFind c env.object.exportUuid e.owner = none) ∧
    ∀ i, chunkIndex e.index = some i → (e.mode = repairError ∨ e.mode = repairNopre) →
      Capturable (o.chunks i) e := by
  unfold beginRepairCheck at h
  split at h
  · cases h
  next i hi =>
  dsimp only at h
  split at h
  · cases h
  split at h
  · cases h
  next hrep =>
  rw [not_or] at hrep
  split at h
  · cases h
  next hpend =>
  split at h
  · cases h
  next hcap =>
  split at h
  · cases h
  next hauth =>
  split at h
  · cases h
  next htaken =>
  refine ⟨ownerTaken_none htaken, fun j hj hmode => ?_⟩
  obtain rfl : i = j := some.inj (hi.symm.trans hj)
  refine ⟨by simpa using hrep.1, by simpa using hrep.2, by simpa using hpend,
    capturedCheck_none hcap, fun he => ?_⟩
  rcases hmode with hm | hm
  · exact hm
  · rw [if_pos hm] at hauth
    rw [nopreCheck_none hauth] at he
    cases he

lemma beginRepairCheck_loggable (episode : Option Episode) (k : Nat) (e : RepairEntry UInt64)
    (r : EntryResult) (h : r.Loggable) :
    (beginRepairCheck c env rb a s o episode k e r).2.Loggable := by
  unfold beginRepairCheck
  split
  · exact h
  dsimp only
  iterate 5
    split
    · exact h
  split <;> exact h

lemma validateRepair_count (h : validateRepair op rb) : rb.entries.length ≤ batchEntriesMax := by
  unfold validateRepair countOk at h
  simp only [Bool.and_eq_true, decide_eq_true_eq] at h
  exact h.1.1.1.1.1.1.1.1.1.1.2

lemma doBeginRepair_lawful (hs : objectFind c env.object = some (s, o))
    (res : EntryResult) :
    (doBeginRepair x c env rb a s o res).Lawful c env rb a .beginRepair res := by
  have hrefuse : ∀ episode status res',
      checkMembers (beginRepairCheck c env rb a s o episode) 0 rb.entries res =
        (some status, res') →
        (refuseRepair c status res').Lawful c env rb a .beginRepair res := by
    intro episode status res' hcheck
    refine refuseRepair_lawful
      (fun h => checkMembers_loggable_of (beginRepairCheck_loggable episode) h hcheck)
      (checkMembers_ne_ok (fun n e res => ?_) hcheck)
    grind [beginRepairCheck, capturedCheck_ne_ok, nopreCheck_ne_ok, errorCheck_ne_ok]
  have go : ∀ episode res',
      checkMembers (beginRepairCheck c env rb a s o episode) 0 rb.entries res = (none, res') →
        (beginRepairGo x c env rb s o res').Lawful c env rb a .beginRepair res := by
    intro episode res' hcheck
    have hl := fun h => checkMembers_loggable_of (beginRepairCheck_loggable episode) h hcheck
    have hunowned : ∀ e ∈ rb.entries, ownerFind c env.object.exportUuid e.owner = none := by
      intro e he
      obtain ⟨k, r, r', hk⟩ := checkMembers_none hcheck e he
      exact (beginRepairCheck_none hk).1.2
    have hcapturable : ∀ e ∈ rb.entries, ∀ i, chunkIndex e.index = some i →
        (e.mode = repairError ∨ e.mode = repairNopre) → Capturable (o.chunks i) e := by
      intro e he
      obtain ⟨k, r, r', hk⟩ := checkMembers_none hcheck e he
      exact (beginRepairCheck_none hk).2
    -- An owner that stood earlier in the vector would have been refused.
    have hapart : (rb.entries.map (·.owner)).Nodup := by
      rw [List.Nodup, pairwise_map, pairwise_iff_getElem]
      intro i j hi hj hij he
      obtain ⟨r, r', hk⟩ := checkMembers_get hcheck j _ (getElem?_eq_getElem hj)
      have hbefore := (beginRepairCheck_none hk).1.1
      rw [Nat.zero_add] at hbefore
      exact hbefore _ (mem_take_iff_getElem.mpr ⟨i, by omega, rfl⟩) he
    unfold beginRepairGo
    split
    · exact refuseRepair_lawful hl nofun
    next ri hri =>
    iterate 3
      split
      · exact refuseRepair_lawful hl nofun
    dsimp only
    have hkeep := beginStage_keep (s := s) (o := o) env c.nextRepair rb.entries
      ⟨{ c with nextRepair := c.nextRepair + 1 }, { repairUndoBegin c with fresh := some ri }, []⟩
    have hstart : BeginState.Covered
        ⟨{ c with nextRepair := c.nextRepair + 1 }, { repairUndoBegin c with fresh := some ri }, []⟩
        c ri := by
      refine ⟨?_, rfl, rfl⟩
      refine { start c with fresh := ?_, repairs := fun _ _ _ => rfl }
      intro i hi
      cases hi
      exact spare_some hri
    have hcov := hstart.beginStage env s c.nextRepair o rb.entries
    generalize hstage : beginStage env s c.nextRepair o rb.entries
      ⟨{ c with nextRepair := c.nextRepair + 1 }, { repairUndoBegin c with fresh := some ri }, []⟩ =
        sb at hkeep hcov ⊢
    obtain ⟨status, b⟩ := sb
    refine ⟨fun hstays => ?_, hcov.covered.setRepair (.inl hcov.fresh) _, fun _ => rfl,
      fun hv h => ?_⟩
    · have hok : status = .ok := by
        rcases hstays with hs | hk
        · exact hs
        · rw [show b.undo.keep = false from hkeep.1] at hk
          cases hk
      subst hok
      exact .beginRepair hs hcapturable hunowned hapart hri hstage
    · have hlen : b.members.length ≤ batchEntriesMax := by
        have := hkeep.2.trans (Nat.add_le_add_left (validateRepair_count hv) _)
        rwa [length_nil, Nat.zero_add] at this
      dsimp only
      split <;> exact ⟨(length_map _).le.trans hlen, (hl h).2⟩
  unfold doBeginRepair
  dsimp only
  split
  · split
    · next hcheck => exact hrefuse _ _ _ hcheck
    · next hcheck => exact go _ _ hcheck
  split
  · exact refuseRepair_lawful id nofun
  split
  · exact refuseRepair_lawful id nofun
  split
  · next hcheck => exact hrefuse _ _ _ hcheck
  · next hcheck => exact go _ _ hcheck

lemma plain_noteCohort (c : Core) (ri : Fin maxRepairs) (cohort : Repair) :
    ((repairUndoBegin c).noteCohort ri cohort).Plain ri cohort := ⟨rfl, rfl, rfl, rfl⟩

lemma doPrepareRepair_lawful (on : OnCohort c env rb a ri r o)
    (length : r.members.length = rb.entries.length)
    (named : ∀ em ∈ rb.entries.zip r.members, em.2.index.val = em.1.index.toNat)
    (hl : res.Loggable → res'.Loggable) :
    (doPrepareRepair x c env rb ri r r.object o res').Lawful c env rb a .prepareRepair res := by
  unfold doPrepareRepair
  split
  · exact refuseRepair_lawful hl nofun
  next hphase =>
  split
  · exact refuseRepair_lawful hl nofun
  split
  · exact refuseRepair_lawful hl nofun
  dsimp only
  have hkeep := prepareStage_keep (s := r.object) (o := o) env.object.exportUuid
    (rb.entries.zip r.members) 0 ⟨c, (repairUndoBegin c).noteCohort ri r, res', []⟩
  have hst := RepairCovered.prepareStage
    (p := ⟨c, (repairUndoBegin c).noteCohort ri r, res', []⟩) ((start c).noteCohort on.row)
    (plain_noteCohort c ri r) env.object.exportUuid r.object o 0 (rb.entries.zip r.members)
  generalize hstage : prepareStage env.object.exportUuid r.object o 0 (rb.entries.zip r.members)
    ⟨c, (repairUndoBegin c).noteCohort ri r, res', []⟩ = sp at hkeep hst ⊢
  obtain ⟨status, p⟩ := sp
  have hrow := fun row => hst.1.setRepair (.inr ⟨r, hst.2.cohort⟩) row
  dsimp only
  split
  · exact ⟨fun _ => .prepareRepair on length named (not_not.mp hphase) hstage, hrow _, fun _ => rfl,
      fun _ => hkeep.2 ∘ hl⟩
  · refine ⟨?_, hrow _, fun _ => rfl, fun _ => hkeep.2 ∘ hl⟩
    rintro (hk | hk)
    · cases hk
    · rw [show p.undo.keep = false from hkeep.1] at hk
      cases hk
  · next hok _ =>
    have hab := (hrow { r with members := p.members, phase := .admitted }).abortCohort
      (hst.2.dropped _) hst.2.cohort { r with members := p.members }
    exact ⟨fun _ => .prepareRefused on length (not_not.mp hphase) hstage hok, { hab with },
      fun _ => rfl, fun _ => hkeep.2 ∘ hl⟩

lemma commitRepairCheck_none (h : commitRepairCheck c o k m res = (none, res')) :
    m.staged ∧ (o.chunks m.index).visible = some m.successor := by
  unfold commitRepairCheck at h
  dsimp only at h
  split at h
  · cases h
  next hstaged =>
  split at h
  · cases h
  next hvisible =>
  exact ⟨by simpa using hstaged, not_not.mp hvisible⟩

lemma doCommitRepair_lawful (on : OnCohort c env rb a ri r o) (hl : res.Loggable → res'.Loggable) :
    (doCommitRepair x c ri r r.object o res').Lawful c env rb a .commitRepair res := by
  have hlog : ∀ k m r, r.Loggable → (commitRepairCheck c o k m r).2.Loggable := by
    intro k m r h
    unfold commitRepairCheck
    dsimp only
    iterate 3
      split
      · exact h
    split <;> exact h
  unfold doCommitRepair
  split
  · exact refuseRepair_lawful hl nofun
  next hphase =>
  split
  · next hcheck =>
    refine refuseRepair_lawful (fun h => checkMembers_loggable_of hlog (hl h) hcheck)
      (checkMembers_ne_ok (fun n e res => ?_) hcheck)
    grind [commitRepairCheck]
  next hcheck =>
  have hl := fun h => checkMembers_loggable_of hlog (hl h) hcheck
  split
  · exact refuseRepair_lawful hl nofun
  have hst := ((start c).noteCohort on.row).commitStage (plain_noteCohort c ri r) r.object
    r.members
  have hrow := hst.1.setRepair (.inr ⟨r, hst.2.cohort⟩) { r with phase := .committed }
  refine ⟨fun _ => .commitRepair on (not_not.mp hphase) (fun m hm => ?_) rfl, { hrow with },
    fun h => absurd rfl h, fun _ => hl⟩
  obtain ⟨k, r, r', hk⟩ := checkMembers_none hcheck m hm
  exact commitRepairCheck_none hk

lemma clearErrorCheck_none {episode : Episode}
    (h : clearErrorCheck o episode k m res = (none, res'))
    (hm : m.mode = repairError) : ∃ mark, (o.chunks m.index).error = some mark ∧
      mark.cleared = false ∧ mark.episode = episode.id ∧ mark.custody = m.custody ∧
      mark.version = m.successor := by
  unfold clearErrorCheck at h
  rw [if_neg (not_not.mpr hm)] at h
  split at h
  · cases h
  next mark hmark =>
  split at h
  · cases h
  next hcleared =>
  split at h
  · cases h
  next hepisode =>
  split at h
  · cases h
  next hcustody =>
  split at h
  · cases h
  next hversion =>
  exact ⟨mark, hmark,
    by simpa using hcleared, not_not.mp hepisode, not_not.mp hcustody, not_not.mp hversion⟩

lemma doClearError_lawful (on : OnCohort c env rb a ri r o) (hl : res.Loggable → res'.Loggable) :
    (doClearError c rb r r.object o res').Lawful c env rb a .clearError res := by
  have hlog : ∀ episode k m r, r.Loggable → (clearErrorCheck o episode k m r).2.Loggable := by
    intro episode k m r h
    unfold clearErrorCheck
    dsimp only
    iterate 5
      split
      · exact h
    split <;> exact h
  unfold doClearError
  split
  · exact refuseRepair_lawful hl nofun
  next hphase =>
  split
  · exact refuseRepair_lawful hl nofun
  next hepisode =>
  split
  · exact refuseRepair_lawful hl nofun
  next hcertificate =>
  split
  · next hcheck =>
    refine refuseRepair_lawful (fun h => checkMembers_loggable_of (hlog _) (hl h) hcheck)
      (checkMembers_ne_ok (fun n e res => ?_) hcheck)
    grind [clearErrorCheck]
  next hcheck =>
  have hl := fun h => checkMembers_loggable_of (hlog _) (hl h) hcheck
  dsimp only
  split
  · exact refuseRepair_lawful hl nofun
  rw [not_or, Bool.not_eq_true, isNone_eq_false_iff, not_not] at hcertificate
  refine ⟨fun _ => .clearError _ on (not_not.mp hphase) hepisode hcertificate fun m hm hmode => ?_,
    (start c).changeChunks r.object _ _, fun _ => rfl, fun _ => hl⟩
  obtain ⟨k, r, r', hk⟩ := checkMembers_none hcheck m hm
  exact clearErrorCheck_none hk hmode

lemma unlockCheck_none (h : unlockCheck o k m res = (none, res')) :
    (o.chunks m.index).repairLocked ∧
      (m.mode = repairError → (o.chunks m.index).error.any (·.cleared)) := by
  unfold unlockCheck at h
  dsimp only at h
  split at h
  · cases h
  next hl =>
  split at h
  · cases h
  next he =>
  refine ⟨by simpa using hl, fun hm => ?_⟩
  by_contra hn
  exact he ⟨hm, by simpa using hn⟩

section

variable (on : OnCohort c env rb a ri r o) (hl : res.Loggable → res'.Loggable)

include on hl

lemma doUnlock_lawful : (doUnlock c r r.object o res').Lawful c env rb a .unlock res := by
  have hlog : ∀ k m r, r.Loggable → (unlockCheck o k m r).2.Loggable := by
    intro k m r h
    unfold unlockCheck
    dsimp only
    split
    · exact h
    split <;> exact h
  unfold doUnlock
  split
  · exact refuseRepair_lawful hl nofun
  next hphase =>
  split
  · next hcheck =>
    refine refuseRepair_lawful (fun h => checkMembers_loggable_of hlog (hl h) hcheck)
      (checkMembers_ne_ok (fun n e res => ?_) hcheck)
    grind [unlockCheck]
  next hcheck =>
  have hl := fun h => checkMembers_loggable_of hlog (hl h) hcheck
  refine ⟨fun _ => .unlock _ on (not_not.mp hphase) fun m hm => ?_,
    (start c).changeChunks r.object _ _, fun _ => rfl, fun _ => hl⟩
  obtain ⟨k, r, r', hk⟩ := checkMembers_none hcheck m hm
  exact unlockCheck_none hk

lemma doAbortRepair_lawful : (doAbortRepair c ri r res').Lawful c env rb a .abortRepair res := by
  unfold doAbortRepair
  split
  · exact refuseRepair_lawful hl nofun
  · next hphase =>
    have hu := plain_noteCohort c ri r
    exact ⟨fun _ => .abortRepair _ on (not_or.mp hphase),
      ((start c).noteCohort on.row).abortCohort (hu.dropped c) hu.cohort r, fun _ => rfl,
      fun _ => hl⟩

lemma doFinalizeRepair_lawful :
    (doFinalizeRepair c ri r res').Lawful c env rb a .finalizeRepair res := by
  unfold doFinalizeRepair
  split
  · exact refuseRepair_lawful hl nofun
  · next hphase =>
    exact ⟨fun _ => .finalizeRepair on (not_not.mp hphase),
      ((start c).noteCohort on.row).setRepair (.inr ⟨r, rfl⟩) _, fun _ => rfl, fun _ => hl⟩

end

lemma memberNamed_none {em : RepairEntry UInt64 × RepairMember}
    (h : memberNamed k em res = (none, res')) : em.2.index.val = em.1.index.toNat := by
  unfold memberNamed at h
  dsimp only at h
  split at h
  · cases h
  · next hindex => exact not_not.mp hindex

lemma repairOnCohort_lawful (hs : objectFind c env.object = some (s, o))
    (hr : c.repairs ri = some r) (hnamed : ∀ id, rb.cohort = some id → r.id = id)
    (res : EntryResult) :
    (repairOnCohort x c env op rb a s o ri r res).Lawful c env rb a op res := by
  have hlog : ∀ k em r, r.Loggable → (memberNamed k em r).2.Loggable := by
    intro k em r h
    unfold memberNamed
    dsimp only
    iterate 4
      split
      · exact h
    split <;> exact h
  unfold repairOnCohort
  split
  · exact refuseRepair_lawful id nofun
  next hrs =>
  obtain rfl := not_not.mp hrs
  split
  · exact refuseRepair_lawful id nofun
  next hadmission =>
  split
  · exact refuseRepair_lawful id nofun
  next hlength =>
  split
  · exact refuseRepair_lawful id nofun
  split
  · exact refuseRepair_lawful id nofun
  split
  · next hcheck =>
    refine refuseRepair_lawful (fun h => checkMembers_loggable_of hlog h hcheck)
      (checkMembers_ne_ok (fun n e res => ?_) hcheck)
    grind [memberNamed]
  next hcheck =>
  have hl := fun h => checkMembers_loggable_of hlog h hcheck
  have on : OnCohort c env rb a ri r o := ⟨hr, hnamed, hs, not_not.mp hadmission⟩
  split
  · refine doPrepareRepair_lawful x on (not_not.mp hlength) (fun em hem => ?_) hl
    obtain ⟨k, r, r', hk⟩ := checkMembers_none hcheck em hem
    exact memberNamed_none hk
  · exact doFinalizeRepair_lawful on hl
  · exact doCommitRepair_lawful x on hl
  · exact doAbortRepair_lawful on hl
  · exact doClearError_lawful on hl
  · exact doUnlock_lawful on hl
  · exact refuseRepair_lawful hl nofun

/-- **Every repair operation that stays is one of the changes**, and is taken back if it does not.
-/
theorem doRepair_lawful (res : EntryResult) :
    (doRepair x c env op rb a res).Lawful c env rb a op res := by
  unfold doRepair
  split
  · exact refuseRepair_lawful id nofun
  next s o hs =>
  split
  · exact doMarkError_lawful x hs res
  · exact doBeginRepair_lawful x hs res
  split
  · next raw hraw =>
    split
    · exact refuseRepair_lawful id nofun
    · next hr =>
      obtain ⟨hrow, hid, -⟩ := findById_some hr
      exact repairOnCohort_lawful x hs hrow
        (fun id hcohort => hid.trans (some.inj (hraw.symm.trans hcohort))) res
  next hraw =>
  split
  · exact refuseRepair_lawful id nofun
  split
  · exact refuseRepair_lawful id nofun
  · next hr =>
    refine repairOnCohort_lawful x hs (repairOfEpisode_some hr) (fun id hcohort => ?_) res
    rw [hraw] at hcohort
    cases hcohort

end

end Reffs.D1
