import Reffs.D1.Board
import Reffs.D1.Undo.Ordinary

/-!
# What an ordinary member changes

Every outcome of an ordinary reducer that stays, with all that its tests established: the entry it
ran, the rows it found and the state it left. What later modules say about versions, owners, guards
and rights is derived from these cases, and no reducer is unfolded again.
-/

namespace Reffs.D1

open SlotTable Table

variable {o : Object} {e : RollbackEntry UInt64} {s : ObjectSlot} {i : ChunkIndex}
    {ti : Fin maxTxns}
  {t : Txn} {r : RollbackBatch UInt64}

def writtenChunk (c : Core) (ch : Chunk) (guard : Guard) (activate : Bool) : Chunk :=
  if activate then { ch with guard := guard, visible := some c.nextVersion }
  else { ch with guard := guard, pending := some c.nextTxn }

def writtenVersion (c : Core) (e : WriteEntry) (s : ObjectSlot) (i : ChunkIndex) (ch : Chunk) :
    Version where
  id := c.nextVersion
  object := s
  index := i
  bytes := e.payload
  checksum := e.checksum
  owner := e.owner
  predecessor := ch.visible
  released := false

def writtenTxn (c : Core) (w : WriteBatch) (e : WriteEntry) (a : Admission) (s : ObjectSlot)
    (i : ChunkIndex) (ch : Chunk) (guard : Guard) (activate : Bool) : Txn where
  id := c.nextTxn
  object := s
  index := i
  owner := e.owner
  admission := a.id
  version := c.nextVersion
  phase := if activate then .committed else .prepared
  mode := .ordinary
  stability := w.stability
  readEpoch := 0
  predecessor := ch.visible
  guard := guard

/-- An ordinary member of `env` that stays, under admission `a`. -/
inductive OrdinaryChange (c : Core) (env : Envelope UInt64) (ordinal : Nat) (a : Admission) :
    Status → Core → Prop where
  | write {w : WriteBatch} {e : WriteEntry} {s : ObjectSlot} {o : Object} {fresh : Bool}
      {objects : Table maxObjects Object} {i : ChunkIndex} {guard : Guard} {ti : Fin maxTxns}
      {vi : Fin maxVersions} {ai : Fin maxOwners} (activate : Bool)
      (body : env.body = .writeBatch w) (entry : w.entries[ordinal]? = some e)
      (form : writeFormCheck c w e a = none)
      (unowned : ownerFind c env.object.exportUuid e.owner = none)
      (get : objectGet c env.object = some (s, o, fresh, objects))
      (index : chunkIndex e.index = some i) (check : writeChunkCheck (o.chunks i) e = none)
      (next : guardAdvance (o.chunks i).guard a.writer = some guard)
      (txn : c.txns.spare = some ti) (version : c.versions.spare = some vi)
      (assoc : c.owners.spare = some ai) :
      OrdinaryChange c env ordinal a .ok { c with
        objects := setChunk objects s i (writtenChunk c (o.chunks i) guard activate)
        versions := c.versions.set vi (writtenVersion c e s i (o.chunks i))
        txns := c.txns.set ti (writtenTxn c w e a s i (o.chunks i) guard activate)
        owners := c.owners.set ai ⟨env.object.exportUuid, e.owner, s, i, c.nextVersion⟩
        nextVersion := c.nextVersion + 1
        nextTxn := c.nextTxn + 1
        indexEpoch := if activate then c.indexEpoch + 1 else c.indexEpoch }
  | finalize {ti : Fin maxTxns} {t : Txn} (body : ∃ l, env.body = .finalizeBatch l)
      (row : c.txns ti = some t) (staged : t.Staged) (admission : t.admission = a.id) :
      OrdinaryChange c env ordinal a .ok
        { c with txns := c.txns.set ti { t with phase := .finalized } }
  | commit {ti : Fin maxTxns} {t : Txn} {o : Object} {vi : Fin maxVersions} {ver : Version}
      (body : ∃ l, env.body = .commitBatch l) (row : c.txns ti = some t) (staged : t.Staged)
      (admission : t.admission = a.id) (object : c.objects t.object = some o)
      (version : c.versions vi = some ver) (number : ver.id = t.version) :
      OrdinaryChange c env ordinal a .ok { c with
        txns := c.txns.set ti { t with phase := .committed }
        objects := setChunk c.objects t.object t.index
          { o.chunks t.index with visible := some ver.id, pending := none }
        indexEpoch := c.indexEpoch + 1 }
  | rollback {r : RollbackBatch UInt64} {e : RollbackEntry UInt64} {ti : Fin maxTxns} {t : Txn}
      {o : Object} (body : env.body = .rollbackBatch r) (entry : r.entries[ordinal]? = some e)
      (found : txnFind c e.txn = some (ti, t)) (staged : t.Staged) (admission : t.admission = a.id)
      (right : hasRight a.rights rightWrite = true) (object : c.objects t.object = some o) :
      OrdinaryChange c env ordinal a .ok { c with
        txns := c.txns.set ti { t with phase := .rolledBack }
        objects := setChunk c.objects t.object t.index ((o.chunks t.index).dropPending t.id) }
  | rollbackCommitted {r : RollbackBatch UInt64} {e : RollbackEntry UInt64} {ti : Fin maxTxns}
      {t : Txn} {o : Object} {vi pi : Fin maxVersions} {ver pred : Version}
      (body : env.body = .rollbackBatch r) (entry : r.entries[ordinal]? = some e)
      (found : txnFind c e.txn = some (ti, t)) (phase : t.phase = .committed)
      (right : hasRight a.rights rightRepair = true)
      (object : c.objects t.object = some o) (writable : chunkWritable (o.chunks t.index) = true)
      (pending : (o.chunks t.index).pending = none)
      (visible : (o.chunks t.index).visible = some t.version)
      (version : c.versions vi = some ver) (number : ver.id = t.version)
      (predecessor : c.versions pi = some pred) (pointer : ver.predecessor = some pred.id)
      (released : pred.released = false) :
      OrdinaryChange c env ordinal a .ok { c with
        txns := c.txns.set ti { t with phase := .rolledBack }
        objects :=
          setChunk c.objects t.object t.index { o.chunks t.index with visible := some pred.id }
        indexEpoch := c.indexEpoch + 1 }
  /-- The one refusal that stays: the predecessor is gone, and a postcondition says so. -/
  | postcond {pi : Fin maxPostconds} {p : Postcond} (body : ∃ r, env.body = .rollbackBatch r)
      (slot : c.postconds.spare = some pi) (number : p.id = c.nextPostcond)
      (room : c.nextPostcond ≠ uint64Max) :
      OrdinaryChange c env ordinal a .noPredecessor { c with
        postconds := c.postconds.set pi p
        nextPostcond := c.nextPostcond + 1 }

def Outcome.Changes (o : Outcome) (c : Core) (env : Envelope UInt64) (ordinal : Nat)
    (a : Admission) : Prop :=
  o.status = .ok ∨ o.undo.keep = true → OrdinaryChange c env ordinal a o.status o.core

/-- The member transactions fit a batch, and the answer counts as recorded. -/
def EntryResult.Loggable (r : EntryResult) : Prop :=
  r.memberTxn.length ≤ batchEntriesMax ∧ r.disposition = Disposition.completed.code

def Outcome.Quiet (o : Outcome) : Prop := o.status ≠ .ok → o.published = []

/-- What an outcome is whichever way the reducer went: if it stays it is a change, its undo record
is exact, a refusal publishes nothing, and the answer that was made of `res` can still be logged. -/
structure Outcome.Lawful (o : Outcome) (c : Core) (env : Envelope UInt64) (ordinal : Nat)
    (a : Admission) (res : EntryResult) : Prop where
  changes : o.Changes c env ordinal a
  exact : o.Exact c
  quiet : o.Quiet
  logs : res.Loggable → o.res.Loggable

section

variable {c : Core} {env : Envelope UInt64} {ordinal : Nat} {a : Admission} {res res' : EntryResult}

lemma Outcome.Lawful.refused {o : Outcome} (hs : o.status ≠ .ok) (hk : o.undo.keep = false)
    (hp : o.published = []) (hx : o.Exact c) (hl : res.Loggable → o.res.Loggable) :
    o.Lawful c env ordinal a res := by
  refine ⟨?_, hx, fun _ => hp, hl⟩
  rintro (h | h)
  · exact absurd h hs
  · rw [hk] at h
    cases h

lemma refuse_lawful {status : Status} (hl : res.Loggable → res'.Loggable) (h : status ≠ .ok) :
    (refuse c status res').Lawful c env ordinal a res := .refused h rfl rfl ⟨rfl, rfl⟩ hl

lemma writeStage_lawful {w : WriteBatch} {e : WriteEntry} {fresh : Bool}
    {objects : Table maxObjects Object} {vi : Fin maxVersions} (body : env.body = .writeBatch w)
    (entry : w.entries[ordinal]? = some e) (form : writeFormCheck c w e a = none)
    (unowned : ownerFind c env.object.exportUuid e.owner = none)
    (get : objectGet c env.object = some (s, o, fresh, objects))
    (index : chunkIndex e.index = some i)
    (check : writeChunkCheck (o.chunks i) e = none) (txn : c.txns.spare = some ti)
    (version : c.versions.spare = some vi) (activate : Bool) (hl : res.Loggable → res'.Loggable) :
    (writeStage { c with objects := objects } env w e a
      { undoBegin c with freshObject := if fresh then some s else none } s i
        (o.chunks i) activate ti vi
      res').Lawful c env ordinal a res := by
  have ht := spare_some txn
  have hv := spare_some version
  let u : Undo := { undoBegin c with freshObject := if fresh then some s else none }
  have hobj := undoObjects_write get i (u := u) rfl (.inl rfl)
  have hobj' :=
    undoObjects_write get i (u := { u with chunk := some (s, i, o.chunks i) }) rfl (.inr rfl)
  have htf := clear_eq_self ht
  have hvf := clear_eq_self hv
  simp only [writeStage]
  split
  · refine .refused nofun rfl rfl ?_ hl
    constructor <;> apply Core.ext <;>
      first | rfl | exact hobj.1 | exact hobj.2.1 | exact clear_set ht |
        exact clear_set hv | assumption
  next ai hai =>
  have ha := spare_some hai
  have haf := clear_eq_self ha
  split
  · refine .refused nofun rfl rfl ?_ hl
    constructor <;> apply Core.ext <;>
      first | rfl | exact hobj'.1 | exact hobj'.2.1 | exact clear_set ht |
        exact clear_set hv | exact clear_set ha | assumption
  next guard hguard =>
  rw [set_set]
  refine ⟨fun _ => .write activate body entry form unowned get index check hguard txn version hai,
    ?_,
    fun h => absurd rfl h, hl⟩
  constructor <;> apply Core.ext <;>
    first | rfl | exact hobj'.2.2 rfl _ | exact hobj'.2.1 | exact clear_set ht |
      exact clear_set hv | exact clear_set ha | assumption

lemma doWriteEntry_lawful (x : Exhaust) {w : WriteBatch} {e : WriteEntry}
    (body : env.body = .writeBatch w) (entry : w.entries[ordinal]? = some e) (res : EntryResult) :
    (doWriteEntry x c env w e a res).Lawful c env ordinal a res := by
  unfold doWriteEntry
  split
  · next hform =>
    refine refuse_lawful id ?_
    rintro rfl
    grind [writeFormCheck]
  next hform =>
  split
  · exact refuse_lawful id nofun
  next hown =>
  split
  · exact refuse_lawful id nofun
  next s o fresh objects hget =>
  -- Every refusal from here on has at most named the object.
  have named : ∀ status res', status ≠ .ok → (res.Loggable → res'.Loggable) →
      (⟨status, res', { c with objects := objects },
        { undoBegin c with freshObject := if fresh then some s else none }, []⟩ :
          Outcome).Lawful c env ordinal a res := by
    intro status res' hs hl
    have hobj := undoObjects_write hget 0 (u := { undoBegin c with
      freshObject := if fresh then some s else none }) rfl (.inl rfl)
    refine .refused hs rfl rfl ?_ hl
    constructor <;> apply Core.ext <;> first | rfl | exact hobj.1 | exact hobj.2.1
  dsimp only
  split
  · exact named _ _ (by decide) id
  next i hi =>
  split
  · next hcheck =>
    refine named _ _ ?_ id
    rintro rfl
    grind [writeChunkCheck]
  next hcheck =>
  split
  · exact named _ _ (by decide) id
  split
  · exact named _ _ (by decide) id
  split
  · next ti vi ht hv =>
    exact writeStage_lawful body entry hform hown hget hi hcheck ht hv _ id
  · exact named _ _ (by decide) id

lemma commitTxn_lawful (x : Exhaust) (body : ∃ l, env.body = .commitBatch l)
    (row : c.txns ti = some t)
    (staged : t.Staged) (admission : t.admission = a.id) (object : c.objects t.object = some o)
    (hl : res.Loggable → res'.Loggable) :
    (commitTxn x c t.object t.index (o.chunks t.index) ti t res').Lawful c env ordinal a res := by
  unfold commitTxn
  split
  · exact refuse_lawful hl nofun
  next vi ver hver =>
  obtain ⟨version, number, -⟩ := findById_some hver
  split
  · exact refuse_lawful hl nofun
  split
  · exact refuse_lawful hl nofun
  exact ⟨fun _ => .commit body row staged admission object version number,
    moved_exact object t.index row .committed _ _, fun h => absurd rfl h, hl⟩

lemma lifecycleTxnCheck_none {owner : Owner} (h : lifecycleTxnCheck t s i owner a = none) :
    (t.object = s ∧ t.index = i) ∧ t.mode = .ordinary ∧ t.admission = a.id := by
  grind [lifecycleTxnCheck]

lemma lifecycleTxnCheck_ne_ok {owner : Owner} {status : Status}
    (h : lifecycleTxnCheck t s i owner a = some status) : status ≠ .ok := by
  rintro rfl
  grind [lifecycleTxnCheck]

lemma doLifecycleEntry_lawful (x : Exhaust) {l : LifecycleBatch UInt64}
    {e : LifecycleEntry UInt64} {commit : Bool}
    (body : env.body = if commit then .commitBatch l else .finalizeBatch l) (res : EntryResult) :
    (doLifecycleEntry x c env l e a commit res).Lawful c env ordinal a res := by
  unfold doLifecycleEntry
  split
  case h_2 => exact refuse_lawful id nofun
  next s o i hs hi =>
  have hs := (findRow_some hs).1
  split
  · exact refuse_lawful id nofun
  dsimp only
  split
  · exact refuse_lawful id (by split <;> decide)
  next ti t ht =>
  have ht := (findById_some ht).1
  split
  · exact refuse_lawful id nofun
  split
  · exact refuse_lawful id nofun
  split
  · next hcheck => exact refuse_lawful id (lifecycleTxnCheck_ne_ok hcheck)
  next hcheck =>
  obtain ⟨⟨rfl, rfl⟩, hmode, hadm⟩ := lifecycleTxnCheck_none hcheck
  split
  · exact refuse_lawful id nofun
  next hphase =>
  have hstaged : t.Staged := by
    refine ⟨hmode, ?_⟩
    cases commit with
    | false => exact .inl (not_not.mp hphase)
    | true => exact .inr (not_not.mp hphase)
  split
  · exact refuse_lawful id nofun
  cases commit with
  | true => exact commitTxn_lawful x ⟨l, body⟩ ht hstaged hadm hs id
  | false =>
    refine ⟨fun _ => .finalize ⟨l, body⟩ ht hstaged hadm, ?_, fun h => absurd rfl h, id⟩
    obtain ⟨hback, hsame⟩ := txn_back ht .finalized
    constructor <;> apply Core.ext <;> first | rfl | exact hback | exact hsame

lemma rollbackStaged_lawful (body : env.body = .rollbackBatch r)
    (entry : r.entries[ordinal]? = some e)
    (found : txnFind c e.txn = some (ti, t)) (phase : t.phase = .prepared ∨ t.phase = .finalized)
    (object : c.objects t.object = some o) (hl : res.Loggable → res'.Loggable) :
    (rollbackStaged c e a t.object t.index (o.chunks t.index) ti t res').Lawful c env ordinal a
      res := by
  unfold rollbackStaged
  split
  · exact refuse_lawful hl nofun
  next hmode =>
  split
  · exact refuse_lawful hl nofun
  next hright =>
  split
  · exact refuse_lawful hl nofun
  next hadm =>
  iterate 3
    split
    · exact refuse_lawful hl nofun
  exact ⟨fun _ => .rollback body entry found ⟨not_not.mp hmode, phase⟩ (not_not.mp hadm)
    (by simpa using hright) object,
      moved_exact object t.index (findById_some found).1 .rolledBack _ _,
    fun h => absurd rfl h, hl⟩

lemma rollbackPostcond_lawful (x : Exhaust) (body : ∃ r, env.body = .rollbackBatch r)
    (s : ObjectSlot) (i : ChunkIndex) (t : Txn) (ver : Version) (pred : Option Version)
    (custody : UInt64) (hl : res.Loggable → res'.Loggable) :
    (rollbackPostcond x c s i t ver pred custody res').Lawful c env ordinal a res := by
  unfold rollbackPostcond
  split
  · exact refuse_lawful hl nofun
  next pi hpi =>
  split
  · exact refuse_lawful hl nofun
  next hroom =>
  refine ⟨fun _ => .postcond body hpi rfl (room_of_seen hroom), ?_, fun _ => rfl, hl⟩
  have hpi := spare_some hpi
  constructor <;> apply Core.ext <;>
    first | rfl | exact clear_set hpi | exact clear_eq_self hpi

section

variable (x : Exhaust) (body : env.body = .rollbackBatch r) (entry : r.entries[ordinal]? = some e)

include body entry

lemma rollbackCommitted_lawful (found : txnFind c e.txn = some (ti, t))
    (phase : t.phase = .committed) (object : c.objects t.object = some o)
    (writable : chunkWritable (o.chunks t.index)) (hl : res.Loggable → res'.Loggable) :
    (rollbackCommitted x c e a t.object t.index (o.chunks t.index) ti t res').Lawful c env ordinal a
      res := by
  unfold rollbackCommitted
  split
  · exact refuse_lawful hl nofun
  split
  · exact refuse_lawful hl nofun
  next hright =>
  iterate 4
    split
    · exact refuse_lawful hl nofun
  next hvisible =>
  split
  · exact refuse_lawful hl nofun
  next hpending =>
  split
  · exact refuse_lawful hl nofun
  next vi ver hver =>
  obtain ⟨version, number, -⟩ := findById_some hver
  dsimp only
  split
  · exact refuse_lawful hl nofun
  split
  · exact rollbackPostcond_lawful x ⟨r, body⟩ _ _ t _ _ _ hl
  next p hp =>
  split
  · exact refuse_lawful hl nofun
  obtain ⟨hpred, hreleased⟩ := Option.filter_eq_some_iff.mp hp
  obtain ⟨⟨pi, p'⟩, hbind, rfl⟩ := Option.map_eq_some_iff.mp hpred
  obtain ⟨id, pointer, hfind⟩ := Option.bind_eq_some_iff.mp hbind
  obtain ⟨predecessor, rfl, -⟩ := findById_some hfind
  exact ⟨fun _ => .rollbackCommitted body entry found phase (by simpa using hright) object writable
    (by simpa using hpending) (not_not.mp hvisible) version number predecessor pointer
    (by simpa using hreleased), moved_exact object t.index (findById_some found).1 .rolledBack _ _,
    fun h => absurd rfl h, hl⟩

lemma doRollbackEntry_lawful (res : EntryResult) :
    (doRollbackEntry x c env r e a res).Lawful c env ordinal a res := by
  unfold doRollbackEntry
  split
  case h_2 => exact refuse_lawful id nofun
  next s o i hs hi =>
  have hs := (findRow_some hs).1
  split
  · exact refuse_lawful id nofun
  dsimp only
  split
  · exact refuse_lawful id (by split <;> decide)
  next ti t ht =>
  split
  · exact refuse_lawful id nofun
  split
  · exact refuse_lawful id nofun
  next hw =>
  split
  · exact refuse_lawful id nofun
  next hat =>
  obtain ⟨rfl, rfl⟩ : t.object = s ∧ t.index = i := by tauto
  split
  · exact refuse_lawful id nofun
  split
  · next hphase => exact rollbackStaged_lawful body entry ht hphase hs id
  split
  · exact refuse_lawful id nofun
  next hphase =>
  exact rollbackCommitted_lawful x body entry ht (not_not.mp hphase) hs (by simpa using hw) id

end

end

end Reffs.D1
