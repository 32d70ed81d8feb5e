import Reffs.D1.Member
import Reffs.D1.Stock

/-!
# The reducers move the stock

Every change is a sequence of steps of the stock (`Change.stock`): a write names its object, makes
the owner's association and stages the version; `begin_repair` makes an association for each member,
`prepare_repair` stages a version for each, and an abort drops what was staged. The counter of
versions advances by at most `batchEntriesMax` for each receipt, so it cannot wrap.
-/

namespace Reffs.D1

open SlotTable Table Option List Reffs.D1.Core Prod

variable {n : Nat} {ri : Fin maxRepairs} {r : Repair} {s : ObjectSlot} {o : Object}
    {exportUuid : Uuid}
  {env : Envelope UInt64} {a : Admission} {status : Status} {core : Core} {m : RepairMember}
  {l : List (RepairEntry UInt64 × RepairMember)} {ms : List RepairMember} {rb : RepairBatch UInt64}

/-! ## The stock of a state -/

def objectKey (objects : Table maxObjects Object) (s : ObjectSlot) : Option ObjKey :=
  (objects s).map Object.key

/-- An admitted cohort holds this place for this owner. -/
def Core.reserved (c : Core) (s : ObjectSlot) (i : ChunkIndex) (o : Owner) : Prop :=
  ∃ ri r m, c.repairs ri = some r ∧ r.phase = .admitted ∧ r.object = s ∧ m ∈ r.members ∧
    m.index = i ∧ m.owner = o

/-- The stock, with places as they stand in the middle of a loop. -/
def Core.stockWith (c : Core) (reserved : ObjectSlot → ChunkIndex → Owner → Prop) : Stock :=
  ⟨objectKey c.objects, c.versions, c.owners, c.nextVersion, reserved⟩

def Core.stock (c : Core) : Stock := c.stockWith c.reserved

/-- What is known of the stock of a state with `n` receipts. -/
structure Stocked (c : Core) (n : Nat) : Prop where
  inv : c.stock.Inv
  next : c.nextVersion.toNat ≤ 1 + batchEntriesMax * n

/-- A change takes the stock from `c` to `c'`, and uses at most one number for each member. -/
structure StockMoved (c c' : Core) : Prop where
  steps : c.stock.Steps c'.stock
  next : c'.nextVersion.toNat ≤ c.nextVersion.toNat + batchEntriesMax

lemma StockMoved.stocked {c c' : Core} (h : Stocked c n) (hmove : StockMoved c c') :
    Stocked c' (n + 1) := by
  refine ⟨hmove.steps.inv h.inv, ?_⟩
  have := h.next
  have := hmove.next
  rw [Nat.mul_succ]
  omega

lemma Stocked.room {c : Core} (h : Stocked c n) (hn : n < maxReceipts) :
    c.nextVersion.toNat + batchEntriesMax < 2 ^ 64 := by
  have hle : 1 + batchEntriesMax * n ≤ 1 + batchEntriesMax * maxReceipts := by gcongr
  calc c.nextVersion.toNat + batchEntriesMax
      ≤ 1 + batchEntriesMax * maxReceipts + batchEntriesMax :=
        Nat.add_le_add_right (h.next.trans hle) _
    _ < 2 ^ 64 := by decide

lemma ne_uint64Max {u : UInt64} (h : u.toNat + 1 < 2 ^ 64) : u ≠ uint64Max := by
  rintro rfl
  exact absurd h (by decide)

lemma Stocked.next_succ {c : Core} (h : Stocked c n) (hn : n < maxReceipts) :
    (c.nextVersion + 1).toNat = c.nextVersion.toNat + 1 := by
  have hroom := h.room hn
  have hone : 1 ≤ batchEntriesMax := by decide
  exact counter_succ (ne_uint64Max (by omega))

section

variable {c c' : Core}

section

variable (hkey : objectKey c'.objects = objectKey c.objects) (hver : c'.versions = c.versions)
  (hown : c'.owners = c.owners) (hnext : c'.nextVersion = c.nextVersion)
    (hrep : c'.repairs = c.repairs)

include hkey hver hown hnext hrep

/-- The stock reads the names of the objects, the versions, the associations, one counter and the
cohorts. -/
lemma Core.stock_congr : c'.stock = c.stock := by
  have hres : c'.reserved = c.reserved := by
    unfold reserved
    rw [hrep]
  unfold stock stockWith
  rw [hkey, hver, hown, hnext, hres]

lemma StockMoved.same : StockMoved c c' := by
  refine ⟨?_, by rw [hnext]; omega⟩
  rw [stock_congr hkey hver hown hnext hrep]
  exact .refl

end

lemma reserved_set (hrep : c'.repairs = c.repairs.set ri r) (hphase : r.phase ≠ .admitted)
    {i : ChunkIndex} {o : Owner} (h : c'.reserved s i o) :
    ∃ rj r' m, rj ≠ ri ∧ c.repairs rj = some r' ∧ r'.phase = .admitted ∧
      r'.object = s ∧ m ∈ r'.members ∧ m.index = i ∧ m.owner = o := by
  obtain ⟨rj, r', m, hr, hadm, hrest⟩ := h
  rw [hrep, Table.set_apply] at hr
  split at hr
  · rw [← Option.some.inj hr] at hadm
    exact absurd hadm hphase
  · next hne => exact ⟨rj, r', m, hne, hr, hadm, hrest⟩

lemma StockMoved.cohort (hkey : objectKey c'.objects = objectKey c.objects)
    (hver : c'.versions = c.versions) (hown : c'.owners = c.owners)
    (hnext : c'.nextVersion = c.nextVersion) (hrep : c'.repairs = c.repairs.set ri r)
    (hphase : r.phase ≠ .admitted) : StockMoved c c' := by
  refine ⟨.single ?_, by rw [hnext]; omega⟩
  unfold stock stockWith
  rw [hkey, hver, hown, hnext]
  refine .giveUp (k := c.stock) fun s i o h => ?_
  obtain ⟨rj, r', m, -, hrest⟩ := reserved_set hrep hphase h
  exact ⟨rj, r', m, hrest⟩

/-! ## Names of objects -/

section

variable (objects : Table maxObjects Object) (s : ObjectSlot) (i : ChunkIndex)

lemma modifyChunk_key (f : Chunk → Chunk) :
    objectKey (modifyChunk objects s i f) = objectKey objects := by
  funext s'
  unfold objectKey modifyChunk
  rw [modify_apply]
  split
  · rw [Option.map_map]
    rfl
  · rfl

lemma setChunk_key (ch : Chunk) : objectKey (setChunk objects s i ch) = objectKey objects :=
  modifyChunk_key objects s i fun _ => ch

end

lemma modifyChunks_key (s : ObjectSlot) (f : ChunkIndex → Chunk → Chunk) (l : List ChunkIndex) :
    ∀ objects, objectKey (modifyChunks objects s l f) = objectKey objects := by
  induction l with
  | nil => intro objects; rfl
  | cons i l ih => intro objects; exact (ih _).trans (modifyChunk_key objects s i (f i))

lemma objectKey_of (h : c.objects s = some o) : objectKey c.objects s = some o.key := by
  unfold objectKey
  rw [h]
  rfl

lemma objectFind_key {key : ObjKey} (h : objectFind c key = some (s, o)) :
    objectKey c.objects s = some key := by
  obtain ⟨hs, hk⟩ := findRow_some h
  rw [objectKey_of hs]
  exact congrArg some (by simpa using hk)

lemma objectGet_steps {key : ObjKey} {fresh : Bool} {objects : Table maxObjects Object}
    (h : objectGet c key = some (s, o, fresh, objects)) :
    c.stock.Steps (({ c with objects := objects } : Core).stockWith c.reserved) ∧
      objectKey objects s = some key := by
  rcases objectGet_spec h with ⟨rfl, rfl, hs, hk⟩ | ⟨rfl, rfl, hs, rfl, hfind⟩
  · refine ⟨.refl, ?_⟩
    rw [objectKey_of hs, hk]
  have hset : objectKey (c.objects.set s (Object.fresh key)) =
      Function.update (objectKey c.objects) s (some key) := by
    funext s'
    unfold objectKey
    rw [set_apply, Function.update_apply]
    split <;> rfl
  refine ⟨.single ?_, ?_⟩
  · unfold stockWith
    rw [hset]
    refine .name (k := c.stock) ?_ fun s' hs' => ?_
    · change (c.objects s).map Object.key = none
      rw [hs]
      rfl
    · obtain ⟨o', ho', hkey⟩ := map_eq_some_iff.mp hs'
      have := findRow_none.mp hfind s' o' ho'
      simp [hkey] at this
  · rw [hset, Function.update_self]

/-! ## Ordinary members -/

lemma ownerFind_none {owner : Owner} (h : ownerFind c exportUuid owner = none) (aj : Fin maxOwners)
    (a : OwnerAssoc) (ha : c.owners aj = some a) : a.name ≠ (exportUuid, owner) := by
  intro hname
  obtain ⟨he, ho⟩ := mk.inj hname
  have := findRow_none.mp h aj a ha
  simp [he, ho] at this

lemma reserved_not_writable (hb : c.board.Inv) {i : ChunkIndex} {o : Owner} (h : c.reserved s i o) :
    chunkWritable (chunkAt c.objects s i) = false := by
  obtain ⟨ri, r, m, hr, hphase, rfl, hm, rfl, -⟩ := h
  have hrepair : (chunkAt c.objects r.object m.index).repair = some r.id :=
    hb.cohort.open_ ri r m hr (.inl hphase) hm
  rw [← Bool.not_eq_true, chunkWritable_iff]
  rintro ⟨-, hno, -⟩
  rw [hrepair] at hno
  cases hno

lemma OrdinaryChange.stock {ordinal : Nat} (h : Stocked c n) (hn : n < maxReceipts)
    (hb : c.board.Inv) (hc : OrdinaryChange c env ordinal a status core) : StockMoved c core := by
  cases hc with
  | @write w e s o fresh objects i guard ti vi ai activate body entry form unowned get index check
      next txn version assoc =>
      obtain ⟨hnamed, hkey⟩ := objectGet_steps get
      obtain ⟨hsame, hs⟩ := chunkAt_objectGet get
      have hroom : c.nextVersion ≠ uint64Max :=
        ne_uint64Max ((Nat.add_le_add_left (by decide) _).trans_lt (h.room hn))
      have hone : 1 ≤ batchEntriesMax := by decide
      refine ⟨?_, ?_⟩
      · -- the association is made before the version that it is to name
        let row : OwnerAssoc := ⟨env.object.exportUuid, e.owner, s, i, 0⟩
        have hown := @Stock.Step.own (({ c with objects := objects } : Core).stockWith c.reserved)
          ai row (spare_some assoc) (fun aj b hb => ownerFind_none unowned aj b hb)
          (by change (objectKey objects s).map _ = _; rw [hkey]; rfl) rfl
        have hstage := Stock.Step.stage (v := writtenVersion c e s i (o.chunks i)) (a := row)
          (k := { ({ c with objects := objects } : Core).stockWith c.reserved with
            owners := c.owners.set ai row
            reserved := fun s i o => c.reserved s i o ∨ row.At o s i })
          (spare_some version) rfl hroom (set_self _ _ _) ⟨rfl, rfl, rfl⟩ rfl
        refine ((hnamed.tail hown).tail hstage).tail ?_
        unfold stock stockWith
        rw [setChunk_key, Table.set_set]
        refine .giveUp fun s' i' o' hres => ⟨.inl hres, ?_⟩
        rintro ⟨rfl, rfl⟩
        have hbusy := reserved_not_writable hb hres
        have hch : chunkAt c.objects s' i' = o.chunks i' := by rw [← hsame]; exact chunkAt_of hs i'
        rw [hch, (writeChunkCheck_none check).1] at hbusy
        cases hbusy
      · dsimp only
        rw [counter_succ hroom]
        omega
  | finalize | postcond => exact .same rfl rfl rfl rfl rfl
  | commit | rollback | rollbackCommitted => exact .same (setChunk_key ..) rfl rfl rfl rfl

/-! ## begin_repair -/

lemma beginStage_stock {id : UInt64} (rest : List (RepairEntry UInt64)) :
    ∀ (reserved : ObjectSlot → ChunkIndex → Owner → Prop) {b b' : BeginState},
      (∀ e ∈ rest, ∀ aj a, b.core.owners aj = some a → a.name ≠ (env.object.exportUuid, e.owner)) →
      (rest.map (·.owner)).Nodup → objectKey b.core.objects s = some env.object →
      beginStage env s id o rest b = (.ok, b') →
      ∃ reserved', (b.core.stockWith reserved).Steps (b'.core.stockWith reserved') ∧
        (∀ s' i' w, reserved s' i' w → reserved' s' i' w) ∧
        (∀ e ∈ rest, ∀ i, chunkIndex e.index = some i → reserved' s i e.owner) ∧
        b'.core.nextVersion = b.core.nextVersion ∧ b'.core.versions = b.core.versions := by
  induction rest with
  | nil =>
    intro reserved b b' _ _ _ h
    obtain rfl : b = b' := congrArg snd h
    exact ⟨reserved, .refl, fun _ _ _ hr => hr, fun e he => absurd he not_mem_nil, rfl, rfl⟩
  | cons e rest ih =>
    intro reserved b b' hfree hnodup hkey h
    rw [map_cons, nodup_cons] at hnodup
    unfold beginStage at h
    split at h
    · cases h
    next i hi =>
    split at h
    case h_2 hne _ => exact absurd (congrArg fst h) hne
    next b₁ hb₁ =>
    obtain ⟨ti, ai, postconds, -, hai, -, -, hcore⟩ := beginMember_ok hb₁
    let row : OwnerAssoc := ⟨env.object.exportUuid, e.owner, s, i, 0⟩
    let reserved₁ : ObjectSlot → ChunkIndex → Owner → Prop :=
      fun s' i' w => reserved s' i' w ∨ row.At w s' i'
    have hown : (b.core.stockWith reserved).Step (b₁.core.stockWith reserved₁) := by
      have hstep := @Stock.Step.own (b.core.stockWith reserved) ai row hai
        (fun aj a ha => hfree e mem_cons_self aj a ha)
        (by change (objectKey b.core.objects s).map _ = _; rw [hkey]; rfl) rfl
      rw [hcore]
      unfold stockWith
      dsimp only
      rw [modifyChunk_key]
      exact hstep
    have hfree₁ : ∀ e' ∈ rest, ∀ aj a, b₁.core.owners aj = some a →
        a.name ≠ (env.object.exportUuid, e'.owner) := by
      intro e' he' aj a ha
      rw [hcore] at ha
      dsimp only at ha
      rw [set_apply] at ha
      split at ha
      · rw [← some.inj ha]
        intro hname
        have howner : e.owner = e'.owner := (mk.inj hname).2
        refine hnodup.1 ?_
        rw [howner]
        exact mem_map_of_mem he'
      · exact hfree e' (mem_cons_of_mem e he') aj a ha
    have hkey₁ : objectKey b₁.core.objects s = some env.object := by
      rw [hcore, ← hkey]
      dsimp only
      rw [modifyChunk_key]
    obtain ⟨reserved', hsteps, hold, hnew, hnext, hver⟩ := ih reserved₁ hfree₁ hnodup.2 hkey₁ h
    refine ⟨reserved', hsteps.head hown, fun s' i' w hr => hold s' i' w (.inl hr), ?_, ?_, ?_⟩
    · intro e' he' i' hi'
      rcases mem_cons.mp he' with rfl | he'
      · obtain rfl : i = i' := some.inj (hi.symm.trans hi')
        exact hold s i e'.owner (.inr ⟨rfl, rfl, rfl⟩)
      · exact hnew e' he' i' hi'
    · rw [hnext, hcore]
    · rw [hver, hcore]

lemma begun_stock {u : RepairUndo} {b : BeginState} {es : List (RepairEntry UInt64)}
    (object : objectFind c env.object = some (s, o))
    (unowned : ∀ e ∈ es, ownerFind c env.object.exportUuid e.owner = none)
    (apart : (es.map (·.owner)).Nodup) (hbegun : b.Begun c s c.nextRepair es)
    (stage : beginStage env s c.nextRepair o es ⟨{ c with nextRepair := c.nextRepair + 1 }, u, []⟩ =
      (.ok, b))
    {admission : UInt64}
    (hcore : core = { b.core with
      repairs := b.core.repairs.set ri ⟨c.nextRepair, s, admission, .admitted, b.members⟩ }) :
    StockMoved c core := by
  obtain ⟨reserved', hsteps, hold, hnew, hnext, -⟩ := beginStage_stock es c.reserved
    (fun e he aj a ha => ownerFind_none (unowned e he) aj a ha) apart (objectFind_key object) stage
  subst hcore
  refine ⟨hsteps.tail ?_, by dsimp only; rw [hnext]; exact Nat.le_add_right _ _⟩
  refine .giveUp (k := b.core.stockWith reserved') fun s' i' w hres => ?_
  obtain ⟨rj, r, m, hr, hphase, rfl, hm, rfl, rfl⟩ := hres
  dsimp only at hr
  rw [set_apply, hbegun.repairs] at hr
  split at hr
  · cases hr
    obtain ⟨e, he, hi, hvec⟩ := captured_mem hbegun.entries hm
    have howner : m.owner = e.owner := congrArg RepairMember.owner hvec
    rw [howner]
    exact hnew e he m.index hi
  · exact hold _ _ _ ⟨rj, r, m, hr, hphase, rfl, hm, rfl, rfl⟩

/-! ## prepare_repair -/

def replacement (c : Core) (s : ObjectSlot) (e : RepairEntry UInt64) (m : RepairMember) :
    Version where
  id := c.nextVersion
  object := s
  index := m.index
  bytes := (e.payload.getD ⟨[], ⟨0, 0, ByteCodec.zeros 4⟩⟩).payload
  checksum := (e.payload.getD ⟨[], ⟨0, 0, ByteCodec.zeros 4⟩⟩).checksum
  owner := m.owner
  predecessor := some m.successor
  released := false

/-- The associations once that of `owner` names the next version. -/
def stampOwner (c : Core) (exportUuid : Uuid) (owner : Owner) : Table maxOwners OwnerAssoc :=
  match ownerFind c exportUuid owner with
  | none => c.owners
  | some (ai, assoc) => c.owners.set ai { assoc with version := c.nextVersion }

def staged (c : Core) (exportUuid : Uuid) (s : ObjectSlot) (e : RepairEntry UInt64)
    (m : RepairMember) (vi : Fin maxVersions) (ti : Fin maxTxns) (t : Txn) : Core :=
  { c with
    versions := c.versions.set vi (replacement c s e m)
    nextVersion := c.nextVersion + 1
    txns := c.txns.set ti { t with version := c.nextVersion, phase := .prepared }
    owners := stampOwner c exportUuid m.owner }

/-- Members staged one after the other, from one state to another. -/
inductive Stages (exportUuid : Uuid) (s : ObjectSlot) :
    List (RepairEntry UInt64 × RepairMember) → Core → List RepairMember → Core → Prop where
  | nil (c : Core) : Stages exportUuid s [] c [] c
  | cons {e : RepairEntry UInt64} {m : RepairMember}
      {l : List (RepairEntry UInt64 × RepairMember)} {c c' : Core} {ms : List RepairMember}
      {vi : Fin maxVersions} {ti : Fin maxTxns} {t : Txn} (slot : c.versions vi = none)
      (txn : txnFind c m.txn = some (ti, t))
      (rest : Stages exportUuid s l (staged c exportUuid s e m vi ti t) ms c') :
      Stages exportUuid s ((e, m) :: l) c
        ({ m with staged := true, version := c.nextVersion } :: ms) c'

lemma prepareMember_ok {ch : Chunk} {e : RepairEntry UInt64} {p q : PrepareState}
    (h : prepareMember exportUuid s ch n e m p = (.ok, q)) :
    ∃ vi ti t, p.core.versions vi = none ∧ txnFind p.core m.txn = some (ti, t) ∧
      q.core = staged p.core exportUuid s e m vi ti t ∧
      q.members = p.members ++ [{ m with staged := true, version := p.core.nextVersion }] := by
  unfold prepareMember at h
  dsimp only at h
  split at h
  · cases h
  split at h
  · cases h
  split at h
  case h_2 => cases h
  next vi ti t hv ht =>
  obtain rfl := congrArg snd h
  refine ⟨vi, ti, t, spare_some hv, ht, ?_, rfl⟩
  have hfind : ownerFind { p.core with
      versions := p.core.versions.set vi (replacement p.core s e m)
      nextVersion := p.core.nextVersion + 1
      txns := p.core.txns.set ti { t with version := p.core.nextVersion, phase := .prepared } }
      exportUuid m.owner = ownerFind p.core exportUuid m.owner := rfl
  unfold staged stampOwner
  dsimp only
  rw [← hfind]
  split
  · next hno => simp only [replacement] at hno ⊢; rw [hno]
  · next hsome => simp only [replacement] at hsome ⊢; rw [hsome]

lemma prepareMember_refused {ch : Chunk} {e : RepairEntry UInt64} {p q : PrepareState}
    (h : prepareMember exportUuid s ch n e m p = (status, q)) (hno : status ≠ .ok) :
    q.core = p.core ∧ q.members = p.members := by
  grind [Prod.mk.inj, prepareMember]

/-- The loop stages the members up to the first that is refused, and leaves the others as they
are. -/
lemma prepareStage_stages (l : List (RepairEntry UInt64 × RepairMember)) :
    ∀ {n : Nat} {p q : PrepareState} {status : Status}, prepareStage exportUuid s o n l p =
      (status, q) → ∃ done rest ms, l = done ++ rest ∧ Stages exportUuid s done p.core ms q.core ∧
        q.members = p.members ++ (ms ++ rest.map snd) ∧ (status = .ok → rest = []) := by
  induction l with
  | nil =>
    intro n p q status h
    obtain rfl : p = q := congrArg snd h
    exact ⟨[], [], [], rfl, .nil _, (append_nil _).symm, fun _ => rfl⟩
  | cons em l ih =>
    obtain ⟨e, m⟩ := em
    intro n p q status h
    unfold prepareStage at h
    split at h
    · next p₁ hp₁ =>
      obtain ⟨vi, ti, t, hvi, hti, hcore, hms⟩ := prepareMember_ok hp₁
      obtain ⟨done, rest, ms, hl, hrun, hq, hok⟩ := ih h
      rw [hcore] at hrun
      refine ⟨(e, m) :: done, rest, _, by rw [hl]; rfl, .cons hvi hti hrun, ?_, hok⟩
      rw [hq, hms]
      simp
    · next status' p₁ hne hp₁ =>
      obtain ⟨hcore, hms⟩ := prepareMember_refused hp₁ hne
      refine ⟨[], (e, m) :: l, [], rfl, ?_, ?_, fun hok => ?_⟩
      · rw [← (mk.inj h).2, ← hcore]
        exact .nil _
      · grind
      · exact absurd ((mk.inj h).1.trans hok) hne

lemma Stages.frame (h : Stages exportUuid s l c ms c') :
    ∃ versions nextVersion txns owners, c' = { c with
      versions := versions, nextVersion := nextVersion, txns := txns, owners := owners } := by
  induction h with
  | nil c => exact ⟨_, _, _, _, rfl⟩
  | cons slot txn rest ih =>
    obtain ⟨versions, nextVersion, txns, owners, he⟩ := ih
    exact ⟨versions, nextVersion, txns, owners, he⟩

lemma Stages.stock (h : Stages exportUuid s l c ms c') :
    ∀ {reserved : ObjectSlot → ChunkIndex → Owner → Prop}, (c.stockWith reserved).Inv →
      (∀ em ∈ l, reserved s em.2.index em.2.owner) → (l.map (·.2.index)).Nodup →
      (objectKey c.objects s).map (·.exportUuid) = some exportUuid →
      c.nextVersion.toNat + l.length < 2 ^ 64 →
      ∃ reserved', (c.stockWith reserved).Steps (c'.stockWith reserved') ∧
        (∀ s' i' w, reserved s' i' w → ¬ (s' = s ∧ i' ∈ l.map (·.2.index)) → reserved' s' i' w) ∧
        c'.nextVersion.toNat = c.nextVersion.toNat + l.length ∧
        ∀ m ∈ ms, (c'.stockWith reserved').AtPlace m.version s m.index := by
  induction h with
  | nil c =>
    intro reserved _ _ _ _ _
    exact ⟨reserved, .refl, fun _ _ _ hr _ => hr, rfl, fun m hm => absurd hm not_mem_nil⟩
  | @cons e m l c c' ms vi ti t slot txn rest ih =>
    intro reserved hinv hres hnodup hexp hroom
    rw [map_cons, nodup_cons] at hnodup
    rw [length_cons] at hroom
    have hmax : c.nextVersion ≠ uint64Max := ne_uint64Max (by omega)
    have hsucc := counter_succ hmax
    -- the association the member's owner was given when the repair began
    obtain ⟨ai, a, ha, hat, hunused⟩ := hinv.reserved s m.index m.owner (hres (e, m) mem_cons_self)
    have haexp : a.exportUuid = exportUuid := by
      have hae := hinv.exported ai a ha
      rw [hat.2.1] at hae
      exact some.inj (hae.symm.trans hexp)
    have hstamp : stampOwner c exportUuid m.owner =
        c.owners.set ai { a with version := c.nextVersion } := by
      have hfind : ownerFind c exportUuid m.owner = some (ai, a) := by
        rw [← haexp, ← hat.1]
        exact hinv.assoc_eq ha
      unfold stampOwner
      rw [hfind]
    let reserved₁ : ObjectSlot → ChunkIndex → Owner → Prop :=
      fun s' i' w => reserved s' i' w ∧ ¬ (s' = s ∧ i' = m.index)
    have hstep :
        (c.stockWith reserved).Step ((staged c exportUuid s e m vi ti t).stockWith reserved₁) := by
      have hstage := @Stock.Step.stage (c.stockWith reserved) vi (replacement c s e m) ai a slot
        rfl hmax ha hat hunused
      unfold stockWith staged
      rw [hstamp]
      exact hstage
    have hres₁ : ∀ em ∈ l, reserved₁ s em.2.index em.2.owner := by grind
    obtain ⟨reserved', hsteps, hkept, hnext, hplaces⟩ := ih (hstep.inv hinv) hres₁ hnodup.2 hexp
      (by change (c.nextVersion + 1).toNat + _ < _; omega)
    refine ⟨reserved', hsteps.head hstep, ?_, ?_, ?_⟩
    · grind
    · rw [hnext, length_cons]
      change (c.nextVersion + 1).toNat + l.length = _
      omega
    · intro m' hm'
      rcases mem_cons.mp hm' with rfl | hm'
      · have hplace : ((staged c exportUuid s e m vi ti t).stockWith reserved₁).AtPlace
            c.nextVersion s m.index :=
          Stock.Inv.atPlace (v := replacement c s e m) (hstep.inv hinv) (set_self _ vi _)
        exact hplace.grows hsteps.grows
      · exact hplaces m' hm'

/-! ## Aborting -/

lemma dropMembers_stock (s : ObjectSlot) (reserved : ObjectSlot → ChunkIndex → Owner → Prop)
    (ms : List RepairMember) : ∀ (c : Core) (u : RepairUndo),
      (c.stockWith reserved).Steps ((dropMembers s ms c u).1.stockWith reserved) ∧
        (dropMembers s ms c u).1.nextVersion = c.nextVersion ∧
        (dropMembers s ms c u).1.repairs = c.repairs := by
  induction ms with
  | nil => intro c u; exact ⟨.refl, rfl, rfl⟩
  | cons m ms ih =>
    intro c u
    let released : Core := { c with
      objects := modifyChunk c.objects s m.index fun ch => { ch with repair := none } }
    obtain ⟨hsteps, hnext, hrep⟩ := ih (memberDrop released m (u.noteChunk c.objects s m.index)).1
      (memberDrop released m (u.noteChunk c.objects s m.index)).2.2
    refine ⟨?_, hnext, hrep⟩
    have hkey : objectKey released.objects = objectKey c.objects :=
      modifyChunk_key c.objects s m.index fun ch => { ch with repair := none }
    have hdrop : (c.stockWith reserved).Steps ((memberDrop released m
        (u.noteChunk c.objects s m.index)).1.stockWith reserved) := by
      unfold memberDrop stockWith
      rw [hkey]
      cases versionFind released m.version with
      | none => exact .refl
      | some p => exact .single (.drop (k := c.stockWith reserved) p.1)
    exact hdrop.trans hsteps

lemma abortCohort_stock (c : Core) (ri : Fin maxRepairs) (r : Repair) (u : RepairUndo)
    (reserved : ObjectSlot → ChunkIndex → Owner → Prop) :
    ∃ dropped r', (c.stockWith reserved).Steps (stockWith dropped reserved) ∧
      dropped.nextVersion = c.nextVersion ∧ dropped.repairs = c.repairs ∧ r'.phase = .aborted ∧
      (abortCohort c ri r u).1 = { dropped with repairs := dropped.repairs.set ri r' } := by
  obtain ⟨hsteps, hnext, hrep⟩ := dropMembers_stock r.object reserved r.members c u
  refine ⟨_, _, hsteps, hnext, hrep, ?_, rfl⟩
  rfl

lemma Core.stock_giveUp {reserved : ObjectSlot → ChunkIndex → Owner → Prop}
    (hphase : r.phase ≠ .admitted)
    (hothers : ∀ rj r' m, rj ≠ ri → c.repairs rj = some r' → r'.phase = .admitted →
      m ∈ r'.members → reserved r'.object m.index m.owner) :
    (c.stockWith reserved).Step ({ c with repairs := c.repairs.set ri r } : Core).stock := by
  refine .giveUp (k := c.stockWith reserved) fun s i w hres => ?_
  obtain ⟨rj, r', m, hne, hr', hadm, rfl, hm, rfl, rfl⟩ := reserved_set (c := c) rfl hphase hres
  exact hothers rj r' m hne hr' hadm hm

/-! ## The repair operations -/

lemma open_apart (hb : c.board.Inv) {rj : Fin maxRepairs} {r' : Repair} (hr : c.repairs ri = some r)
    (hopen : r.Open) (hr' : c.repairs rj = some r') (hopen' : r'.Open) (hne : rj ≠ ri)
    (hm : m ∈ r'.members) : ¬ (r'.object = r.object ∧ m.index ∈ r.members.map (·.index)) := by
  rintro ⟨hobj, hmem⟩
  obtain ⟨m', hm', he⟩ := mem_map.mp hmem
  have h' := hb.cohort.open_ rj r' m hr' hopen' hm
  have h := hb.cohort.open_ ri r m' hr hopen hm'
  rw [he, ← hobj, h'] at h
  exact hne (hb.cohort.unique rj ri r' r hr' hr (some.inj h))

lemma zip_members (h : r.members.length = rb.entries.length) :
    (rb.entries.zip r.members).map snd = r.members := by
  rw [map_snd_zip]
  exact h.le

lemma Stages.cohort (hst : Stocked c n) (hn : n < maxReceipts) (hb : c.board.Inv)
    (on : OnCohort c env rb a ri r o) (phase : r.phase = .admitted)
    {done rest : List (RepairEntry UInt64 × RepairMember)} (hl : l = done ++ rest)
    (hmem : l.map snd = r.members) (hcount : l.length ≤ batchEntriesMax)
    (h : Stages env.object.exportUuid r.object done c ms c') :
    ∃ reserved', c.stock.Steps (c'.stockWith reserved') ∧
      (∀ rj r' m, rj ≠ ri → c.repairs rj = some r' → r'.phase = .admitted → m ∈ r'.members →
        reserved' r'.object m.index m.owner) ∧
      c'.nextVersion.toNat ≤ c.nextVersion.toNat + batchEntriesMax ∧ c'.repairs = c.repairs ∧
      ∀ m ∈ ms, (c'.stockWith reserved').AtPlace m.version r.object m.index := by
  have hsub : ∀ em ∈ done, em.2 ∈ r.members := by grind
  have hindex : l.map (·.2.index) = r.members.map (·.index) := by
    rw [← hmem, List.map_map]
    rfl
  have hnodup : (done.map (·.2.index)).Nodup := by
    have hall : (l.map (·.2.index)).Nodup := hindex ▸ hb.cohort.nodup ri r on.row
    rw [hl, map_append] at hall
    exact hall.of_append_left
  have hlen : done.length ≤ batchEntriesMax := by grind
  obtain ⟨reserved', hsteps, hkept, hnext, hplaces⟩ := h.stock hst.inv
    (fun em hem => ⟨ri, r, em.2, on.row, phase, rfl, hsub em hem, rfl, rfl⟩) hnodup
    (by rw [objectFind_key on.object]; rfl)
    (by have := hst.room hn; omega)
  refine ⟨reserved', hsteps, ?_, by omega, ?_, hplaces⟩
  · intro rj r' m hne hr' hadm hm
    refine hkept _ _ _ ⟨rj, r', m, hr', hadm, rfl, hm, rfl, rfl⟩ ?_
    rintro ⟨hobj, hin⟩
    obtain ⟨em, hem, he⟩ := mem_map.mp hin
    refine open_apart hb on.row (.inl phase) hr' (.inl hadm) hne hm ⟨hobj, ?_⟩
    rw [← he]
    exact mem_map_of_mem (hsub em hem)
  · obtain ⟨_, _, _, _, he⟩ := h.frame
    rw [he]

lemma RepairChange.stock {op : RepairOp} {cohort : Option UInt64} (hst : Stocked c n)
    (hnum : Numbered c n) (hn : n < maxReceipts) (hb : c.board.Inv) (hrb : validateRepair op rb)
    (hc : RepairChange c env rb a op cohort status core) : StockMoved c core := by
  have hcount := validateRepair_count hrb
  have hzip : ∀ {r : Repair}, r.members.length = rb.entries.length →
      (rb.entries.zip r.members).length ≤ batchEntriesMax := by grind
  cases hc with
  | @markError s o ei ep cohort u object free =>
    obtain ⟨custody, hcus⟩ := exists_custody (validateRepair_vector hrb).1
    refine .same ?_ rfl rfl rfl rfl
    rw [markErrorStage_eq s _ custody rb.entries hcus, modifyChunks_key]
  | beginRepair object capturable unowned apart slot stage =>
    exact begun_stock object unowned apart (beginStage_begun hnum hn hb hcount stage) stage rfl
  | @prepareRepair ri r o u res p on length named phase stage =>
    obtain ⟨done, rest, ms, hl, hrun, hms, hok⟩ := prepareStage_stages _ stage
    obtain ⟨reserved', hsteps, hkept, hnext, hrep, -⟩ :=
      hrun.cohort hst hn hb on phase hl (zip_members length) (hzip length)
    refine ⟨hsteps.tail (stock_giveUp nofun ?_), hnext⟩
    intro rj r' m hne hr' hadm hm
    exact hkept rj r' m hne (hrep ▸ hr') hadm hm
  | @prepareRefused ri r o u res status p on length phase stage refused =>
    obtain ⟨done, rest, ms, hl, hrun, hms, hok⟩ := prepareStage_stages _ stage
    obtain ⟨reserved', hsteps, hkept, hnext, hrep, -⟩ :=
      hrun.cohort hst hn hb on phase hl (zip_members length) (hzip length)
    obtain ⟨dropped, row, hdrop, hnext', hrep', hphase', he⟩ :=
      abortCohort_stock (p.held ri r) ri { r with members := p.members } p.undo reserved'
    rw [he]
    refine ⟨(hsteps.trans hdrop).tail (stock_giveUp (by rw [hphase']; decide) ?_), ?_⟩
    · intro rj r' m hne hr' hadm hm
      have hheld : (p.held ri r).repairs rj = p.core.repairs rj := set_ne hne
      rw [hrep', hheld, hrep] at hr'
      exact hkept rj r' m hne hr' hadm hm
    · dsimp only
      rw [hnext']
      exact hnext
  | @abortRepair ri r o u on phase =>
    obtain ⟨dropped, row, hdrop, hnext', hrep', hphase', he⟩ :=
      abortCohort_stock c ri r u c.reserved
    rw [he]
    refine ⟨hdrop.tail (stock_giveUp (by rw [hphase']; decide) ?_), ?_⟩
    · intro rj r' m hne hr' hadm hm
      exact ⟨rj, r', m, hrep' ▸ hr', hadm, rfl, hm, rfl, rfl⟩
    dsimp only
    rw [hnext']
    exact Nat.le_add_right _ _
  | finalizeRepair on phase => exact .cohort rfl rfl rfl rfl rfl nofun
  | @commitRepair ri r o u core on phase staged stage =>
    obtain ⟨version, hver⟩ := exists_byIndex (hb.cohort.nodup ri r on.row) RepairMember.version
    obtain ⟨txns, -, he⟩ :=
      commitStage_spec r.object version r.members c u (hb.txn.repairTxns on.row) hver
    rw [← stage, he]
    exact .cohort (modifyChunks_key ..) rfl rfl rfl rfl nofun
  | clearError u on phase found certificate marked | unlock u on phase locked =>
    refine .same ?_ rfl rfl rfl rfl
    rw [changeChunks_eq, modifyChunks_key]

/-! ## The control operations -/

lemma ControlChange.stock (hc : ControlChange c env core) : core.stock = c.stock := by
  refine hc.closed (R := fun c core => core.stock = c.stock) (fun _ => rfl) (fun h h' => h'.trans h)
    (fun _ _ _ _ => rfl) (fun c ri fresh => ?_) (fun _ _ => rfl) fun c s _ t =>
      Core.stock_congr (modifyChunk_key c.objects s t.index (·.dropPending t.id)) rfl rfl rfl rfl
  have hres : ({ c with repairs := c.repairs.modify ri fun r => { r with admission := fresh } } :
      Core).reserved = c.reserved := by
    funext s i w
    refine propext ⟨?_, ?_⟩
    · rintro ⟨rj, r, m, hr, hrest⟩
      dsimp only at hr
      rw [modify_apply] at hr
      split at hr
      · obtain ⟨r', hr', rfl⟩ := map_eq_some_iff.mp hr
        exact ⟨rj, r', m, hr', hrest⟩
      · exact ⟨rj, r, m, hr, hrest⟩
    · rintro ⟨rj, r, m, hr, hrest⟩
      by_cases hj : rj = ri
      · refine ⟨rj, { r with admission := fresh }, m, ?_, hrest⟩
        dsimp only
        rw [modify_apply, if_pos hj, hr]
        rfl
      · refine ⟨rj, r, m, ?_, hrest⟩
        dsimp only
        rw [modify_apply, if_neg hj, hr]
  unfold Core.stock
  rw [hres]
  rfl

theorem Change.stock {ordinal : Nat} {cohort : Option UInt64} (hst : Stocked c n)
    (hnum : Numbered c n) (hn : n < maxReceipts) (hb : c.board.Inv) (hv : envelopeValidate env)
    (hc : Change c env ordinal cohort status core) : StockMoved c core := by
  cases hc with
  | ordinary _ _ change => exact change.stock hst hn hb
  | @repair op rb _ _ _ _ body _ change =>
    have hrb := validateRepair_of_envelope hv body
    exact change.stock hst hnum hn hb hrb
  | control _ _ change =>
    have hsame := change.stock
    have hnext : core.nextVersion = c.nextVersion := congrArg Stock.nextVersion hsame
    refine ⟨by rw [hsame]; exact .refl, ?_⟩
    rw [hnext]
    exact Nat.le_add_right _ _

end

end Reffs.D1
