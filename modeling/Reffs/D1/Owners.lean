import Reffs.D1.Events
import Reffs.D1.Refine.Stock
import Reffs.D1.Sequential

/-!
# Owners

An owner is bound to one chunk of one object, for good. Every event moves the stock by steps
(`step_stock`), so a run keeps the stock's invariant and takes nothing back; what is said here of
owners and their versions is read off both.
-/

namespace Reffs.D1

open ByteCodec SlotTable Table

/-! ## Events move the stock -/

lemma controlLocked_stock (c : Core) (r : ControlRequest) :
    c.stock.Steps (controlLocked c r).2.stock ∧
      (controlLocked c r).2.nextVersion = c.nextVersion := by
  have hdone := controlLocked_done c r
  generalize (controlLocked c r).2 = core at hdone
  cases hdone with
  | quiet | custody => exact ⟨.refl, rfl⟩
  | release body row => exact ⟨.single (.release (k := c.stock) (findById_some row).1), rfl⟩

lemma Records.stock {c c' : Core} {ans : MemberAnswer} (h : Records c ans c') (hc : c.Inv)
    (hst : Stocked c c.receipts.used) : c.stock.Steps c'.stock ∧ Stocked c' c'.receipts.used := by
  obtain @⟨_, _, _, _, _, core, _, valid, spare, _, _, change⟩ := h
  have hslot := spare_some spare
  have hmove : StockMoved c core := by
    rcases change with ⟨-, rfl⟩ | change
    · exact .same rfl rfl rfl rfl rfl
    · exact change.stock hst hc.numbered (used_lt_of_spare hslot) hc.board valid
  refine ⟨hmove.steps, ?_⟩
  dsimp only
  rw [used_set hslot]
  exact { hmove.stocked hst with }

lemma step_stock {w : World} (h : w.Inv)
    (hst : Stocked w.store.core w.store.core.receipts.used) (e : Event) :
    w.store.core.stock.Steps (step w e).store.core.stock ∧
      Stocked (step w e).store.core (step w e).store.core.receipts.used := by
  refine (step_effect h e).elim (P := fun _ c => w.store.core.stock.Steps c.stock ∧
    Stocked c c.receipts.used) h ?_ ?_ ?_ ?_
  · exact ⟨.refl, hst⟩
  · exact fun _ => ⟨.refl, { hst with }⟩
  · intro r
    obtain ⟨hsteps, hnext⟩ := controlLocked_stock w.store.core r
    obtain ⟨_, _, _, _, _, _, hframe⟩ := controlLocked_frame w.store.core r
    have hreceipts : (controlLocked w.store.core r).2.receipts = w.store.core.receipts := by grind
    refine ⟨hsteps, hsteps.inv hst.inv, ?_⟩
    rw [hnext, hreceipts]
    exact hst.next
  · exact fun ans core hrec => hrec.stock h.store.core hst

lemma coreOpen_stocked {uuid : Uuid} {chunkBytes : UInt32} {maxFileBytes : UInt64} {c : Core}
    (h : coreOpen uuid chunkBytes maxFileBytes = some c) : Stocked c c.receipts.used := by
  obtain ⟨hobjects, -, hversions, -, howners, -, hrepairs, hnext⟩ := coreOpen_empty h
  have hstock : c.stock = ⟨fun _ => none, empty, empty, 1, fun _ _ _ => False⟩ := by
    unfold Core.stock Core.stockWith Core.reserved
    rw [hobjects, hversions, howners, hnext, hrepairs]
    congr 1
    funext s i o
    exact propext ⟨fun ⟨_, _, _, hr, _⟩ => (nomatch hr), False.elim⟩
  refine ⟨?_, by rw [hnext]; exact Nat.le_add_right 1 _⟩
  rw [hstock]
  exact ⟨fun _ _ _ h => (nomatch h), keyUnique_empty _, fun _ _ h => (nomatch h), le_rfl,
    keyUnique_empty _, fun _ _ h => (nomatch h), fun _ _ h => (nomatch h),
    fun _ _ _ h => h.elim⟩

lemma Reachable.stocked {w : World} (h : Reachable w) :
    Stocked w.store.core w.store.core.receipts.used :=
  h.induct (P := fun c => Stocked c c.receipts.used) coreOpen_stocked
    fun hw hst => (step_stock hw.inv hst _).2

theorem Reachable.run_grows {w : World} (h : Reachable w) (es : List Event) :
    w.store.core.stock.Grows (Machine.run step w es).store.core.stock := by
  have hrun := Machine.run_invariant
    (I := fun w' => Reachable w' ∧ w.store.core.stock.Grows w'.store.core.stock)
    (fun w' e hw => ⟨hw.1.run [e], hw.2.trans (step_stock hw.1.inv hw.1.stocked e).1.grows⟩)
    ⟨h, .refl _⟩ es
  exact hrun.2

/-! ## What an owner is bound to -/

def ownerBound (c : Core) (exportUuid : Uuid) (owner : Owner) : Option (ObjKey × ChunkIndex) := do
  let (_, a) ← ownerFind c exportUuid owner
  let key ← objectKey c.objects a.object
  some (key, a.index)

def versionExport (c : Core) (v : Version) : Option Uuid :=
  (objectKey c.objects v.object).map (·.exportUuid)

lemma ownerFind_eq {c : Core} (h : c.stock.Inv) {ai : Fin maxOwners} {a : OwnerAssoc}
    (ha : c.owners ai = some a) : ownerFind c a.exportUuid a.owner = some (ai, a) :=
  h.assoc_eq ha

lemma Stock.Grows.ownerBound {c c' : Core} (h : c.stock.Grows c'.stock) (hinv : c'.stock.Inv)
    {exportUuid : Uuid} {owner : Owner} {p : ObjKey × ChunkIndex}
    (hp : ownerBound c exportUuid owner = some p) : ownerBound c' exportUuid owner = some p := by
  simp only [Reffs.D1.ownerBound, Option.bind_eq_bind, Option.bind_eq_some_iff] at hp
  obtain ⟨⟨ai, a⟩, hfind, key, hkey, hp⟩ := hp
  cases hp
  obtain ⟨ha, hname⟩ := findRow_some hfind
  rw [Bool.and_eq_true, beq_iff_eq, beq_iff_eq] at hname
  obtain ⟨v, ha'⟩ := h.owner ai a ha
  have hfind' : ownerFind c' exportUuid owner = some (ai, { a with version := v }) := by
    rw [← hname.1, ← hname.2]
    exact ownerFind_eq hinv ha'
  have hkey' : objectKey c'.objects a.object = some key := h.key a.object key hkey
  simp [Reffs.D1.ownerBound, hfind', hkey']

/-- **An owner has one association, and it stays:** in every reachable state an export and an owner
name at most one row; whatever happens afterwards, the object and the chunk it is bound to are the
same; and no two versions of one export have the same owner. -/
theorem owner_bound_once {w : World} (h : Reachable w) :
    (∀ ai bi a b, w.store.core.owners ai = some a → w.store.core.owners bi = some b →
      a.exportUuid = b.exportUuid → a.owner = b.owner → ai = bi) ∧
    (∀ es exportUuid owner p, ownerBound w.store.core exportUuid owner = some p →
      ownerBound (Machine.run step w es).store.core exportUuid owner = some p) ∧
    ∀ vi vj v u, w.store.core.versions vi = some v → w.store.core.versions vj = some u →
      versionExport w.store.core v = versionExport w.store.core u → v.owner = u.owner →
      vi = vj := by
  have hinv := h.stocked.inv
  refine ⟨fun ai bi a b ha hb he ho => ?_, fun es exportUuid owner p hp => ?_,
    fun vi vj v u hv hu he ho => ?_⟩
  · exact hinv.name ai bi a b ha hb (Prod.ext he ho)
  · exact (h.run_grows es).ownerBound (h.run es).stocked.inv hp
  · exact hinv.owner_unique hv hu ho he

/-- The owner of the first write stays bound to the first chunk. -/
theorem owner_bound_once_small :
    ownerBound writtenWorld.store.core (zeros 16) (smallClient.owner 1) = some (noObject, 0) ∧
      ∀ es, ownerBound (Machine.run step writtenWorld es).store.core (zeros 16)
        (smallClient.owner 1) = some (noObject, 0) := by
  have hbound : ownerBound writtenWorld.store.core (zeros 16) (smallClient.owner 1) =
      some (noObject, 0) := by decide +kernel
  exact ⟨hbound, fun es => (owner_bound_once writtenWorld_reachable).2.1 es _ _ _ hbound⟩

end Reffs.D1
