import Reffs.D1.Store

/-!
# The stock: versions and their owners

A second abstract model of the store, beside the board. It keeps the names of the objects, the
numbered versions and the owner associations; a repair that has been admitted has reserved an owner
for each of its places, and no version yet.

`Stock.Step` lists what can happen to these, one row at a time, so that a loop over a vector is a
sequence of steps. `Stock.Inv` is what every step keeps, and `Stock.Grows` what no step takes back:
an object keeps its name, an association its owner and its place, and a number once given is not
given again.
-/

namespace Reffs.D1

open SlotTable Table Function Option

variable {v : Version} {ai : Fin maxOwners} {a : OwnerAssoc} {vi : Fin maxVersions}

structure Stock where
  key : ObjectSlot → Option ObjKey
  versions : Table maxVersions Version
  owners : Table maxOwners OwnerAssoc
  nextVersion : UInt64
  /-- The places admitted repairs hold, and the owner each is to be replaced under. -/
  reserved : ObjectSlot → ChunkIndex → Owner → Prop

def Version.fixed (v : Version) : Version := { v with released := false }

lemma Version.of_fixed {u : Version} (h : u.fixed = v.fixed) : u.id = v.id ∧
    u.object = v.object ∧ u.index = v.index ∧ u.bytes = v.bytes ∧ u.owner = v.owner ∧
    u.predecessor = v.predecessor := by
  obtain ⟨hid, hobject, hindex, hbytes, -, howner, hpred, -⟩ := Version.mk.inj h
  exact ⟨hid, hobject, hindex, hbytes, howner, hpred⟩

def OwnerAssoc.name (a : OwnerAssoc) : Uuid × Owner := (a.exportUuid, a.owner)

/-- Association `a` is the one of owner `o` at a place. -/
def OwnerAssoc.At (a : OwnerAssoc) (o : Owner) (s : ObjectSlot) (i : ChunkIndex) : Prop :=
  a.owner = o ∧ a.object = s ∧ a.index = i

/-! ## Steps -/

inductive Stock.Step (k : Stock) : Stock → Prop where
  | name {s : ObjectSlot} {key : ObjKey} (free : k.key s = none) (new : ∀ s', k.key s' ≠ some key) :
      Step k { k with key := Function.update k.key s (some key) }
  | own {ai : Fin maxOwners} {row : OwnerAssoc} (slot : k.owners ai = none)
      (unowned : ∀ aj a, k.owners aj = some a → a.name ≠ row.name)
      (exported : (k.key row.object).map (·.exportUuid) = some row.exportUuid)
      (unused : row.version = 0) :
      Step k { k with
        owners := k.owners.set ai row
        reserved := fun s i o => k.reserved s i o ∨ row.At o s i }
  | stage {vi : Fin maxVersions} {v : Version} {ai : Fin maxOwners} {a : OwnerAssoc}
      (slot : k.versions vi = none) (number : v.id = k.nextVersion)
      (room : k.nextVersion ≠ uint64Max) (row : k.owners ai = some a)
      (place : a.At v.owner v.object v.index) (unused : a.version = 0) :
      Step k { k with
        versions := k.versions.set vi v
        owners := k.owners.set ai { a with version := v.id }
        nextVersion := k.nextVersion + 1
        reserved := fun s i o => k.reserved s i o ∧ ¬ (s = v.object ∧ i = v.index) }
  | drop (vi : Fin maxVersions) : Step k { k with versions := k.versions.clear vi }
  | release {vi : Fin maxVersions} {v : Version} (row : k.versions vi = some v) :
      Step k { k with versions := k.versions.set vi { v with released := true } }
  /-- Places are given up. -/
  | giveUp {reserved : ObjectSlot → ChunkIndex → Owner → Prop}
      (fewer : ∀ s i o, reserved s i o → k.reserved s i o) :
      Step k { k with reserved := reserved }

/-! ## What every step keeps -/

structure Stock.Inv (k : Stock) : Prop where
  key : ∀ s s' key, k.key s = some key → k.key s' = some key → s = s'
  number : Table.KeyUnique Version.id k.versions
  below : ∀ vi v, k.versions vi = some v → v.id ≠ 0 ∧ v.id.toNat < k.nextVersion.toNat
  next : 1 ≤ k.nextVersion.toNat
  name : Table.KeyUnique OwnerAssoc.name k.owners
  exported : ∀ ai a, k.owners ai = some a → (k.key a.object).map (·.exportUuid) = some a.exportUuid
  /-- A version is its owner's. -/
  owned : ∀ vi v, k.versions vi = some v →
    ∃ ai a, k.owners ai = some a ∧ a.At v.owner v.object v.index ∧ a.version = v.id
  /-- A reserved owner has no version. -/
  reserved : ∀ s i o, k.reserved s i o → ∃ ai a, k.owners ai = some a ∧ a.At o s i ∧ a.version = 0

variable {k k' : Stock}

lemma Stock.Inv.named (h : k.Inv) {s : ObjectSlot} {key : ObjKey} (hfree : k.key s = none)
    (hnew : ∀ s', k.key s' ≠ some key) : Stock.Inv { k with key := update k.key s (some key) } := by
  refine { h with key := ?_, exported := ?_ }
  · intro s₁ s₂ key' h₁ h₂
    dsimp only at h₁ h₂
    rw [update_apply] at h₁ h₂
    split at h₁
    · grind
    · split at h₂
      · cases h₂
        exact absurd h₁ (hnew s₁)
      · exact h.key s₁ s₂ key' h₁ h₂
  · intro ai a ha
    have he := h.exported ai a ha
    have hne : a.object ≠ s := by
      intro hs
      rw [hs, hfree] at he
      cases he
    dsimp only
    rw [update_of_ne hne]
    exact he

lemma Stock.owners_ne {aj : Fin maxOwners} (hfree : k.owners ai = none)
    (ha : k.owners aj = some a) : aj ≠ ai := by
  rintro rfl
  rw [hfree] at ha
  cases ha

lemma Stock.Inv.own (h : k.Inv) {row : OwnerAssoc} (slot : k.owners ai = none)
    (unowned : ∀ aj a, k.owners aj = some a → a.name ≠ row.name)
    (exported : (k.key row.object).map (·.exportUuid) = some row.exportUuid)
    (unused : row.version = 0) : Stock.Inv { k with
      owners := k.owners.set ai row
      reserved := fun s i o => k.reserved s i o ∨ row.At o s i } := by
  have hkept : ∀ {aj a}, k.owners aj = some a → k.owners.set ai row aj = some a := by grind
  refine { h with name := ?_, exported := ?_, owned := ?_, reserved := ?_ }
  · exact h.name.set fun aj a ha _ => unowned aj a ha
  · intro aj a ha
    dsimp only at ha
    rw [set_apply] at ha
    split at ha
    · rw [← some.inj ha]
      exact exported
    · exact h.exported aj a ha
  · intro vi v hv
    obtain ⟨aj, a, ha, hrest⟩ := h.owned vi v hv
    exact ⟨aj, a, hkept ha, hrest⟩
  · rintro s i o (hold | hnew)
    · obtain ⟨aj, a, ha, hrest⟩ := h.reserved s i o hold
      exact ⟨aj, a, hkept ha, hrest⟩
    · exact ⟨ai, row, set_self _ _ _, hnew, unused⟩

lemma Stock.Inv.stage (h : k.Inv) (number : v.id = k.nextVersion) (room : k.nextVersion ≠ uint64Max)
    (row : k.owners ai = some a) (place : a.At v.owner v.object v.index) (unused : a.version = 0) :
    Stock.Inv { k with
      versions := k.versions.set vi v
      owners := k.owners.set ai { a with version := v.id }
      nextVersion := k.nextVersion + 1
      reserved := fun s i o => k.reserved s i o ∧ ¬ (s = v.object ∧ i = v.index) } := by
  have hsucc := counter_succ room
  have hid : v.id.toNat = k.nextVersion.toNat := congrArg UInt64.toNat number
  have hnext := h.next
  -- An association of another version, or of another place, is another one.
  have hkept : ∀ {aj b}, k.owners aj = some b → aj ≠ ai →
      k.owners.set ai { a with version := v.id } aj = some b := by grind
  refine ⟨h.key, ?_, ?_, ?_, ?_, ?_, ?_, ?_⟩
  · refine h.number.set fun vj u hu _ he => ?_
    have := (h.below vj u hu).2
    rw [he] at this
    omega
  · intro vj u hu
    dsimp only at hu ⊢
    rw [hsucc]
    rw [set_apply] at hu
    split at hu
    · rw [← some.inj hu]
      refine ⟨fun h0 => ?_, by omega⟩
      rw [h0] at hid
      exact absurd hid.symm (by simpa using Nat.one_le_iff_ne_zero.mp hnext)
    · obtain ⟨hne, hlt⟩ := h.below vj u hu
      exact ⟨hne, by omega⟩
  · dsimp only
    rw [hsucc]
    omega
  · exact h.name.set_same row rfl
  · intro aj b hb
    dsimp only at hb
    rw [set_apply] at hb
    split at hb
    · rw [← some.inj hb]
      exact h.exported ai a row
    · exact h.exported aj b hb
  · intro vj u hu
    dsimp only at hu
    rw [set_apply] at hu
    split at hu
    · obtain rfl := some.inj hu
      exact ⟨ai, _, set_self _ _ _, place, rfl⟩
    · obtain ⟨aj, b, hb, hat, hver⟩ := h.owned vj u hu
      refine ⟨aj, b, hkept hb ?_, hat, hver⟩
      rintro rfl
      obtain rfl : a = b := some.inj (row.symm.trans hb)
      exact (h.below vj u hu).1 (hver.symm.trans unused)
  · rintro s i o ⟨hres, hne⟩
    obtain ⟨aj, b, hb, hat, hver⟩ := h.reserved s i o hres
    refine ⟨aj, b, hkept hb ?_, hat, hver⟩
    rintro rfl
    obtain rfl : a = b := some.inj (row.symm.trans hb)
    exact hne ⟨hat.2.1.symm.trans place.2.1, hat.2.2.symm.trans place.2.2⟩

lemma Stock.Inv.drop (h : k.Inv) (vi : Fin maxVersions) :
    Stock.Inv { k with versions := k.versions.clear vi } := by
  have hold : ∀ {vj v}, k.versions.clear vi vj = some v → k.versions vj = some v := by grind
  exact { h with
    number := h.number.clear vi
    below := fun vj v hv => h.below vj v (hold hv)
    owned := fun vj v hv => h.owned vj v (hold hv) }

lemma Stock.Inv.release (h : k.Inv) (row : k.versions vi = some v) :
    Stock.Inv { k with versions := k.versions.set vi { v with released := true } } := by
  have hold : ∀ {vj u}, k.versions.set vi { v with released := true } vj = some u →
      ∃ u', k.versions vj = some u' ∧ u'.id = u.id ∧ u'.owner = u.owner ∧ u'.object = u.object ∧
        u'.index = u.index := by grind
  refine { h with number := h.number.set_same row rfl, below := ?_, owned := ?_ }
  · intro vj u hu
    obtain ⟨u', hu', hid, -⟩ := hold hu
    rw [← hid]
    exact h.below vj u' hu'
  · intro vj u hu
    obtain ⟨u', hu', hid, hown, hobj, hind⟩ := hold hu
    rw [← hid, ← hown, ← hobj, ← hind]
    exact h.owned vj u' hu'

lemma Stock.Step.inv (h : k.Inv) (hstep : k.Step k') : k'.Inv := by
  cases hstep with
  | name free new => exact h.named free new
  | own slot unowned exported unused => exact h.own slot unowned exported unused
  | stage slot number room row place unused => exact h.stage number room row place unused
  | drop vi => exact h.drop vi
  | release row => exact h.release row
  | giveUp fewer => exact { h with reserved := fun s i o ho => h.reserved s i o (fewer s i o ho) }

/-! ## What no step takes back -/

structure Stock.Grows (k k' : Stock) : Prop where
  key : ∀ s key, k.key s = some key → k'.key s = some key
  owner : ∀ ai a, k.owners ai = some a → ∃ v, k'.owners ai = some { a with version := v }
  next : k.nextVersion.toNat ≤ k'.nextVersion.toNat
  /-- A version is an old one, or has a number from the counter on. -/
  version : ∀ vi v, k'.versions vi = some v →
    (∃ u, k.versions vi = some u ∧ u.fixed = v.fixed) ∨ k.nextVersion.toNat ≤ v.id.toNat

lemma Stock.Grows.refl (k : Stock) : k.Grows k :=
  ⟨fun _ _ h => h, fun _ a h => ⟨a.version, h⟩, le_rfl, fun _ v h => .inl ⟨v, h, rfl⟩⟩

lemma Stock.Grows.trans {k₁ k₂ k₃ : Stock} (h : k₁.Grows k₂) (h' : k₂.Grows k₃) : k₁.Grows k₃ := by
  refine ⟨fun s key hk => h'.key s key (h.key s key hk), fun ai a ha => ?_, h.next.trans h'.next,
    fun vi v hv => ?_⟩
  · obtain ⟨v, hv⟩ := h.owner ai a ha
    obtain ⟨v', hv'⟩ := h'.owner ai _ hv
    exact ⟨v', hv'⟩
  · rcases h'.version vi v hv with ⟨u, hu, he⟩ | hge
    · rcases h.version vi u hu with ⟨t, ht, he'⟩ | hge
      · exact .inl ⟨t, ht, he'.trans he⟩
      · exact .inr ((Version.of_fixed he).1 ▸ hge)
    · exact .inr (h.next.trans hge)

lemma Stock.Step.grows (hstep : k.Step k') : k.Grows k' := by
  cases hstep with
  | name free new =>
    refine { Stock.Grows.refl k with key := fun s' key' hk => ?_ }
    dsimp only
    rw [update_of_ne, hk]
    rintro rfl
    rw [free] at hk
    cases hk
  | own slot unowned exported unused =>
    refine { Stock.Grows.refl k with owner := fun aj a ha => ⟨a.version, ?_⟩ }
    exact (set_ne (Stock.owners_ne slot ha)).trans ha
  | @stage vi v ai a slot number room row place unused =>
    have hsucc := counter_succ room
    refine ⟨fun _ _ hk => hk, fun aj b hb => ?_, ?_, fun vj u hu => ?_⟩
    · dsimp only
      rw [set_apply]
      split
      · next he =>
        subst he
        obtain rfl : a = b := some.inj (row.symm.trans hb)
        exact ⟨v.id, rfl⟩
      · exact ⟨b.version, hb⟩
    · dsimp only
      omega
    · grind
  | drop vi =>
    refine { Stock.Grows.refl k with version := fun vj v hv => ?_ }
    dsimp only at hv
    rw [clear_apply] at hv
    split at hv
    · cases hv
    · exact .inl ⟨v, hv, rfl⟩
  | @release vi v row =>
    refine { Stock.Grows.refl k with version := fun vj u hu => ?_ }
    dsimp only at hu
    rw [set_apply] at hu
    split at hu
    · next he =>
      rw [← some.inj hu]
      exact .inl ⟨v, he ▸ row, rfl⟩
    · exact .inl ⟨u, hu, rfl⟩
  | giveUp fewer => exact { Stock.Grows.refl k with }

/-! ## Any number of steps -/

def Stock.Steps : Stock → Stock → Prop := Relation.ReflTransGen Stock.Step

lemma Stock.Steps.inv (h : k.Inv) (hsteps : k.Steps k') : k'.Inv := by
  induction hsteps with
  | refl => exact h
  | tail _ hstep ih => exact hstep.inv ih

lemma Stock.Steps.grows (hsteps : k.Steps k') : k.Grows k' := by
  induction hsteps with
  | refl => exact .refl k
  | tail _ hstep ih => exact ih.trans hstep.grows

/-! ## Places -/

/-- Whatever carries number `id` stands at place `s`, `i`, now and from now on. -/
structure Stock.AtPlace (k : Stock) (id : UInt64) (s : ObjectSlot) (i : ChunkIndex) : Prop where
  given : id.toNat < k.nextVersion.toNat
  place : ∀ vi v, k.versions vi = some v → v.id = id → v.object = s ∧ v.index = i

lemma Stock.AtPlace.grows {id : UInt64} {s : ObjectSlot} {i : ChunkIndex}
    (h : k.AtPlace id s i) (hg : k.Grows k') : k'.AtPlace id s i := by
  refine ⟨h.given.trans_le hg.next, fun vi v hv he => ?_⟩
  rcases hg.version vi v hv with ⟨u, hu, hf⟩ | hge
  · obtain ⟨hid, hobject, hindex, -⟩ := Version.of_fixed hf
    rw [← hobject, ← hindex]
    exact h.place vi u hu (hid.trans he)
  · rw [he] at hge
    exact absurd h.given (Nat.not_lt.mpr hge)

lemma Stock.Inv.atPlace (h : k.Inv) (hv : k.versions vi = some v) :
    k.AtPlace v.id v.object v.index := by
  refine ⟨(h.below vi v hv).2, fun vj u hu he => ?_⟩
  rw [h.number.row_eq hu hv he]
  exact ⟨rfl, rfl⟩

lemma Stock.Inv.atPlace_zero (h : k.Inv) (s : ObjectSlot) (i : ChunkIndex) : k.AtPlace 0 s i :=
  ⟨h.next, fun vi v hv he => absurd he (h.below vi v hv).1⟩

/-! ## Owners -/

lemma Stock.Inv.owner_unique (h : k.Inv) {vj : Fin maxVersions} {u : Version}
    (hv : k.versions vi = some v) (hu : k.versions vj = some u) (howner : v.owner = u.owner)
    (hexport : (k.key v.object).map (·.exportUuid) = (k.key u.object).map (·.exportUuid)) :
    vi = vj := by
  obtain ⟨ai, a, ha, ⟨hao, has, -⟩, hav⟩ := h.owned vi v hv
  obtain ⟨bi, b, hb, ⟨hbo, hbs, -⟩, hbv⟩ := h.owned vj u hu
  have hea := h.exported ai a ha
  have heb := h.exported bi b hb
  rw [has] at hea
  rw [hbs, ← hexport, hea] at heb
  have hname : a.name = b.name :=
    Prod.ext (some.inj heb) (hao.trans (howner.trans hbo.symm))
  obtain rfl := h.name.row_eq ha hb hname
  exact h.number vi vj v u hv hu (hav.symm.trans hbv)

lemma Stock.Inv.assoc_eq (h : k.Inv) (ha : k.owners ai = some a) :
    findRow (fun b => b.exportUuid == a.exportUuid && b.owner == a.owner) k.owners =
      some (ai, a) := by
  have hfun : (fun b : OwnerAssoc => b.exportUuid == a.exportUuid && b.owner == a.owner) =
      fun b => decide (b.name = a.name) := by
    funext b
    rw [Bool.eq_iff_iff]
    simp [OwnerAssoc.name]
  rw [hfun]
  exact h.name.findRow_eq ha

end Reffs.D1
