import Reffs.D1.Store

/-!
# Receipts

The receipts of one export and operation key are the members of one request that have been answered:
they carry one digest, and their ordinals are `0 .. n-1` (`Dense`). Recording the next member keeps
this, provided the members before it are recorded; a call that got as far as member `n` knows that
they are, or that its key is bound to another request (`Progress`), and keeps knowing it while other
calls record members of their own.
-/

namespace Reffs.D1

open SlotTable Table List Option

variable {m : Nat} {slot : Fin maxReceipts}

/-- Member `m` of a key has a receipt. -/
def Recorded (t : Table maxReceipts Receipt) (exportUuid : Uuid) (key : OpKey) (m : Nat) : Prop :=
  ∃ i r, t i = some r ∧ r.exportUuid = exportUuid ∧ r.key = key ∧ r.ordinal = m

def BoundElsewhere (t : Table maxReceipts Receipt) (exportUuid : Uuid) (key : OpKey)
    (digest : Digest) : Prop :=
  ∃ i r, t i = some r ∧ r.exportUuid = exportUuid ∧ r.key = key ∧ r.digest ≠ digest

structure Dense (t : Table maxReceipts Receipt) : Prop where
  digest : ∀ i j r r', t i = some r → t j = some r' → r.exportUuid = r'.exportUuid →
    r.key = r'.key → r.digest = r'.digest
  unique : Table.KeyUnique (fun r : Receipt => (r.exportUuid, r.key, r.ordinal)) t
  below : ∀ i r, t i = some r → ∀ m < r.ordinal, Recorded t r.exportUuid r.key m

/-- How far a call with `digest` got. -/
def Progress (t : Table maxReceipts Receipt) (exportUuid : Uuid) (key : OpKey) (digest : Digest)
    (n : Nat) : Prop :=
  (∀ m < n, Recorded t exportUuid key m) ∨ BoundElsewhere t exportUuid key digest

lemma dense_empty : Dense empty where
  digest _ _ _ _ h := nomatch h
  unique := keyUnique_empty _
  below _ _ h := nomatch h

section

variable {c : Core} {e : Uuid} {k : OpKey} {d : Digest} {n : Nat}

lemma keyed_iff {r : Receipt} : r.keyed e k ↔ r.exportUuid = e ∧ r.key = k := by
  unfold Receipt.keyed
  rw [Bool.and_eq_true, beq_iff_eq, beq_iff_eq]

lemma receiptFind_isSome : (receiptFind c e k n).isSome ↔ Recorded c.receipts e k n := by
  unfold receiptFind
  constructor
  · intro h
    obtain ⟨⟨i, r⟩, hr⟩ := isSome_iff_exists.mp h
    obtain ⟨hi, hp⟩ := findRow_some hr
    rw [Bool.and_eq_true, beq_iff_eq, keyed_iff] at hp
    exact ⟨i, r, hi, hp.2.1, hp.2.2, hp.1⟩
  · rintro ⟨i, r, hi, he, hk, ho⟩
    rw [← ne_none_iff_isSome, ne_eq, findRow_none]
    intro hno
    have := hno i r hi
    simp [ho, keyed_iff.mpr ⟨he, hk⟩] at this

lemma receiptFind_none : receiptFind c e k n = none ↔ ¬ Recorded c.receipts e k n := by
  rw [← receiptFind_isSome, not_isSome_iff_eq_none]

lemma keyConflicts_iff : keyConflicts c e k d ↔ BoundElsewhere c.receipts e k d := by
  unfold keyConflicts
  constructor
  · intro h
    obtain ⟨i, hi⟩ := isSome_iff_exists.mp h
    obtain ⟨r, hr, hp⟩ := find_some hi
    rw [Bool.and_eq_true, keyed_iff, bne_iff_ne] at hp
    exact ⟨i, r, hr, hp.1.1, hp.1.2, hp.2⟩
  · rintro ⟨i, r, hi, he, hk, hd⟩
    rw [← ne_none_iff_isSome, ne_eq, find_none]
    intro hno
    have := hno i r hi
    simp [hd, keyed_iff.mpr ⟨he, hk⟩] at this

end

section

variable {t : Table maxReceipts Receipt} {e : Uuid} {k : OpKey} {d : Digest} {n : Nat}

/-! ## Recording a member -/

lemma Recorded.set (h : Recorded t e k m) (hslot : t slot = none) (r : Receipt) :
    Recorded (t.set slot r) e k m := by
  obtain ⟨i, r', hi, hr'⟩ := h
  have hne : i ≠ slot := by
    rintro rfl
    rw [hslot] at hi
    cases hi
  exact ⟨i, r', (set_ne hne).trans hi, hr'⟩

lemma BoundElsewhere.set (h : BoundElsewhere t e k d) (hslot : t slot = none) (r : Receipt) :
    BoundElsewhere (t.set slot r) e k d := by
  obtain ⟨i, r', hi, hr'⟩ := h
  have hne : i ≠ slot := by
    rintro rfl
    rw [hslot] at hi
    cases hi
  exact ⟨i, r', (set_ne hne).trans hi, hr'⟩

lemma Progress.set (h : Progress t e k d n) (hslot : t slot = none) (r : Receipt) :
    Progress (t.set slot r) e k d n :=
  h.imp (fun h m hm => (h m hm).set hslot r) fun h => h.set hslot r

lemma Progress.recorded (h : Progress t e k d n) (hfree : ¬ BoundElsewhere t e k d) :
    ∀ m < n, Recorded t e k m := h.resolve_right hfree

lemma Progress.next (h : Progress t e k d n) (hn : Recorded t e k n) :
    Progress t e k d (n + 1) := by
  refine h.imp_left fun hall m hm => ?_
  rcases Nat.lt_succ_iff_lt_or_eq.mp hm with hm | rfl
  · exact hall m hm
  · exact hn

theorem Dense.record (h : Dense t) (hslot : t slot = none) (hfree : ¬ BoundElsewhere t e k d)
    (hnew : ¬ Recorded t e k n) (hprog : Progress t e k d n) (result : CompleteResult) :
    Dense (t.set slot ⟨e, k, n, d, result⟩) := by
  -- A row of the same key carries the digest that is recorded now.
  have hsame : ∀ i r, t i = some r → r.exportUuid = e → r.key = k → r.digest = d := by
    intro i r hi he hk
    by_contra hne
    exact hfree ⟨i, r, hi, he, hk, hne⟩
  refine ⟨?_, ?_, ?_⟩
  · intro i j r r' hi hj he hk
    rw [set_apply] at hi hj
    split at hi <;> split at hj
    · rw [← some.inj hi, ← some.inj hj]
    · rw [← some.inj hi] at he hk ⊢
      exact (hsame j r' hj he.symm hk.symm).symm
    · rw [← some.inj hj] at he hk ⊢
      exact hsame i r hi he hk
    · exact h.digest i j r r' hi hj he hk
  · refine h.unique.set fun j r hj _ hkey => hnew ?_
    simp only [Prod.mk.injEq] at hkey
    exact ⟨j, r, hj, hkey⟩
  · intro i r hi m hm
    rw [set_apply] at hi
    split at hi
    · rw [← some.inj hi] at hm ⊢
      exact (hprog.recorded hfree m hm).set hslot _
    · exact (h.below i r hi m hm).set hslot _

/-! ## Counting members -/

/-- A list of numbers without repeats that misses nothing below its elements. -/
lemma perm_range_of_below {l : List Nat} (hl : l.Nodup) (hbelow : ∀ a ∈ l, ∀ m < a, m ∈ l) :
    l.Perm (range l.length) := by
  have hmem : ∀ m, m ∈ l ↔ m < l.toFinset.sup (· + 1) := by
    intro m
    rw [Finset.lt_sup_iff]
    constructor
    · exact fun hm => ⟨m, mem_toFinset.mpr hm, Nat.lt_succ_self m⟩
    · rintro ⟨a, ha, hma⟩
      have ha := mem_toFinset.mp ha
      rcases Nat.lt_succ_iff_lt_or_eq.mp hma with hma | rfl
      · exact hbelow a ha m hma
      · exact ha
  have hperm : l.Perm (range (l.toFinset.sup (· + 1))) :=
    (perm_ext_iff_of_nodup hl nodup_range).mpr fun m => by
      rw [hmem, mem_range]
  have hlen := hperm.length_eq
  rw [length_range] at hlen
  rwa [← hlen] at hperm

def ordinals (t : Table maxReceipts Receipt) (e : Uuid) (k : OpKey) : List Nat :=
  (t.rows.filter fun r => r.keyed e k).map Receipt.ordinal

lemma mem_ordinals : m ∈ ordinals t e k ↔ Recorded t e k m := by
  unfold ordinals rows Recorded
  simp only [List.mem_map, mem_filter, mem_filterMap, mem_finRange, true_and, keyed_iff]
  constructor
  · rintro ⟨r, ⟨⟨i, hi⟩, he, hk⟩, ho⟩
    exact ⟨i, r, hi, he, hk, ho⟩
  · rintro ⟨i, r, hi, he, hk, ho⟩
    exact ⟨r, ⟨⟨i, hi⟩, he, hk⟩, ho⟩

lemma Dense.ordinals_nodup (h : Dense t) (e : Uuid) (k : OpKey) : (ordinals t e k).Nodup := by
  unfold ordinals
  rw [List.Nodup, pairwise_map]
  refine (h.unique.rows_pairwise.filter _).imp_of_mem fun {r r'} hr hr' hne ho => hne ?_
  obtain ⟨he, hk⟩ := keyed_iff.mp (mem_filter.mp hr).2
  obtain ⟨he', hk'⟩ := keyed_iff.mp (mem_filter.mp hr').2
  rw [he, he', hk, hk', ho]

theorem Dense.perm (h : Dense t) (e : Uuid) (k : OpKey) :
    (ordinals t e k).Perm (range (ordinals t e k).length) := by
  refine perm_range_of_below (h.ordinals_nodup e k) fun a ha m hm => ?_
  obtain ⟨i, r, hi, he, hk, ho⟩ := mem_ordinals.mp ha
  subst ho he hk
  exact mem_ordinals.mpr (h.below i r hi m hm)

end

lemma Dense.receiptFind_eq {c : Core} (h : Dense c.receipts) {i : Fin maxReceipts} {rc : Receipt}
    (hi : c.receipts i = some rc) :
    receiptFind c rc.exportUuid rc.key rc.ordinal = some (i, rc) := by
  obtain ⟨⟨j, rc'⟩, hj⟩ :=
    Option.isSome_iff_exists.mp (receiptFind_isSome.mpr ⟨i, rc, hi, rfl, rfl, rfl⟩)
  obtain ⟨hrow, hp⟩ := Table.findRow_some hj
  rw [Bool.and_eq_true, beq_iff_eq, keyed_iff] at hp
  obtain rfl := h.unique j i rc' rc hrow hi (by simp only [hp.1, hp.2.1, hp.2.2])
  obtain rfl : rc' = rc := Option.some.inj (hrow.symm.trans hi)
  exact hj

lemma Dense.recorded_iff {c : Core} (h : Dense c.receipts) {e : Uuid} {k : OpKey} :
    Recorded c.receipts e k m ↔ m < keyRecorded c e k := by
  have hlen : keyRecorded c e k = (ordinals c.receipts e k).length := by
    rw [ordinals, length_map]
    rfl
  rw [← mem_ordinals, hlen, (h.perm e k).mem_iff, mem_range]

lemma Dense.keyRecorded_eq {c : Core} (h : Dense c.receipts) {e : Uuid} {k : OpKey} {d : Digest}
    {n : Nat} (hfree : ¬ BoundElsewhere c.receipts e k d) (hnew : ¬ Recorded c.receipts e k n)
    (hprog : Progress c.receipts e k d n) : keyRecorded c e k = n := by
  refine le_antisymm ?_ ?_
  · by_contra hlt
    exact hnew (h.recorded_iff.mpr (by omega))
  · by_contra hlt
    exact absurd (h.recorded_iff.mp (hprog.recorded hfree (keyRecorded c e k) (by omega)))
      (lt_irrefl _)

end Reffs.D1
