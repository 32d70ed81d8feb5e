import Mathlib.Data.List.FinRange
import Mathlib.Data.Fintype.Card
import Mathlib.Data.Fintype.Pi
import Mathlib.Data.Finset.Card
import Mathlib.Tactic

/-!
# Slot tables

A fixed array of rows, each with a flag that says whether the row is in use: `SlotTable n α` has `n`
slots and a slot is `none` while its row is unused. Rows are looked up by scanning from slot zero
and stored in the first unused slot, so the position of a row is part of the state.
-/

namespace SlotTable

open Function List Option

/-- `n` slots; `none` is an unused one. -/
abbrev Table (n : Nat) (α : Type) : Type := Fin n → Option α

variable {n : Nat} {α β κ : Type}

namespace Table

def empty : Table n α := fun _ => none

def set (t : Table n α) (i : Fin n) (r : α) : Table n α :=
  fun j => if j = i then some r else t j

def clear (t : Table n α) (i : Fin n) : Table n α :=
  fun j => if j = i then none else t j

/-- Apply `f` to the row of slot `i`, if there is one. -/
def modify (t : Table n α) (i : Fin n) (f : α → α) : Table n α :=
  fun j => if j = i then (t j).map f else t j

/-- The first used slot whose row satisfies `p`. -/
def find (p : α → Bool) (t : Table n α) : Option (Fin n) :=
  (List.finRange n).find? fun i => (t i).any p

/-- The first used slot whose row satisfies `p`, with that row. -/
def findRow (p : α → Bool) (t : Table n α) : Option (Fin n × α) :=
  (find p t).bind fun i => (t i).map fun r => (i, r)

def spare (t : Table n α) : Option (Fin n) :=
  (List.finRange n).find? fun i => (t i).isNone

def rows (t : Table n α) : List α := (List.finRange n).filterMap t

def free (t : Table n α) : Nat := (List.finRange n).countP fun i => (t i).isNone

def used (t : Table n α) : Nat := (List.finRange n).countP fun i => (t i).isSome

/-- How many rows satisfy `p`. -/
def count (p : α → Bool) (t : Table n α) : Nat := (List.finRange n).countP fun i => (t i).any p

/-! ## Reading back -/

variable {t : Table n α} {i j : Fin n} {r r' : α} {p : α → Bool} {key : α → κ}

@[simp] lemma set_self (t : Table n α) (i : Fin n) (r : α) : t.set i r i = some r := by
  simp [set]

lemma set_ne (h : j ≠ i) : t.set i r j = t j := by
  simp [set, h]

@[grind =] lemma set_apply (t : Table n α) (i j : Fin n) (r : α) :
    t.set i r j = if j = i then some r else t j := rfl

@[simp] lemma clear_self (t : Table n α) (i : Fin n) : t.clear i i = none := by
  simp [clear]

lemma clear_ne (h : j ≠ i) : t.clear i j = t j := by
  simp [clear, h]

@[grind =] lemma clear_apply (t : Table n α) (i j : Fin n) :
    t.clear i j = if j = i then none else t j := rfl

@[grind =] lemma modify_apply (t : Table n α) (i j : Fin n) (f : α → α) :
    t.modify i f j = if j = i then (t j).map f else t j := rfl

lemma modify_eq_set (h : t i = some r) (f : α → α) : t.modify i f = t.set i (f r) := by
  funext j
  rw [modify_apply, set_apply]
  split
  · next hj => subst hj; rw [h]; rfl
  · rfl

@[simp] lemma set_set (t : Table n α) (i : Fin n) (r r' : α) :
    (t.set i r).set i r' = t.set i r' := by
  funext j
  simp only [set_apply]
  split <;> rfl

lemma set_eq_self (h : t i = some r) : t.set i r = t := by
  funext j
  rw [set_apply]
  split
  · next hj => rw [hj, h]
  · rfl

lemma clear_set (h : t i = none) : (t.set i r).clear i = t := by
  funext j
  rw [clear_apply]
  split
  · next hj => rw [hj, h]
  · next hj => exact set_ne hj

lemma set_clear (h : t i = some r) : (t.clear i).set i r = t := by
  funext j
  rw [set_apply]
  split
  · next hj => rw [hj, h]
  · next hj => exact clear_ne hj

lemma set_eq_update (t : Table n α) (i : Fin n) (r : α) : t.set i r = update t i (some r) := by
  funext j
  rw [set_apply, update_apply]

lemma clear_eq_update (t : Table n α) (i : Fin n) : t.clear i = update t i none := by
  funext j
  rw [clear_apply, update_apply]

lemma clear_eq_self (h : t i = none) : t.clear i = t := by
  funext j
  rw [clear_apply]
  split
  · next hj => rw [hj, h]
  · rfl

lemma modify_eq_self {f : α → α} (h : ∀ r, t i = some r → f r = r) : t.modify i f = t := by
  funext j
  rw [modify_apply]
  split
  · next hj =>
    subst hj
    cases hr : t j with
    | none => rfl
    | some r => rw [map_some, h r hr]
  · rfl

/-- Rewriting rows one after the other, where a later rewrite hides an earlier one: a slot that is
named reads as rewritten for one of its names, and any other as before. -/
lemma foldl_modify_cases (slot : β → Fin n) (f : β → α → α)
    (hf : ∀ v w r, f v (f w r) = f v r) (l : List β) (t : Table n α) (i : Fin n) :
    (∃ v ∈ l, slot v = i ∧ l.foldl (fun t v => t.modify (slot v) (f v)) t i = (t i).map (f v)) ∨
      ((∀ v ∈ l, slot v ≠ i) ∧ l.foldl (fun t v => t.modify (slot v) (f v)) t i = t i) := by
  induction l generalizing t with
  | nil => exact .inr ⟨by simp, rfl⟩
  | cons q l ih =>
    rw [foldl_cons]
    rcases ih (t.modify (slot q) (f q)) with ⟨v, hv, hs, h⟩ | ⟨hno, h⟩
    · refine .inl ⟨v, mem_cons_of_mem _ hv, hs, h.trans ?_⟩
      rw [modify_apply]
      split
      · cases t i with
        | none => rfl
        | some r => simp [hf]
      · rfl
    · grind

/-! ## Scans -/

lemma find_some (h : find p t = some i) : ∃ r, t i = some r ∧ p r := by
  have hp := find?_some h
  cases hr : t i with
  | none => simp [hr] at hp
  | some r => exact ⟨r, rfl, by simpa [hr] using hp⟩

lemma find_none : find p t = none ↔ ∀ i r, t i = some r → p r = false := by
  unfold find
  rw [find?_eq_none]
  constructor
  · intro h i r hr
    simpa [hr] using h i (mem_finRange i)
  · intro h i _
    cases hr : t i with
    | none => simp
    | some r => simp [h i r hr]

lemma findRow_some (h : findRow p t = some (i, r)) : t i = some r ∧ p r := by
  unfold findRow at h
  rw [bind_eq_some_iff] at h
  obtain ⟨j, hj, h⟩ := h
  obtain ⟨r', hr', hp⟩ := find_some hj
  rw [hr'] at h
  simp only [map_some, some.injEq, Prod.mk.injEq] at h
  obtain ⟨rfl, rfl⟩ := h
  exact ⟨hr', hp⟩

lemma findRow_none : findRow p t = none ↔ ∀ i r, t i = some r → p r = false := by
  rw [← find_none]
  unfold findRow
  cases h : find p t with
  | none => simp
  | some i =>
    obtain ⟨r, hr, -⟩ := find_some h
    simp [hr]

lemma spare_some (h : spare t = some i) : t i = none := by
  simpa using find?_some h

lemma find_congr {u : Table n β} {q : β → Bool} (h : ∀ i, (t i).any p = (u i).any q) :
    find p t = find q u := by
  unfold find
  congr 1
  funext i
  exact h i

lemma findRow_set_hit (h : findRow p t = some (i, r)) (hp : p r') :
    findRow p (t.set i r') = some (i, r') := by
  obtain ⟨hi, hr⟩ := findRow_some h
  have hfind : find p (t.set i r') = find p t := by
    refine find_congr fun j => ?_
    rw [set_apply]
    split
    · next hj => rw [hj, hi, any_some, any_some, hp, hr]
    · rfl
  unfold findRow at h ⊢
  rw [hfind]
  obtain ⟨j, hj, h⟩ := bind_eq_some_iff.mp h
  obtain ⟨a, ha, hja⟩ := map_eq_some_iff.mp h
  obtain rfl : j = i := congrArg Prod.fst hja
  rw [hj, bind_some, set_self, map_some]

/-! ## Keys -/

def KeyUnique (key : α → κ) (t : Table n α) : Prop :=
  ∀ i j r r', t i = some r → t j = some r' → key r = key r' → i = j

lemma keyUnique_empty (key : α → κ) : KeyUnique key (empty : Table n α) := by
  intro i j r r' h
  cases h

namespace KeyUnique

variable (h : KeyUnique key t)

include h

lemma row_eq (hi : t i = some r) (hj : t j = some r') (hk : key r = key r') : r = r' := by
  have := h i j r r' hi hj hk
  subst this
  rw [hi] at hj
  exact some.inj hj

lemma clear (i : Fin n) : KeyUnique key (t.clear i) := by
  intro j k r r' hj hk
  rw [clear_apply] at hj hk
  split at hj
  · cases hj
  · split at hk
    · cases hk
    · exact h j k r r' hj hk

lemma set (hr : ∀ j r', t j = some r' → j ≠ i → key r' ≠ key r) : KeyUnique key (t.set i r) := by
  intro j k a b hj hk hab
  rw [set_apply] at hj hk
  split at hj <;> split at hk
  · next h1 h2 => rw [h1, h2]
  · grind
  · next h1 h2 =>
    cases hk
    exact absurd hab (hr j a hj h1)
  · exact h j k a b hj hk hab

lemma set_same {r₀ : α} (h₀ : t i = some r₀) (hk : key r = key r₀) : KeyUnique key (t.set i r) := by
  refine h.set fun j r' hj hne hk' => hne ?_
  exact h j i r' r₀ hj h₀ (hk'.trans hk)

lemma findRow_eq [DecidableEq κ] (hi : t i = some r) :
    findRow (fun r' => decide (key r' = key r)) t = some (i, r) := by
  cases hf : findRow (fun r' => decide (key r' = key r)) t with
  | none =>
    rw [findRow_none] at hf
    simpa using hf i r hi
  | some x =>
    obtain ⟨j, r'⟩ := x
    obtain ⟨hj, hk⟩ := findRow_some hf
    have hk : key r' = key r := by simpa using hk
    have hji := h j i r' r hj hi hk
    subst hji
    rw [hi] at hj
    rw [some.inj hj]

lemma rows_pairwise : t.rows.Pairwise fun r r' => key r ≠ key r' := by
  unfold rows
  rw [pairwise_filterMap]
  refine (nodup_finRange n).imp fun {i j} hne r hr r' hr' hk => hne ?_
  exact h i j r r' hr hr' hk

end KeyUnique

/-! ## Counting -/

lemma used_le (t : Table n α) : t.used ≤ n := by
  unfold used
  exact (countP_le_length).trans_eq (length_finRange)

lemma count_set (p : α → Bool) (h : t i = none) :
    (t.set i r).count p = t.count p + (p r).toNat := by
  unfold count
  have hmem : i ∈ finRange n := mem_finRange i
  have hnd : (finRange n).Nodup := nodup_finRange n
  revert hmem hnd
  generalize finRange n = l
  intro hmem hnd
  induction l with
  | nil => simp at hmem
  | cons j l ih =>
    obtain ⟨hj, hnd⟩ := nodup_cons.mp hnd
    rw [countP_cons, countP_cons]
    by_cases hji : j = i
    · subst hji
      have hrest : l.countP (fun k => (t.set j r k).any p) = l.countP fun k => (t k).any p := by
        apply countP_congr
        intro k hk
        rw [set_ne]
        rintro rfl
        exact hj hk
      rw [hrest, set_self, h]
      cases hp : p r <;> simp [hp]
    · grind

lemma count_clear (p : α → Bool) (h : t i = some r) :
    (t.clear i).count p + (p r).toNat = t.count p := by
  rw [← count_set p (clear_self t i), set_clear h]

lemma used_set (h : t i = none) : (t.set i r).used = t.used + 1 := by
  have hused : ∀ t : Table n α, t.used = t.count fun _ => true := fun _ => rfl
  rw [hused, hused, count_set _ h]
  rfl

lemma used_lt_of_spare (h : t i = none) : t.used < n := by
  refine lt_of_le_of_ne (used_le t) fun heq => ?_
  have hall := countP_eq_length.mp (heq.trans length_finRange.symm)
  simpa [h] using hall i (mem_finRange i)

end Table

end SlotTable
