import Reffs.Lib.SlotTable

/-!
# Ledgers: tables numbered by a counter

A table whose rows carry numbers, with the counter the next number is taken from. Rows may change
and may go; a new row takes the number the counter is at. `Grows` says so of two states of one
ledger, however far apart: a row of the later state comes from the row in its slot, or its number
was still to be given. What a row may become (`later`) and what a new row looks like (`made`) is
left to the user of the library.
-/

namespace SlotTable.Ledger

open Table

variable {n : Nat} {α : Type} {id : α → UInt64}

structure Grows (id : α → UInt64) (later : α → α → Prop) (made : α → Prop) (t t' : Table n α)
    (next next' : UInt64) : Prop where
  counter : next.toNat ≤ next'.toNat
  row : ∀ i r', t' i = some r' → (∃ r, t i = some r ∧ later r r') ∨
    made r' ∧ next.toNat ≤ (id r').toNat ∧ (id r').toNat < next'.toNat

variable {i : Fin n} {r r' : α}

section

variable {later : α → α → Prop} {made : α → Prop} {t t' : Table n α} {next next' : UInt64}

lemma Grows.refl (hrefl : ∀ r, later r r) (t : Table n α) (next : UInt64) :
    Grows id later made t t next next := ⟨le_rfl, fun _ r h => .inl ⟨r, h, hrefl r⟩⟩

lemma Grows.trans {later₁ later₂ : α → α → Prop} {made₁ made₂ : α → Prop}
    {t₁ t₂ t₃ : Table n α} {next₁ next₂ next₃ : UInt64}
    (h : Grows id later₁ made₁ t₁ t₂ next₁ next₂) (h' : Grows id later₂ made₂ t₂ t₃ next₂ next₃)
    (hlater : ∀ {a b c}, later₁ a b → later₂ b c → later a c)
    (hkept : ∀ {a b}, made₁ a → later₂ a b → made b) (hmade : ∀ {a}, made₂ a → made a)
    (hid : ∀ {a b}, later₂ a b → id a = id b) : Grows id later made t₁ t₃ next₁ next₃ := by
  refine ⟨h.counter.trans h'.counter, fun i r'' hr'' => ?_⟩
  rcases h'.row i r'' hr'' with ⟨r', hr', hl'⟩ | ⟨hm, hge, hlt⟩
  · rcases h.row i r' hr' with ⟨r, hr, hl⟩ | ⟨hm, hge, hlt⟩
    · exact .inl ⟨r, hr, hlater hl hl'⟩
    · rw [hid hl'] at hge hlt
      exact .inr ⟨hkept hm hl', hge, hlt.trans_le h'.counter⟩
  · exact .inr ⟨hmade hm, h.counter.trans hge, hlt⟩

section

variable (hrefl : ∀ r, later r r)

include hrefl

lemma Grows.set {i : Fin n} {r r' : α} (hr : t i = some r)
    (hl : later r r') : Grows id later made t (t.set i r') next next := by
  refine ⟨le_rfl, fun j x hx => ?_⟩
  rw [set_apply] at hx
  split at hx
  · next he =>
    rw [← Option.some.inj hx]
    exact .inl ⟨r, he ▸ hr, hl⟩
  · exact .inl ⟨x, hx, hrefl x⟩

lemma Grows.modify (i : Fin n) {f : α → α} (hl : ∀ r, later r (f r)) :
    Grows id later made t (t.modify i f) next next := by
  refine ⟨le_rfl, fun j x hx => ?_⟩
  rw [modify_apply] at hx
  split at hx
  · obtain ⟨r, hr, rfl⟩ := Option.map_eq_some_iff.mp hx
    exact .inl ⟨r, hr, hl r⟩
  · exact .inl ⟨x, hx, hrefl x⟩

lemma Grows.clear (i : Fin n) : Grows id later made t (t.clear i) next next := by
  refine ⟨le_rfl, fun j x hx => ?_⟩
  rw [clear_apply] at hx
  split at hx
  · cases hx
  · exact .inl ⟨x, hx, hrefl x⟩

lemma Grows.push (i : Fin n) {r : α} (hid : id r = next)
    (hsucc : (next + 1).toNat = next.toNat + 1) (hm : made r) :
    Grows id later made t (t.set i r) next (next + 1) := by
  refine ⟨by omega, fun j x hx => ?_⟩
  rw [set_apply] at hx
  split at hx
  · rw [← Option.some.inj hx, hid]
    exact .inr ⟨hm, le_rfl, by omega⟩
  · exact .inl ⟨x, hx, hrefl x⟩

end

/-! ## Ledgers of whose rows only the numbers matter -/

def SameNumber (id : α → UInt64) (r r' : α) : Prop := id r = id r'

def Kept (id : α → UInt64) (t t' : Table n α) (next next' : UInt64) : Prop :=
  Grows id (SameNumber id) (fun _ => True) t t' next next'

lemma Kept.refl (id : α → UInt64) (t : Table n α) (next : UInt64) : Kept id t t next next :=
  @Grows.refl n α id (SameNumber id) _ (fun _ => rfl) t next

lemma Kept.trans {t₁ t₂ t₃ : Table n α} {n₁ n₂ n₃ : UInt64} (h : Kept id t₁ t₂ n₁ n₂)
    (h' : Kept id t₂ t₃ n₂ n₃) : Kept id t₁ t₃ n₁ n₃ :=
  Grows.trans h h' Eq.trans (fun _ _ => trivial) (fun _ => trivial) fun he => he

lemma Kept.set {i : Fin n} {r r' : α} (hr : t i = some r) (hid : id r = id r') :
    Kept id t (t.set i r') next next :=
  @Grows.set n α id (SameNumber id) _ t next (fun _ => rfl) i r r' hr hid

lemma Kept.modify (i : Fin n) {f : α → α} (hid : ∀ r, id r = id (f r)) :
    Kept id t (t.modify i f) next next :=
  @Grows.modify n α id (SameNumber id) _ t next (fun _ => rfl) i f hid

lemma Kept.push (i : Fin n) {r : α} (hid : id r = next)
    (hsucc : (next + 1).toNat = next.toNat + 1) : Kept id t (t.set i r) next (next + 1) :=
  @Grows.push n α id (SameNumber id) _ t next (fun _ => rfl) i r hid hsucc trivial

lemma Grows.origin (hg : Grows id later made t t' next next')
    (hr' : t' i = some r') (hold : (id r').toNat < next.toNat) :
    ∃ r, t i = some r ∧ later r r' := by
  rcases hg.row i r' hr' with hfrom | ⟨-, hge, -⟩
  · exact hfrom
  · exact absurd hold (Nat.not_lt.mpr hge)

end

end SlotTable.Ledger
