import Mathlib.Logic.Basic
import Mathlib.Data.Option.Basic

/-!
# Who holds what

The abstract model of advisory locks: a map from owners and bytes to modes, `some true` for a byte
that is held exclusively and `some false` for one that is shared. A request is a set of bytes with a
mode; it conflicts with the map if another owner holds one of the bytes and one of the two modes is
exclusive. A map that grants only what does not conflict never has a byte held exclusively by one
owner and held by another (`Exclusive`).
-/

namespace ByteLocks

variable {ω β : Type}

def Map (ω β : Type) : Type := ω → β → Option Bool

def Map.free : Map ω β := fun _ _ => none

/-- Put a mode, or none, on the bytes of `s` for one owner. -/
def Map.put [DecidableEq ω] (m : Map ω β) (owner : ω) (s : β → Prop) [DecidablePred s]
    (mode : Option Bool) : Map ω β := fun o b => if o = owner ∧ s b then mode else m o b

/-- An owner other than `owner` holds a byte of `s` in a mode that excludes the requested one. -/
def Map.Conflicts (m : Map ω β) (owner : Option ω) (s : β → Prop) (exclusive : Bool) : Prop :=
  ∃ o b mode, some o ≠ owner ∧ s b ∧ m o b = some mode ∧ (exclusive || mode) = true

/-- Whatever `m` holds `m'` holds, in the same mode or a stronger one. -/
def Map.Within (m m' : Map ω β) : Prop :=
  ∀ o b mode, m o b = some mode → ∃ mode', m' o b = some mode' ∧ (mode = true → mode' = true)

/-- No byte is held exclusively by one owner while another holds it. -/
def Map.Exclusive (m : Map ω β) : Prop :=
  ∀ o o' b, o ≠ o' → m o b = some true → m o' b = none

lemma Map.Within.conflicts {m m' : Map ω β} (h : m.Within m') {owner : Option ω} {s : β → Prop}
    {exclusive : Bool} (hm : m.Conflicts owner s exclusive) : m'.Conflicts owner s exclusive := by
  obtain ⟨o, b, mode, hne, hb, hheld, hmode⟩ := hm
  obtain ⟨mode', hheld', hstronger⟩ := h o b mode hheld
  refine ⟨o, b, mode', hne, hb, hheld', ?_⟩
  rw [Bool.or_eq_true] at hmode ⊢
  exact hmode.imp_right hstronger

lemma Map.Within.trans {m m' m'' : Map ω β} (h : m.Within m') (h' : m'.Within m'') :
    m.Within m'' := by
  intro o b mode hheld
  obtain ⟨mode', hheld', hstronger⟩ := h o b mode hheld
  obtain ⟨mode'', hheld'', hstronger'⟩ := h' o b mode' hheld'
  exact ⟨mode'', hheld'', hstronger' ∘ hstronger⟩

lemma exclusive_free : (Map.free : Map ω β).Exclusive := fun _ _ _ _ _ => rfl

section

variable [DecidableEq ω] {m : Map ω β} {owner : ω} {s : β → Prop} [DecidablePred s]

lemma put_ne {o : ω} (h : o ≠ owner) (mode : Option Bool) : m.put owner s mode o = m o := by
  funext b
  exact if_neg fun hat => h hat.1

lemma put_out {b : β} (h : ¬ s b) (mode : Option Bool) : m.put owner s mode owner b = m owner b :=
  if_neg fun hat => h hat.2

lemma put_in {b : β} (h : s b) (mode : Option Bool) : m.put owner s mode owner b = mode :=
  if_pos ⟨rfl, h⟩

lemma Map.Exclusive.clear (h : m.Exclusive) : (m.put owner s none).Exclusive := by
  intro o o' b hne htrue
  unfold Map.put at htrue ⊢
  split
  · rfl
  · split at htrue
    · cases htrue
    · exact h o o' b hne htrue

lemma Map.Within.clear {m' : Map ω β} {s' : β → Prop} [DecidablePred s'] (h : m.Within m')
    (hs : ∀ b, s' b → s b) : (m.put owner s none).Within (m'.put owner s' none) := by
  intro o b mode hheld
  unfold Map.put at hheld ⊢
  split at hheld
  · cases hheld
  · next hat =>
    rw [if_neg fun hat' => hat ⟨hat'.1, hs b hat'.2⟩]
    exact h o b mode hheld

theorem Map.Exclusive.grant (h : m.Exclusive) {exclusive : Bool}
    (hfree : ¬ m.Conflicts (some owner) s exclusive) :
    (m.put owner s (some exclusive)).Exclusive := by
  intro o o' b hne htrue
  by_cases ho : o = owner
  · subst ho
    rw [put_ne (Ne.symm hne)]
    by_cases hb : s b
    · rw [put_in hb] at htrue
      cases htrue
      by_contra hheld
      obtain ⟨mode, hmode⟩ := Option.ne_none_iff_exists'.mp hheld
      exact hfree ⟨o', b, mode, fun he => hne (Option.some.inj he).symm, hb, hmode, rfl⟩
    · rw [put_out hb] at htrue
      exact h o o' b hne htrue
  · rw [put_ne ho] at htrue
    by_cases ho' : o' = owner
    · subst ho'
      by_cases hb : s b
      · -- the byte is another owner's, so it was not granted
        refine absurd ⟨o, b, true, fun he => ho (Option.some.inj he), hb, htrue, ?_⟩ hfree
        exact Bool.or_true _
      · rw [put_out hb]
        exact h o o' b hne htrue
    · rw [put_ne ho']
      exact h o o' b hne htrue

end

end ByteLocks
