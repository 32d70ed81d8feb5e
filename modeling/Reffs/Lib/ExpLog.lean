import Mathlib.Algebra.Group.Hom.Basic
import Mathlib.Algebra.Group.Hom.Instances
import Mathlib.Dynamics.PeriodicPts.Lemmas

/-!
# Multiplication by exponents and logarithms

A finite field is often computed with by tables: all elements but zero are the iterates of one under
multiplication by a generator, and a product is found by adding the numbers of the iterates.
`Generator` is what such tables rest on: an additive map `step` that runs through all elements but
zero from `one` on, and the numbers `log` of its iterates. `mul` and `inv` are then the operations
of a field over the given addition.
-/

namespace ExpLog

open Function Nat

structure Generator (A : Type) [AddCommGroup A] where
  step : A →+ A
  one : A
  order : Nat
  log : A → Nat
  one_ne_zero : one ≠ 0
  log_lt : ∀ a, log a < order
  step_order : step^[order] one = one
  step_log : ∀ a, a ≠ 0 → step^[log a] one = a
  log_step : ∀ i, i < order → log (step^[i] one) = i

namespace Generator

variable {A : Type} [AddCommGroup A] [DecidableEq A] (g : Generator A)

def mul (a b : A) : A := if a = 0 ∨ b = 0 then 0 else g.step^[g.log a + g.log b] g.one

def inv (a : A) : A := if a = 0 then 0 else g.step^[g.order - g.log a] g.one

omit [DecidableEq A] in
lemma step_order_apply (a : A) : g.step^[g.order] a = a := by
  by_cases ha : a = 0
  · rw [ha]
    exact iterate_map_zero g.step g.order
  · conv_lhs => rw [← g.step_log a ha]
    rw [← iterate_add_apply, add_comm, iterate_add_apply, g.step_order, g.step_log a ha]

omit [DecidableEq A] in
lemma step_mod (n : Nat) (a : A) : g.step^[n % g.order] a = g.step^[n] a := by
  have hperiodic : Function.IsPeriodicPt g.step g.order a := g.step_order_apply a
  exact hperiodic.iterate_mod_apply n

omit [DecidableEq A] in
lemma step_ne_zero (n : Nat) {a : A} (ha : a ≠ 0) : g.step^[n] a ≠ 0 := by
  intro hzero
  have hmore : g.step^[g.order * (n + 1) - n] (g.step^[n] a) = a := by
    have hle : n ≤ g.order * (n + 1) := by
      have hpos : 0 < g.order := Nat.zero_lt_of_lt (g.log_lt a)
      exact (Nat.le_succ n).trans (Nat.le_mul_of_pos_left _ hpos)
    rw [← iterate_add_apply, Nat.sub_add_cancel hle, ← g.step_mod, Nat.mul_mod_right]
    rfl
  rw [hzero, iterate_map_zero] at hmore
  exact ha hmore.symm

theorem mul_eq_step {a : A} (ha : a ≠ 0) (b : A) : g.mul a b = g.step^[g.log a] b := by
  unfold mul
  by_cases hb : b = 0
  · rw [if_pos (.inr hb), hb, iterate_map_zero]
  · rw [if_neg (not_or.mpr ⟨ha, hb⟩), iterate_add_apply, g.step_log b hb]

lemma zero_mul (b : A) : g.mul 0 b = 0 := if_pos (.inl rfl)

lemma mul_comm (a b : A) : g.mul a b = g.mul b a := by
  unfold mul
  rw [add_comm]
  exact if_congr or_comm rfl rfl

lemma one_mul (b : A) : g.mul g.one b = b := by
  have hlog : g.log g.one = 0 := g.log_step 0 (zero_lt_of_lt (g.log_lt b))
  rw [g.mul_eq_step g.one_ne_zero, hlog]
  rfl

lemma left_distrib (a b c : A) : g.mul a (b + c) = g.mul a b + g.mul a c := by
  grind [add_zero, g.mul_eq_step, g.zero_mul, iterate_map_add]

lemma log_mul {a b : A} (ha : a ≠ 0) (hb : b ≠ 0) :
    g.log (g.mul a b) = (g.log a + g.log b) % g.order := by
  unfold mul
  rw [if_neg (not_or.mpr ⟨ha, hb⟩), ← g.step_mod]
  exact g.log_step _ (mod_lt _ (zero_lt_of_lt (g.log_lt a)))

lemma mul_assoc (a b c : A) : g.mul (g.mul a b) c = g.mul a (g.mul b c) := by
  by_cases ha : a = 0
  · rw [ha, g.zero_mul, g.zero_mul, g.zero_mul]
  · by_cases hb : b = 0
    · rw [hb, g.mul_comm a 0, g.zero_mul, g.zero_mul, g.mul_comm a 0, g.zero_mul]
    · have hab : g.mul a b ≠ 0 := by
        rw [g.mul_eq_step ha]
        exact g.step_ne_zero _ hb
      rw [g.mul_eq_step hab, g.log_mul ha hb, g.step_mod, iterate_add_apply,
        ← g.mul_eq_step hb, ← g.mul_eq_step ha]

lemma mul_inv_cancel {a : A} (ha : a ≠ 0) : g.mul a (g.inv a) = g.one := by
  unfold inv
  rw [if_neg ha, g.mul_eq_step ha, ← iterate_add_apply,
    Nat.add_sub_cancel' (g.log_lt a).le, g.step_order]

end Generator

end ExpLog
