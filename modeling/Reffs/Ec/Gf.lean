import Mathlib.Algebra.Field.Defs
import Mathlib.Data.Nat.Bitwise
import Mathlib.NumberTheory.Divisors
import Mathlib.Data.Finset.Card
import Reffs.Lib.ExpLog

/-!
# Arithmetic on bytes

The tables of `gf_init_tables` and the functions that multiply, invert and take powers with them. A
turn of the loop that fills the tables multiplies by two modulo the polynomial `0x11d` (`gfShift`).
It is linear, and from one it runs through all bytes but zero: its period divides 255 and is none of
the proper divisors (`minimalPeriod_gfShift`). So the tables are exponents and logarithms of a
generator (`gfGenerator`), and bytes form a field with exclusive or as addition.
-/

namespace Reffs.Ec

open Function Finset UInt8

/-! ## Multiplying by two -/

/-- The element `x` of the loop of `gf_init_tables`, one turn later. -/
def gfShift (x : Nat) : Nat :=
  let x := x <<< 1
  if x &&& 0x100 ≠ 0 then x ^^^ 0x11d else x

lemma gfShift_eq (x : Nat) :
    gfShift x = (x <<< 1) ^^^ if (x <<< 1).testBit 8 then 0x11d else 0 := by
  have hbit : (x <<< 1) &&& 0x100 ≠ 0 ↔ (x <<< 1).testBit 8 := by
    rw [show (0x100 : Nat) = 2 ^ 8 from rfl, Nat.and_two_pow]
    cases (x <<< 1).testBit 8 <;> simp
  unfold gfShift
  by_cases h : (x <<< 1).testBit 8
  · rw [if_pos (hbit.mpr h), if_pos h]
  · rw [if_neg (mt hbit.mp h), if_neg h, Nat.xor_zero]

lemma gfShift_xor (x y : Nat) : gfShift (x ^^^ y) = gfShift x ^^^ gfShift y := by
  rw [gfShift_eq, gfShift_eq, gfShift_eq, Nat.shiftLeft_xor_distrib, Nat.testBit_xor]
  -- the reduction is done for one of the two, for both or for none
  cases (x <<< 1).testBit 8 <;> cases (y <<< 1).testBit 8 <;> simp
  · rw [Nat.xor_assoc]
  · rw [Nat.xor_assoc, Nat.xor_assoc, Nat.xor_comm (y <<< 1)]
  · rw [Nat.xor_assoc, Nat.xor_comm 285, Nat.xor_assoc, Nat.xor_self, Nat.xor_zero]

variable {x i : Nat} {a : Gf}

lemma gfShift_lt (h : x < 256) : gfShift x < 256 := by
  have hall : ∀ x < 256, gfShift x < 256 := by decide +kernel
  exact hall x h

def gfPower (i : Nat) : Nat := gfShift^[i] 1

lemma gfPower_lt (i : Nat) : gfPower i < 256 := by
  induction i with
  | zero => decide
  | succ i ih =>
    unfold gfPower at ih ⊢
    rw [iterate_succ_apply']
    exact gfShift_lt ih

theorem minimalPeriod_gfShift : minimalPeriod gfShift 1 = 255 := by
  have hperiod : Function.IsPeriodicPt gfShift 255 1 := by
    decide +kernel
  have hdvd := hperiod.minimalPeriod_dvd
  have hback := iterate_minimalPeriod (f := gfShift) (x := 1)
  generalize minimalPeriod gfShift 1 = n at hdvd hback
  -- a proper divisor of 255 divides 85, 51 or 15
  have hproper : ∀ n ∈ Nat.divisors 255, n = 255 ∨ n ∣ 85 ∨ n ∣ 51 ∨ n ∣ 15 := by decide +kernel
  have hnot : ∀ m, gfShift^[m] 1 ≠ 1 → ¬ n ∣ m := by
    rintro m hne ⟨q, rfl⟩
    have hn : Function.IsPeriodicPt gfShift n 1 := hback
    exact hne (hn.mul_const q)
  rcases hproper n (Nat.mem_divisors.mpr ⟨hdvd, by decide⟩) with h | h | h | h
  · exact h
  · exact absurd h (hnot 85 (by decide +kernel))
  · exact absurd h (hnot 51 (by decide +kernel))
  · exact absurd h (hnot 15 (by decide +kernel))

lemma gfPower_inj {j : Nat} (hi : i < 255) (hj : j < 255) (h : gfPower i = gfPower j) : i = j := by
  refine iterate_injOn_Iio_minimalPeriod (f := gfShift) (x := 1) ?_ ?_ h
  · rw [minimalPeriod_gfShift]
    exact hi
  · rw [minimalPeriod_gfShift]
    exact hj

lemma gfPower_mod (i : Nat) : gfPower (i % 255) = gfPower i := by
  have h := iterate_mod_minimalPeriod_eq (f := gfShift) (x := 1) (n := i)
  rwa [minimalPeriod_gfShift] at h

lemma gfPower_ne_zero (i : Nat) : gfPower i ≠ 0 := by
  intro hzero
  -- zero is a fixed point, so the loop would not come back
  have hstay : ∀ n, gfShift^[n] 0 = 0 := fun n => iterate_fixed (by decide) n
  have hone : gfPower (255 * (i + 1) - i + i) = gfPower 0 := by
    rw [Nat.sub_add_cancel (by omega), ← gfPower_mod, Nat.mul_mod_right]
  unfold gfPower at hone hzero
  rw [iterate_add_apply, hzero, hstay] at hone
  cases hone

lemma exists_gfPower (hlt : x < 256) (hne : x ≠ 0) : ∃ i < 255, gfPower i = x := by
  have hsub : (range 255).image gfPower ⊆ Finset.Ioo 0 256 := by
    intro y hy
    obtain ⟨i, -, rfl⟩ := mem_image.mp hy
    exact mem_Ioo.mpr ⟨Nat.pos_of_ne_zero (gfPower_ne_zero i), gfPower_lt i⟩
  have hcard : ((range 255).image gfPower).card = 255 := by
    rw [card_image_of_injOn, card_range]
    intro i hi j hj h
    exact gfPower_inj (mem_range.mp hi) (mem_range.mp hj) h
  have heq := eq_of_subset_of_card_le hsub (by rw [hcard, Nat.card_Ioo])
  have hmem : x ∈ (range 255).image gfPower := by grind
  obtain ⟨i, hi, h⟩ := mem_image.mp hmem
  exact ⟨i, mem_range.mp hi, h⟩

/-! ## The tables -/

structure GfTables where
  exp : Nat → UInt8
  log : UInt8 → UInt8

/-- The first loop of `gf_init_tables`. -/
def gfFillTables (n : Nat) : Nat × GfTables :=
  (List.range n).foldl (fun p i => (gfShift p.1,
    { exp := Function.update p.2.exp i (UInt8.ofNat p.1)
      log := Function.update p.2.log (UInt8.ofNat p.1) (UInt8.ofNat i) }))
    (1, ⟨fun _ => 0, fun _ => 0⟩)

/-- The second one, which repeats the exponents. -/
def gfRepeatExp (t : GfTables) (n : Nat) : GfTables :=
  (List.range' 255 n).foldl (fun t i =>
    { t with exp := Function.update t.exp i (t.exp (i - 255)) }) t

def gfInitTables : GfTables :=
  let t := gfRepeatExp (gfFillTables 255).2 257
  { t with log := Function.update t.log 0 0 }

lemma ofNat_gfPower_inj {j : Nat} (hi : i < 255) (hj : j < 255)
    (h : ofNat (gfPower i) = ofNat (gfPower j)) : i = j := by
  have hnat := congrArg toNat h
  rw [toNat_ofNat_of_lt' (gfPower_lt i), toNat_ofNat_of_lt' (gfPower_lt j)] at hnat
  exact gfPower_inj hi hj hnat

lemma gfFillTables_spec {n : Nat} (hn : n ≤ 255) : (gfFillTables n).1 = gfPower n ∧
    ∀ i < n, (gfFillTables n).2.exp i = ofNat (gfPower i) ∧
      (gfFillTables n).2.log (ofNat (gfPower i)) = ofNat i := by
  induction n with
  | zero => exact ⟨rfl, fun i hi => absurd hi (Nat.not_lt_zero i)⟩
  | succ n ih =>
    obtain ⟨hx, htable⟩ := ih (by omega)
    have hstep : gfFillTables (n + 1) = (gfShift (gfFillTables n).1,
        { exp := update (gfFillTables n).2.exp n (ofNat (gfFillTables n).1)
          log := update (gfFillTables n).2.log (ofNat (gfFillTables n).1)
            (ofNat n) }) := by
      unfold gfFillTables
      rw [List.range_succ, List.foldl_append, List.foldl_cons, List.foldl_nil]
    rw [hstep]
    refine ⟨?_, fun i hi => ⟨?_, ?_⟩⟩
    · dsimp only
      rw [hx, gfPower, gfPower, iterate_succ_apply']
    · grind
    · dsimp only
      rw [hx]
      by_cases hin : i = n
      · rw [hin, update_self]
      · rw [update_of_ne fun h => hin (ofNat_gfPower_inj (by omega) (by omega) h)]
        exact (htable i (by omega)).2

lemma gfRepeatExp_log (t : GfTables) (n : Nat) : (gfRepeatExp t n).log = t.log := by
  unfold gfRepeatExp
  generalize List.range' 255 n = l
  induction l generalizing t with
  | nil => rfl
  | cons i l ih => exact ih _

lemma gfRepeatExp_exp {t : GfTables} (ht : ∀ i < 255, t.exp i = ofNat (gfPower i)) (n : Nat) :
    ∀ i < 255 + n, (gfRepeatExp t n).exp i = ofNat (gfPower i) := by
  induction n with
  | zero => exact ht
  | succ n ih =>
    intro i hi
    have hstep : gfRepeatExp t (n + 1) = { gfRepeatExp t n with
        exp := update (gfRepeatExp t n).exp (255 + n)
          ((gfRepeatExp t n).exp (255 + n - 255)) } := by grind [List.range'_concat, gfRepeatExp]
    rw [hstep]
    dsimp only
    by_cases hin : i = 255 + n
    · rw [hin, update_self, ih _ (by omega), ← gfPower_mod (255 + n)]
      rw [show (255 + n) % 255 = n % 255 by omega, show 255 + n - 255 = n by omega, gfPower_mod]
    · rw [update_of_ne hin]
      exact ih i (by omega)

theorem gfInitTables_exp (hi : i < 512) : gfInitTables.exp i = ofNat (gfPower i) :=
  gfRepeatExp_exp (fun j hj => ((gfFillTables_spec (Nat.le_refl 255)).2 j hj).1) 257 i hi

theorem gfInitTables_log (hi : i < 255) : gfInitTables.log (ofNat (gfPower i)) = ofNat i := by
  unfold gfInitTables
  dsimp only
  rw [gfRepeatExp_log, update_of_ne]
  · exact ((gfFillTables_spec (Nat.le_refl 255)).2 i hi).2
  · intro hzero
    have hnat := congrArg toNat hzero
    rw [toNat_ofNat_of_lt' (gfPower_lt i)] at hnat
    exact gfPower_ne_zero i hnat

/-! ## The functions of the source -/

def gfAdd (a b : UInt8) : UInt8 := a ^^^ b

def gfSub (a b : UInt8) : UInt8 := a ^^^ b

def gfMul (a b : UInt8) : UInt8 :=
  if a = 0 ∨ b = 0 then 0
  else gfInitTables.exp ((gfInitTables.log a).toNat + (gfInitTables.log b).toNat)

def gfInv (a : UInt8) : UInt8 :=
  if a = 0 then 0 else gfInitTables.exp (255 - (gfInitTables.log a).toNat)

def gfPow (a n : UInt8) : UInt8 :=
  if n = 0 then 1
  else if a = 0 then 0
  else gfInitTables.exp ((gfInitTables.log a).toNat * n.toNat % 255)

/-- The table that multiplies by `c`. -/
def gfMulTblInit (c : UInt8) : UInt8 → UInt8 := fun b =>
  if b = 0 then 0
  else if c = 0 then 0
  else gfInitTables.exp ((gfInitTables.log c).toNat + (gfInitTables.log b).toNat)

/-- The tables that multiply by `c` what is in the low and in the high half of a byte, one behind
the other. -/
def gfMulSplitTblInit (c : UInt8) : Nat → UInt8 := fun i =>
  if i % 16 = 0 then 0
  else if c = 0 then 0
  else if i < 16 then
    gfInitTables.exp ((gfInitTables.log c).toNat + (gfInitTables.log (UInt8.ofNat i)).toNat)
  else
    gfInitTables.exp ((gfInitTables.log c).toNat +
      (gfInitTables.log (UInt8.ofNat ((i - 16) <<< 4))).toNat)

/-! ## The field -/

structure Gf where
  val : UInt8
  deriving DecidableEq, Repr

namespace Gf

instance : Zero Gf := ⟨⟨0⟩⟩
instance : One Gf := ⟨⟨1⟩⟩
instance : Add Gf := ⟨fun a b => ⟨gfAdd a.val b.val⟩⟩
instance : Neg Gf := ⟨fun a => a⟩
instance : Sub Gf := ⟨fun a b => ⟨gfSub a.val b.val⟩⟩
instance : Mul Gf := ⟨fun a b => ⟨gfMul a.val b.val⟩⟩
instance : Inv Gf := ⟨fun a => ⟨gfInv a.val⟩⟩

@[simp] lemma val_zero : (0 : Gf).val = 0 := rfl
@[simp] lemma val_one : (1 : Gf).val = 1 := rfl
@[simp] lemma val_add (a b : Gf) : (a + b).val = a.val ^^^ b.val := rfl
@[simp] lemma val_mul (a b : Gf) : (a * b).val = gfMul a.val b.val := rfl
@[simp] lemma val_inv (a : Gf) : (a⁻¹).val = gfInv a.val := rfl

lemma ext_val {b : Gf} (h : a.val = b.val) : a = b := by
  cases a
  cases b
  exact congrArg Gf.mk h

lemma val_eq_zero : a.val = 0 ↔ a = 0 := ⟨ext_val, fun h => by rw [h]; rfl⟩

instance : AddCommGroup Gf where
  add_assoc := fun _ _ _ => ext_val (UInt8.xor_assoc _ _ _)
  zero_add := fun _ => ext_val UInt8.zero_xor
  add_zero := fun _ => ext_val UInt8.xor_zero
  add_comm := fun _ _ => ext_val (UInt8.xor_comm _ _)
  neg_add_cancel := fun _ => ext_val UInt8.xor_self
  sub_eq_add_neg := fun _ _ => rfl
  nsmul := nsmulRec
  zsmul := zsmulRec

/-- The element of the field with number `x`. -/
def ofNat (x : Nat) : Gf := ⟨UInt8.ofNat x⟩

lemma ofNat_xor {y : Nat} (hx : x < 256) (hy : y < 256) : ofNat (x ^^^ y) = ofNat x + ofNat y := by
  apply ext_val
  apply UInt8.toNat_inj.mp
  show (UInt8.ofNat (x ^^^ y)).toNat = (UInt8.ofNat x ^^^ UInt8.ofNat y).toNat
  rw [UInt8.toNat_xor, UInt8.toNat_ofNat_of_lt' hx, UInt8.toNat_ofNat_of_lt' hy,
    UInt8.toNat_ofNat_of_lt' (Nat.xor_lt_two_pow (n := 8) hx hy)]

lemma ofNat_toNat (a : Gf) : ofNat a.val.toNat = a := ext_val UInt8.ofNat_toNat

def log (a : Gf) : Nat := if a = 0 then 0 else (gfInitTables.log a.val).toNat

lemma log_ofNat_gfPower (hi : i < 255) : log (ofNat (gfPower i)) = i := by
  have hne : ofNat (gfPower i) ≠ 0 := fun h => by
    have hnat := congrArg (fun a => a.val.toNat) h
    change (UInt8.ofNat (gfPower i)).toNat = 0 at hnat
    rw [UInt8.toNat_ofNat_of_lt' (gfPower_lt i)] at hnat
    exact gfPower_ne_zero i hnat
  unfold log
  rw [if_neg hne]
  show (gfInitTables.log (UInt8.ofNat (gfPower i))).toNat = i
  rw [gfInitTables_log hi, UInt8.toNat_ofNat_of_lt' (hi.trans (by decide))]

lemma eq_gfPower (ha : a ≠ 0) : log a < 255 ∧ a = ofNat (gfPower (log a)) := by
  have hne : a.val.toNat ≠ 0 := fun h => ha (val_eq_zero.mp (UInt8.toNat_inj.mp h))
  obtain ⟨i, hi, hpow⟩ := exists_gfPower a.val.toNat_lt hne
  have haeq : a = ofNat (gfPower i) := by rw [hpow, ofNat_toNat]
  have hlog : log a = i := by rw [haeq, log_ofNat_gfPower hi]
  rw [hlog]
  exact ⟨hi, haeq⟩

def double : Gf →+ Gf where
  toFun := fun a => ofNat (gfShift a.val.toNat)
  map_zero' := ext_val (by decide)
  map_add' := fun a b => by
    rw [val_add, UInt8.toNat_xor, gfShift_xor]
    exact ofNat_xor (gfShift_lt a.val.toNat_lt) (gfShift_lt b.val.toNat_lt)

lemma double_iterate (i : Nat) : double^[i] 1 = ofNat (gfPower i) := by
  induction i with
  | zero => rfl
  | succ i ih =>
    rw [iterate_succ_apply', ih, gfPower, gfPower, iterate_succ_apply']
    show ofNat (gfShift (UInt8.ofNat (gfPower i)).toNat) = _
    rw [UInt8.toNat_ofNat_of_lt' (gfPower_lt i)]
    rfl

/-- **The tables belong to a generator.** -/
def generator : ExpLog.Generator Gf where
  step := double
  one := 1
  order := 255
  log := log
  one_ne_zero := by decide
  log_lt := fun a => by
    by_cases ha : a = 0
    · rw [ha]
      decide
    · exact (eq_gfPower ha).1
  step_order := by
    rw [double_iterate, ← gfPower_mod]
    rfl
  step_log := fun a ha => by
    rw [double_iterate]
    exact (eq_gfPower ha).2.symm
  log_step := fun i hi => by
    rw [double_iterate]
    exact log_ofNat_gfPower hi

lemma log_of_ne (ha : a ≠ 0) : log a = (gfInitTables.log a.val).toNat := if_neg ha

lemma mul_eq (a b : Gf) : a * b = generator.mul a b := by
  unfold ExpLog.Generator.mul
  by_cases hzero : a = 0 ∨ b = 0
  · rw [if_pos hzero]
    exact ext_val (if_pos (hzero.imp val_eq_zero.mpr val_eq_zero.mpr))
  rw [if_neg hzero]
  obtain ⟨ha, hb⟩ := not_or.mp hzero
  have hla := (eq_gfPower ha).1
  have hlb := (eq_gfPower hb).1
  show _ = double^[log a + log b] 1
  rw [double_iterate]
  apply ext_val
  rw [val_mul, gfMul, if_neg (mt (Or.imp val_eq_zero.mp val_eq_zero.mp) hzero), ← log_of_ne ha,
    ← log_of_ne hb, gfInitTables_exp (by omega)]
  rfl

lemma inv_eq (a : Gf) : a⁻¹ = generator.inv a := by
  unfold ExpLog.Generator.inv
  by_cases ha : a = 0
  · rw [if_pos ha]
    exact ext_val (if_pos (val_eq_zero.mpr ha))
  rw [if_neg ha]
  show _ = double^[255 - log a] 1
  rw [double_iterate]
  apply ext_val
  rw [val_inv, gfInv, if_neg (mt val_eq_zero.mp ha), ← log_of_ne ha, gfInitTables_exp (by omega)]
  rfl

/-- **The field of bytes.** -/
instance : Field Gf where
  mul_assoc := fun a b c => by
    simp only [mul_eq]
    exact generator.mul_assoc a b c
  one_mul := fun a => by
    rw [mul_eq]
    exact generator.one_mul a
  mul_one := fun a => by
    rw [mul_eq, generator.mul_comm]
    exact generator.one_mul a
  zero_mul := fun a => by
    rw [mul_eq]
    exact generator.zero_mul a
  mul_zero := fun a => by
    rw [mul_eq, generator.mul_comm]
    exact generator.zero_mul a
  left_distrib := fun a b c => by
    simp only [mul_eq]
    exact generator.left_distrib a b c
  right_distrib := fun a b c => by
    simp only [mul_eq, generator.mul_comm _ c]
    exact generator.left_distrib c a b
  mul_comm := fun a b => by
    simp only [mul_eq]
    exact generator.mul_comm a b
  exists_pair_ne := ⟨0, 1, by decide⟩
  mul_inv_cancel := fun a ha => by
    rw [mul_eq, inv_eq]
    exact generator.mul_inv_cancel ha
  inv_zero := ext_val rfl
  nnqsmul := _
  nnqsmul_def := fun _ _ => rfl
  qsmul := _
  qsmul_def := fun _ _ => rfl

lemma pow_eq (ha : a ≠ 0) (n : Nat) : a ^ n = ofNat (gfPower (log a * n)) := by
  induction n with
  | zero => rfl
  | succ n ih =>
    rw [pow_succ', ih, mul_eq, generator.mul_eq_step ha, ← double_iterate, ← double_iterate]
    show double^[log a] _ = _
    rw [← iterate_add_apply, Nat.mul_succ, Nat.add_comm]

lemma log_two : log ⟨2⟩ = 1 := log_ofNat_gfPower (i := 1) (by decide)

lemma two_pow (i : Nat) : (⟨2⟩ : Gf) ^ i = ofNat (gfPower i) := by
  rw [pow_eq (by decide), log_two, Nat.one_mul]

lemma two_mul_eq (a : Gf) : ⟨2⟩ * a = double a := by
  have hne : (⟨2⟩ : Gf) ≠ 0 := by decide
  have hlog : generator.log = log := rfl
  rw [mul_eq, generator.mul_eq_step hne, hlog, log_two]
  rfl

end Gf

/-! ## What the functions compute -/

/-- The bytes as a field with exclusive or for the sum, in which two times a byte is its shift,
reduced by the polynomial. -/
structure ByteField (mul : UInt8 → UInt8 → UInt8) (inv : UInt8 → UInt8) : Prop where
  comm : ∀ a b, mul a b = mul b a
  assoc : ∀ a b c, mul (mul a b) c = mul a (mul b c)
  distrib : ∀ a b c, mul a (gfAdd b c) = gfAdd (mul a b) (mul a c)
  one : ∀ a, mul 1 a = a
  cancel : ∀ a, a ≠ 0 → mul a (inv a) = 1
  two : ∀ a, (mul 2 a).toNat = gfShift a.toNat

lemma gfMul_byteField : ByteField gfMul gfInv where
  comm := fun a b => congrArg Gf.val (mul_comm (⟨a⟩ : Gf) ⟨b⟩)
  assoc := fun a b c => congrArg Gf.val (mul_assoc (⟨a⟩ : Gf) ⟨b⟩ ⟨c⟩)
  distrib := fun a b c => congrArg Gf.val (mul_add (⟨a⟩ : Gf) ⟨b⟩ ⟨c⟩)
  one := fun a => congrArg Gf.val (one_mul (⟨a⟩ : Gf))
  cancel :=
    fun a ha => congrArg Gf.val (mul_inv_cancel₀ (mt Gf.val_eq_zero.mpr ha : (⟨a⟩ : Gf) ≠ 0))
  two := fun a => by
    rw [show gfMul 2 a = ofNat (gfShift a.toNat) from congrArg Gf.val (Gf.two_mul_eq ⟨a⟩)]
    exact toNat_ofNat_of_lt' (gfShift_lt a.toNat_lt)

lemma gfPow_eq (a n : UInt8) : (⟨gfPow a n⟩ : Gf) = ⟨a⟩ ^ n.toNat := by
  unfold gfPow
  by_cases hn : n = 0
  · rw [if_pos hn, hn]
    rfl
  rw [if_neg hn]
  have hpos : n.toNat ≠ 0 := fun h => hn (UInt8.toNat_inj.mp h)
  by_cases ha : a = 0
  · rw [if_pos ha, ha]
    exact (zero_pow hpos).symm
  have hne : (⟨a⟩ : Gf) ≠ 0 := mt Gf.val_eq_zero.mpr ha
  rw [if_neg ha, Gf.pow_eq hne, ← gfPower_mod, Gf.log_of_ne hne,
    gfInitTables_exp ((Nat.mod_lt _ (by decide)).trans (by decide))]
  rfl

lemma gfMulTblInit_eq (c b : UInt8) : gfMulTblInit c b = gfMul c b := by
  grind [gfMul, gfMulTblInit]

lemma gfMulSplitTblInit_low (hi : i < 16) (c : UInt8) :
    gfMulSplitTblInit c i = gfMul c (ofNat i) := by
  unfold gfMulSplitTblInit gfMul
  have hzero : ofNat i = 0 ↔ i % 16 = 0 := by
    revert i
    decide
  by_cases h : i % 16 = 0
  · rw [if_pos h, if_pos (.inr (hzero.mpr h))]
  · rw [if_neg h, if_pos hi]
    exact if_congr (or_iff_left (mt hzero.mp h)).symm rfl rfl

lemma gfMulSplitTblInit_high (hi : i < 16) (c : UInt8) :
    gfMulSplitTblInit c (16 + i) = gfMul c (ofNat (i <<< 4)) := by
  unfold gfMulSplitTblInit gfMul
  have hzero : ofNat (i <<< 4) = 0 ↔ (16 + i) % 16 = 0 := by
    revert i
    decide
  rw [Nat.add_sub_cancel_left]
  by_cases h : (16 + i) % 16 = 0
  · rw [if_pos h, if_pos (.inr (hzero.mpr h))]
  · grind

theorem gfMulSplitTblInit_eq (c d : UInt8) :
    gfMulSplitTblInit c (d.toNat % 16) ^^^ gfMulSplitTblInit c (16 + d.toNat / 16) = gfMul c d := by
  have hd := d.toNat_lt
  rw [gfMulSplitTblInit_low (by omega), gfMulSplitTblInit_high (by omega)]
  have hsplit :
      ∀ d < 256, UInt8.ofNat (d % 16) ^^^ UInt8.ofNat ((d / 16) <<< 4) = UInt8.ofNat d := by
    decide +kernel
  have hsum :=
    left_distrib (⟨c⟩ : Gf) ⟨UInt8.ofNat (d.toNat % 16)⟩ ⟨UInt8.ofNat ((d.toNat / 16) <<< 4)⟩
  have hval := congrArg Gf.val hsum
  change gfMul c (_ ^^^ _) = gfMul c _ ^^^ gfMul c _ at hval
  rw [hsplit d.toNat hd, UInt8.ofNat_toNat] at hval
  exact hval.symm

end Reffs.Ec
