import Reffs.Ec.ReedSolomon

/-!
# Recovery of lost shards

The rows of the encoding matrix are the unit rows of the data followed by those of the parity, and
any `k` of them are independent (`buildEncodingMatrix_spec`): for up to two parity rows by counting
the lost data rows against the parity rows in use, for more because they come from a Vandermonde
matrix.
-/

namespace Reffs.Ec

open Matrix Finset Fin

variable {k m : Nat}

/-- The first rows pass the data on. -/
def Systematic (enc : GfMatrix (k + m) k) : Prop := topRows enc = 1

/-- Any `k` different rows are independent. -/
def Independent (enc : GfMatrix (k + m) k) : Prop :=
  ∀ idx : Fin k → Fin (k + m), Function.Injective idx → ∀ v :
    Fin k → Gf, pickRows enc idx *ᵥ v = 0 → v = 0

/-! ## Up to two parity rows -/

lemma coef_eq (c : Nat) : coef c = Gf.ofNat (gfPower c) := by
  rw [← Gf.two_pow]
  induction c with
  | zero => rfl
  | succ c ih => rw [coef, ih, pow_succ]

lemma coef_ne_zero (c : Nat) : coef c ≠ 0 := by
  rw [coef_eq, ← Gf.two_pow]
  exact pow_ne_zero c (by decide)

lemma coef_inj {c d : Nat} (hc : c < 255) (hd : d < 255) (h : coef c = coef d) : c = d := by
  rw [coef_eq, coef_eq] at h
  have hlog := congrArg Gf.log h
  rwa [Gf.log_ofNat_gfPower hc, Gf.log_ofNat_gfPower hd] at hlog

def smallCoef (i : Nat) (c : Nat) : Gf := if i = 0 then 1 else coef c

lemma smallCoef_ne_zero (i c : Nat) : smallCoef i c ≠ 0 := by
  unfold smallCoef
  split
  · exact one_ne_zero
  · exact coef_ne_zero c

lemma smallMatrix_data (j c : Fin k) :
    smallMatrix k m (Fin.castAdd m j) c = if j = c then 1 else 0 := by
  unfold smallMatrix
  rw [if_pos (show (Fin.castAdd m j).val < k from j.isLt)]
  exact if_congr (Fin.ext_iff (a := j) (b := c)).symm rfl rfl

lemma smallMatrix_parity (i : Fin m) (c : Fin k) :
    smallMatrix k m (natAdd k i) c = smallCoef i c := by
  grind [smallCoef, smallMatrix]

/-- As many parity rows are in use as data rows are lost; a vector in the kernel is zero at the data
rows in use. -/
lemma card_support_le {enc : GfMatrix (k + m) k} (hsys : ∀ j c, enc (castAdd m j) c =
    if j = c then 1 else 0) {idx : Fin k → Fin (k + m)} (hidx : Function.Injective idx)
    {v : Fin k → Gf} (hv : pickRows enc idx *ᵥ v = 0) : (univ.filter fun c => v c ≠ 0).card ≤
      (univ.filter fun i : Fin m => ∃ r, idx r = natAdd k i).card := by
  classical
  let used := univ.filter fun c : Fin k => ∃ r, idx r = castAdd m c
  let parity := univ.filter fun i : Fin m => ∃ r, idx r = natAdd k i
  have hcover : univ.image idx ⊆
      used.image (castAdd m) ∪ parity.image (natAdd k) := by
    intro x hx
    obtain ⟨r, -, rfl⟩ := mem_image.mp hx
    refine addCases (motive := fun x => idx r = x → x ∈ _) (fun c hc => ?_) (fun i hi => ?_)
      (idx r) rfl
    · grind
    · grind
  have hcount : k ≤ used.card + parity.card := by
    calc k = (univ.image idx).card := by
          rw [card_image_of_injective _ hidx, card_univ, Fintype.card_fin]
      _ ≤ (used.image (castAdd m) ∪ parity.image (natAdd k)).card :=
          card_le_card hcover
      _ ≤ (used.image (castAdd m)).card + (parity.image (natAdd k)).card :=
          card_union_le _ _
      _ ≤ used.card + parity.card :=
          Nat.add_le_add card_image_le card_image_le
  -- the support of `v` is disjoint from the data rows in use
  have hdisjoint : (univ.filter fun c => v c ≠ 0) ⊆ usedᶜ := by
    intro c hc
    rw [mem_compl]
    intro hused
    obtain ⟨r, hr⟩ := (mem_filter.mp hused).2
    have hrow := congrFun hv r
    simp only [mulVec, dotProduct, pickRows, hr, hsys, ite_mul, one_mul, zero_mul, sum_ite_eq,
      mem_univ, if_true, Pi.zero_apply] at hrow
    exact (mem_filter.mp hc).2 hrow
  have hle := card_le_card hdisjoint
  rw [card_compl, Fintype.card_fin] at hle
  change (univ.filter fun c => v c ≠ 0).card ≤ parity.card
  omega

lemma smallMatrix_independent (hm : m ≤ 2) (hk : k ≤ 255) : Independent (smallMatrix k m) := by
  classical
  intro idx hidx v hv
  have hcard := card_support_le smallMatrix_data hidx hv
  set support := univ.filter fun c => v c ≠ 0 with hsupport
  set parity := univ.filter fun i : Fin m => ∃ r, idx r = Fin.natAdd k i with hparity
  -- a parity row in use, as a sum over the support
  have hrow : ∀ i ∈ parity, ∑ c ∈ support, smallCoef i c * v c = 0 := by
    intro i hi
    obtain ⟨r, hr⟩ := (mem_filter.mp hi).2
    have hr0 := congrFun hv r
    simp only [mulVec, dotProduct, pickRows, hr, smallMatrix_parity, Pi.zero_apply] at hr0
    rw [← hr0]
    refine sum_subset (subset_univ _) fun c _ hc => ?_
    have hvc : v c = 0 := by grind
    rw [hvc, mul_zero]
  by_contra hne
  obtain ⟨a, ha⟩ := Function.ne_iff.mp hne
  have hamem : a ∈ support := mem_filter.mpr ⟨mem_univ a, ha⟩
  obtain ⟨i, hi⟩ : parity.Nonempty :=
    card_pos.mp (lt_of_lt_of_le (card_pos.mpr ⟨a, hamem⟩) hcard)
  by_cases hone : support = {a}
  · -- one data row is lost, and a parity row has it
    have hsum := hrow i hi
    rw [hone, sum_singleton] at hsum
    exact (mul_ne_zero (smallCoef_ne_zero i a) ha) hsum
  · -- two data rows are lost, and both parity rows are in use
    obtain ⟨b, hbmem, hba⟩ : ∃ b ∈ support, b ≠ a := by grind
    have htwo : ({a, b} : Finset (Fin k)).card = 2 := card_pair (Ne.symm hba)
    have hpair : ({a, b} : Finset (Fin k)) ⊆ support := by grind
    have hparityle : parity.card ≤ m := (card_le_univ parity).trans (by
      rw [Fintype.card_fin])
    have hge := card_le_card hpair
    have hsupp : support = {a, b} :=
      (eq_of_subset_of_card_le hpair (by omega)).symm
    have hfull : parity = univ := by
      refine eq_univ_of_card parity ?_
      rw [Fintype.card_fin]
      omega
    have hm2 : m = 2 := by omega
    subst hm2
    have h0 := hrow 0 (hfull ▸ mem_univ _)
    have h1 := hrow 1 (hfull ▸ mem_univ _)
    rw [hsupp, sum_pair (Ne.symm hba)] at h0 h1
    have hc0 : ∀ c, smallCoef (0 : Fin 2).val c = 1 := fun c => rfl
    have hc1 : ∀ c, smallCoef (1 : Fin 2).val c = coef c := fun c => rfl
    rw [hc0, hc0, one_mul, one_mul] at h0
    rw [hc1, hc1] at h1
    have hvb : v b = - v a := (neg_eq_of_add_eq_zero_right h0).symm
    rw [hvb, mul_neg, ← sub_eq_add_neg, ← sub_mul] at h1
    have hcoef := sub_eq_zero.mp ((mul_eq_zero.mp h1).resolve_right ha)
    exact hba (Fin.ext (coef_inj (by have := a.isLt; omega) (by have := b.isLt; omega) hcoef)).symm

/-! ## More parity rows -/

lemma vandermonde_independent (hkm : k + m ≤ 255) {topInv : GfMatrix k k}
    (hinv : topInv * topRows (gfMatrixVandermonde (k + m) k) = 1) :
    Systematic (gfMatrixMul (gfMatrixVandermonde (k + m) k) topInv) ∧
    Independent (gfMatrixMul (gfMatrixVandermonde (k + m) k) topInv) := by
  have hright : topRows (gfMatrixVandermonde (k + m) k) * topInv = 1 := mul_eq_one_comm.mp hinv
  rw [gfMatrixMul_eq]
  refine ⟨hright, fun idx hidx v hv => ?_⟩
  have hrows : pickRows (gfMatrixVandermonde (k + m) k * topInv) idx =
      pickRows (gfMatrixVandermonde (k + m) k) idx * topInv := rfl
  rw [hrows, ← mulVec_mulVec] at hv
  have hzero := vandermonde_kernel hkm (by omega) hidx hv
  calc v = (topRows (gfMatrixVandermonde (k + m) k) * topInv) *ᵥ v := by rw [hright, one_mulVec]
    _ = topRows (gfMatrixVandermonde (k + m) k) *ᵥ (topInv *ᵥ v) := (mulVec_mulVec _ _ _).symm
    _ = 0 := by rw [hzero, mulVec_zero]

/-- **The encoding matrix** exists, passes the data on, and has independent rows. -/
theorem buildEncodingMatrix_spec (hkm : k + m ≤ 255) :
    ∃ enc, buildEncodingMatrix k m = some enc ∧ Systematic enc ∧ Independent enc := by
  unfold buildEncodingMatrix
  by_cases hm : m ≤ 2
  · rw [if_pos hm]
    refine ⟨_, rfl, ?_, smallMatrix_independent hm (by omega)⟩
    ext j c
    exact (smallMatrix_data j c).trans (Matrix.one_apply).symm
  · rw [if_neg hm]
    have htop : ∀ v, topRows (gfMatrixVandermonde (k + m) k) *ᵥ v = 0 → v = 0 := fun v hv =>
      vandermonde_kernel hkm (by omega) (castAdd_injective k m) hv
    obtain ⟨topInv, hinv⟩ := gfMatrixInvert_some htop
    dsimp only
    rw [hinv]
    exact ⟨_, rfl, vandermonde_independent hkm (gfMatrixInvert_mul hinv)⟩

/-! ## Decoding -/

def RsEncoding.shards (simd : Bool) (e : RsEncoding k m) (data : Fin k → Buffer)
    (parity : Fin m → Buffer) (len : Nat) : Fin (k + m) → Buffer :=
  Fin.addCases data (rsEncode simd e data parity len)

lemma RsEncoding.shards_apply {e : RsEncoding k m} (hsys : Systematic e.encode) (hk : 1 ≤ k)
    (simd : Bool) (data : Fin k → Buffer) (parity : Fin m → Buffer) {len p : Nat} (hp : p < len)
    (i : Fin (k + m)) :
    (⟨e.shards simd data parity len i p⟩ : Gf) = ∑ c, e.encode i c * ⟨data c p⟩ := by
  unfold RsEncoding.shards
  refine addCases (fun j => ?_) (fun i => ?_) i
  · have hrow : ∀ c, e.encode (castAdd m j) c = if j = c then 1 else 0 := fun c => by
      have := congrFun (congrFun hsys j) c
      rwa [Matrix.one_apply] at this
    simp [addCases_left, hrow, ite_mul, sum_ite_eq]
  · rw [addCases_right]
    exact rsCombine_apply hk simd (e.parity i) data (parity i) hp

lemma availIdx_spec {present : Fin (k + m) → Bool}
    (havail : k ≤ (List.finRange (k + m)).countP present) :
    Function.Injective (availIdx (m := m) (k := k) present) ∧
      ∀ c, present (availIdx (m := m) (k := k) present c) := by
  have hlen : ∀ c : Fin k, c.val < ((List.finRange (k + m)).filter present).length := fun c => by
    rw [← List.countP_eq_length_filter]
    exact lt_of_lt_of_le c.isLt havail
  have hget : ∀ c : Fin k, availIdx present c =
      ((List.finRange (k + m)).filter present).get ⟨c.val, hlen c⟩ := fun c =>
    List.getD_eq_getElem _ _ (hlen c)
  constructor
  · intro c d h
    rw [hget, hget] at h
    have hnodup := (List.nodup_finRange (k + m)).filter present
    exact Fin.ext (Fin.mk.inj (hnodup.injective_get h))
  · intro c
    rw [hget]
    exact (List.mem_filter.mp (List.get_mem _ _)).2

def lost (present : Fin (k + m) → Bool) : Nat := (List.finRange (k + m)).countP fun i => !present i

lemma avail_add_lost (present : Fin (k + m) → Bool) :
    (List.finRange (k + m)).countP present + lost present = k + m := by
  have h := List.length_eq_countP_add_countP present (l := List.finRange (k + m))
  rw [List.length_finRange] at h
  have hcongr : (List.finRange (k + m)).countP (fun i => !present i) =
      (List.finRange (k + m)).countP (fun i => decide ¬ present i) :=
    List.countP_congr fun i _ => by simp
  unfold lost
  omega

lemma recovered_apply {e : RsEncoding k m} (hsys : Systematic e.encode) (hk : 1 ≤ k)
    {simd simd' : Bool} {data : Fin k → Buffer} {parity : Fin m → Buffer} {len p : Nat}
    (hp : p < len) {shards : Fin (k + m) → Buffer} {idx : Fin k → Fin (k + m)}
    (hshards : ∀ c, shards (idx c) p = e.shards simd data parity len (idx c) p)
    {subInv : GfMatrix k k} (hinv : subInv * pickRows e.encode idx = 1) (r : Fin k) :
    rsCombine simd' (subInv r) (fun c => shards (idx c)) (fun _ => 0) len p = data r p := by
  let known : Fin k → Gf := fun c => ⟨data c p⟩
  have hrow : ∀ c, (⟨shards (idx c) p⟩ : Gf) = (pickRows e.encode idx *ᵥ known) c := by
    intro c
    rw [hshards c, e.shards_apply hsys hk simd data parity hp]
    rfl
  have hsum : (⟨rsCombine simd' (subInv r) (fun c => shards (idx c)) (fun _ => 0) len p⟩ : Gf) =
      known r := by
    calc (⟨rsCombine simd' (subInv r) (fun c => shards (idx c)) (fun _ => 0) len p⟩ : Gf)
        = ∑ c, subInv r c * ⟨shards (idx c) p⟩ := rsCombine_apply hk simd' _ _ _ hp
      _ = (subInv *ᵥ (pickRows e.encode idx *ᵥ known)) r := by
          simp only [hrow]
          rfl
      _ = known r := by rw [mulVec_mulVec, hinv, one_mulVec]
  exact congrArg Gf.val hsum

/-- **Lost shards are restored**: for every encoding that can be made, data of every length and
every set of at most `m` lost shards, the decoder gives back all shards as they were encoded; if
more are lost it says so. -/
theorem rsDecode_restores (hk : 1 ≤ k) (hm : 1 ≤ m) (hkm : k + m ≤ 255) :
    ∃ e, ecRsCreate k m = some e ∧ ∀ (simd simd' : Bool) (data : Fin k → Buffer)
      (parity : Fin m → Buffer) (len : Nat) (shards : Fin (k + m) → Buffer)
        (present : Fin (k + m) → Bool),
      (∀ i, present i = true → ∀ p < len, shards i p = e.shards simd data parity len i p) →
      (lost present ≤ m → ∃ out, rsDecode simd' e shards present len = .ok out ∧
        ∀ i, ∀ p < len, out i p = e.shards simd data parity len i p) ∧
      (m < lost present → rsDecode simd' e shards present len = .error .eio) := by
  obtain ⟨enc, hbuild, hsys, hind⟩ := @buildEncodingMatrix_spec k m hkm
  refine ⟨⟨enc⟩, ?_, fun simd simd' data parity len shards present hshards => ⟨fun hlost => ?_,
    fun hlost => ?_⟩⟩
  · unfold ecRsCreate
    rw [if_neg (by omega), hbuild]
    rfl
  · have hsum := avail_add_lost present
    unfold rsDecode
    dsimp only
    rw [if_neg (by omega)]
    by_cases hall : (List.finRange (k + m)).countP present = k + m
    · rw [if_pos hall]
      refine ⟨shards, rfl, fun i => hshards i ?_⟩
      have hlen : (List.finRange (k + m)).countP present = (List.finRange (k + m)).length := by
        grind
      exact List.countP_eq_length.mp hlen i (List.mem_finRange i)
    · rw [if_neg hall]
      obtain ⟨hinj, hpresent⟩ := @availIdx_spec k m present (by omega)
      obtain ⟨subInv, hsome⟩ := gfMatrixInvert_some (hind (availIdx present) hinj)
      have hinv := gfMatrixInvert_mul hsome
      rw [hsome]
      refine ⟨_, rfl, fun i p hp => ?_⟩
      have hrecovered : ∀ r, rsCombine simd' (subInv r) (fun c => shards (availIdx present c))
          (fun _ => 0) len p = data r p :=
        recovered_apply hsys hk hp (fun c => hshards _ (hpresent c) p hp) hinv
      refine addCases (fun j => ?_) (fun i => ?_) i
      · -- a data shard
        rw [addCases_left]
        split
        · next h => exact hshards _ h p hp
        · dsimp only
          rw [if_pos hp, hrecovered j, RsEncoding.shards, addCases_left]
      · -- a parity shard
        rw [addCases_right]
        split
        · next h => exact hshards _ h p hp
        · have hdata : ∀ j, (if present (castAdd m j) then shards (castAdd m j)
              else rsCombine simd' (subInv j) (fun c => shards (availIdx present c))
                (fun _ => 0) len) p = data j p := by
            intro j
            split
            · next h =>
              rw [hshards _ h p hp, RsEncoding.shards, addCases_left]
            · exact hrecovered j
          apply Gf.mk.inj
          rw [rsCombine_apply hk simd' _ _ _ hp,
            RsEncoding.shards_apply hsys hk simd data parity hp]
          refine sum_congr rfl fun j _ => ?_
          rw [hdata j]
          rfl
  · have hsum := avail_add_lost present
    unfold rsDecode
    dsimp only
    rw [if_pos (by omega)]

/-- Two data shards and a parity shard, the first data shard lost. -/
theorem rsDecode_restores_first : ∃ e, ecRsCreate 2 1 = some e ∧ ∃ out,
    rsDecode false e (fun i => if i = 0 then fun _ => 0
      else e.shards true (fun j _ => UInt8.ofNat (j.val + 5)) (fun _ _ => 0) 20 i)
      (fun i => decide (i ≠ 0)) 20 = .ok out ∧ out 0 3 = 5 := by
  obtain ⟨e, he, hall⟩ := @rsDecode_restores 2 1 (by decide) (by decide) (by decide)
  have hkept : ∀ i : Fin (2 + 1), decide (i ≠ 0) → ∀ p < 20, (if i = 0 then fun _ => 0
        else e.shards true (fun j _ => UInt8.ofNat (j.val + 5)) (fun _ _ => 0) 20 i) p =
      e.shards true (fun j _ => UInt8.ofNat (j.val + 5)) (fun _ _ => 0) 20 i p := by grind
  obtain ⟨out, hout, hbytes⟩ := (hall true false _ _ 20 _ _ hkept).1 (by decide)
  exact ⟨e, he, out, hout, hbytes 0 3 (by decide)⟩

end Reffs.Ec
