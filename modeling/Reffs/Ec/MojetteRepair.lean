import Reffs.Ec.MojetteRecovery

/-!
# Repair with the systematic Mojette encoding

`ec_repair_encoding` goes through the stripes of a file. It reads the shards that are not in its
mask of lost ones, decodes, and writes the lost ones from their buffers. It uses one set of buffers
throughout, so a buffer that decoding leaves alone still holds the stripe before.
-/

namespace Reffs.Ec

open List

namespace MojetteEncoding

variable {e : MojetteEncoding} {simd : Bool} {shardLen : Nat}

/-- A stripe and what happens to the reads and writes of a repair. -/
structure StripeRun (e : MojetteEncoding) (simd : Bool) (shardLen : Nat) where
  data : Nat → Words
  parity : Nat → Words
  old : Nat → Words
  encoded : e.sysEncode simd data old shardLen = .ok parity
  readOk : Nat → Bool
  /-- What a failed read leaves in its buffer. -/
  torn : Nat → Words
  writeOk : Nat → Bool

namespace StripeRun

variable (s : StripeRun e simd shardLen) (loss : Nat → Bool)

def has (i : Nat) : Bool := !loss i && s.readOk i

/-- The buffers after the reads. Those of lost shards are as the stripe before left them. -/
def fill (bufs : Nat → Words) : Nat → Words := fun i =>
  if loss i then bufs i else if s.readOk i then e.stripe s.data s.parity i else s.torn i

/-- The repair writes of a stripe, up to the first that fails, and whether none did. -/
def send (shards : Nat → Words) : List Nat → List (Nat × Words) × Bool
  | [] => ([], true)
  | i :: is =>
    if loss i then
      if s.writeOk i then ((i, shards i) :: (send shards is).1, (send shards is).2)
      else ([(i, shards i)], false)
    else send shards is

end StripeRun

structure RepairWrite (e : MojetteEncoding) (simd : Bool) (shardLen : Nat) where
  run : StripeRun e simd shardLen
  index : Nat
  words : Words

def repairStripes (loss : Nat → Bool) : List (StripeRun e simd shardLen) → (Nat → Words) →
    List (RepairWrite e simd shardLen)
  | [], _ => []
  | s :: rest, bufs =>
    match e.sysDecode simd (s.fill loss bufs) (s.has loss) shardLen with
    | .error _ => []
    | .ok shards =>
      let sent := s.send loss shards (List.range (e.k + e.m))
      (sent.1.map fun w => ⟨s, w.1, w.2⟩) ++ if sent.2 then repairStripes loss rest shards else []

def ecShardSizeMax : Nat := 1024 * 1024

/-- The writes of `ec_repair_encoding` with this encoding, for the shards in a mask of lost ones. -/
def ecRepairEncoding (e : MojetteEncoding) (simd : Bool) (loss : Nat → Bool) (shardLen : Nat)
    (stripes : List (StripeRun e simd shardLen)) : List (RepairWrite e simd shardLen) :=
  let nlost := (e.indices loss).length
  if nlost = 0 ∨ e.m < nlost ∨ shardLen = 0 ∨ shardLen % 8 ≠ 0 ∨ ecShardSizeMax < shardLen ∨
      stripes.length = 0 then []
  else repairStripes loss stripes fun _ => 0

def RepairWrite.Encoded (w : RepairWrite e simd shardLen) : Prop :=
  ∀ b : Int, 0 ≤ b ∧ b < e.shardSize true (shardLen / 8) w.index →
    w.words b = e.stripe w.run.data w.run.parity w.index b

lemma StripeRun.mem_send (s : StripeRun e simd shardLen) (loss : Nat → Bool)
    (shards : Nat → Words) : ∀ (is : List Nat) (w : Nat × Words), w ∈ (s.send loss shards is).1 →
      w.1 ∈ is ∧ loss w.1 ∧ w.2 = shards w.1
  | [], w, h => absurd h not_mem_nil
  | i :: is, w, h => by
    rw [StripeRun.send] at h
    split at h
    · next hl =>
      split at h
      · rcases mem_cons.mp h with rfl | h
        · exact ⟨mem_cons_self .., hl, rfl⟩
        · obtain ⟨hin, hrest⟩ := s.mem_send loss shards is w h
          exact ⟨mem_cons_of_mem _ hin, hrest⟩
      · obtain rfl := mem_singleton.mp h
        exact ⟨mem_cons_self .., hl, rfl⟩
    · obtain ⟨hin, hrest⟩ := s.mem_send loss shards is w h
      exact ⟨mem_cons_of_mem _ hin, hrest⟩

lemma StripeRun.given (s : StripeRun e simd shardLen) (loss : Nat → Bool) (bufs : Nat → Words) :
    e.Given shardLen (s.has loss) (e.stripe s.data s.parity) (s.fill loss bufs) := by
  intro i _ hp b _
  unfold StripeRun.has at hp
  rw [Bool.and_eq_true, Bool.not_eq_true'] at hp
  unfold StripeRun.fill
  rw [if_neg (by rw [hp.1]; exact Bool.false_ne_true), if_pos hp.2]

lemma sysDecode_tooMany {given : Nat → Words} {present : Nat → Bool}
    (h : e.m < (e.indices fun i => !present i).length) :
    e.sysDecode simd given present shardLen = .error (.errno .eio) := if_pos h

lemma repairStripes_encoded (loss : Nat → Bool) (hlen : 1 ≤ shardLen / 8) :
    ∀ (stripes : List (StripeRun e simd shardLen)) (bufs : Nat → Words),
      (∀ s ∈ stripes, e.Recoverable shardLen (s.has loss)) →
      ∀ w ∈ repairStripes loss stripes bufs, w.Encoded
  | [], _, _, w, hw => absurd hw not_mem_nil
  | s :: rest, bufs, hrec, w, hw => by
    unfold repairStripes at hw
    cases hdec : e.sysDecode simd (s.fill loss bufs) (s.has loss) shardLen with
    | error err =>
      rw [hdec] at hw
      exact absurd hw not_mem_nil
    | ok shards =>
      rw [hdec] at hw
      dsimp only at hw
      rcases mem_append.mp hw with hhere | hlater
      · obtain ⟨sent, hsent, rfl⟩ := mem_map.mp hhere
        obtain ⟨hin, hl, hwords⟩ := s.mem_send loss shards _ sent hsent
        by_cases hle : (e.indices fun i => !s.has loss i).length ≤ e.m
        · obtain ⟨out, hok, hholds⟩ := sysDecode_holds s.encoded hlen hle
            (hrec s (mem_cons_self ..)) (s.given loss bufs)
          obtain rfl : out = shards := Except.ok.inj (hok.symm.trans hdec)
          intro b hb
          show sent.2 b = _
          rw [hwords]
          exact hholds sent.1 (mem_range.mp hin) (by simp [StripeRun.has, hl]) b hb
        · rw [sysDecode_tooMany (by omega)] at hdec
          cases hdec
      · split at hlater
        · exact repairStripes_encoded loss hlen rest shards
            (fun s' hs' => hrec s' (mem_cons_of_mem _ hs')) w hlater
        · exact absurd hlater not_mem_nil

lemma grid_le_of_shardSizeMax (e : MojetteEncoding) (h : shardLen ≤ ecShardSizeMax) :
    shardLen / 8 * e.k ≤ intEnd := by
  have hwidth := e.width
  unfold ecShardSizeMax at h
  unfold intEnd
  have hP : shardLen / 8 ≤ 131072 := by omega
  calc shardLen / 8 * e.k ≤ 131072 * 64 := Nat.mul_le_mul hP (by omega)
    _ ≤ 2 ^ 31 := by norm_num

/-- **The systematic decoder restores a loss of at most `m` shards exactly when data or parity is
whole** and ints can index the grid it needs; and a repair with it, of stripes that lack data or
parity only, writes encoded shards only. -/
theorem sysRestores_iff (e : MojetteEncoding) (simd : Bool) (shardLen : Nat) (hpos : 0 < shardLen)
    (hmul : 8 ∣ shardLen) : (∀ present : Nat → Bool, (e.indices fun i => !present i).length ≤ e.m →
      (SysRestores e simd shardLen present ↔
        e.EncodeFits shardLen ∧ (e.missingRows present = [] ∨ e.lostParity present = []) ∧
          (e.missingRows present ≠ [] → shardLen / 8 * e.k ≤ intEnd))) ∧
    ∀ (loss : Nat → Bool) (stripes : List (StripeRun e simd shardLen)),
      (∀ s ∈ stripes, e.missingRows (s.has loss) = [] ∨ e.lostParity (s.has loss) = []) →
      ∀ w ∈ ecRepairEncoding e simd loss shardLen stripes, w.Encoded := by
  have hlen : 1 ≤ shardLen / 8 := by omega
  constructor
  · intro present hle
    exact sysRestores_of_loss hlen hle
  · intro loss stripes hwhole w hw
    unfold ecRepairEncoding at hw
    dsimp only at hw
    split at hw
    · exact absurd hw not_mem_nil
    · next hargs =>
      push Not at hargs
      have hgrid := grid_le_of_shardSizeMax e hargs.2.2.2.2.1
      exact repairStripes_encoded loss hlen stripes _
        (fun s hs => ⟨hwhole s hs, fun _ => hgrid⟩) w hw

def oneAndTwo : MojetteEncoding := ⟨1, 2, Nat.one_pos, Nat.two_pos, by decide⟩

lemma oneAndTwo_fits : oneAndTwo.EncodeFits 8 := ⟨by decide, by decide⟩

theorem sysRestores_dataOnly : SysRestores oneAndTwo true 8 (fun i => i != 0) :=
  ((sysRestores_iff oneAndTwo true 8 (by decide) (by decide)).1 _ (by decide)).mpr
    ⟨oneAndTwo_fits, .inr (by decide), fun _ => by decide⟩

def fiveRun : StripeRun oneAndTwo true 8 where
  data := fun _ _ => ⟨5⟩
  parity := fun i => oneAndTwo.project true (fun _ _ => ⟨5⟩) 1 (1 + i) 0
  old := fun _ => 0
  encoded := sysEncode_ok _ _ oneAndTwo_fits
  readOk := fun _ => true
  torn := fun _ => 0
  writeOk := fun _ => true

/-- When its data and its first parity shard are lost, decoding reports success and leaves the
parity as it was, and a repair writes it so. -/
theorem sysDecode_leaves_parity :
    (∃ out, oneAndTwo.sysDecode true (fiveRun.fill (fun i => i < 2) fun _ => 0)
        (fiveRun.has fun i => i < 2) 8 = .ok out ∧
      out 1 0 ≠ oneAndTwo.stripe fiveRun.data fiveRun.parity 1 0) ∧
    ∃ w ∈ ecRepairEncoding oneAndTwo true (fun i => i < 2) 8 [fiveRun], ¬ w.Encoded := by
  constructor
  · have heval : (oneAndTwo.sysDecode true (fiveRun.fill (fun i => i < 2) fun _ => 0)
        (fiveRun.has fun i => i < 2) 8).map (fun out => out 1 0) = .ok 0 := by decide +kernel
    cases hdec : oneAndTwo.sysDecode true (fiveRun.fill (fun i => i < 2) fun _ => 0)
        (fiveRun.has fun i => i < 2) 8 with
    | error err =>
      rw [hdec] at heval
      cases heval
    | ok out =>
      rw [hdec] at heval
      have hword : out 1 0 = 0 := Except.ok.inj heval
      refine ⟨out, rfl, ?_⟩
      rw [hword]
      decide +kernel
  · have heval : (ecRepairEncoding oneAndTwo true (fun i => i < 2) 8 [fiveRun]).map (fun w =>
          (w.index, w.words 0, oneAndTwo.stripe w.run.data w.run.parity w.index 0)) =
        [(0, ⟨5⟩, ⟨5⟩), (1, 0, ⟨5⟩)] := by decide +kernel
    obtain ⟨w, hw, heq⟩ := mem_map.mp (heval.symm ▸ by simp :
      ((1, 0, ⟨5⟩) : Nat × Word × Word) ∈ (ecRepairEncoding oneAndTwo true (fun i => i < 2) 8
        [fiveRun]).map (fun w =>
          (w.index, w.words 0, oneAndTwo.stripe w.run.data w.run.parity w.index 0)))
    obtain ⟨hindex, hword, hstripe⟩ : w.index = 1 ∧ w.words 0 = 0 ∧
        oneAndTwo.stripe w.run.data w.run.parity w.index 0 = ⟨5⟩ := by simpa using heq
    refine ⟨w, hw, fun henc => ?_⟩
    have hsize : (0 : Int) < oneAndTwo.shardSize true (8 / 8) w.index := by
      rw [hindex]
      decide
    have hfive := henc 0 ⟨le_refl 0, hsize⟩
    rw [hword, hstripe] at hfive
    exact absurd hfive (by decide)

end MojetteEncoding

end Reffs.Ec
