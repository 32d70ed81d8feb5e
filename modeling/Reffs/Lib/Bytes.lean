import Mathlib.Data.Nat.Digits.Defs
import Mathlib.Data.Vector.Basic
import Mathlib.Tactic

/-!
# Byte codecs

Big-endian words, tagged options, counted vectors and fixed arrays over lists of bytes. A decoder
(`Dec`) reads one value off the front of its input and hands on what is left.

`Dec.Reads d bs a` says that `d` reads `bs` as `a` whatever follows. It composes: a record whose
encoder appends its fields is read by the decoder that binds the fields' decoders in the same order,
so the round trip of a record is one chain of `Reads.bind`.

`Dec.Accepts d T` is the other direction: `T` holds of whatever `d` takes off an input and of the
value it reads there. A decoder that accepts only what an encoder writes `Spells` it, and a record
whose fields are spelt by their encoders is spelt by the encoder that appends them. Decoders with
both properties are a `Codec`, and the fields of a record are then found by their types
(`Reads.field`, `Accepts.field`).
-/

namespace ByteCodec

open Option Nat

abbrev Bytes := List UInt8

/-- Read a value off the front of the input; `none` for input that does not spell one. -/
structure Dec (α : Type) where
  run : Bytes → Option (α × Bytes)

namespace Dec

variable {α β : Type} {d : Dec α} {f : α → Dec β} {bs cs : Bytes} {a : α} {b : β} {e : α → Bytes}
  {T : Bytes → α → Prop} {k : Nat}

instance : Monad Dec where
  pure a := ⟨fun bs => some (a, bs)⟩
  bind d f := ⟨fun bs => (d.run bs).bind fun p => (f p.1).run p.2⟩

def fail : Dec α := ⟨fun _ => none⟩

/-- Go on only when `b` holds. -/
def require (b : Bool) : Dec Unit := if b then pure () else fail

/-- Decode `k` values in a row. -/
def many (d : Dec α) : Nat → Dec (List α)
  | 0 => pure []
  | k + 1 => do
    let a ← d
    let as ← many d k
    pure (a :: as)

/-- Decode a whole input: nothing may be left over. -/
def whole (d : Dec α) (bs : Bytes) : Option α :=
  match d.run bs with
  | some (a, []) => some a
  | _ => none

@[simp] lemma run_pure (a : α) (bs : Bytes) : (pure a : Dec α).run bs = some (a, bs) := rfl

@[simp] lemma run_bind (d : Dec α) (f : α → Dec β) (bs : Bytes) :
    (d >>= f).run bs = (d.run bs).bind fun p => (f p.1).run p.2 := rfl

@[simp] lemma run_fail (bs : Bytes) : (fail : Dec α).run bs = none := rfl

/-- `d` reads `bs` as `a`, whatever follows. -/
def Reads (d : Dec α) (bs : Bytes) (a : α) : Prop := ∀ rest, d.run (bs ++ rest) = some (a, rest)

lemma Reads.pure (a : α) : Reads (pure a) [] a := fun _ => rfl

lemma Reads.bind (hd : Reads d bs a) (hf : Reads (f a) cs b) : Reads (d >>= f) (bs ++ cs) b := by
  intro rest
  rw [run_bind, List.append_assoc, hd]
  exact hf rest

lemma Reads.last (hd : Reads d bs a) (hf : f a = Pure.pure b) : Reads (d >>= f) bs b := by
  intro rest
  rw [run_bind, hd]
  simp [hf]

lemma Reads.checked (hd : Reads d bs a) (hf : Reads (f a) [] b) : Reads (d >>= f) bs b := by
  have := hd.bind hf
  rwa [List.append_nil] at this

lemma Reads.require {b : Bool} {f : Unit → Dec β} {a : β} (hb : b)
    (hf : Reads (f ()) bs a) : Reads (Dec.require b >>= f) bs a := by
  subst hb
  exact hf

lemma Reads.many {l : List α} (h : ∀ a ∈ l, Reads d (e a) a) :
    Reads (many d l.length) (l.flatMap e) l := by
  induction l with
  | nil => exact Reads.pure []
  | cons a l ih =>
    have hl := ih fun b hb => h b (List.mem_cons_of_mem _ hb)
    exact (h a List.mem_cons_self).bind (hl.last rfl)

lemma Reads.whole (h : Reads d bs a) : whole d bs = some a := by
  have := h []
  rw [List.append_nil] at this
  simp only [Dec.whole, this]

/-- `d` reads `bs` as `a` if it reads it at all, whatever follows. This is what is left of `Reads`
when a decoder asks more than its encoder promises. -/
def Yields (d : Dec α) (bs : Bytes) (a : α) : Prop :=
  ∀ rest p, d.run (bs ++ rest) = some p → p = (a, rest)

lemma Reads.yields (h : Reads d bs a) : Yields d bs a := by
  intro rest p hp
  rw [h] at hp
  exact (some.inj hp).symm

lemma Yields.bind (hd : Yields d bs a) (hf : Yields (f a) cs b) :
    Yields (d >>= f) (bs ++ cs) b := by
  intro rest p hp
  rw [run_bind, List.append_assoc] at hp
  obtain ⟨q, hq, hp⟩ := bind_eq_some_iff.mp hp
  obtain rfl := hd _ q hq
  exact hf rest p hp

lemma Yields.last (hd : Yields d bs a) (hf : f a = Pure.pure b) : Yields (d >>= f) bs b := by
  intro rest p hp
  rw [run_bind] at hp
  obtain ⟨q, hq, hp⟩ := bind_eq_some_iff.mp hp
  obtain rfl := hd _ q hq
  rw [hf] at hp
  exact (some.inj hp).symm

lemma Yields.require {b : Bool} {f : Unit → Dec β} {a : β}
    (hf : Yields (f ()) bs a) : Yields (Dec.require b >>= f) bs a := by
  cases b with
  | true => exact hf
  | false => intro rest p hp; cases hp

lemma Yields.whole {b : α} (h : Yields d bs a) (hb : whole d bs = some b) : b = a := by
  unfold Dec.whole at hb
  split at hb
  · next c hc =>
    cases hb
    have hc := h [] _ (by rwa [List.append_nil])
    exact congrArg Prod.fst hc
  · cases hb

/-- `T` holds of whatever `d` takes off the front of an input and of what it reads there. -/
def Accepts (d : Dec α) (T : Bytes → α → Prop) : Prop :=
  ∀ bs a rest, d.run bs = some (a, rest) → ∃ used, bs = used ++ rest ∧ T used a

/-- `d` accepts nothing but what `e` writes. -/
def Spells (d : Dec α) (e : α → Bytes) : Prop := Accepts d fun used a => used = e a

lemma Accepts.pure (h : T [] a) : Accepts (pure a) T := by
  intro bs b rest hrun
  cases hrun
  exact ⟨[], rfl, h⟩

lemma Accepts.fail : Accepts fail T := by
  intro bs b rest hrun
  cases hrun

lemma Accepts.bind {S : Bytes → α → Prop} {T : Bytes → β → Prop}
    (hd : Accepts d S) (hf : ∀ a used, S used a → Accepts (f a) fun more b => T (used ++ more) b) :
    Accepts (d >>= f) T := by
  intro bs b rest hrun
  rw [run_bind] at hrun
  obtain ⟨⟨a, mid⟩, hfst, hsnd⟩ := bind_eq_some_iff.mp hrun
  obtain ⟨used, rfl, hs⟩ := hd _ _ _ hfst
  obtain ⟨more, rfl, ht⟩ := hf a used hs _ _ _ hsnd
  exact ⟨used ++ more, (List.append_assoc ..).symm, ht⟩

lemma Accepts.require {b : Bool} {f : Unit → Dec β} {T : Bytes → β → Prop}
    (hf : b → Accepts (f ()) T) : Accepts (Dec.require b >>= f) T := by
  cases b with
  | true => exact hf rfl
  | false => intro bs a rest hrun; cases hrun

lemma Accepts.mono {S : Bytes → α → Prop} (hd : Accepts d S)
    (h : ∀ used a, S used a → T used a) : Accepts d T := by
  intro bs a rest hrun
  obtain ⟨used, hbs, hs⟩ := hd bs a rest hrun
  exact ⟨used, hbs, h used a hs⟩

lemma Accepts.whole {T : Bytes → α → Prop} (hd : Accepts d T) {bs : Bytes} {a : α}
    (h : whole d bs = some a) : T bs a := by
  unfold Dec.whole at h
  split at h
  · next hrun =>
    cases h
    obtain ⟨used, rfl, ht⟩ := hd _ _ _ hrun
    rwa [List.append_nil]
  · cases h

lemma Spells.bind {T : Bytes → β → Prop}
    (hd : Spells d e) (hf : ∀ a, Accepts (f a) fun used b => T (e a ++ used) b) :
    Accepts (d >>= f) T :=
  Accepts.bind hd fun a _ hused => hused ▸ hf a

/-- `d` reads what `e` writes, and accepts nothing else. -/
class Codec (d : Dec α) (e : outParam (α → Bytes)) : Prop where
  reads : ∀ a, Reads d (e a) a
  spells : Spells d e

lemma Reads.field [Codec d e] (hf : Reads (f a) cs b) : Reads (d >>= f) (e a ++ cs) b :=
  (Codec.reads a).bind hf

lemma Accepts.field [Codec d e]
    {T : Bytes → β → Prop} (hf : ∀ a, Accepts (f a) fun used b => T (e a ++ used) b) :
    Accepts (d >>= f) T :=
  Codec.spells.bind hf

lemma Reads.ended (h : Reads d (bs ++ []) a) : Reads d bs a := by
  rwa [List.append_nil] at h

lemma Spells.many (hd : Spells d e) (k : Nat) :
    Accepts (many d k) fun used l => l.length = k ∧ used = l.flatMap e := by
  induction k with
  | zero => exact .pure ⟨rfl, rfl⟩
  | succ k ih =>
    refine hd.bind fun a => ih.bind fun l used hl => .pure ⟨congrArg succ hl.1, ?_⟩
    rw [hl.2, List.append_nil, List.flatMap_cons]

end Dec

variable {k : Nat} {bs : Bytes}

open Dec

/-! ## Big-endian words -/

/-- The `k` low bytes of `v`, most significant first. -/
def encBe : Nat → Nat → Bytes
  | 0, _ => []
  | k + 1, v => UInt8.ofNat (v / 256 ^ k) :: encBe k v

/-- The number a big-endian string of bytes spells, on top of `acc`. -/
def readBe (acc : Nat) : Bytes → Nat
  | [] => acc
  | b :: bs => readBe (acc * 256 + b.toNat) bs

@[simp] lemma encBe_length (k v : Nat) : (encBe k v).length = k := by
  induction k with
  | zero => rfl
  | succ k ih => simp [encBe, ih]

lemma readBe_encBe (k : Nat) : ∀ acc v, readBe acc (encBe k v) = acc * 256 ^ k + v % 256 ^ k := by
  induction k with
  | zero => intro acc v; simp [encBe, readBe, mod_one]
  | succ k ih =>
    intro acc v
    simp only [encBe, readBe, ih, UInt8.toNat_ofNat']
    have hsplit : v % 256 ^ (k + 1) = v / 256 ^ k % 256 * 256 ^ k + v % 256 ^ k := by
      rw [pow_succ, mod_mul, mul_comm, add_comm]
    rw [hsplit, pow_succ]
    ring_nf

lemma readBe_div (bs : Bytes) : ∀ acc, readBe acc bs / 256 ^ bs.length = acc := by
  induction bs with
  | nil => intro acc; simp [readBe]
  | cons b bs ih =>
    intro acc
    have hb := b.toNat_lt
    rw [List.length_cons, Nat.pow_succ, ← Nat.div_div_eq_div_mul, readBe, ih]
    omega

lemma encBe_readBe (bs : Bytes) : ∀ acc, encBe bs.length (readBe acc bs) = bs := by
  induction bs with
  | nil => intro acc; rfl
  | cons b bs ih =>
    intro acc
    have hhead : UInt8.ofNat (acc * 256 + b.toNat) = b := by
      apply UInt8.toNat_inj.mp
      have hb := b.toNat_lt
      rw [UInt8.toNat_ofNat']
      omega
    rw [List.length_cons, encBe, readBe, ih, readBe_div, hhead]

lemma readBe_lt (bs : Bytes) : readBe 0 bs < 256 ^ bs.length := by
  refine Nat.lt_of_div_eq_zero (Nat.pow_pos (by decide)) ?_
  exact readBe_div bs 0

def decTake (k : Nat) : Dec Bytes :=
  ⟨fun bs => if k ≤ bs.length then some (bs.take k, bs.drop k) else none⟩

lemma reads_take {a : Bytes} (h : a.length = k) : Reads (decTake k) a a := by
  intro rest
  subst h
  simp [decTake]

lemma accepts_take (k : Nat) : Accepts (decTake k) fun used a => used = a ∧ a.length = k := by
  intro bs a rest hrun
  unfold decTake at hrun
  dsimp only at hrun
  split at hrun
  · next hk =>
    cases hrun
    exact ⟨bs.take k, (List.take_append_drop k bs).symm, rfl, List.length_take_of_le hk⟩
  · cases hrun

/-- Read a big-endian word of `k` bytes. -/
def decBe (k : Nat) : Dec Nat := do
  let bs ← decTake k
  pure (readBe 0 bs)

lemma reads_be {v : Nat} (h : v < 256 ^ k) : Reads (decBe k) (encBe k v) v := by
  refine (reads_take (encBe_length k v)).last ?_
  rw [readBe_encBe, Nat.mod_eq_of_lt h, Nat.zero_mul, Nat.zero_add]

lemma accepts_be (k : Nat) : Accepts (decBe k) fun used v => used = encBe k v ∧ v < 256 ^ k := by
  refine (accepts_take k).bind fun a used ha => .pure ?_
  obtain ⟨rfl, rfl⟩ := ha
  rw [List.append_nil]
  exact ⟨(encBe_readBe used 0).symm, readBe_lt used⟩

def encU8 (v : UInt8) : Bytes := [v]
def encU16 (v : UInt16) : Bytes := encBe 2 v.toNat
def encU32 (v : UInt32) : Bytes := encBe 4 v.toNat
def encU64 (v : UInt64) : Bytes := encBe 8 v.toNat

def decU8 : Dec UInt8 :=
  ⟨fun | [] => none | b :: bs => some (b, bs)⟩

def decU16 : Dec UInt16 := do
  let v ← decBe 2
  pure (UInt16.ofNat v)

def decU32 : Dec UInt32 := do
  let v ← decBe 4
  pure (UInt32.ofNat v)

def decU64 : Dec UInt64 := do
  let v ← decBe 8
  pure (UInt64.ofNat v)

@[simp] lemma encU8_length (v : UInt8) : (encU8 v).length = 1 := rfl
@[simp] lemma encU16_length (v : UInt16) : (encU16 v).length = 2 := encBe_length ..
@[simp] lemma encU32_length (v : UInt32) : (encU32 v).length = 4 := encBe_length ..
@[simp] lemma encU64_length (v : UInt64) : (encU64 v).length = 8 := encBe_length ..

lemma reads_u8 (v : UInt8) : Reads decU8 (encU8 v) v := fun _ => rfl

lemma reads_u16 (v : UInt16) : Reads decU16 (encU16 v) v :=
  (reads_be (by simpa using v.toNat_lt)).last (by simp)

lemma reads_u32 (v : UInt32) : Reads decU32 (encU32 v) v :=
  (reads_be (by simpa using v.toNat_lt)).last (by simp)

lemma reads_u64 (v : UInt64) : Reads decU64 (encU64 v) v :=
  (reads_be (by simpa using v.toNat_lt)).last (by simp)

lemma spells_u8 : Spells decU8 encU8 := by
  intro bs a rest hrun
  cases bs with
  | nil => cases hrun
  | cons b bs =>
    obtain ⟨rfl, rfl⟩ := Prod.mk.inj (some.inj hrun)
    exact ⟨[b], rfl, rfl⟩

lemma spells_u16 : Spells decU16 encU16 := by
  refine (accepts_be 2).bind fun v used hv => .pure ?_
  have hlt : v < 2 ^ 16 := hv.2
  rw [hv.1, List.append_nil, encU16, UInt16.toNat_ofNat_of_lt' hlt]

lemma spells_u32 : Spells decU32 encU32 := by
  refine (accepts_be 4).bind fun v used hv => .pure ?_
  have hlt : v < 2 ^ 32 := hv.2
  rw [hv.1, List.append_nil, encU32, UInt32.toNat_ofNat_of_lt' hlt]

lemma spells_u64 : Spells decU64 encU64 := by
  refine (accepts_be 8).bind fun v used hv => .pure ?_
  have hlt : v < 2 ^ 64 := hv.2
  rw [hv.1, List.append_nil, encU64, UInt64.toNat_ofNat_of_lt' hlt]

instance : Codec decU16 encU16 := ⟨reads_u16, spells_u16⟩
instance : Codec decU32 encU32 := ⟨reads_u32, spells_u32⟩
instance : Codec decU64 encU64 := ⟨reads_u64, spells_u64⟩

/-! ## Flags, options, fixed arrays and counted strings -/

def encBool (b : Bool) : Bytes := encU8 (if b then 1 else 0)

/-- Only the two canonical spellings decode. -/
def decBool : Dec Bool := do
  let raw ← decU8
  Dec.require (raw ≤ 1)
  pure (raw == 1)

@[simp] lemma encBool_length (b : Bool) : (encBool b).length = 1 := rfl

lemma reads_bool (b : Bool) : Reads decBool (encBool b) b := by
  intro rest
  cases b <;> rfl

lemma spells_bool : Spells decBool encBool := by
  refine spells_u8.bind fun raw => .require fun hraw => .pure ?_
  have hle : raw.toNat ≤ 1 := UInt8.le_iff_toNat_le.mp (of_decide_eq_true hraw)
  rcases Nat.le_one_iff_eq_zero_or_eq_one.mp hle with h | h
  · obtain rfl : raw = 0 := UInt8.toNat_inj.mp h
    rfl
  · obtain rfl : raw = 1 := UInt8.toNat_inj.mp h
    rfl

instance : Codec decBool encBool := ⟨reads_bool, spells_bool⟩

def encOpt {α : Type} (e : α → Bytes) : Option α → Bytes
  | none => encBool false
  | some a => encBool true ++ e a

def decOpt {α : Type} (d : Dec α) : Dec (Option α) := do
  let present ← decBool
  if present then do
    let a ← d
    pure (some a)
  else pure none

lemma reads_opt {α : Type} {d : Dec α} {e : α → Bytes} {o : Option α}
    (h : ∀ a, o = some a → Reads d (e a) a) : Reads (decOpt d) (encOpt e o) o := by
  cases o with
  | none => exact (reads_bool false).last rfl
  | some a => exact (reads_bool true).bind ((h a rfl).last rfl)

lemma spells_opt {α : Type} {d : Dec α} {e : α → Bytes} (h : Spells d e) :
    Spells (decOpt d) (encOpt e) := by
  refine spells_bool.bind fun present => ?_
  cases present with
  | false => exact .pure (List.append_nil _)
  | true =>
    refine h.bind fun a => .pure ?_
    rw [List.append_nil]
    rfl

instance {α : Type} {d : Dec α} {e : α → Bytes} [Codec d e] : Codec (decOpt d) (encOpt e) :=
  ⟨fun _ => reads_opt fun a _ => Codec.reads a, spells_opt Codec.spells⟩

def encOptU64 : Option UInt64 → Bytes := encOpt encU64
def decOptU64 : Dec (Option UInt64) := decOpt decU64
def encOptU32 : Option UInt32 → Bytes := encOpt encU32
def decOptU32 : Dec (Option UInt32) := decOpt decU32

instance : Codec decOptU64 encOptU64 := inferInstanceAs (Codec (decOpt decU64) (encOpt encU64))
instance : Codec decOptU32 encOptU32 := inferInstanceAs (Codec (decOpt decU32) (encOpt encU32))

lemma encOptU64_length (o : Option UInt64) : (encOptU64 o).length ≤ 9 := by
  cases o <;> simp [encOptU64, encOpt]

lemma encOptU32_length (o : Option UInt32) : (encOptU32 o).length ≤ 5 := by
  cases o <;> simp [encOptU32, encOpt]

abbrev FixedBytes (k : Nat) := Vector UInt8 k

def zeros (k : Nat) : FixedBytes k := Vector.replicate k 0

def encRaw {k : Nat} (v : FixedBytes k) : Bytes := v.toList

/-- The array that starts with `bs`, cut or padded with zero bytes to `k`. -/
def fixedOfBytes (k : Nat) (bs : Bytes) : FixedBytes k :=
  Vector.ofFn fun i => bs.getD i 0

def decRaw (k : Nat) : Dec (FixedBytes k) := do
  let bs ← decTake k
  pure (fixedOfBytes k bs)

@[simp] lemma encRaw_length (v : FixedBytes k) : (encRaw v).length = k := by
  simp [encRaw]

lemma fixedOfBytes_encRaw (v : FixedBytes k) : fixedOfBytes k (encRaw v) = v := by
  ext i hi
  simp [fixedOfBytes, encRaw, List.getD]

lemma reads_raw (v : FixedBytes k) : Reads (decRaw k) (encRaw v) v :=
  (reads_take (encRaw_length v)).last (by rw [fixedOfBytes_encRaw])

lemma encRaw_fixedOfBytes (h : bs.length = k) : encRaw (fixedOfBytes k bs) = bs := by
  subst h
  apply List.ext_getElem
  · simp
  · intro i hi _
    simp [encRaw, fixedOfBytes]

lemma spells_raw (k : Nat) : Spells (decRaw k) encRaw := by
  refine (accepts_take k).bind fun a used ha => .pure ?_
  obtain ⟨rfl, hlen⟩ := ha
  rw [List.append_nil, encRaw_fixedOfBytes hlen]

instance {k : Nat} : Codec (decRaw k) encRaw := ⟨reads_raw, spells_raw k⟩

def encBytes (bs : Bytes) : Bytes := encU32 (UInt32.ofNat bs.length) ++ bs

/-- Read a counted string of at most `max` bytes. -/
def decBytesRef (max : Nat) : Dec Bytes := do
  let len ← decU32
  Dec.require (len.toNat ≤ max)
  decTake len.toNat

lemma UInt32_ofNat_toNat {n : Nat} (h : n < 2 ^ 32) : (UInt32.ofNat n).toNat = n := by
  simpa using mod_eq_of_lt h

lemma reads_bytes {max : Nat} (hmax : bs.length ≤ max) (hlen : bs.length < 2 ^ 32) :
    Reads (decBytesRef max) (encBytes bs) bs := by
  have hn := UInt32_ofNat_toNat hlen
  refine (reads_u32 _).bind (Reads.require ?_ (reads_take hn.symm))
  rw [hn]
  exact decide_eq_true hmax

lemma accepts_bytes (max : Nat) :
    Accepts (decBytesRef max) fun used bs => used = encBytes bs ∧ bs.length ≤ max := by
  refine spells_u32.bind fun len => .require fun hlen => ?_
  refine (accepts_take len.toNat).mono fun used bs hbs => ?_
  obtain ⟨rfl, hn⟩ := hbs
  refine ⟨?_, hn.trans_le (of_decide_eq_true hlen)⟩
  rw [encBytes, hn, UInt32.ofNat_toNat]

@[simp] lemma encBytes_length (bs : Bytes) : (encBytes bs).length = 4 + bs.length := by
  simp [encBytes]

end ByteCodec
