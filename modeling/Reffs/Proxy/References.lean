import Reffs.Proxy.Handlers

/-!
# References to write buffers

The count of a write buffer is the number of handlers that have found it and not given it back, and
one for the table. It is so along every run in which a `COMMIT` or `CLOSE` never has a buffer in
hand at the same time as another handler (`Undisturbed`).
-/

namespace Reffs.Proxy

open Tally Machine Function List Option Body Bool Nat

/-! ## Who has a buffer -/

variable {body : Body} {k : Count}

namespace Body

def holds (b : Nat) : Body → Bool
  | .holding b' | .inside b' | .leaving b' _ => b' == b
  | _ => false

/-- The handler will still touch the buffer: lock it, work on it, or give a reference back. -/
def has (b : Nat) : Body → Bool
  | .holding b' | .inside b' | .leaving b' _ | .dropping b' => b' == b
  | _ => false

/-- The handler will unlink the buffer, whose count has become zero. -/
def releases (b : Nat) : Body → Bool
  | .releasing b' _ => b' == b
  | _ => false

def names (b : Nat) : Body → Bool
  | .found b' | .existing b' | .holding b' | .inside b' | .leaving b' _ | .dropping b'
  | .releasing b' _ => b' == b
  | .scanning todo => todo.contains b
  | _ => false

def drops : Body → Bool
  | .leaving _ drops | .releasing _ drops => drops
  | .dropping _ => true
  | _ => false

def idle : Body → Bool
  | .ready | .found _ | .missed | .existing _ | .scanning _ | .finished => true
  | _ => false

def part (b : Nat) (body : Body) : Bool × Bool × Bool := (body.holds b, body.has b, body.releases b)

lemma idle_part (h : body.idle) (b : Nat) : body.part b = (false, false, false) := by
  cases body <;> first | rfl | cases h

lemma idle_drops (h : body.idle) : body.drops = false := by
  cases body <;> first | rfl | cases h

lemma has_of_holds {b : Nat} (h : body.holds b) : body.has b := by
  cases body <;> first | exact h | cases h

lemma names_of_has {b : Nat} (h : body.has b) : body.names b := by
  cases body <;> first | exact h | cases h

lemma unnamed (body : Body) {b : Nat} (h : body.names b = false) :
    body.part b = (false, false, false) := by
  cases body with
  | holding | inside | leaving | dropping | releasing =>
    simp only [names] at h
    simp only [part, holds, has, releases, h]
  | ready | found | missed | existing | scanning | finished => rfl

lemma holding_holds (b : Nat) : (holding b).holds b := beq_self_eq_true b

end Body

/-- The end of the range is below `2 ^ 64`. -/
def Request.Fits : Request → Prop
  | .write _ _ offset _ data => offset.toNat + data.length < 2 ^ 64
  | _ => True

instance : DecidablePred Request.Fits := fun r =>
  match r with
  | .write _ _ offset _ data => inferInstanceAs (Decidable (offset.toNat + data.length < 2 ^ 64))
  | .commit _ _ _ | .close _ _ => isTrue trivial

namespace System

variable {ι : Type} [Fintype ι]

def findRefs (s : System ι) (b : Nat) : Nat := tally (Body.holds b) s.body

/-- The buffer is in the hash table and no release is about to unlink it, or the destruction of the
table has it in hand. -/
def inTable (s : System ι) (b : Nat) : Bool :=
  ((s.count b).linked && decide (∀ i, (s.body i).releases b = false)) || decide (s.walk = some b)

/-- Two handlers have a buffer in hand at the same time only if both serve a `WRITE`. -/
def Exclusive (req : ι → Request) (s : System ι) : Prop :=
  ∀ i j, i ≠ j → ∀ b, b < s.nbufs → (s.body i).has b = true → (s.body j).has b = true →
    (req i).isWrite = true ∧ (req j).isWrite = true

/-- A step of handlers that do not disturb each other, and copy to where the buffer is. -/
def Undisturbed (req : ι → Request) (s : System ι) (a : Act ι) : Prop :=
  s.Exclusive req ∧
  match a with
  | .handler i _ => (req i).Fits
  | _ => True

instance [DecidableEq ι] (req : ι → Request) (s : System ι) : Decidable (s.Exclusive req) :=
  inferInstanceAs (Decidable (∀ i j, i ≠ j → ∀ b, b < s.nbufs → (s.body i).has b = true →
    (s.body j).has b = true → (req i).isWrite = true ∧ (req j).isWrite = true))

instance [DecidableEq ι] (req : ι → Request) (s : System ι) : DecidablePred (s.Undisturbed req) :=
  fun a =>
  match a with
  | .handler i _ => inferInstanceAs (Decidable (s.Exclusive req ∧ (req i).Fits))
  | .gate _ | .unlink _ | .unref => inferInstanceAs (Decidable (s.Exclusive req ∧ True))

/-- What the count of a buffer says about the handlers and the table. -/
structure Counted (s : System ι) (b : Nat) : Prop where
  refs : (s.count b).refs = s.findRefs b + (if (s.count b).tablePuts = 0 then 1 else 0)
  once : (s.count b).tablePuts ≤ 1
  has : ∀ i, (s.body i).has b = true → (s.count b).tablePuts = 0
  released : (s.count b).released = true ↔ (s.count b).refs = 0
  linked : (s.count b).linked = true → (s.count b).tablePuts = 0 ∨ ∃ i, (s.body i).releases b = true
  table : (s.count b).tablePuts = 0 → (s.count b).linked = true ∨ s.walk = some b
  releases : ∀ i, (s.body i).releases b = true → (s.count b).tablePuts ≠ 0

attribute [grind cases] Counted

structure Referenced (req : ι → Request) (s : System ι) : Prop where
  gate : s.gate.Sound
  active : ∀ i, s.body i ≠ .ready → s.body i ≠ .finished → s.gate.place i = .admitted
  named : ∀ i b, (s.body i).names b = true → b < s.nbufs
  counted : ∀ b, b < s.nbufs → s.Counted b
  drops : ∀ i, (s.body i).drops = true → (req i).isWrite = false ∧ ∀ b, s.body i ≠ .releasing b true
  walk : ∀ b, s.walk = some b →
    b < s.nbufs ∧ (s.count b).tablePuts = 0 ∧ (s.count b).linked = false ∧ s.gate.stop = .destroying

attribute [grind cases] Referenced

section

variable {req : ι → Request} {s s' : System ι} {i : ι} {b : Nat}

lemma init_referenced (bootGen : UInt64) (upstream : FileHandle → Content) :
    Referenced req (init bootGen upstream) where
  gate := Gate.init_sound
  active := fun _ hready => absurd rfl hready
  named := nofun
  counted := nofun
  drops := nofun
  walk := nofun

lemma Counted.kept (h : s.Counted b) (hcount : s'.count b = s.count b)
    (hpart : ∀ j, (s'.body j).part b = (s.body j).part b)
    (hwalk : s.walk = some b → s'.walk = some b) : s'.Counted b := by
  simp only [part, Prod.mk.injEq, forall_and] at hpart
  obtain ⟨hholds, hhas, hreleases⟩ := hpart
  have hfind : s'.findRefs b = s.findRefs b := Finset.sum_congr rfl fun j _ => by rw [hholds]
  constructor <;> simp only [hcount, hfind, hhas, hreleases]
  exacts [h.refs, h.once, h.has, h.released, h.linked, fun hputs => (h.table hputs).imp_right hwalk,
    h.releases]

lemma Counted.tablePuts_of_refs (h : s.Counted b) (hrefs : (s.count b).refs ≠ 0) :
    (s.count b).tablePuts = 0 := by
  by_contra hputs
  have hcount := h.refs
  rw [if_neg hputs] at hcount
  have hnone : s.findRefs b = 0 :=
    tally_eq_zero.mpr fun i => eq_false_iff.mpr fun hi => hputs (h.has i (has_of_holds hi))
  rw [hnone] at hcount
  exact hrefs hcount

lemma Referenced.has (h : Referenced req s) (hb : (s.body i).has b) :
    b < s.nbufs ∧ (s.count b).tablePuts = 0 :=
  have hlt := h.named i b (names_of_has hb)
  ⟨hlt, (h.counted b hlt).has i hb⟩

lemma Referenced.idle (h : Referenced req s) (hstop : s.gate.stop = .destroying) (i : ι) :
    s.body i = .ready ∨ s.body i = .finished := by
  by_contra hboth
  push Not at hboth
  exact h.gate.past (by rw [hstop]; rfl) i (h.active i hboth.1 hboth.2)

lemma Referenced.findRefs_idle (h : Referenced req s) (hstop : s.gate.stop = .destroying) :
    s.findRefs b = 0 := by
  refine tally_eq_zero.mpr fun i => ?_
  rcases h.idle hstop i with hi | hi <;> rw [hi] <;> rfl

lemma findRefs_pos (h : (s.body i).holds b) : 0 < s.findRefs b := tally_pos h

lemma Referenced.walk_none (h : Referenced req s) (hi : s.gate.place i = .admitted) :
    s.walk = none := by
  cases hwalk : s.walk with
  | none => rfl
  | some b =>
    obtain ⟨-, -, -, hstop⟩ := h.walk b hwalk
    exact absurd hi (h.gate.past (by rw [hstop]; rfl) i)

variable [DecidableEq ι]

/-- Handler `i` has come to `q`. -/
structure Moved (s s' : System ι) (i : ι) (q : Body) : Prop where
  gate : s'.gate = s.gate
  nbufs : s.nbufs ≤ s'.nbufs
  body : s'.body = Function.update s.body i q
  walk : s'.walk = s.walk

attribute [grind cases] Moved

section

variable {q : Body}

omit [Fintype ι] in
lemma Moved.at (h : Moved s s' i q) (j : ι) :
    j = i ∧ s'.body j = q ∨ j ≠ i ∧ s'.body j = s.body j := by
  rw [h.body]
  by_cases hj : j = i
  · exact .inl ⟨hj, by rw [hj, update_self]⟩
  · exact .inr ⟨hj, update_of_ne hj ..⟩

lemma Moved.counted (hmove : Moved s s' i q) (hk : s'.count b = k)
    (hrefs : ∀ n : Nat, n + ((s.body i).holds b).toNat = s.findRefs b + (q.holds b).toNat →
      k.refs = n + (if k.tablePuts = 0 then 1 else 0)) (honce : k.tablePuts ≤ 1)
    (hhas : q.has b ∨ (∃ j, j ≠ i ∧ (s.body j).has b) → k.tablePuts = 0)
    (hreleased : k.released ↔ k.refs = 0) (hlinked : k.linked → k.tablePuts = 0 ∨ q.releases b)
    (htable : k.tablePuts = 0 → k.linked)
    (hreleases : q.releases b ∨ (∃ j, j ≠ i ∧ (s.body j).releases b) → k.tablePuts ≠ 0) :
    s'.Counted b := by
  obtain rfl := hk
  refine ⟨hrefs _ ?_, honce, fun j hj => hhas ?_, hreleased,
    fun hl => (hlinked hl).imp_right fun hq => ⟨i, ?_⟩,
    fun hputs => .inl (htable hputs), fun j hj => hreleases ?_⟩
  · unfold findRefs
    rw [hmove.body]
    exact tally_update i q
  · rcases hmove.at j with ⟨-, he⟩ | ⟨hne, he⟩ <;> rw [he] at hj
    exacts [.inl hj, .inr ⟨j, hne, hj⟩]
  · rwa [hmove.body, update_self]
  · rcases hmove.at j with ⟨-, he⟩ | ⟨hne, he⟩ <;> rw [he] at hj
    exacts [.inl hj, .inr ⟨j, hne, hj⟩]

section

variable (h : Referenced req s) (hi : s.gate.place i = .admitted) (hmove : Moved s s' i q)

include h hi hmove

lemma Referenced.move (hnamed : ∀ b, q.names b → b < s'.nbufs)
    (hdrops : q.drops → (req i).isWrite = false ∧ ∀ b, q ≠ .releasing b true)
    (hbufs : ∀ b < s'.nbufs,
      s'.Counted b ∨ b < s.nbufs ∧ s'.count b = s.count b ∧ q.part b = (s.body i).part b) :
    Referenced req s' := by
  have hnone : s'.walk = none := hmove.walk.trans (h.walk_none hi)
  refine ⟨by rw [hmove.gate]; exact h.gate, fun j hready hfinished => ?_, fun j b hb => ?_,
    fun b hb => ?_, fun j hj => ?_, fun b hb => by rw [hnone] at hb; cases hb⟩
  · rw [hmove.gate]
    rcases hmove.at j with ⟨rfl, -⟩ | ⟨-, he⟩
    · exact hi
    · rw [he] at hready hfinished
      exact h.active j hready hfinished
  · rcases hmove.at j with ⟨-, he⟩ | ⟨-, he⟩ <;> rw [he] at hb
    exacts [hnamed b hb, lt_of_lt_of_le (h.named j b hb) hmove.nbufs]
  · rcases hbufs b hb with hnew | ⟨hold, hcount, hpart⟩
    · exact hnew
    · refine (h.counted b hold).kept hcount (fun j => ?_) (by rw [hmove.walk]; exact id)
      rcases hmove.at j with ⟨rfl, he⟩ | ⟨-, he⟩ <;> rw [he]
      exact hpart
  · rcases hmove.at j with ⟨rfl, he⟩ | ⟨-, he⟩ <;> rw [he] at hj ⊢
    exacts [hdrops hj, h.drops j hj]

lemma Referenced.moveAt (hn : s'.nbufs = s.nbufs) (hcount : s'.count = update s.count b k)
    (hnamed : ∀ b', q.names b' → b' < s.nbufs)
    (hother : ∀ b', b' ≠ b → q.part b' = (s.body i).part b')
    (hdrops : q.drops → (req i).isWrite = false ∧ ∀ b, q ≠ .releasing b true)
    (hat : s'.count b = k → s'.Counted b) : Referenced req s' := by
  refine h.move hi hmove (by rwa [hn]) hdrops fun b' hb' => ?_
  by_cases hne : b' = b
  · rw [hne]
    exact .inl (hat (by rw [hcount, update_self]))
  · exact .inr ⟨hn ▸ hb', by rw [hcount, update_of_ne hne], hother b' hne⟩

end

end

/-! ## One step -/

omit [Fintype ι] [DecidableEq ι] in
lemma lookup_spec {stateid : StateidOther} {fh : FileHandle} (h : s.lookup stateid fh = some b) :
    b < s.nbufs ∧ (s.count b).linked ∧ s.key b = (stateid, fh) := by
  have hmem := mem_of_find?_eq_some h
  have hp := find?_some h
  rw [and_eq_true, decide_eq_true_iff] at hp
  exact ⟨mem_range.mp hmem, hp⟩

omit [Fintype ι] [DecidableEq ι] in
lemma mem_ofFile {fh : FileHandle} :
    b ∈ s.ofFile fh ↔ b < s.nbufs ∧ (s.count b).linked ∧ (s.key b).2 = fh := by
  simp [ofFile, mem_filter]

omit [DecidableEq ι] in
lemma Referenced.linked (h : Referenced req s) (hi : s.gate.place i = .admitted) (hb : b < s.nbufs)
    (hputs : (s.count b).tablePuts = 0) : (s.count b).linked :=
  ((h.counted b hb).table hputs).resolve_right (by rw [h.walk_none hi]; nofun)

lemma Referenced.get (h : Referenced req s) (hi : s.gate.place i = .admitted) (hb : b < s.nbufs)
    (hidle : (s.body i).idle) {orElse : System ι} (helse : Referenced req orElse) :
    Referenced req (s.get i b orElse) := by
  unfold System.get
  split
  · exact helse
  next hrefs =>
  have hc := h.counted b hb
  have hputs := hc.tablePuts_of_refs hrefs
  have hcount := hc.refs
  rw [if_pos hputs] at hcount
  have hmove :
      Moved s
        ((s.setCount b { s.count b with refs := (s.count b).refs + 1 }).setBody i (.holding b))
        i (.holding b) := ⟨rfl, le_rfl, rfl, rfl⟩
  refine h.moveAt hi hmove rfl rfl (fun b' hb' => beq_iff_eq.mp hb' ▸ hb)
    (fun b' hne => ?_) nofun fun hk =>
    hmove.counted hk (fun n hn => ?_) hc.once (fun _ => hputs) ?_ (fun _ => .inl hputs)
      (fun _ => h.linked hi hb hputs) ?_
  · exact (unnamed (.holding b) (beq_false_of_ne hne.symm)).trans (idle_part hidle b').symm
  · have hfree : (s.body i).holds b = false := congrArg Prod.fst (idle_part hidle b)
    simp only [hfree, hputs, hcount, holding_holds, toNat_false, toNat_true, if_true] at hn ⊢
    omega
  · show (s.count b).released ↔ (s.count b).refs + 1 = 0
    rw [hc.released]
    omega
  · rintro (hrel | ⟨j, -, hrel⟩)
    · cases hrel
    · exact hc.releases j hrel

lemma Referenced.insert (h : Referenced req s) (hi : s.gate.place i = .admitted)
    (hidle : (s.body i).idle) (stateid : StateidOther) (fh : FileHandle) :
    Referenced req (s.insert i stateid fh) := by
  have hmove : Moved s (s.insert i stateid fh) i (.holding s.nbufs) := ⟨rfl, le_succ _, rfl, rfl⟩
  have hunknown : ∀ j, (s.body j).part s.nbufs = (false, false, false) := fun j =>
    unnamed _ (eq_false_iff.mpr fun hj => lt_irrefl _ (h.named j _ hj))
  refine h.move hi hmove (fun b hb => beq_iff_eq.mp hb ▸ lt_succ_self _) nofun fun b hb => ?_
  by_cases hne : b = s.nbufs
  · rw [hne]
    refine .inl (hmove.counted (update_self ..) (fun n hn => ?_) (zero_le _) (fun _ => rfl)
      (by simp)
      (fun _ => .inl rfl) (fun _ => rfl) ?_)
    · have hzero : s.findRefs s.nbufs = 0 :=
        tally_eq_zero.mpr fun j => congrArg Prod.fst (hunknown j)
      have hfree : (s.body i).holds s.nbufs = false := congrArg Prod.fst (hunknown i)
      simp only [hzero, hfree, holding_holds, toNat_false, toNat_true, if_true] at hn ⊢
      omega
    · rintro (hrel | ⟨j, -, hrel⟩)
      · cases hrel
      · exact absurd ((congrArg (·.2.2) (hunknown j)).symm.trans hrel) (by decide)
  · refine .inr ⟨?_, update_of_ne hne .., ?_⟩
    · have hlt : b < s.nbufs + 1 := hb
      omega
    · exact (unnamed (.holding s.nbufs) (beq_false_of_ne (Ne.symm hne))).trans
        (idle_part hidle b).symm

lemma work_drops {c : Choice} {bootGen : UInt64} {buf : Buffer} {up : Content} {r : Request}
    (h : (work c bootGen buf up r).drops) : r.isWrite = false := by
  cases r with
  | write stateid fh offset stable data => grind [work, writeWork]
  | commit => rfl
  | close => rfl

namespace Referenced

variable (h : Referenced req s)

include h

lemma leave (hi : s.gate.place i = .admitted) {drops : Bool}
    (hbody : s.body i = .leaving b drops) : Referenced req ((s.put b false).setBody i
      (if (s.count b).refs = 1 then .releasing b drops else if drops then .dropping b
        else .finished)) := by
  obtain ⟨hb, hputs⟩ := h.has (i := i) (b := b) (by rw [hbody]; exact beq_self_eq_true b)
  have hholds : (s.body i).holds b := by
    rw [hbody]
    exact beq_self_eq_true b
  have hpos := findRefs_pos hholds
  have hc := h.counted b hb
  have hcount := hc.refs
  rw [if_pos hputs] at hcount
  rw [if_neg (by omega)]
  have hq : ∀ q : Body, q.holds b = false → q.releases b = false → (∀ b', q.names b' → b' = b) →
      (q.drops → (req i).isWrite = false ∧ ∀ b, q ≠ .releasing b true) →
      Referenced req ((s.put b false).setBody i q) := by
    intro q hqholds hqreleases hnames hdrops
    have hmove : Moved s ((s.put b false).setBody i q) i q := ⟨rfl, le_rfl, rfl, rfl⟩
    refine h.moveAt hi hmove rfl rfl (fun b' hb' => hnames b' hb' ▸ hb)
      (fun b' hne => ?_) hdrops fun hk =>
      hmove.counted hk (fun n hn => ?_) hc.once (fun _ => hputs) ?_ (fun _ => .inl hputs)
        (fun _ => h.linked hi hb hputs) ?_
    · rw [unnamed _ (eq_false_iff.mpr fun hb' => hne (hnames b' hb')), hbody]
      exact (unnamed (.leaving b drops) (beq_false_of_ne hne.symm)).symm
    · grind
    · grind
    · grind
  cases drops with
  | true =>
    refine hq (.dropping b) rfl rfl (fun b' hb' => (beq_iff_eq.mp hb').symm) fun _ => ⟨?_, nofun⟩
    exact (h.drops i (by rw [hbody]; rfl)).1
  | false => exact hq .finished rfl rfl nofun nofun

/-- The last handler that has the buffer gives the table's reference back, and the count becomes
zero. -/
lemma drop (hex : s.Exclusive req) (hi : s.gate.place i = .admitted)
    (hbody : s.body i = .dropping b) : (s.count b).refs = 1 ∧
    Referenced req ((s.put b true).setBody i
      (if (s.count b).refs = 1 then .releasing b false else .finished)) := by
  have hhas : (s.body i).has b := by
    rw [hbody]
    exact beq_self_eq_true b
  obtain ⟨hb, hputs⟩ := h.has hhas
  have halone : ∀ j, j ≠ i → (s.body j).has b = false := by
    intro j hj
    by_contra hjb
    have hboth := hex i j (Ne.symm hj) b hb hhas (eq_true_of_not_eq_false hjb)
    have hdrops := h.drops i (by rw [hbody]; rfl)
    exact absurd (hboth.1.symm.trans hdrops.1) (by decide)
  have hnone : s.findRefs b = 0 := by
    refine tally_eq_zero.mpr fun j => eq_false_iff.mpr fun hjb => ?_
    by_cases hj : j = i
    · rw [hj, hbody] at hjb
      cases hjb
    · exact absurd ((halone j hj).symm.trans (has_of_holds hjb)) (by decide)
  have hone := (h.counted b hb).refs
  rw [if_pos hputs, hnone, cast_zero, zero_add] at hone
  refine ⟨hone, ?_⟩
  rw [if_pos hone]
  have hmove : Moved s ((s.put b true).setBody i (.releasing b false)) i (.releasing b false) :=
    ⟨rfl, le_rfl, rfl, rfl⟩
  refine h.moveAt hi hmove rfl rfl (fun b' hb' => beq_iff_eq.mp hb' ▸ hb)
    (fun b' hne => ?_) nofun fun hk =>
    hmove.counted hk (fun n hn => ?_) ?_ ?_ ?_ (fun _ => .inr (beq_self_eq_true b)) ?_ fun _ =>
      succ_ne_zero _
  · rw [hbody]
    exact (unnamed (.releasing b false) (beq_false_of_ne hne.symm)).trans
      (unnamed (.dropping b) (beq_false_of_ne hne.symm)).symm
  · rw [hbody, hnone] at hn
    have hzero : n = 0 := hn
    show (s.count b).refs - 1 = n + if (s.count b).tablePuts + 1 = 0 then 1 else 0
    rw [if_neg (by omega), hzero, hone]
    rfl
  · show (s.count b).tablePuts + 1 ≤ 1
    omega
  · rintro (hhas' | ⟨j, hj, hhas'⟩)
    · cases hhas'
    · rw [halone j hj] at hhas'
      cases hhas'
  · grind
  · intro hzero
    exact absurd (show (s.count b).tablePuts + 1 = 0 from hzero) (by omega)

lemma unlink (hi : s.gate.place i = .admitted) {drops : Bool}
    (hbody : s.body i = .releasing b drops) :
    Referenced req ((s.setCount b { s.count b with linked := false }).setBody i
      (if drops then .dropping b else .finished)) := by
  have hrel : (s.body i).releases b := by
    rw [hbody]
    exact beq_self_eq_true b
  have hc := h.counted b (h.named i b (by rw [hbody]; exact beq_self_eq_true b))
  have hputs := hc.releases i hrel
  have hno : drops = false := by
    by_contra hyes
    obtain rfl := eq_true_of_not_eq_false hyes
    exact (h.drops i (by rw [hbody]; rfl)).2 b hbody
  rw [hno, if_neg (by decide)]
  have hmove :
      Moved s ((s.setCount b { s.count b with linked := false }).setBody i .finished) i .finished :=
    ⟨rfl, le_rfl, rfl, rfl⟩
  refine h.moveAt hi hmove rfl rfl nofun (fun b' hne => ?_) nofun fun hk =>
    hmove.counted hk (fun n hn => ?_) hc.once ?_ hc.released nofun (fun hzero => absurd hzero hputs)
      fun _ => hputs
  · rw [hbody]
    exact (unnamed (.releasing b drops) (beq_false_of_ne hne.symm)).symm
  · rw [hbody] at hn
    have heq : n = s.findRefs b := hn
    rw [heq]
    exact hc.refs
  · rintro (hhas | ⟨j, -, hhas⟩)
    · cases hhas
    · exact hc.has j hhas

lemma moveBody (hi : s.gate.place i = .admitted) {q : Body}
    (hmove : Moved s s' i q) (hn : s'.nbufs = s.nbufs) (hcount : s'.count = s.count)
    (hnamed : ∀ b, q.names b → b < s.nbufs) (hsame : ∀ b, q.part b = (s.body i).part b)
    (hdrops : q.drops → (req i).isWrite = false ∧ ∀ b, q ≠ .releasing b true) : Referenced req s' :=
  h.move hi hmove (by rwa [hn]) hdrops fun b hb => .inr ⟨hn ▸ hb, by rw [hcount], hsame b⟩

lemma handlerNext (hex : s.Exclusive req) {c : Choice}
    (hi : s.gate.place i = .admitted) (hnext : s.handlerNext req i c = some s') :
    Referenced req s' := by
  -- a handler moves with nothing in hand
  have hidle : (s.body i).idle → ∀ {s' : System ι} (q : Body), q.idle → Moved s s' i q →
      s'.nbufs = s.nbufs → s'.count = s.count → (∀ b, q.names b → b < s.nbufs) →
        Referenced req s' :=
    fun hfree _ q hq hmove hn hcount hnamed => h.moveBody hi hmove hn hcount hnamed
      (fun b => (idle_part hq b).trans (idle_part hfree b).symm)
      fun hdrops => absurd ((idle_drops hq).symm.trans hdrops) (by decide)
  have hnamed := h.named i
  unfold System.handlerNext at hnext
  cases hbody : s.body i <;> rw [hbody] at hnext hidle hnamed <;> dsimp only at hnext
  case ready =>
    cases hreq : req i <;> rw [hreq] at hnext <;> dsimp only at hnext
    case write stateid fh _ _ _ =>
      cases hl : s.lookup stateid fh <;> rw [hl] at hnext <;> cases hnext
      · exact hidle rfl .missed rfl ⟨rfl, le_rfl, rfl, rfl⟩ rfl rfl nofun
      · next b =>
        exact hidle rfl (.found b) rfl ⟨rfl, le_rfl, rfl, rfl⟩ rfl rfl fun b' hb' =>
          beq_iff_eq.mp hb' ▸ (lookup_spec hl).1
    case close stateid fh =>
      cases hl : s.lookup stateid fh <;> rw [hl] at hnext <;> cases hnext
      · exact hidle rfl .finished rfl ⟨rfl, le_rfl, rfl, rfl⟩ rfl rfl nofun
      · next b =>
        exact hidle rfl (.found b) rfl ⟨rfl, le_rfl, rfl, rfl⟩ rfl rfl fun b' hb' =>
          beq_iff_eq.mp hb' ▸ (lookup_spec hl).1
    case commit fh _ _ =>
      cases hnext
      exact hidle rfl (.scanning (s.ofFile fh)) rfl ⟨rfl, le_rfl, rfl, rfl⟩ rfl rfl
        fun b hb => (mem_ofFile.mp (contains_iff_mem.mp hb)).1
  case found b =>
    cases hnext
    refine h.get hi (hnamed b (beq_self_eq_true b)) (by rw [hbody]; rfl) ?_
    split
    · exact hidle rfl .missed rfl ⟨rfl, le_rfl, rfl, rfl⟩ rfl rfl nofun
    · exact hidle rfl .finished rfl ⟨rfl, le_rfl, rfl, rfl⟩ rfl rfl nofun
  case missed =>
    cases hreq : req i <;> rw [hreq] at hnext <;> dsimp only at hnext
    case write stateid fh _ _ _ =>
      split at hnext
      · cases hnext
        exact hidle rfl .finished rfl ⟨rfl, le_rfl, rfl, rfl⟩ rfl rfl nofun
      · cases hl : s.lookup stateid fh <;> rw [hl] at hnext <;> cases hnext
        · exact h.insert hi (by rw [hbody]; rfl) stateid fh
        · next b =>
          exact hidle rfl (.existing b) rfl ⟨rfl, le_rfl, rfl, rfl⟩ rfl rfl
            fun b' hb' => beq_iff_eq.mp hb' ▸ (lookup_spec hl).1
    all_goals cases hnext
  case existing b =>
    cases hnext
    refine h.get hi (hnamed b (beq_self_eq_true b)) (by rw [hbody]; rfl) ?_
    exact hidle rfl .finished rfl ⟨rfl, le_rfl, rfl, rfl⟩ rfl rfl nofun
  case scanning todo =>
    cases todo with
    | nil =>
      cases hnext
      exact hidle rfl .finished rfl ⟨rfl, le_rfl, rfl, rfl⟩ rfl rfl nofun
    | cons b rest =>
      cases hnext
      refine h.get hi (hnamed b (contains_iff_mem.mpr mem_cons_self)) (by rw [hbody]; rfl) ?_
      refine hidle rfl (.scanning rest) rfl ⟨rfl, le_rfl, rfl, rfl⟩ rfl rfl fun b' hb' =>
        hnamed b' ?_
      exact contains_iff_mem.mpr (mem_cons_of_mem _ (contains_iff_mem.mp hb'))
  case holding b =>
    split at hnext <;> cases hnext
    refine h.moveBody (q := .inside b) hi ⟨rfl, le_rfl, rfl, rfl⟩ rfl rfl hnamed
      (fun b' => ?_) nofun
    rw [hbody]
    rfl
  case inside b =>
    cases hnext
    refine h.moveBody (q := .leaving b _) hi ⟨rfl, le_rfl, rfl, rfl⟩ rfl rfl hnamed
      (fun b' => ?_) fun hdrops => ⟨?_, nofun⟩
    · rw [hbody]
      rfl
    · exact work_drops hdrops
  case leaving b drops =>
    cases hnext
    exact h.leave hi hbody
  case dropping b =>
    cases hnext
    exact (h.drop hex hi hbody).2
  case releasing b drops =>
    cases hnext
    exact h.unlink hi hbody
  case finished => cases hnext

/-- Handlers at work stay admitted, and the stop does not go on while the table is being destroyed.
-/
lemma gateNext {a : GateAct ι} {g : Gate ι} (hopen : s.gateOpen req a)
    (hnext : s.gate.next a = some g) (hgate : s'.gate = g) (hn : s'.nbufs = s.nbufs)
    (hcount : s'.count = s.count)
    (hbody : s'.body = s.body) (hwalk : s'.walk = s.walk) : Referenced req s' := by
  have hplace : ∀ i, s.body i ≠ .ready → s.body i ≠ .finished → g.place i = .admitted := by
    intro i hready hfinished
    have hi := h.active i hready hfinished
    -- the thread that moves is none of those at work
    have hother : ∀ j p, s.gate.place j ≠ .admitted ∨ s.body j = .finished →
        update s.gate.place j p i = .admitted := by grind
    cases a with
    | stop => rw [(Gate.stopNext_place hnext).1]; exact hi
    | wake =>
      obtain ⟨-, rfl⟩ := ite_some_none_eq_some.mp hnext
      exact hi
    | count j | load j | broadcast j | unlock j =>
      obtain ⟨hj, rfl⟩ := ite_some_none_eq_some.mp hnext
      exact hother j _ (Or.inl (by rw [hj]; nofun))
    | uncount j =>
      obtain ⟨-, rfl⟩ := ite_some_none_eq_some.mp hnext
      refine hother j _ ?_
      rcases or_eq_true .. ▸ hopen with hj | hj
      · exact Or.inl (by rw [of_decide_eq_true hj]; nofun)
      · exact Or.inr (of_decide_eq_true hj)
    | lock j =>
      obtain ⟨⟨hj, -⟩, rfl⟩ := ite_some_none_eq_some.mp hnext
      exact hother j _ (Or.inl (by rw [hj]; nofun))
  have hstop : ∀ b, s.walk = some b → g.stop = .destroying := by
    intro b hw
    obtain ⟨-, -, -, hdestroying⟩ := h.walk b hw
    cases a with
    | stop => grind [gateOpen]
    | wake =>
      obtain ⟨hwaiting, -⟩ := ite_some_none_eq_some.mp hnext
      rw [hdestroying] at hwaiting
      cases hwaiting
    | broadcast j =>
      obtain ⟨-, rfl⟩ := ite_some_none_eq_some.mp hnext
      rw [hdestroying]
      rfl
    | count j | load j | uncount j | lock j | unlock j =>
      obtain ⟨-, rfl⟩ := ite_some_none_eq_some.mp hnext
      exact hdestroying
  refine ⟨hgate ▸ h.gate.next hnext,
    by rw [hbody, hgate]; exact hplace, by rw [hbody, hn]; exact h.named,
    fun b hb => ?_, by rw [hbody]; exact h.drops, fun b hw => ?_⟩
  · exact (h.counted b (hn ▸ hb)).kept (by rw [hcount]) (fun j => by rw [hbody])
      (by rw [hwalk]; exact id)
  · grind

omit [DecidableEq ι] in
lemma destroy (hstop : s.gate.stop = .destroying)
    (hb : b < s.nbufs) (hgate : s'.gate = s.gate) (hn : s'.nbufs = s.nbufs)
    (hcount : s'.count = update s.count b k) (hbody : s'.body = s.body)
    (hrefs : k.refs = if k.tablePuts = 0 then 1 else 0) (honce : k.tablePuts ≤ 1)
    (hreleased : k.released ↔ k.refs = 0) (hlinked : k.linked = false)
    (hwalk : s'.walk = if k.tablePuts = 0 then some b else none)
    (hbefore : s.walk = none ∨ s.walk = some b) : Referenced req s' := by
  have hk : s'.count b = k := by rw [hcount, update_self]
  have hnobody : ∀ i, (s'.body i).part b = (false, false, false) := by
    intro i
    rw [hbody]
    rcases h.idle hstop i with hi | hi <;> rw [hi] <;> rfl
  have hfind : s'.findRefs b = 0 := tally_eq_zero.mpr fun i => congrArg Prod.fst (hnobody i)
  refine ⟨hgate ▸ h.gate,
    by rw [hbody, hgate]; exact h.active, by rw [hbody, hn]; exact h.named, fun b' hb' => ?_,
    by rw [hbody]; exact h.drops, fun b' hw => ?_⟩
  · by_cases heq : b' = b
    · rw [heq]
      refine ⟨by rw [hk, hfind, hrefs]; simp, hk ▸ honce, fun i hi => ?_,
        by rw [hk]; exact hreleased, by rw [hk, hlinked]; nofun,
        fun hputs => .inr (by rw [hwalk, ← hk, if_pos hputs]), fun i hi => ?_⟩
      · exact absurd ((congrArg (·.2.1) (hnobody i)).symm.trans hi) (by decide)
      · exact absurd ((congrArg (·.2.2) (hnobody i)).symm.trans hi) (by decide)
    · refine (h.counted b' (hn ▸ hb')).kept (by rw [hcount, update_of_ne heq])
        (fun j => by rw [hbody])
        fun hw => ?_
      rcases hbefore with hnone | hsome
      · rw [hnone] at hw
        cases hw
      · exact absurd (some.inj (hw.symm.trans hsome)) heq
  · grind

lemma next {a : Act ι} (ha : s.Undisturbed req a)
    (hnext : s.next req a = some s') : Referenced req s' := by
  cases a with
  | gate a =>
    simp only [System.next] at hnext
    split at hnext
    · next hopen =>
      obtain ⟨g, hg, rfl⟩ := map_eq_some_iff.mp hnext
      exact h.gateNext hopen hg rfl rfl rfl rfl rfl
    · cases hnext
  | handler i c =>
    simp only [System.next] at hnext
    split at hnext
    · next hi => exact h.handlerNext ha.1 hi hnext
    · cases hnext
  | unlink b =>
    obtain ⟨⟨hstop, hwalk, hb, hlinked⟩, rfl⟩ := ite_some_none_eq_some.mp hnext
    have hputs : (s.count b).tablePuts = 0 := by
      rcases (h.counted b hb).linked hlinked with hputs | ⟨i, hi⟩
      · exact hputs
      · rcases h.idle hstop i with hbody | hbody <;> rw [hbody] at hi <;> cases hi
    have hcount := (h.counted b hb).refs
    rw [if_pos hputs, h.findRefs_idle hstop] at hcount
    refine h.destroy hstop hb rfl rfl rfl rfl ?_ (h.counted b hb).once
      (h.counted b hb).released rfl ?_ (Or.inl hwalk)
    · grind
    · grind
  | unref =>
    obtain ⟨b, hwalk, rfl⟩ := map_eq_some_iff.mp hnext
    obtain ⟨hb, hputs, hunlinked, hstop⟩ := h.walk b hwalk
    have hcount := (h.counted b hb).refs
    rw [if_pos hputs, h.findRefs_idle hstop] at hcount
    have hone : (s.count b).refs = 1 := hcount
    refine h.destroy hstop hb rfl rfl rfl rfl ?_ ?_ ?_ hunlinked ?_ (Or.inr hwalk)
    · grind
    · show (s.count b).tablePuts + 1 ≤ 1
      omega
    · grind
    · exact (if_neg (succ_ne_zero _)).symm

end Referenced

lemma run_referenced {bootGen : UInt64} {upstream : FileHandle → Content} {as : List (Act ι)}
    (has : Machine.Along (step req) (Undisturbed req) (init bootGen upstream) as) :
    Referenced req (run (step req) (init bootGen upstream) as) := by
  refine run_invariant_along (fun s a h ha => ?_) (init_referenced bootGen upstream) has
  unfold step
  cases hnext : s.next req a with
  | none => exact h
  | some s' => exact h.next ha hnext

omit [DecidableEq ι] in
lemma Referenced.inTable_iff (h : Referenced req s) (hb : b < s.nbufs) :
    s.inTable b ↔ (s.count b).tablePuts = 0 := by
  unfold inTable
  rw [or_eq_true, and_eq_true, decide_eq_true_iff, decide_eq_true_iff]
  constructor
  · grind
  · grind

/-- **References are counted.** Along every run whose handlers do not disturb each other, the count
of a buffer is the number of references that handlers have found, and one while the buffer is in the
table; the table's reference has been given back once if the buffer is not in the table, and not at
all if it is; and no handler has a buffer in hand whose count has been zero. -/
theorem references_counted (bootGen : UInt64) (upstream : FileHandle → Content) (as : List (Act ι))
    (has : Machine.Along (step req) (Undisturbed req) (init bootGen upstream) as) (b : Nat)
    (hb : b < (Machine.run (step req) (init bootGen upstream) as).nbufs) :
    ((Machine.run (step req) (init bootGen upstream) as).count b).refs =
      (Machine.run (step req) (init bootGen upstream) as).findRefs b +
        (if (Machine.run (step req) (init bootGen upstream) as).inTable b = true then 1 else 0) ∧
    ((Machine.run (step req) (init bootGen upstream) as).count b).tablePuts =
      (if (Machine.run (step req) (init bootGen upstream) as).inTable b = true then 0 else 1) ∧
    ∀ i, ((Machine.run (step req) (init bootGen upstream) as).body i).has b = true →
      ((Machine.run (step req) (init bootGen upstream) as).count b).released = false := by
  have h := run_referenced has
  generalize run (step req) (init bootGen upstream) as = s at h hb ⊢
  have hiff := h.inTable_iff hb
  have hc := h.counted b hb
  refine ⟨?_, ?_, fun i hi => ?_⟩
  · rw [hc.refs]
    simp only [hiff]
  · grind
  · grind

end

def good : Choice :=
  ⟨true, true, true, ⟨fun _ => 0, fun _ => 0, fun _ => false, fun _ => none, fun _ => true⟩, 0,
    fun _ => false⟩

def threeRequests : Fin 3 → Request
  | 0 => .write (Vector.replicate 12 1) [1] 0 0 [7]
  | _ => .commit [1] 0 0

def serve (i : Fin 3) (n : Nat) : List (Act (Fin 3)) := List.replicate n (.handler i good)

def enter (i : Fin 3) : List (Act (Fin 3)) := [.gate (.count i), .gate (.load i)]

/-- The `WRITE` is served and a `COMMIT` drops its buffer. -/
def writeThenCommit : List (Act (Fin 3)) :=
  enter 0 ++ serve 0 5 ++ [.gate (.uncount 0)] ++ enter 1 ++ serve 1 7

/-- Both `COMMIT`s find the buffer before one of them drops it. -/
def twoCommits : List (Act (Fin 3)) :=
  enter 0 ++ serve 0 5 ++ [.gate (.uncount 0)] ++ enter 1 ++ enter 2 ++ serve 1 2 ++ serve 2 2 ++
    serve 1 2 ++
    serve 2 2 ++ serve 1 2 ++ serve 2 2

def runThree (as : List (Act (Fin 3))) : System (Fin 3) :=
  Machine.run (step threeRequests) (init 1 fun _ _ => 0) as

theorem writeThenCommit_counted : (runThree writeThenCommit).nbufs = 1 ∧
    ((runThree writeThenCommit).count 0).refs = (runThree writeThenCommit).findRefs 0 +
      (if (runThree writeThenCommit).inTable 0 = true then 1 else 0) ∧
    ((runThree writeThenCommit).count 0).tablePuts = 1 :=
  have h := @references_counted (Fin 3) _ threeRequests _ 1 (fun _ _ => 0) writeThenCommit
    (by decide +kernel) 0
    (by decide +kernel)
  ⟨by decide +kernel, h.1, h.2.1.trans (by decide +kernel)⟩

/-- The second `COMMIT` has a buffer in hand whose count has been zero, and gives the table's
reference back again. -/
theorem table_reference_put_twice :
    ((runThree twoCommits).body 2).has 0 = true ∧ ((runThree twoCommits).count 0).released = true ∧
    (runThree (twoCommits ++ serve 2 1)).count 0 = ⟨-1, false, true, 2⟩ := by
  decide +kernel

end System

end Reffs.Proxy
