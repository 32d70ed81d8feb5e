import Reffs.D1.Pointers

/-!
# Extents

Chunk `i` of an object begins at byte `i * chunkBytes` of its file. A version fits its chunk when it
has a byte, has no more than a chunk holds, and ends within the file; a write is refused otherwise.
The payload of a `prepare_repair` is not measured against the geometry at all, so a committed cohort
can leave the file longer than the store allows (`prepareRepair_overruns`).
-/

namespace Reffs.D1

open ByteCodec SlotTable Table Machine Option Nat UInt64

variable {w : World} {v : Version} {c' : Core} {ans : MemberAnswer} {g : Geometry} {i : ChunkIndex}

structure Geometry where
  chunkBytes : UInt32
  maxFileBytes : UInt64

/-- `len` bytes at chunk `index` are some, are within the chunk and end within the file. -/
def Geometry.Fits (g : Geometry) (index len : Nat) : Prop :=
  1 ≤ len ∧ len ≤ g.chunkBytes.toNat ∧ index * g.chunkBytes.toNat + len ≤ g.maxFileBytes.toNat

instance (g : Geometry) (index len : Nat) : Decidable (g.Fits index len) :=
  inferInstanceAs (Decidable (_ ∧ _))

def Core.geometry (c : Core) : Geometry := ⟨c.chunkBytes, c.maxFileBytes⟩

def Core.AllFit (c : Core) : Prop :=
  ∀ vi v, c.versions vi = some v → c.geometry.Fits v.index.val v.bytes.length

/-- The entries of a `prepare_repair`. -/
def Envelope.prepares (env : Envelope UInt64) : List (RepairEntry UInt64) :=
  match env.body with
  | .repair .prepareRepair rb => rb.entries
  | _ => []

/-- The payloads of a `prepare_repair` fit; of other requests nothing is asked. -/
def Envelope.PayloadsFit (g : Geometry) (env : Envelope UInt64) : Prop :=
  ∀ e ∈ env.prepares, ∀ p ∈ e.payload, g.Fits e.index.toNat p.payload.length

instance (g : Geometry) (env : Envelope UInt64) : Decidable (env.PayloadsFit g) :=
  inferInstanceAs (Decidable (∀ e ∈ env.prepares, ∀ p ∈ e.payload, _))

/-- An event that brings in no payload that does not fit. -/
def Event.Fits (g : Geometry) : Event → Prop
  | .enter _ env => env.raw.PayloadsFit g
  | _ => True

instance (g : Geometry) (e : Event) : Decidable (e.Fits g) :=
  match e with
  | .enter _ env => inferInstanceAs (Decidable (env.raw.PayloadsFit g))
  | .advance _ | .fixture _ | .viewOpen _ _ _ _ _ | .viewClose _ | .close | .reopen _ =>
    .isTrue trivial

/-! ## What the operations ask -/

section

variable {c : Core}

/-- What a checked sum of a checked product says. The operations are variables here: the kernel
would otherwise try to run them. -/
lemma checked_some {mul add : UInt64 → UInt64 → Option UInt64} {a b len limit : UInt64}
    (h : (match mul a b with
      | none => false
      | some start => match add start len with
        | none => false
        | some stop => decide (stop ≤ limit)) = true) :
    ∃ start stop, mul a b = some start ∧ add start len = some stop ∧ stop ≤ limit := by
  grind

lemma writeFormCheck_fits {w : WriteBatch} {e : WriteEntry} {a : Admission}
    (h : writeFormCheck c w e a = none) : c.geometry.Fits e.index.toNat e.payload.length := by
  unfold writeFormCheck at h
  extract_lets singleWriter fits at h
  split at h
  · cases h
  next hfits =>
  split at h
  · cases h
  next hlen =>
  clear h
  rw [not_or, not_lt, not_lt] at hlen
  rw [Bool.not_eq_true, Bool.not_eq_false'] at hfits
  obtain ⟨start, stop, hstart, hstop, hle⟩ := @checked_some mulU64 addU64 _ _ _ _ hfits
  -- the length of the payload is a machine integer without loss
  have hsmall : (ofNat e.payload.length).toNat = e.payload.length := by
    rw [toNat_ofNat']
    refine mod_eq_of_lt (hlen.2.trans_lt ?_)
    exact c.chunkBytes.toNat_lt.trans (by decide)
  refine ⟨hlen.1, hlen.2, ?_⟩
  calc e.index.toNat * c.chunkBytes.toNat + e.payload.length
      = start.toNat + (ofNat e.payload.length).toNat := by
        rw [mulU64_toNat hstart, hsmall, UInt32.toNat_toUInt64]
    _ = stop.toNat := (addU64_toNat hstop).symm
    _ ≤ c.maxFileBytes.toNat := le_iff_toNat_le.mp hle

lemma MadeVersion.fits {env : Envelope UInt64} {ordinal : Nat} (h : MadeVersion c env ordinal v)
    (henv : env.PayloadsFit c.geometry) : c.geometry.Fits v.index.val v.bytes.length := by
  cases h with
  | written body entry form index bytes =>
    rw [index, bytes]
    exact writeFormCheck_fits form
  | replaced body entry payload index bytes =>
    rw [index, bytes]
    refine henv _ ?_ _ payload
    unfold Envelope.prepares
    rw [body]
    exact entry

lemma Records.geometry (h : Records c ans c') : c'.geometry = c.geometry := by
  obtain @⟨_, _, _, _, _, core, _, _, _, _, ground, _⟩ := h
  have hchunk : core.chunkBytes = c.chunkBytes := congrArg (·.2.1) ground
  have hfile : core.maxFileBytes = c.maxFileBytes := congrArg (·.2.2.1) ground
  unfold Core.geometry
  dsimp only
  rw [hchunk, hfile]

lemma Records.allFit (h : Records c ans c') (hc : c.Inv) (hst : Stocked c c.receipts.used)
    (hp : Pointers c) (hfit : c.AllFit) (henv : ans.env.PayloadsFit c.geometry) : c'.AllFit := by
  have hgeometry := h.geometry
  obtain @⟨_, _, _, _, _, core, _, valid, spare, _, _, change⟩ := h
  intro vi v hv
  rw [hgeometry]
  rcases change with ⟨-, rfl⟩ | change
  · exact hfit vi v hv
  · rcases change.versions hst hp.toUnstaged hc.numbered
      (used_lt_of_spare (spare_some spare)) hc.board valid vi v hv with hold | hmade
    · exact hfit vi v hold
    · exact hmade.fits henv

end

lemma controlLocked_geometry (c : Core) (r : ControlRequest) :
    (controlLocked c r).2.geometry = c.geometry := by
  obtain ⟨_, _, _, _, _, _, hframe⟩ := controlLocked_frame c r
  rw [hframe]
  rfl

lemma step_geometry (h : w.Inv) (e : Event) :
    (step w e).store.core.geometry = w.store.core.geometry :=
  (step_effect h e).elim (P := fun _ c => c.geometry = w.store.core.geometry) h rfl (fun _ => rfl)
    (controlLocked_geometry _) fun _ _ hrec => hrec.geometry

lemma Reachable.chunkBytes_pos (h : Reachable w) : 0 < w.store.core.chunkBytes.toNat := by
  refine h.induct (P := fun c => 0 < c.chunkBytes.toNat) (fun hopen => ?_) fun {w e} hw hpos => ?_
  · unfold coreOpen at hopen
    split at hopen
    · cases hopen
    next hsize =>
    split at hopen
    · cases hopen
    cases hopen
    have hmin : chunkBytesMin ≤ _ := Nat.not_lt.mp (not_or.mp hsize).1
    exact Nat.lt_of_lt_of_le Nat.zero_lt_one hmin
  · rw [show (step w e).store.core.chunkBytes = w.store.core.chunkBytes from
      congrArg Geometry.chunkBytes (step_geometry hw.inv e)]
    exact hpos

/-- The versions fit, and so do the payloads of every request that is in flight. -/
structure World.Fitting (g : Geometry) (w : World) : Prop where
  geometry : w.store.core.geometry = g
  versions : w.store.core.AllFit
  requests : ∀ id call env, w.calls id = some call → call.request = some env → env.PayloadsFit g

lemma step_fitting (h : Reachable w) (hfit : w.Fitting g) {e : Event} (he : e.Fits g) :
    (step w e).Fitting g := by
  have hversions : (step w e).store.core.AllFit := by
    have heffect := step_effect h.inv e
    generalize recordedBy w e = obs at heffect
    generalize (step w e).store.core = c' at heffect
    cases heffect with
    | idle | reopened => exact hfit.versions
    | control call r =>
      intro vi v hv
      obtain ⟨u, hu, hf⟩ := controlLocked_versions h.stocked.inv r hv
      obtain ⟨-, -, hindex, hbytes, -⟩ := Version.of_fixed hf
      rw [← hindex, ← hbytes, controlLocked_geometry]
      exact hfit.versions vi u hu
    | @recorded id r out st red call good staged =>
      have hrec := staged.records h.inv.store.core.board good.valid
      refine hrec.allFit h.inv.store.core h.stocked h.pointers hfit.versions ?_
      rw [hfit.geometry]
      exact hfit.requests id _ _ call rfl
  refine ⟨(step_geometry h.inv e).trans hfit.geometry, hversions, fun id call env hcall hreq => ?_⟩
  rcases step_request h.inv hcall hreq with ⟨old, hold, hreq'⟩ | ⟨handles, rfl, rfl⟩
  · exact hfit.requests id old env hold hreq'
  · exact he

lemma World.open_fitting {i : UInt64} {uuid : Uuid} {chunkBytes : UInt32} {maxFileBytes : UInt64}
    (h : World.open i uuid chunkBytes maxFileBytes = some w) :
    w.Fitting ⟨chunkBytes, maxFileBytes⟩ := by
  have hcore := World.open_core h
  obtain ⟨-, hchunk, hfile, -⟩ := coreOpen_eq hcore
  refine ⟨by rw [Core.geometry, hchunk, hfile], fun vi v hv => ?_, fun id call env hcall _ => ?_⟩
  · rw [(coreOpen_empty hcore).versions] at hv
    cases hv
  · rw [World.open_calls h] at hcall
    cases hcall

/-! ## Where the file ends -/

lemma chunkEnd_le {c : Core} {o : Object} {stop : UInt64}
    (hfit : ∀ id vi v, (o.chunks i).visible = some id → versionFind c id = some (vi, v) →
      c.geometry.Fits i.val v.bytes.length)
    (h : chunkEnd c o i = some stop) : stop.toNat ≤ c.maxFileBytes.toNat := by
  simp only [chunkEnd, bind_eq_bind, bind_eq_some_iff] at h
  obtain ⟨id, hid, ⟨vi, v⟩, hfind, start, hstart, hstop⟩ := h
  obtain ⟨-, -, hfile⟩ := hfit id vi v hid hfind
  calc stop.toNat
      = start.toNat + (UInt64.ofNat v.bytes.length).toNat := addU64_toNat hstop
    _ = (UInt64.ofNat i.val).toNat * c.chunkBytes.toNat + (UInt64.ofNat v.bytes.length).toNat := by
        rw [mulU64_toNat hstart, UInt32.toNat_toUInt64]
    _ ≤ i.val * c.chunkBytes.toNat + v.bytes.length := by
        rw [UInt64.toNat_ofNat', UInt64.toNat_ofNat']
        exact Nat.add_le_add (Nat.mul_le_mul_right _ (Nat.mod_le _ _)) (Nat.mod_le _ _)
    _ ≤ c.maxFileBytes.toNat := hfile

lemma eofLocked_le {c : Core} {object : ObjKey} {bound : Nat}
    (h : ∀ s o i stop, objectFind c object = some (s, o) → chunkEnd c o i = some stop →
      stop.toNat ≤ bound) : (eofLocked c object).toNat ≤ bound := by
  unfold eofLocked
  split
  · exact zero_le _
  next s o hfind =>
  -- the end found so far is that of a chunk, or zero
  have hfold : ∀ (l : List ChunkIndex) (eof : UInt64), eof.toNat ≤ bound →
      (l.foldl (fun eof i => match chunkEnd c o i with
        | none => eof
        | some e => if e > eof then e else eof) eof).toNat ≤ bound := by
    intro l
    induction l with
    | nil => exact fun _ heof => heof
    | cons i l ih => grind
  exact hfold _ 0 (zero_le _)

/-! ## Extents -/

/-- A chunk points to version number `id`: it is the visible one, or the pending one. -/
def Core.Points (c : Core) (s : ObjectSlot) (i : ChunkIndex) (id : UInt64) : Prop :=
  (chunkAt c.objects s i).visible = some id ∨
    ∃ ti t, c.txns ti = some t ∧ (chunkAt c.objects s i).pending = some t.id ∧ t.version = id

lemma Core.Points.atPlace {c : Core} {s : ObjectSlot} {id : UInt64} (h : c.Points s i id)
    (hp : Pointers c) (hb : c.board.Inv) : c.stock.AtPlace id s i := by
  rcases h with hvisible | ⟨ti, t, ht, hpending, rfl⟩
  · exact hp.visible s i id hvisible
  · -- the pending transaction is a staged one of this very chunk
    obtain ⟨-, tj, cl, hcl, hid, hs, hi⟩ := hb.pending.pending s i t.id hpending
    obtain ⟨u, hu, hstaged, rfl⟩ := claimAt_some hcl
    obtain rfl : ti = tj := hb.txn.unique ti tj t u ht hu hid.symm
    obtain rfl : t = u := some.inj (ht.symm.trans hu)
    rw [← hs, ← hi]
    exact hp.staged ti t ht hstaged

def Geometry.Apart (g : Geometry) (i j : ChunkIndex) (v u : Version) : Prop :=
  i.val * g.chunkBytes.toNat + v.bytes.length ≤ j.val * g.chunkBytes.toNat ∨
    j.val * g.chunkBytes.toNat + u.bytes.length ≤ i.val * g.chunkBytes.toNat

lemma Geometry.Fits.apart {j : ChunkIndex} {u : Version} (hv : g.Fits i.val v.bytes.length)
    (hu : g.Fits j.val u.bytes.length) (h : i ≠ j) : g.Apart i j v u := by
  have hbefore : ∀ {a b len : Nat}, a < b → len ≤ g.chunkBytes.toNat →
      a * g.chunkBytes.toNat + len ≤ b * g.chunkBytes.toNat := by
    intro a b len hab hlen
    calc a * g.chunkBytes.toNat + len
        ≤ a * g.chunkBytes.toNat + g.chunkBytes.toNat := Nat.add_le_add_left hlen _
      _ = (a + 1) * g.chunkBytes.toNat := (Nat.succ_mul _ _).symm
      _ ≤ b * g.chunkBytes.toNat := Nat.mul_le_mul_right _ hab
  rcases Nat.lt_or_gt_of_ne fun he => h (Fin.ext he) with hlt | hgt
  · exact .inl (hbefore hlt hv.2.1)
  · exact .inr (hbefore hgt hu.2.1)

/-- **Extents stay within chunk and file** in every run whose requests to prepare a repair bring
payloads that fit: every version a chunk points to fits the chunk, no file ends beyond the largest
size, and the extents of two visible chunks of one object do not overlap. -/
theorem extents_fit {inst : UInt64} {uuid : Uuid} {chunkBytes : UInt32} {maxFileBytes : UInt64}
    {w₀ : World} (hopen : World.open inst uuid chunkBytes maxFileBytes = some w₀) {es : List Event}
    (hes : ∀ e ∈ es, e.Fits ⟨chunkBytes, maxFileBytes⟩) :
    (Machine.run step w₀ es).store.core.geometry = ⟨chunkBytes, maxFileBytes⟩ ∧
    (∀ s i vi v, (Machine.run step w₀ es).store.core.versions vi = some v →
      (Machine.run step w₀ es).store.core.Points s i v.id →
      Geometry.Fits ⟨chunkBytes, maxFileBytes⟩ i.val v.bytes.length) ∧
    (∀ object, (eofLocked (Machine.run step w₀ es).store.core object).toNat ≤ maxFileBytes.toNat) ∧
    ∀ s i j vi vj v u, i ≠ j → (Machine.run step w₀ es).store.core.versions vi = some v →
      (Machine.run step w₀ es).store.core.versions vj = some u →
      (chunkAt (Machine.run step w₀ es).store.core.objects s i).visible = some v.id →
      (chunkAt (Machine.run step w₀ es).store.core.objects s j).visible = some u.id →
      Geometry.Apart ⟨chunkBytes, maxFileBytes⟩ i j v u := by
  have hrun : Reachable (run step w₀ es) ∧
      (run step w₀ es).Fitting ⟨chunkBytes, maxFileBytes⟩ := by
    exact run_invariant_along (I := fun w => Reachable w ∧ w.Fitting ⟨chunkBytes, maxFileBytes⟩)
      (fun w e hw he => ⟨hw.1.run [e], step_fitting hw.1 hw.2 he⟩)
      ⟨.opened hopen, World.open_fitting hopen⟩ (along_of_forall (fun _ _ he => he) hes w₀)
  generalize run step w₀ es = w at hrun ⊢
  obtain ⟨hreach, hgeometry, hversions, -⟩ := hrun
  have hpoints : ∀ s i vi v, w.store.core.versions vi = some v → w.store.core.Points s i v.id →
      Geometry.Fits ⟨chunkBytes, maxFileBytes⟩ i.val v.bytes.length := by
    intro s i vi v hv hpoint
    have hplace := hpoint.atPlace hreach.pointers hreach.inv.store.core.board
    rw [← (hplace.place vi v hv rfl).2, ← hgeometry]
    exact hversions vi v hv
  refine ⟨hgeometry, hpoints, fun object => ?_, ?_⟩
  · refine eofLocked_le fun s o i stop hfind hstop => ?_
    have hfile : w.store.core.maxFileBytes = maxFileBytes :=
      congrArg Geometry.maxFileBytes hgeometry
    rw [← hfile]
    refine chunkEnd_le (fun id vi v hid hversion => ?_) hstop
    obtain ⟨hrow, rfl, -⟩ := findById_some hversion
    rw [hgeometry]
    refine hpoints s i vi v hrow (.inl ?_)
    rw [chunkAt_of (findRow_some hfind).1, hid]
  · intro s i j vi vj v u hne hv hu hvisible hvisible'
    exact (hpoints s i vi v hv (.inl hvisible)).apart (hpoints s j vj u hu (.inl hvisible')) hne

/-- A store of one byte to a file, whose one byte is written, marked in error and replaced by
`bytes`. -/
def replacedEvents (bytes : Bytes) : List Event :=
  let cl := smallClient
  cl.script 1 ([.fixture (.admitUnder noObject (cl.authority smallRights)), .apply smallWrite,
    .fixture (.custody (cl.handle .version 1)), cl.markError 2 1 1, cl.beginError 2 1 1 1] ++
    cl.carryOut 2 1 2 1 1 bytes)

def byteWorld : World := (World.open 1 (zeros 16) 4096 1).get (by decide +kernel)

lemma byteWorld_opened : World.open 1 (zeros 16) 4096 1 = some byteWorld :=
  (some_get _).symm

/-- Another single byte is no harm. -/
theorem extents_fit_replaced : (∀ e ∈ replacedEvents [66], e.Fits ⟨4096, 1⟩) ∧
    (eofLocked (Machine.run step byteWorld (replacedEvents [66])).store.core noObject).toNat ≤
      1 := by
  have hes : ∀ e ∈ replacedEvents [66], e.Fits ⟨4096, 1⟩ := by decide +kernel
  exact ⟨hes, (extents_fit byteWorld_opened hes).2.2.1 noObject⟩

/-- **Two bytes are taken as well**, and then the file is longer than the store allows. -/
theorem prepareRepair_overruns : Reachable (Machine.run step byteWorld (replacedEvents [66, 67])) ∧
    (Machine.run step byteWorld (replacedEvents [66, 67])).store.core.maxFileBytes = 1 ∧
    eofLocked (Machine.run step byteWorld (replacedEvents [66, 67])).store.core noObject = 2 := by
  refine ⟨(Reachable.opened byteWorld_opened).run _, ?_⟩
  decide +kernel

end Reffs.D1
