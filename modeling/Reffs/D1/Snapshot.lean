import Reffs.Lib.Chunked
import Reffs.D1.Retained

/-!
# What a view shows

A `Snapshot` says what a view is for: the chunks of an object at one moment, seen through a window
and up to an end of file. `Store.snapshot` is the one a view is opened on, made of the versions that
are selected at that moment. A view reads as its snapshot from then on, until it is closed
(`view_isolated`): the versions it pinned last, and a version's bytes never change.
-/

namespace Reffs.D1

open ByteCodec SlotTable Table Machine Function List Option Chunked Nat Prod Harness

variable {vi : Fin maxViews} {v : View} {sel : SelectionSpec} {chosen : ChunkIndex → Option UInt64}
  {object : ObjKey} {s' : Store} {admission : Handle} {byteBegin byteEnd : UInt64} {w : World}

/-! ## Snapshots -/

structure Snapshot where
  chunkBytes : Nat
  chunk : Nat → Bytes
  rangeBegin : Nat
  rangeEnd : Nat
  eof : Nat

/-- Nothing is read from here on. -/
def Snapshot.limit (s : Snapshot) : Nat := min s.eof s.rangeEnd

/-- A read that starts outside the window is refused; another gives what is there up to the limit.
-/
def Snapshot.read (s : Snapshot) (offset len : Nat) : Status × Bytes :=
  if offset < s.rangeBegin ∨ s.rangeEnd ≤ offset then (.invalid, [])
  else (.ok, Chunked.bytes s.chunkBytes s.chunk 0 offset (min len (s.limit - offset)))

/-- The bytes of several reads, each from where the one before it was to end. -/
def Snapshot.reads (s : Snapshot) : Nat → List Nat → Bytes
  | _, [] => []
  | offset, len :: rest => (s.read offset len).2 ++ s.reads (offset + len) rest

section

variable {s : Snapshot} {offset : Nat}

lemma Snapshot.read_bytes (h : s.rangeBegin ≤ offset) (len : Nat) : (s.read offset len).2 =
    bytes s.chunkBytes s.chunk 0 offset (min len (s.limit - offset)) := by
  unfold read
  split
  · next hout =>
    have hpast : s.rangeEnd ≤ offset := hout.resolve_left (not_lt.mpr h)
    have hnone : s.limit - offset = 0 := by
      unfold limit
      omega
    rw [hnone, min_zero, bytes_zero]
  · rfl

theorem Snapshot.reads_eq (h : s.rangeBegin ≤ offset) (lens : List Nat) :
    s.reads offset lens = (s.read offset lens.sum).2 := by
  rw [read_bytes h]
  induction lens generalizing offset with
  | nil => simp [reads]
  | cons len rest ih =>
    rw [reads, read_bytes h, ih (h.trans (le_add_right _ _)), sum_cons]
    by_cases hlen : len ≤ s.limit - offset
    · have hrest : min (len + rest.sum) (s.limit - offset) =
          len + min rest.sum (s.limit - (offset + len)) := by omega
      rw [hrest, bytes_add, min_eq_left hlen]
    · have hnone : s.limit - (offset + len) = 0 := by omega
      have hall : min (len + rest.sum) (s.limit - offset) = min len (s.limit - offset) := by omega
      rw [hnone, hall, min_zero, bytes_zero, append_nil]

lemma Snapshot.read_congr {chunk : Nat → Bytes} (h : ∀ at_, s.rangeBegin ≤ at_ → at_ < s.rangeEnd →
      chunk (at_ / s.chunkBytes) = s.chunk (at_ / s.chunkBytes)) (offset len : Nat) :
    ({ s with chunk := chunk } : Snapshot).read offset len = s.read offset len := by
  unfold read
  dsimp only
  split
  · rfl
  · next hin =>
    rw [not_or, not_lt, not_le] at hin
    refine congrArg _ (bytes_congr fun k hk => h _ (by omega) ?_)
    have hlimit : s.limit ≤ s.rangeEnd := min_le_right _ _
    change k < min len (s.limit - offset) at hk
    omega

end

/-! ## A view reads as what it pinned -/

variable {c : Core} {s : Store} {selected : ChunkIndex → Option Version}

lemma viewFill_eq (hsize : 0 < c.chunkBytes.toNat) (v : View) {fuel at_ len : Nat}
    (hfuel : len ≤ fuel) : viewFill c v fuel at_ len =
      bytes c.chunkBytes.toNat (viewBytes c v) 0 at_ len := by
  induction fuel generalizing at_ len with
  | zero =>
    obtain rfl := le_zero.mp hfuel
    rfl
  | succ fuel ih =>
    unfold viewFill
    dsimp only
    split
    · next hlen => rw [hlen, bytes_zero]
    · next hlen =>
      have hmod := mod_lt at_ hsize
      generalize hspan : min (c.chunkBytes.toNat - at_ % c.chunkBytes.toNat) len = span
      have hin : at_ % c.chunkBytes.toNat + span ≤ c.chunkBytes.toNat := by omega
      have hlen' : len = span + (len - span) := by omega
      rw [ih (by omega)]
      calc chunkSpan (viewBytes c v (at_ / c.chunkBytes.toNat)) (at_ % c.chunkBytes.toNat) span ++
            bytes c.chunkBytes.toNat (viewBytes c v) 0 (at_ + span) (len - span)
          = bytes c.chunkBytes.toNat (viewBytes c v) 0 at_ span ++
            bytes c.chunkBytes.toNat (viewBytes c v) 0 (at_ + span) (len - span) :=
            congrArg (· ++ _) (bytes_span hin)
        _ = bytes c.chunkBytes.toNat (viewBytes c v) 0 at_ (span + (len - span)) :=
            (bytes_add _ _ _).symm
        _ = bytes c.chunkBytes.toNat (viewBytes c v) 0 at_ len := by rw [← hlen']

def View.shows (v : View) (c : Core) : Snapshot where
  chunkBytes := c.chunkBytes.toNat
  chunk := viewBytes c v
  rangeBegin := v.rangeBegin.toNat
  rangeEnd := v.rangeEnd.toNat
  eof := v.eof.toNat

lemma viewRead_eq (hv : s.harness.views vi = some v) (hsize : 0 < s.core.chunkBytes.toNat)
    (offset : UInt64) (len : UInt32) :
    viewRead s vi offset len = (v.shows s.core).read offset.toNat len.toNat := by
  unfold viewRead Snapshot.read
  rw [hv]
  dsimp only
  have hcond : (offset < v.rangeBegin ∨ offset ≥ v.rangeEnd) ↔
      (offset.toNat < (v.shows s.core).rangeBegin ∨ (v.shows s.core).rangeEnd ≤ offset.toNat) := by
    rw [UInt64.lt_iff_toNat_lt, ge_iff_le, UInt64.le_iff_toNat_le]
    rfl
  by_cases hout : offset < v.rangeBegin ∨ offset ≥ v.rangeEnd
  · rw [if_pos hout, if_pos (hcond.mp hout)]
  rw [if_neg hout, if_neg (mt hcond.mpr hout)]
  generalize hlimit : (if v.eof < v.rangeEnd then v.eof else v.rangeEnd) = limit
  have hlimit : limit.toNat = (v.shows s.core).limit := by
    change limit.toNat = min v.eof.toNat v.rangeEnd.toNat
    rw [← hlimit]
    split <;> next h =>
      rw [UInt64.lt_iff_toNat_lt] at h
      omega
  by_cases hnone : offset ≥ v.eof ∨ len = 0
  · -- nothing to read: the file has ended, or no byte is asked for
    rw [if_pos hnone]
    have hzero : min len.toNat ((v.shows s.core).limit - offset.toNat) = 0 := by
      rcases hnone with heof | rfl
      · grind [UInt64.le_iff_toNat_le, ge_iff_le]
      · exact Nat.zero_min _
    rw [hzero, Chunked.bytes_zero]
  rw [if_neg hnone]
  have hle : offset ≤ limit := by grind
  have hleft : (limit - offset).toNat = (v.shows s.core).limit - offset.toNat := by
    rw [UInt64.toNat_sub_of_le _ _ hle, hlimit]
  have hlen : (if limit - offset < len.toUInt64 then (limit - offset).toUInt32 else len).toNat =
      min len.toNat ((v.shows s.core).limit - offset.toNat) := by
    rw [← hleft]
    have hlt := len.toNat_lt
    split
    · next h =>
      rw [UInt64.lt_iff_toNat_lt, UInt32.toNat_toUInt64] at h
      rw [UInt64.toNat_toUInt32]
      omega
    · next h =>
      rw [UInt64.lt_iff_toNat_lt, UInt32.toNat_toUInt64] at h
      omega
  rw [hlen, viewFill_eq hsize v le_rfl]
  rfl

/-! ## What a view is opened on -/

/-- The transaction of a member, if it stands at chunk `i`. -/
def memberTxn (c : Core) (instance_ : UInt64) (i : ChunkIndex) (m : Handle × Owner) : Option Txn :=
  ((txnFind c (handleRaw instance_ .txn m.1)).map Prod.snd).filter fun t => t.index = i

/-- The selected transaction at chunk `i`. -/
def selectedTxn (c : Core) (instance_ : UInt64) (members : List (Handle × Owner))
    (i : ChunkIndex) : Option Txn := members.findSome? (memberTxn c instance_ i)

def visibleVersion (c : Core) (object : ObjKey) (i : ChunkIndex) : Option Version :=
  (objectFind c object).bind fun p => ((p.2.chunks i).visible.bind (versionFind c)).map Prod.snd

/-- The version selected at chunk `i`: that of the selected transaction, or the visible one. -/
def selectedVersion (c : Core) (instance_ : UInt64) (object : ObjKey) (sel : SelectionSpec)
    (i : ChunkIndex) : Option Version :=
  match selectedTxn c instance_ sel.members i with
  | some t => (versionFind c t.version).map Prod.snd
  | none => visibleVersion c object i

/-- The end of file that a version at chunk `i` makes of an earlier one. -/
def eofAfter (c : Core) (eof : UInt64) (i : ChunkIndex) (v : Version) : UInt64 :=
  match mulU64 (UInt64.ofNat i.val) c.chunkBytes.toUInt64 with
  | none => eof
  | some start => match addU64 start (UInt64.ofNat v.bytes.length) with
    | none => eof
    | some stop => if stop > eof then stop else eof

def selectedEof (c : Core) (selected : ChunkIndex → Option Version) (l : List ChunkIndex)
    (eof : UInt64) : UInt64 :=
  l.foldl (fun eof i => ((selected i).map (eofAfter c eof i)).getD eof) eof

def Store.snapshot (s : Store) (object : ObjKey) (sel : SelectionSpec)
    (byteBegin byteEnd : UInt64) : Snapshot :=
  let selected := selectedVersion s.core s.instance_ object sel
  { chunkBytes := s.core.chunkBytes.toNat
    chunk := fun i =>
      if h : i < maxChunks then ((selected ⟨i, h⟩).map (·.bytes)).getD [] else []
    rangeBegin := byteBegin.toNat
    rangeEnd := byteEnd.toNat
    eof := (selectedEof s.core selected (List.finRange maxChunks) 0).toNat }

section

variable {c : Core} {instance_ : UInt64} {a : Admission} {slot : ObjectSlot} {m : Handle × Owner}
  {members members' : List (Handle × Owner)} {earlier earlier' : List Handle} {sel' : SelectionSpec}
  {chosen' : ChunkIndex → Option UInt64}

lemma selectedTxn_cons {ti : Fin maxTxns} {t : Txn}
    (h : txnFind c (handleRaw instance_ .txn m.1) = some (ti, t)) (i : ChunkIndex) :
    selectedTxn c instance_ (m :: members) i =
      if t.index = i then some t else selectedTxn c instance_ members i := by
  grind [decide_eq_false, decide_eq_true, memberTxn, selectedTxn]

/-- Member `m` of a selection names the finalized transaction `t`, whose version is `v`. -/
structure Names (c : Core) (instance_ epoch : UInt64) (a : Admission) (slot : ObjectSlot)
    (m : Handle × Owner) (t : Txn) (v : Version) : Prop where
  txn : ∃ ti, txnFind c (handleRaw instance_ .txn m.1) = some (ti, t)
  object : t.object = slot
  owner : t.owner = m.2
  admission : t.admission = a.id
  epoch : t.readEpoch = epoch
  mode : t.mode = .ordinary
  phase : t.phase = .finalized
  version : ∃ vi, versionFind c t.version = some (vi, v)

lemma ownerResolve_cons :
    ownerResolve c instance_ sel a slot earlier (m :: members) chosen = .ok chosen' ↔
    m.1 ∉ earlier ∧ ∃ t v, Names c instance_ sel.readEpoch a slot m t v ∧ chosen t.index = none ∧
      ownerResolve c instance_ sel a slot (earlier ++ [m.1]) members
        (update chosen t.index (some v.id)) = .ok chosen' := by
  constructor
  · intro h
    unfold ownerResolve at h
    split at h
    · cases h
    next hnew =>
    split at h
    · cases h
    next ti t hfound =>
    iterate 6
      split at h
      · cases h
    split at h
    · cases h
    next hfree =>
    split at h
    · cases h
    next vi v hversion =>
    refine ⟨by simpa using hnew, t, v, ⟨⟨ti, hfound⟩, ?_, ?_, ?_, ?_, ?_, ?_, vi, hversion⟩,
      by simpa using hfree, h⟩
    all_goals exact not_not.mp (by assumption)
  · rintro ⟨hnew, t, v, ⟨⟨ti, hfound⟩, hobject, howner, hadmission, hepoch, hmode, hphase, vi,
      hversion⟩, hfree, h⟩
    simp [ownerResolve, hnew, hfound, hobject, howner, hadmission, hepoch, hmode, hphase, hfree,
      hversion, h]

/-- Every member of a selection that is taken is the finalized transaction of the object, with its
version; and what is chosen is what the members select. -/
lemma ownerResolve_ok
    (h : ownerResolve c instance_ sel a slot earlier members chosen = .ok chosen') :
    (∀ i t, selectedTxn c instance_ members i = some t → t.Staged ∧ t.object = slot ∧ t.index = i ∧
      (∃ ti, c.txns ti = some t) ∧ ∃ vi v, versionFind c t.version = some (vi, v)) ∧
    ∀ i, chosen' i = (chosen i).or ((selectedTxn c instance_ members i).map Txn.version) := by
  induction members generalizing earlier chosen with
  | nil =>
    unfold ownerResolve at h
    cases h
    exact ⟨fun i t ht => (nomatch ht), fun i => or_none.symm⟩
  | cons m members ih =>
    obtain ⟨-, t, v, ⟨⟨ti, hfound⟩, hobject, -, -, -, hmode, hphase, vi, hversion⟩, hfree, h⟩ :=
      ownerResolve_cons.mp h
    obtain ⟨hrest, hchosen⟩ := ih h
    have hid : v.id = t.version := (findById_some hversion).2.1
    refine ⟨fun i u hu => ?_, fun i => ?_⟩
    · rw [selectedTxn_cons hfound] at hu
      split at hu
      · next hi =>
        cases hu
        exact ⟨⟨hmode, .inr hphase⟩, hobject, hi, ⟨ti, (findById_some hfound).1⟩, vi, v, hversion⟩
      · exact hrest i u hu
    · rw [hchosen i, selectedTxn_cons hfound]
      by_cases hi : t.index = i
      · subst hi
        rw [update_self, if_pos rfl, hfree, map_some, hid]
        rfl
      · rw [update_of_ne (Ne.symm hi), if_neg hi]

lemma viewVersion_selected {o : Object} (hobject : objectFind c object = some (slot, o))
    (hthere : ∀ i t, selectedTxn c instance_ sel.members i = some t →
      ∃ vi v, versionFind c t.version = some (vi, v))
    (hchosen : ∀ i, chosen i = (selectedTxn c instance_ sel.members i).map Txn.version)
    (i : ChunkIndex) :
    viewVersion c (chosen i) (o.chunks i) = selectedVersion c instance_ object sel i := by
  unfold viewVersion selectedVersion visibleVersion
  rw [hchosen i, hobject]
  cases ht : selectedTxn c instance_ sel.members i with
  | none => rfl
  | some t =>
    obtain ⟨vi, v, hv⟩ := hthere i t ht
    simp [hv]

lemma viewCapture_ok {h : Harness} {o : Object}
    (hselected : ∀ i, viewVersion c (chosen i) (o.chunks i) = selected i) {first last : Nat}
    {l : List ChunkIndex} {v' : View} (hblank : ∀ i ∈ l, v.version i = none) (hnodup : l.Nodup)
    (hok : viewCapture c h o chosen first last l v = .ok v') :
    v'.rangeBegin = v.rangeBegin ∧ v'.rangeEnd = v.rangeEnd ∧
      v'.eof = selectedEof c selected l v.eof ∧
      ∀ i, v'.version i = if i ∈ l ∧ first ≤ i.val ∧ i.val ≤ last then (selected i).map (·.id)
        else v.version i := by
  induction l generalizing v with
  | nil =>
    unfold viewCapture at hok
    cases hok
    exact ⟨rfl, rfl, rfl, fun i => (if_neg fun hmem => nomatch hmem.1).symm⟩
  | cons j l ih =>
    obtain ⟨hj, hnodup⟩ := nodup_cons.mp hnodup
    have hrest : ∀ i ∈ l, v.version i = none := fun i hi => hblank i (mem_cons_of_mem j hi)
    unfold viewCapture at hok
    dsimp only at hok
    rw [hselected j] at hok
    have hsplit : ∀ i, (i ∈ j :: l ∧ first ≤ i.val ∧ i.val ≤ last) ↔
        (i = j ∧ first ≤ j.val ∧ j.val ≤ last) ∨ (i ∈ l ∧ first ≤ i.val ∧ i.val ≤ last) := by grind
    cases hsel : selected j with
    | none =>
      rw [hsel] at hok
      dsimp only at hok
      split at hok
      · cases hok
      obtain ⟨hbegin, hend, heof, hversion⟩ := ih hrest hnodup hok
      refine ⟨hbegin, hend, ?_, fun i => ?_⟩
      · rw [heof, selectedEof, selectedEof, foldl_cons, hsel]
        rfl
      · grind
    | some ver =>
      rw [hsel] at hok
      dsimp only at hok
      have heofEq : selectedEof c selected (j :: l) v.eof =
          selectedEof c selected l (eofAfter c v.eof j ver) := by grind [selectedEof]
      split at hok
      · next hwindow =>
        obtain ⟨hbegin, hend, heof, hversion⟩ := ih (v := { v with
          extent := update v.extent j (some ver.bytes.length)
          eof := eofAfter c v.eof j ver }) hrest hnodup hok
        refine ⟨hbegin, hend, heof.trans heofEq.symm, fun i => ?_⟩
        rw [hversion i]
        have hout : ¬ (first ≤ j.val ∧ j.val ≤ last) := by omega
        simp only [hsplit i, hout, and_false, false_or]
      · next hwindow =>
        split at hok
        · cases hok
        split at hok
        · cases hok
        have hnone : ∀ i ∈ l, update v.version j (some ver.id) i = none := by grind
        obtain ⟨hbegin, hend, heof, hversion⟩ := ih (v := { v with
          extent := update v.extent j (some ver.bytes.length)
          eof := eofAfter c v.eof j ver
          version := update v.version j (some ver.id) }) hnone hnodup hok
        refine ⟨hbegin, hend, heof.trans heofEq.symm, fun i => ?_⟩
        rw [hversion i]
        have hin : first ≤ j.val ∧ j.val ≤ last := by omega
        by_cases hi : i = j
        · grind
        · grind

lemma selectedEof_none {l : List ChunkIndex}
    (h : ∀ i ∈ l, selected i = none) (eof : UInt64) : selectedEof c selected l eof = eof := by
  induction l with
  | nil => rfl
  | cons i l ih =>
    rw [selectedEof, foldl_cons, h i mem_cons_self]
    exact ih fun j hj => h j (mem_cons_of_mem i hj)

lemma selectedVersion_lasting (hr : Retained c) (hp : Pointers c)
    (hstaged : ∀ i t, selectedTxn c instance_ sel.members i = some t →
      t.Staged ∧ t.index = i ∧ ∃ ti, c.txns ti = some t)
    {i : ChunkIndex} {v : Version} (h : selectedVersion c instance_ object sel i = some v) :
    c.Lasting v.id ∧ ∃ slot, c.stock.AtPlace v.id slot i := by
  unfold selectedVersion at h
  split at h
  · next t ht =>
    obtain ⟨⟨vi, _⟩, hfound, rfl⟩ := map_eq_some_iff.mp h
    obtain ⟨hst, rfl, ti, hrow⟩ := hstaged i t ht
    rw [(findById_some hfound).2.1]
    exact ⟨hr.staged ti t hrow hst, t.object, hp.staged ti t hrow hst⟩
  · unfold visibleVersion at h
    obtain ⟨⟨slot, o⟩, hobject, h⟩ := bind_eq_some_iff.mp h
    obtain ⟨⟨vi, _⟩, hfound, rfl⟩ := map_eq_some_iff.mp h
    obtain ⟨id, hvisible, hfound⟩ := bind_eq_some_iff.mp hfound
    rw [← chunkAt_of (findRow_some hobject).1] at hvisible
    rw [(findById_some hfound).2.1]
    exact ⟨hr.visible slot i id hvisible, slot, hp.visible slot i id hvisible⟩

/-! ## The order of the owners -/

lemma ownerResolve_congr (he : ∀ h, h ∈ earlier' ↔ h ∈ earlier)
    (h : ownerResolve c instance_ sel a slot earlier members chosen = .ok chosen')
    (hepoch : sel'.readEpoch = sel.readEpoch) :
    ownerResolve c instance_ sel' a slot earlier' members chosen = .ok chosen' := by
  induction members generalizing earlier earlier' chosen with
  | nil => exact h
  | cons m members ih =>
    obtain ⟨hnew, t, v, hnames, hfree, hrest⟩ := ownerResolve_cons.mp h
    refine ownerResolve_cons.mpr ⟨fun hm => hnew ((he _).mp hm), t, v, hepoch ▸ hnames, hfree,
      ih ?_ hrest⟩
    simp [he]

lemma ownerResolve_perm (hperm : members.Perm members')
    (h : ownerResolve c instance_ sel a slot earlier members chosen = .ok chosen') :
    ownerResolve c instance_ sel a slot earlier members' chosen = .ok chosen' := by
  induction hperm generalizing earlier chosen with
  | nil => exact h
  | cons m _ ih =>
    obtain ⟨hnew, t, v, hnames, hfree, hrest⟩ := ownerResolve_cons.mp h
    exact ownerResolve_cons.mpr ⟨hnew, t, v, hnames, hfree, ih hrest⟩
  | swap m₁ m₂ l =>
    obtain ⟨hnew₂, t₂, v₂, hnames₂, hfree₂, hrest⟩ := ownerResolve_cons.mp h
    obtain ⟨hnew₁, t₁, v₁, hnames₁, hfree₁, hrest⟩ := ownerResolve_cons.mp hrest
    -- the two have chunks of their own
    have hne : t₁.index ≠ t₂.index := by
      intro he
      rw [he, update_self] at hfree₁
      cases hfree₁
    rw [mem_append, mem_singleton, not_or] at hnew₁
    rw [update_of_ne hne] at hfree₁
    rw [update_comm hne.symm] at hrest
    refine ownerResolve_cons.mpr ⟨hnew₁.1, t₁, v₁, hnames₁, hfree₁, ownerResolve_cons.mpr
      ⟨?_, t₂, v₂, hnames₂, ?_, ownerResolve_congr ?_ hrest rfl⟩⟩
    · simp [hnew₂, Ne.symm hnew₁.2]
    · rw [update_of_ne hne.symm]
      exact hfree₂
    · intro h
      simp [or_comm]
  | trans _ _ ih₁ ih₂ => exact ih₂ (ih₁ h)

lemma ownerResolve_ne_ok {status : Status}
    (h : ownerResolve c instance_ sel a slot earlier members chosen = .error status) :
    status ≠ .ok := by
  induction members generalizing earlier chosen with
  | nil => cases h
  | cons m members ih =>
    unfold ownerResolve at h
    iterate 10
      split at h
      · cases h
        decide
    exact ih h

/-- **The order of the owners does not matter**: a selection that names them in another is taken
when the first is, and the same versions are pinned, chunk by chunk. -/
theorem viewOpen_perm (s : Store) (object : ObjKey) (admission : Handle) (sel : SelectionSpec)
    (byteBegin byteEnd : UInt64) (members : List (Handle × Owner))
    (hperm : members.Perm sel.members) : let r := viewOpen s object admission sel byteBegin byteEnd
    let r' := viewOpen s object admission { sel with members := members } byteBegin byteEnd
    (r'.1 = .ok ↔ r.1 = .ok) ∧ r'.2 = r.2 := by
  obtain ⟨kind, ms, epoch⟩ := sel
  have hselection : selectionOk ⟨kind, members, epoch⟩ = selectionOk ⟨kind, ms, epoch⟩ := by
    unfold selectionOk
    cases kind with
    | ordinary => exact hperm.isEmpty_eq
    | owner => rw [hperm.length_eq]
  have hresolve : ∀ a slot ch,
      ownerResolve s.core s.instance_ ⟨kind, members, epoch⟩ a slot [] members (fun _ => none) =
        .ok ch ↔
        ownerResolve s.core s.instance_ ⟨kind, ms, epoch⟩ a slot [] ms (fun _ => none) = .ok ch :=
    fun a slot ch => ⟨fun h => ownerResolve_congr (fun _ => .rfl) (ownerResolve_perm hperm h) rfl,
      fun h => ownerResolve_perm hperm.symm (ownerResolve_congr (fun _ => .rfl) h rfl)⟩
  intro r r'
  subst r r'
  unfold viewOpen
  rw [hselection]
  dsimp only
  cases kind with
  | ordinary => exact ⟨.rfl, rfl⟩
  | owner =>
    iterate 4
      split
      · exact ⟨.rfl, rfl⟩
    cases readAdmission s.core (handleRaw s.instance_ .admission admission) object
      (SelectionKind.owner = .owner) with
    | error status => exact ⟨.rfl, rfl⟩
    | ok a =>
    cases objectFind s.core object with
    | none => exact ⟨.rfl, rfl⟩
    | some p =>
      dsimp only
      cases hfirst : ownerResolve s.core s.instance_ ⟨.owner, ms, epoch⟩ a p.1 [] ms fun _ =>
        none with
      | ok chosen =>
        rw [(hresolve a p.1 chosen).mpr hfirst]
        exact ⟨.rfl, rfl⟩
      | error status =>
        -- which refusal it is depends on the order, that it is one does not
        cases hsecond : ownerResolve s.core s.instance_ ⟨.owner, members, epoch⟩ a p.1
          [] members fun _ => none with
        | ok chosen =>
          rw [(hresolve a p.1 chosen).mp hsecond] at hfirst
          cases hfirst
        | error status' =>
          exact ⟨iff_of_false (ownerResolve_ne_ok hsecond) (ownerResolve_ne_ok hfirst), rfl⟩

def stagedWorld : World :=
  let cl := smallClient
  Machine.run step firstWorld
    (cl.script 1 [.fixture (.admitUnder noObject (cl.authority smallRights)),
    .apply (cl.write 1 0 [65] false), .apply (cl.write 2 1 [66] false),
    .apply (.finalizeBatch (cl.lifecycle 1 0 1 none)),
      .apply (.finalizeBatch (cl.lifecycle 2 1 2 none))])

def ownerView (txns : List UInt64) : Status × Option (Fin maxViews) × Store :=
  viewOpen stagedWorld.store noObject (smallClient.handle .admission 1)
    ⟨.owner, txns.map fun n => (smallClient.handle .txn n, smallClient.owner n), 0⟩ 0 5000

theorem viewOpen_perm_two : Reachable stagedWorld ∧ (ownerView [1, 2]).1 = .ok ∧
    (ownerView [2, 1]).1 = .ok ∧
    (ownerView [2, 1]).2 = (ownerView [1, 2]).2 := by
  obtain ⟨hok, hsame⟩ := viewOpen_perm stagedWorld.store noObject (smallClient.handle .admission 1)
    ⟨.owner, [1, 2].map fun n => (smallClient.handle .txn n, smallClient.owner n), 0⟩ 0 5000
    ([2, 1].map fun n => (smallClient.handle .txn n, smallClient.owner n)) (List.Perm.swap ..)
  have hfirst : (ownerView [1, 2]).1 = .ok := by decide +kernel
  exact ⟨firstWorld_reachable.run _, hfirst, hok.mpr hfirst, hsame⟩

end

/-! ## Opening a view -/

structure View.Captured (v : View) (s : Store) (object : ObjKey) (sel : SelectionSpec)
    (byteBegin byteEnd : UInt64) : Prop where
  rangeBegin : v.rangeBegin = byteBegin
  rangeEnd : v.rangeEnd = byteEnd
  eof : v.eof = selectedEof s.core (selectedVersion s.core s.instance_ object sel)
    (List.finRange maxChunks) 0
  version : ∀ i : ChunkIndex, v.version i =
    if byteBegin.toNat / s.core.chunkBytes.toNat ≤ i.val ∧
        i.val ≤ (byteEnd.toNat - 1) / s.core.chunkBytes.toNat then
      (selectedVersion s.core s.instance_ object sel i).map (·.id)
    else none
  lasting : ∀ i id, v.version i = some id → s.core.Lasting id ∧
    ∃ slot, s.core.stock.AtPlace id slot i

/-- Count one more, or one less, for every version of a list. -/
def pinAll (l : List UInt64) (pins : UInt64 → Nat) : UInt64 → Nat :=
  l.foldl (fun pins id => Function.update pins id (pins id + 1)) pins

def unpinAll (l : List UInt64) (pins : UInt64 → Nat) : UInt64 → Nat :=
  l.foldl (fun pins id => Function.update pins id (pins id - 1)) pins

lemma foldl_update_apply (f : Nat → Nat) (l : List UInt64) (pins : UInt64 → Nat) (id : UInt64) :
    l.foldl (fun pins id => update pins id (f (pins id))) pins id = f^[l.count id] (pins id) := by
  induction l generalizing pins with
  | nil => rfl
  | cons x l ih =>
    rw [foldl_cons, ih, update_apply, count_cons]
    by_cases hx : id = x
    · rw [if_pos hx, if_pos (beq_iff_eq.mpr hx.symm), hx]
      rfl
    · rw [if_neg hx, if_neg fun he => hx (beq_iff_eq.mp he).symm]
      rfl

lemma pinAll_apply (l : List UInt64) (pins : UInt64 → Nat) (id : UInt64) :
    pinAll l pins id = pins id + l.count id :=
  (foldl_update_apply Nat.succ l pins id).trans (Nat.succ_iterate ..)

lemma unpinAll_apply (l : List UInt64) (pins : UInt64 → Nat) (id : UInt64) :
    unpinAll l pins id = pins id - l.count id :=
  (foldl_update_apply Nat.pred l pins id).trans (Nat.pred_iterate ..)

lemma viewOpen_none {status : Status}
    (h : viewOpen s object admission sel byteBegin byteEnd = (status, none, s')) : s' = s := by
  unfold viewOpen at h
  dsimp only at h
  repeat' split at h
  all_goals
    obtain ⟨-, h⟩ := mk.inj h
    obtain ⟨hnone, hs⟩ := mk.inj h
  all_goals first | exact hs.symm | cases hnone

theorem viewOpen_ok (hr : Retained s.core) (hp : Pointers s.core) {status : Status}
    (h : viewOpen s object admission sel byteBegin byteEnd = (status, some vi, s')) :
    ∃ v : View, s.harness.views vi = none ∧ byteBegin < byteEnd ∧
      v.Captured s object sel byteBegin byteEnd ∧ s' = { s with harness := { s.harness with
        views := s.harness.views.set vi v, pins := pinAll v.pinned s.harness.pins } } := by
  have hno : ∀ {status' : Status}, ((status', none, s) : Status × Option (Fin maxViews) × Store) ≠
      (status, some vi, s') := by
    intro status' he
    cases congrArg (·.2.1) he
  unfold viewOpen at h
  dsimp only at h
  split at h
  · exact absurd h hno
  next hselection =>
  split at h
  · exact absurd h hno
  next hrange =>
  iterate 2
    split at h
    · exact absurd h hno
  split at h
  · exact absurd h hno
  next a _ =>
  split at h
  · exact absurd h hno
  next chosen hresolved =>
  split at h
  · exact absurd h hno
  next vj hspare =>
  split at h
  · exact absurd h hno
  next v hcaptured =>
  obtain ⟨-, h⟩ := mk.inj h
  obtain ⟨hvi, rfl⟩ := mk.inj h
  cases hvi
  refine ⟨v, spare_some hspare, ?_, ?_, rfl⟩
  · grind
  -- what the members select, whichever kind of selection it is
  have hordinary : sel.kind = .ordinary → sel.members = [] := by
    intro hkind
    unfold selectionOk at hselection
    rw [hkind] at hselection
    simpa using hselection
  have hmembers : (∀ i t, selectedTxn s.core s.instance_ sel.members i = some t →
      t.Staged ∧ t.index = i ∧ (∃ ti, s.core.txns ti = some t) ∧
        ∃ vi v, versionFind s.core t.version = some (vi, v)) ∧
      ∀ i, chosen i = (selectedTxn s.core s.instance_ sel.members i).map Txn.version := by
    split at hresolved
    · next hkind =>
      cases hresolved
      rw [hordinary hkind]
      exact ⟨fun i t ht => (nomatch ht), fun i => rfl⟩
    · cases hresolved
    · obtain ⟨hthere, hchosen⟩ := ownerResolve_ok hresolved
      exact ⟨fun i t ht => ⟨(hthere i t ht).1, (hthere i t ht).2.2⟩, hchosen⟩
  obtain ⟨hthere, hchosen⟩ := hmembers
  have hversions : v.rangeBegin = byteBegin ∧ v.rangeEnd = byteEnd ∧
      v.eof = selectedEof s.core (selectedVersion s.core s.instance_ object sel)
        (finRange maxChunks) 0 ∧
      ∀ i : ChunkIndex, v.version i =
        if byteBegin.toNat / s.core.chunkBytes.toNat ≤ i.val ∧
            i.val ≤ (byteEnd.toNat - 1) / s.core.chunkBytes.toNat then
          (selectedVersion s.core s.instance_ object sel i).map (·.id)
        else none := by
    cases hfound : objectFind s.core object with
    | none =>
      rw [hfound] at hcaptured hresolved
      dsimp only at hcaptured
      cases hcaptured
      have hkind : sel.kind = .ordinary := by grind
      have hnone : ∀ i, selectedVersion s.core s.instance_ object sel i = none := by
        grind [selectedVersion, visibleVersion]
      refine ⟨rfl, rfl, (selectedEof_none (fun i _ => hnone i) 0).symm, fun i => ?_⟩
      rw [hnone i]
      split <;> rfl
    | some p =>
      obtain ⟨slot, o⟩ := p
      rw [hfound] at hcaptured
      obtain ⟨hbegin, hend, heof, hversion⟩ := viewCapture_ok
        (viewVersion_selected hfound (fun i t ht => (hthere i t ht).2.2.2) hchosen)
        (fun _ _ => rfl) (nodup_finRange _) hcaptured
      refine ⟨hbegin, hend, heof, fun i => ?_⟩
      rw [hversion i]
      simp
  refine ⟨hversions.1, hversions.2.1, hversions.2.2.1, hversions.2.2.2, fun i id hid => ?_⟩
  rw [hversions.2.2.2 i] at hid
  split at hid
  · obtain ⟨ver, hver, rfl⟩ := map_eq_some_iff.mp hid
    exact selectedVersion_lasting hr hp
      (fun i t ht => ⟨(hthere i t ht).1, (hthere i t ht).2.1, (hthere i t ht).2.2.1⟩) hver
  · cases hid

/-! ## What an event does to the views -/

def Harness.viewing (h : Harness) : Table maxViews View × (UInt64 → Nat) := (h.views, h.pins)

lemma publish_viewing (l : List Publication) (h : Harness) :
    (l.foldl publish h).viewing = h.viewing := by
  induction l generalizing h with
  | nil => rfl
  | cons p l ih =>
    rw [foldl_cons, ih]
    unfold publish
    split <;> rfl

lemma applyMember_viewing (s : Store) (env : Envelope UInt64) (bytes : Bytes) (ordinal : Nat)
    (digest : Digest) :
    (applyMember s env bytes ordinal digest).2.harness.viewing = s.harness.viewing := by
  unfold applyMember
  split
  · rfl
  dsimp only
  split
  · exact publish_viewing _ _
  split
  · exact publish_viewing _ _
  · rfl

lemma callStep_viewing (s : Store) (call : Call) :
    (callStep s call).1.harness.viewing = s.harness.viewing := by
  cases call with
  | entered env bytes =>
    obtain ⟨n, hn⟩ := callCheck_store s env bytes
    change (callCheck s env bytes).1.harness.viewing = _
    rw [hn]
  | running r out =>
    obtain ⟨n, hn⟩ := callMember_store s r out
    change (callMember s r out).1.harness.viewing = _
    rw [hn]
    exact applyMember_viewing _ _ _ _ _
  | done => rfl

lemma fixtureControl_harness (s : Store) (r : ControlRequest) :
    (fixtureControl s r).2.harness = s.harness := by
  unfold fixtureControl
  dsimp only
  split
  · rfl
  split
  · rfl
  · split <;> rfl

lemma fixture_viewing (s : Store) (call : FixtureCall) :
    (fixture s call).harness.viewing = s.harness.viewing := by
  unfold fixture
  split
  · rfl
  cases call with
  | admitUnder | custody | certificate =>
    exact congrArg viewing (fixtureControl_harness _ _)
  | revoke | expire | release =>
    dsimp only
    split
    · rfl
    · exact congrArg viewing (fixtureControl_harness _ _)
  | staleIndex object index =>
    dsimp only
    unfold staleIndex
    split
    · split <;> rfl
    · rfl
  | versionDamage h checksum =>
    dsimp only
    split <;> rfl
  | _ => rfl

lemma replayLocked_viewing (s : Store) (log : Bytes) :
    (replayLocked s log).2.harness.viewing = s.harness.viewing := by
  unfold replayLocked
  split
  · rfl
  · dsimp only
    split <;> rfl

lemma storeReopen_viewing {log : Bytes} (h : storeReopen s log = (.ok, s')) :
    s'.harness.viewing = s.harness.viewing := by
  unfold storeReopen at h
  dsimp only at h
  have hreplay : (storeReplay s log).2.harness.viewing = s.harness.viewing :=
    replayLocked_viewing _ log
  split at h
  · next s₁ hs₁ =>
    rw [hs₁] at hreplay
    rw [← hreplay]
    split at h
    · cases h
    split at h
    · cases h
    split at h
    · next s₂ hs₂ =>
      obtain ⟨a, b, -, rfl⟩ := startAppend_ok hs₂
      obtain rfl := (mk.inj h).2
      rfl
    · next status s₂ hnot _ => exact absurd (mk.inj h).1 hnot
  · next status s₁ hnot _ => exact absurd (mk.inj h).1 hnot

/-- What becomes of the views and the pins. -/
inductive Viewing (w : World) : Event → Table maxViews View × (UInt64 → Nat) → Prop where
  | same (e : Event) : Viewing w e w.store.harness.viewing
  | opened {object : ObjKey} {admission : Handle} {sel : SelectionSpec} {byteBegin byteEnd : UInt64}
      {vi : Fin maxViews} {v : View} (spare : w.store.harness.views vi = none)
      (captured : v.Captured w.store object sel byteBegin byteEnd) :
      Viewing w (.viewOpen object admission sel byteBegin byteEnd)
        (w.store.harness.views.set vi v, pinAll v.pinned w.store.harness.pins)
  | closed {vi : Fin maxViews} {v : View} (row : w.store.harness.views vi = some v) :
      Viewing w (.viewClose vi)
        (w.store.harness.views.clear vi, unpinAll v.pinned w.store.harness.pins)
  /-- A new store object has none. -/
  | fresh (arm : ReopenStart) : Viewing w (.reopen arm) Harness.clean.viewing

lemma reopen_viewing (w : World) (arm : ReopenStart) : (w.reopen arm).store = w.store ∨
      (w.reopen arm).store.harness.viewing = clean.viewing := by
  unfold World.reopen
  dsimp only
  split
  · exact .inl rfl
  next fresh hfresh =>
  split
  · next s hs =>
    refine .inr ((storeReopen_viewing hs).trans ?_)
    unfold storeOpen at hfresh
    split at hfresh
    · cases hfresh
    · obtain ⟨core, -, rfl⟩ := map_eq_some_iff.mp hfresh
      rfl
  · exact .inl rfl

lemma step_viewing (h : Reachable w) (e : Event) :
    Viewing w e (step w e).store.harness.viewing := by
  have hsame : ∀ {x}, x = w.store.harness.viewing → Viewing w e x := fun hx => hx ▸ .same e
  cases e with
  | enter id env =>
    refine hsame ?_
    unfold step
    dsimp only
    split
    · obtain ⟨n, hn⟩ := callEnter_store w.store env
      change (callEnter w.store env).1.harness.viewing = _
      rw [hn]
    · rfl
  | advance id =>
    refine hsame ?_
    unfold step
    dsimp only
    split
    · rfl
    · exact callStep_viewing _ _
  | fixture call => exact hsame (fixture_viewing _ _)
  | viewOpen object admission sel byteBegin byteEnd =>
    unfold step
    dsimp only
    rcases hopen : viewOpen w.store object admission sel byteBegin byteEnd with ⟨status, found, s'⟩
    cases found with
    | none => exact hsame (congrArg (·.harness.viewing) (viewOpen_none hopen))
    | some vi =>
      obtain ⟨v, hspare, -, hcaptured, rfl⟩ := viewOpen_ok h.retained h.pointers hopen
      exact .opened hspare hcaptured
  | viewClose vi =>
    unfold step viewClose
    dsimp only
    split
    · exact .same _
    · next v hv => exact .closed hv
  | close => grind [step, storeClose]
  | reopen arm =>
    rcases reopen_viewing w arm with hstore | hclean
    · exact hsame (congrArg (·.harness.viewing) hstore)
    · change Viewing w _ (w.reopen arm).store.harness.viewing
      rw [hclean]
      exact .fresh arm

/-! ## Pins -/

def Harness.holders (h : Harness) (id : UInt64) : Nat :=
  h.views.count fun v => v.pinned.contains id

lemma View.Captured.nodup (h : v.Captured s object sel byteBegin byteEnd) : v.pinned.Nodup := by
  refine List.Nodup.filterMap (fun i j id hi hj => ?_) (nodup_finRange _)
  obtain ⟨⟨⟨vi, ver, hrow, hid⟩, -⟩, slot, hplace⟩ := h.lasting i id hi
  obtain ⟨-, slot', hplace'⟩ := h.lasting j id hj
  exact (hplace.place vi ver hrow hid).2.symm.trans (hplace'.place vi ver hrow hid).2

structure Harness.Pinned (h : Harness) : Prop where
  pins : ∀ id, h.pins id = h.holders id
  nodup : ∀ vi v, h.views vi = some v → v.pinned.Nodup

lemma Harness.Pinned.clean {h : Harness} (hx : h.viewing = clean.viewing) : h.Pinned := by
  have hviews : h.views = empty := congrArg fst hx
  have hpins : h.pins = fun _ => 0 := congrArg snd hx
  refine ⟨fun id => ?_, fun vi v hv => ?_⟩
  · rw [hpins, holders, hviews]
    exact (@used_empty maxViews View).symm
  · rw [hviews] at hv
    cases hv

lemma pinned_count (h : v.pinned.Nodup) (id : UInt64) :
    v.pinned.count id = (v.pinned.contains id).toNat := by
  grind

lemma Viewing.pinned {e : Event} {h' : Harness} (he : Viewing w e h'.viewing)
    (h : w.store.harness.Pinned) : h'.Pinned := by
  generalize hx : h'.viewing = x at he
  have hviews : h'.views = x.1 := congrArg Prod.fst hx
  have hpins : h'.pins = x.2 := congrArg Prod.snd hx
  cases he with
  | same =>
    exact ⟨fun id => by rw [hpins, Harness.holders, hviews]; exact h.pins id, hviews ▸ h.nodup⟩
  | @opened object admission sel byteBegin byteEnd vi v spare captured =>
    refine ⟨fun id => ?_, fun vj u hu => ?_⟩
    · rw [hpins, Harness.holders, hviews]
      change pinAll v.pinned w.store.harness.pins id = (w.store.harness.views.set vi v).count _
      rw [pinAll_apply, count_set _ spare, pinned_count captured.nodup, h.pins id]
      rfl
    · rw [hviews] at hu
      change w.store.harness.views.set vi v vj = some u at hu
      rw [set_apply] at hu
      split at hu
      · exact some.inj hu ▸ captured.nodup
      · exact h.nodup vj u hu
  | @closed vi v row =>
    refine ⟨fun id => ?_, fun vj u hu => ?_⟩
    · rw [hpins, Harness.holders, hviews]
      change unpinAll v.pinned w.store.harness.pins id = (w.store.harness.views.clear vi).count _
      rw [unpinAll_apply, pinned_count (h.nodup vi v row), h.pins id, Harness.holders,
        ← count_clear (fun v => v.pinned.contains id) row]
      exact Nat.add_sub_cancel _ _
    · rw [hviews] at hu
      change w.store.harness.views.clear vi vj = some u at hu
      rw [clear_apply] at hu
      split at hu
      · cases hu
      · exact h.nodup vj u hu
  | fresh => exact .clean hx

lemma World.open_viewing {i : UInt64} {uuid : Uuid} {chunkBytes : UInt32} {maxFileBytes : UInt64}
    (h : World.open i uuid chunkBytes maxFileBytes = some w) :
    w.store.harness.viewing = clean.viewing := by
  unfold World.open at h
  split at h
  · cases h
  next s hs =>
  unfold storeOpen at hs
  split at hs
  · cases hs
  obtain ⟨core, -, rfl⟩ := map_eq_some_iff.mp hs
  split at h
  · next s' hs' =>
    rw [← some.inj h]
    unfold journalEnable at hs'
    split at hs'
    · cases hs'
    dsimp only at hs'
    split at hs'
    · next s₁ hs₁ =>
      obtain ⟨a, b, -, rfl⟩ := startAppend_ok hs₁
      obtain rfl := (Prod.mk.inj hs').2
      rfl
    · next status s₁ hnot _ => exact absurd (Prod.mk.inj hs').1 hnot
  · cases h

lemma Reachable.pinned (h : Reachable w) : w.store.harness.Pinned := by
  obtain ⟨i, uuid, chunkBytes, maxFileBytes, w₀, es, hopen, rfl⟩ := h
  refine (run_invariant (I := fun w => Reachable w ∧ w.store.harness.Pinned)
    (fun w e hw => ⟨hw.1.run [e], (step_viewing hw.1 e).pinned hw.2⟩)
      ⟨.opened hopen, .clean (World.open_viewing hopen)⟩ es).2

/-! ## A view stays -/

lemma Core.Lasting.bytes {c' : Core} {id : UInt64} (h : c.Lasting id) (hinv : c.stock.Inv)
    (hinv' : c'.stock.Inv) (hr : c.Retains c') (hg : c.Grows c') :
    (versionFind c' id).map (·.2.bytes) = (versionFind c id).map (·.2.bytes) := by
  obtain ⟨vi, v, hfound⟩ := h.found hinv
  obtain ⟨vj, v', hfound'⟩ := (h.retained hinv hr).found hinv'
  obtain ⟨hv, hid, -⟩ := findById_some hfound
  obtain ⟨hv', hid', -⟩ := findById_some hfound'
  have hold : v'.id.toNat < c.nextVersion.toNat := by
    rw [hid', ← hid]
    exact (hinv.below vi v hv).2
  obtain ⟨u, hu, hlater⟩ := hg.version.origin hv' hold
  have hslot : vj = vi := hinv.number vj vi u v hu hv (hlater.id_eq.trans (hid'.trans hid.symm))
  subst hslot
  obtain rfl : u = v := some.inj (hu.symm.trans hv)
  rw [hfound, hfound', map_some, map_some, (Version.of_fixed hlater.fixed).2.2.2.1]

/-- The event leaves view `vi` open: it does not close it, and the store object it belongs to stays.
-/
def KeepsView (vi : Fin maxViews) (w : World) : Event → Prop
  | .viewClose vj => vj ≠ vi
  | .reopen arm => (w.reopen arm).store = w.store
  | _ => True

/-- View `vi` is `v`, and what it pinned lasts. -/
structure World.Views (w : World) (vi : Fin maxViews) (v : View) : Prop where
  row : w.store.harness.views vi = some v
  lasting : ∀ i id, v.version i = some id → w.store.core.Lasting id

lemma step_view (h : Reachable w) (hv : w.Views vi v) {e : Event} (he : KeepsView vi w e) :
    (step w e).Views vi v ∧ v.shows (step w e).store.core = v.shows w.store.core := by
  have hr := step_retains h e
  have hlasting : ∀ i id, v.version i = some id → (step w e).store.core.Lasting id :=
    fun i id hid => (hv.lasting i id hid).retained h.stocked.inv hr
  have hrow : (step w e).store.harness.views vi = some v := by
    have hviewing := step_viewing h e
    generalize hx : (step w e).store.harness.viewing = x at hviewing
    have hviews : (step w e).store.harness.views = x.1 := congrArg fst hx
    rw [hviews]
    cases hviewing with
    | same => exact hv.row
    | opened spare captured =>
      refine (set_ne ?_).trans hv.row
      rintro rfl
      cases spare.symm.trans hv.row
    | closed row => exact (clear_ne (Ne.symm he)).trans hv.row
    | fresh arm =>
      have hstore : (step w (.reopen arm)).store = w.store := he
      rw [← hviews, hstore]
      exact hv.row
  refine ⟨⟨hrow, hlasting⟩, ?_⟩
  have hbytes : viewBytes (step w e).store.core v = viewBytes w.store.core v := by
    funext index
    unfold viewBytes
    dsimp only
    split
    · next hindex =>
      cases hid : v.version ⟨index, hindex⟩ with
      | none => rfl
      | some id =>
        have hinv' : (step w e).store.core.stock.Inv := (h.run [e]).stocked.inv
        rw [bind_some, bind_some,
          (hv.lasting _ id hid).bytes h.stocked.inv hinv' hr (step_grows h e)]
    · rfl
  unfold View.shows
  rw [hbytes, show (step w e).store.core.chunkBytes = w.store.core.chunkBytes from
    congrArg Geometry.chunkBytes (step_geometry h.inv e)]

lemma run_view (h : Reachable w) (hv : w.Views vi v) {es : List Event}
    (hes : Machine.Along step (KeepsView vi) w es) : (run step w es).Views vi v ∧
      v.shows (run step w es).store.core = v.shows w.store.core :=
  (run_invariant_along (I := fun w' => Reachable w' ∧ w'.Views vi v ∧
      v.shows w'.store.core = v.shows w.store.core)
    (fun w' e hw he => by
      obtain ⟨hv', hshows⟩ := step_view hw.1 hw.2.1 he
      exact ⟨hw.1.run [e], hv', hshows.trans hw.2.2⟩) ⟨h, hv, rfl⟩ hes).2

lemma selectedVersion_found {instance_ : UInt64} {i : ChunkIndex} {v : Version}
    (h : selectedVersion c instance_ object sel i = some v) :
    ∃ vi, versionFind c v.id = some (vi, v) := by
  have hself : ∀ {raw : UInt64} {vi : Fin maxVersions} {v : Version},
      versionFind c raw = some (vi, v) → ∃ vi, versionFind c v.id = some (vi, v) := by
    intro raw vi v hfound
    rw [(findById_some hfound).2.1]
    exact ⟨vi, hfound⟩
  unfold selectedVersion at h
  split at h
  · obtain ⟨⟨vi, _⟩, hfound, rfl⟩ := map_eq_some_iff.mp h
    exact hself hfound
  obtain ⟨_, -, h⟩ := bind_eq_some_iff.mp h
  obtain ⟨⟨vi, _⟩, hfound, rfl⟩ := map_eq_some_iff.mp h
  obtain ⟨id, -, hfound⟩ := bind_eq_some_iff.mp hfound
  exact hself hfound

lemma View.Captured.viewBytes (h : v.Captured s object sel byteBegin byteEnd) {index : Nat}
    (hfirst : byteBegin.toNat / s.core.chunkBytes.toNat ≤ index)
    (hlast : index ≤ (byteEnd.toNat - 1) / s.core.chunkBytes.toNat) :
    Reffs.D1.viewBytes s.core v index = (s.snapshot object sel byteBegin byteEnd).chunk index := by
  unfold Reffs.D1.viewBytes Store.snapshot
  dsimp only
  split
  · next hindex =>
    have hversion := h.version ⟨index, hindex⟩
    rw [if_pos ⟨hfirst, hlast⟩] at hversion
    rw [hversion]
    cases hsel : selectedVersion s.core s.instance_ object sel ⟨index, hindex⟩ with
    | none => rfl
    | some ver =>
      obtain ⟨vi, hfound⟩ := selectedVersion_found hsel
      rw [map_some, bind_some, hfound]
      rfl
  · rfl

lemma View.Captured.shows (h : v.Captured s object sel byteBegin byteEnd) (offset len : Nat) :
    (v.shows s.core).read offset len =
      (s.snapshot object sel byteBegin byteEnd).read offset len := by
  have hfields : v.shows s.core = { s.snapshot object sel byteBegin byteEnd with
      chunk := Reffs.D1.viewBytes s.core v
        } := by grind [Store.snapshot, View.shows, h.eof, h.rangeBegin, h.rangeEnd]
  rw [hfields]
  refine Snapshot.read_congr (fun at_ hbegin hend => ?_) offset len
  -- the window begins at or before this chunk and ends at or after it
  change at_ < byteEnd.toNat at hend
  exact h.viewBytes (Nat.div_le_div_right hbegin) (Nat.div_le_div_right (by omega))

/-! ## Isolation -/

/-- The bytes of several reads of a view, each from where the one before it was to end. -/
def viewReads (s : Store) (vi : Fin maxViews) : UInt64 → List UInt32 → Bytes
  | _, [] => []
  | offset, len :: rest =>
    (viewRead s vi offset len).2 ++ viewReads s vi (offset + len.toUInt64) rest

lemma viewReads_eq {shot : Snapshot}
    (h : ∀ offset len, viewRead s vi offset len = shot.read offset.toNat len.toNat)
    {offset : UInt64}
    {lens : List UInt32} (hrange : offset.toNat + (lens.map UInt32.toNat).sum < 2 ^ 64) :
    viewReads s vi offset lens = shot.reads offset.toNat (lens.map UInt32.toNat) := by
  induction lens generalizing offset with
  | nil => rfl
  | cons len rest ih =>
    rw [map_cons, sum_cons] at hrange
    have hnext : (offset + len.toUInt64).toNat = offset.toNat + len.toNat := by
      grind [Nat.mod_eq_of_lt, UInt32.toNat_toUInt64, UInt64.toNat_add]
    rw [viewReads, h, ih (by omega), hnext]
    rfl

lemma opened_views (h : Reachable w)
    (hopened : (viewOpen w.store object admission sel byteBegin byteEnd).2.1 = some vi) :
    ∃ v : View, v.Captured w.store object sel byteBegin byteEnd ∧
      (step w (.viewOpen object admission sel byteBegin byteEnd)).Views vi v ∧
      (step w (.viewOpen object admission sel byteBegin byteEnd)).store.core = w.store.core := by
  unfold step
  dsimp only
  rcases hopen : viewOpen w.store object admission sel byteBegin byteEnd with ⟨status, found, s'⟩
  rw [hopen] at hopened
  obtain rfl : found = some vi := hopened
  obtain ⟨v, hspare, -, hcaptured, rfl⟩ := viewOpen_ok h.retained h.pointers hopen
  exact ⟨v, hcaptured, ⟨set_self _ _ _, fun i id hid => (hcaptured.lasting i id hid).1⟩, rfl⟩

/-- **A view is isolated, and every pin is a view's.** In every reachable world a version has as
many pins as there are open views that hold it. And a view that was opened reads, through whatever
happens until it is closed, as the snapshot of the moment it was opened: every single read does, and
so does every range that is read in pieces. -/
theorem view_isolated {w : World} (h : Reachable w) :
    (∀ id, w.store.harness.pins id = w.store.harness.holders id) ∧
    ∀ object admission sel byteBegin byteEnd vi,
      (viewOpen w.store object admission sel byteBegin byteEnd).2.1 = some vi →
      ∀ es, Machine.Along step (KeepsView vi)
        (step w (.viewOpen object admission sel byteBegin byteEnd)) es →
        let shot := w.store.snapshot object sel byteBegin byteEnd
        let w' := Machine.run step (step w (.viewOpen object admission sel byteBegin byteEnd)) es
        (∀ offset len, viewRead w'.store vi offset len = shot.read offset.toNat len.toNat) ∧
        ∀ offset lens, byteBegin ≤ offset → offset.toNat + (lens.map UInt32.toNat).sum < 2 ^ 64 →
          viewReads w'.store vi offset lens =
            (shot.read offset.toNat (lens.map UInt32.toNat).sum).2 := by
  refine ⟨h.pinned.pins, fun object admission sel byteBegin byteEnd vi hopened es hes => ?_⟩
  obtain ⟨v, hcaptured, hviews, hcore⟩ := opened_views h hopened
  have hreach := h.run [.viewOpen object admission sel byteBegin byteEnd]
  rw [Machine.run_cons, Machine.run_nil] at hreach
  generalize step w (.viewOpen object admission sel byteBegin byteEnd) =
    w₁ at hes hviews hcore hreach
  obtain ⟨hviews', hshows⟩ := run_view hreach hviews hes
  have hread : ∀ offset len, viewRead (Machine.run step w₁ es).store vi offset len =
      (w.store.snapshot object sel byteBegin byteEnd).read offset.toNat len.toNat := by
    intro offset len
    calc viewRead (Machine.run step w₁ es).store vi offset len
        = (v.shows (Machine.run step w₁ es).store.core).read offset.toNat len.toNat :=
          viewRead_eq hviews'.row (hreach.run es).chunkBytes_pos offset len
      _ = (v.shows w.store.core).read offset.toNat len.toNat := by rw [hshows, hcore]
      _ = (w.store.snapshot object sel byteBegin byteEnd).read offset.toNat len.toNat :=
          hcaptured.shows _ _
  refine ⟨hread, fun offset lens hbegin hrange => ?_⟩
  rw [viewReads_eq hread hrange]
  exact Snapshot.reads_eq (UInt64.le_iff_toNat_le.mp hbegin) _

def smallView : Event :=
  .viewOpen noObject (smallClient.handle .admission 1) ⟨.ordinary, [], 0⟩ 0 10

/-- While the view is open the first chunk is written again and committed. -/
def overwriteEvents : List Event :=
  let cl := smallClient
  cl.script 2 [.apply (cl.write 2 0 [66, 67] false),
    .apply (.finalizeBatch (cl.lifecycle 2 0 2 (some 1))),
    .apply (.commitBatch (cl.lifecycle 2 0 2 (some 1)))]

def isCallEvent : Event → Bool
  | .enter _ _ => true
  | .advance _ => true
  | _ => false

theorem view_isolated_small :
    viewRead (Machine.run step (step writtenWorld smallView) overwriteEvents).store 0 0 10 =
      (.ok, [65]) ∧
    viewRead (step (Machine.run step (step writtenWorld smallView) overwriteEvents) smallView).store
      1 0 10 = (.ok, [66, 67]) := by
  refine ⟨?_, by decide +kernel⟩
  have hkeeps : Machine.Along step (KeepsView 0) (step writtenWorld smallView) overwriteEvents := by
    refine along_of_forall (P := fun e => isCallEvent e) (fun w e he => ?_)
      (by decide +kernel) _
    cases e with
    | enter => trivial
    | advance => trivial
    | _ => cases he
  have hread := ((view_isolated writtenWorld_reachable).2 noObject (smallClient.handle .admission 1)
    ⟨.ordinary, [], 0⟩ 0 10 0 (by decide +kernel) overwriteEvents hkeeps).1 0 10
  refine hread.trans ?_
  decide +kernel

end Reffs.D1
