import Reffs.D1.Fixture

/-!
# Read views

`d1_view_open`, `d1_view_read` and `d1_view_close`. A view is opened over a byte window of one
object; it captures the extents of the object and pins the version of every chunk the window covers.
A chunk under an ERROR mark that has not been cleared makes the view refuse to open.
-/

namespace Reffs.D1

open ByteCodec SlotTable

inductive SelectionKind where
  | ordinary | owner
  deriving DecidableEq, Repr

/-- Which versions a view shows: the visible ones, or those of named finalized transactions. -/
structure SelectionSpec where
  kind : SelectionKind
  members : List (Handle × Owner)
  readEpoch : UInt64
  deriving DecidableEq, Repr

def selectionOk (sel : SelectionSpec) : Bool :=
  match sel.kind with
  | .ordinary => sel.members.isEmpty
  | .owner => countOk sel.members.length

def readAdmission (c : Core) (admission : UInt64) (object : ObjKey) (priv : Bool) :
    Except Status Admission :=
  match admissionFind c admission with
  | none => .error .staleAuth
  | some (_, a) =>
    if a.revoked ∨ a.expired then .error .staleAuth
    else if a.object ≠ object then .error .staleAuth
    else if !hasRight a.rights rightRead then .error .staleAuth
    else if priv ∧ a.incarnation ≠ c.incarnation then .error .staleAuth
    else .ok a

/-- The versions an owner selection shows in place of the visible ones. -/
def ownerResolve (c : Core) (instance_ : UInt64) (sel : SelectionSpec) (a : Admission)
    (slot : ObjectSlot) :
    List Handle → List (Handle × Owner) → (ChunkIndex → Option UInt64) →
      Except Status (ChunkIndex → Option UInt64)
  | _, [], chosen => .ok chosen
  | earlier, (h, owner) :: rest, chosen =>
    if earlier.contains h then .error .invalid
    else match txnFind c (handleRaw instance_ .txn h) with
      | none => .error .invalid
      | some (_, t) =>
        if t.object ≠ slot then .error .invalid
        else if t.owner ≠ owner then .error .ownerConflict
        else if t.admission ≠ a.id then .error .staleAuth
        else if t.readEpoch ≠ sel.readEpoch then .error .staleAuth
        else if t.mode ≠ .ordinary then .error .invalid
        else if t.phase ≠ .finalized then .error .badPhase
        else if (chosen t.index).isSome then .error .invalid
        else match versionFind c t.version with
          | none => .error .invalid
          | some (_, v) =>
            ownerResolve c instance_ sel a slot (earlier ++ [h]) rest
              (Function.update chosen t.index (some v.id))

def versionChecksum (h : Harness) (v : Version) : Checksum := (h.damaged v.id).getD v.checksum

/-- The version a view shows for a chunk: the chosen one, or the visible one. -/
def viewVersion (c : Core) (chosen : Option UInt64) (ch : Chunk) : Option Version :=
  (((chosen.bind (versionFind c)).map Prod.snd).or
    ((ch.visible.bind (versionFind c)).map Prod.snd))

/-- Capture the chunks one after the other; the first that cannot be shown refuses the view. -/
def viewCapture (c : Core) (h : Harness) (o : Object) (chosen : ChunkIndex → Option UInt64)
    (first last : Nat) : List ChunkIndex → View → Except Status View
  | [], v => .ok v
  | i :: rest, v =>
    let ch := o.chunks i
    match viewVersion c (chosen i) ch with
    | none =>
      if ch.visible.isSome then .error .invalid
      else viewCapture c h o chosen first last rest v
    | some ver =>
      let v := { v with
        extent := Function.update v.extent i (some ver.bytes.length)
        eof := match mulU64 (UInt64.ofNat i.val) c.chunkBytes.toUInt64 with
          | none => v.eof
          | some start => match addU64 start (UInt64.ofNat ver.bytes.length) with
            | none => v.eof
            | some stop => if stop > v.eof then stop else v.eof }
      if i.val < first ∨ last < i.val then viewCapture c h o chosen first last rest v
      else if !chunkReadable ch then .error .quarantined
      else if !checksumVerify (versionChecksum h ver) ver.bytes then .error .checksum
      else viewCapture c h o chosen first last rest
        { v with version := Function.update v.version i (some ver.id) }

def View.pinned (v : View) : List UInt64 := (List.finRange maxChunks).filterMap v.version

def viewOpen (s : Store) (object : ObjKey) (admission : Handle) (sel : SelectionSpec)
    (byteBegin byteEnd : UInt64) : Status × Option (Fin maxViews) × Store :=
  let no (status : Status) : Status × Option (Fin maxViews) × Store := (status, none, s)
  let c := s.core
  if !selectionOk sel then no .invalid
  else if byteBegin ≥ byteEnd then no .invalid
  else if !s.serving then no .invalid
  else if byteEnd > c.maxFileBytes then no .invalid
  else match readAdmission c (handleRaw s.instance_ .admission admission) object
      (sel.kind = .owner) with
    | .error status => no status
    | .ok a =>
      let found := objectFind c object
      let first := byteBegin.toNat / c.chunkBytes.toNat
      let last := (byteEnd.toNat - 1) / c.chunkBytes.toNat
      let resolved : Except Status (ChunkIndex → Option UInt64) :=
        match sel.kind, found with
        | .ordinary, _ => .ok fun _ => none
        | .owner, none => .error .invalid
        | .owner, some (slot, _) =>
          ownerResolve c s.instance_ sel a slot [] sel.members fun _ => none
      match resolved with
      | .error status => no status
      | .ok chosen => match s.harness.views.spare with
        | none => no .nospc
        | some vi =>
          let blank : View := {
            object := found.map Prod.fst, rangeBegin := byteBegin, rangeEnd := byteEnd
            eof := 0, indexEpoch := c.indexEpoch
            extent := fun _ => none, version := fun _ => none }
          let captured : Except Status View := match found with
            | none => .ok blank
            | some (_, o) =>
              viewCapture c s.harness o chosen first last (List.finRange maxChunks) blank
          match captured with
          | .error status => no status
          | .ok v => (.ok, some vi, { s with harness := { s.harness with
              views := s.harness.views.set vi v
              pins := v.pinned.foldl
                (fun pins id => Function.update pins id (pins id + 1)) s.harness.pins } })

def viewClose (s : Store) (vi : Fin maxViews) : Store :=
  match s.harness.views vi with
  | none => s
  | some v => { s with harness := { s.harness with
      views := s.harness.views.clear vi
      pins := v.pinned.foldl
        (fun pins id => Function.update pins id (pins id - 1)) s.harness.pins } }

/-! ## Reading -/

/-- `span` bytes of a chunk from `within` on: those its version has there, and zeros. -/
def chunkSpan (bytes : Bytes) (within span : Nat) : Bytes :=
  let got := (bytes.drop within).take span
  got ++ List.replicate (span - got.length) 0

/-- The bytes of the version a view pinned for a chunk, by the number of the chunk. -/
def viewBytes (c : Core) (v : View) (index : Nat) : Bytes :=
  let ver := if h : index < maxChunks then (v.version ⟨index, h⟩).bind (versionFind c) else none
  (ver.map (·.2.bytes)).getD []

/-- The loop of `d1_view_read`: chunk after chunk, until `len` bytes are there. A chunk gives at
least one byte, so that `len` rounds are enough. -/
def viewFill (c : Core) (v : View) : Nat → Nat → Nat → Bytes
  | 0, _, _ => []
  | fuel + 1, at_, len =>
    if len = 0 then []
    else
      let index := at_ / c.chunkBytes.toNat
      let within := at_ % c.chunkBytes.toNat
      let span := min (c.chunkBytes.toNat - within) len
      chunkSpan (viewBytes c v index) within span ++ viewFill c v fuel (at_ + span) (len - span)

def viewRead (s : Store) (vi : Fin maxViews) (offset : UInt64) (len : UInt32) : Status × Bytes :=
  match s.harness.views vi with
  | none => (.invalid, [])
  | some v =>
    if offset < v.rangeBegin ∨ offset ≥ v.rangeEnd then (.invalid, [])
    else if offset ≥ v.eof ∨ len = 0 then (.ok, [])
    else
      let limit := if v.eof < v.rangeEnd then v.eof else v.rangeEnd
      let len := if limit - offset < len.toUInt64 then (limit - offset).toUInt32 else len
      (.ok, viewFill s.core v len.toNat offset.toNat len.toNat)

end Reffs.D1
