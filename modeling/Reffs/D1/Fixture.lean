import Reffs.D1.Apply

/-!
# Fixture operations

What a test or an embedding store does to a D1 store besides applying envelopes: admissions, their
revocation and expiry, custody, release of a predecessor and the certificate, all of which are
journalled as control records; and the fault arms, the stale index and damaged checksums, which are
not.
-/

namespace Reffs.D1

open ByteCodec ByteCodec.Dec SlotTable List

/-! ## Handles -/

def handleOurs (instance_ : UInt64) (kind : HandleKind) (h : Handle) : Bool :=
  h.raw != 0 && h.kind == kind && h.instance_ != 0 && h.instance_ == instance_

/-- `d1_owns_*`: a handle that names nothing is anyone's. -/
def handleOwned (instance_ : UInt64) (kind : HandleKind) (h : Handle) : Bool :=
  h.raw == 0 || handleOurs instance_ kind h

/-- The number a lookup by handle searches for; zero, which no row carries, for a handle of another
store or another table. -/
def handleRaw (instance_ : UInt64) (kind : HandleKind) (h : Handle) : UInt64 :=
  if handleOurs instance_ kind h then h.raw else 0

/-- `d1_*_of`: the handle this store gives out for a number. -/
def handleOf (instance_ : UInt64) (kind : HandleKind) (raw : UInt64) : Handle :=
  if raw = 0 then Handle.absent else ⟨raw, kind, instance_⟩

/-! ## Control requests -/

structure Authority where
  issuer : Uuid
  principal : Uuid
  stateid : FixedBytes 16
  session : FixedBytes 16
  writer : UInt32
  rights : UInt32
  leaseEpoch : UInt64
  authorityEpoch : UInt64
  fenceSequence : UInt64
  deriving DecidableEq, Repr

inductive ControlBody where
  | admitUnder (auth : Authority)
  | revoke (admission : UInt64)
  | expire (admission : UInt64)
  | custody (version : UInt64)
  | release (version : UInt64)
  | certificate (certificate : Option Certificate)
  deriving DecidableEq, Repr

structure ControlRequest where
  object : ObjKey
  body : ControlBody
  deriving DecidableEq, Repr

def ControlBody.kind : ControlBody → UInt32
  | admitUnder _ => 2
  | revoke _ => 3
  | expire _ => 4
  | custody _ => 5
  | release _ => 6
  | certificate _ => 7

def ControlBody.issues : ControlBody → Bool
  | admitUnder _ => true
  | custody _ => true
  | _ => false

structure ControlResult where
  status : UInt32
  id : UInt64
  deriving DecidableEq, Repr

/-- The object key of a request that is about no object. -/
def noObject : ObjKey := ⟨zeros 16, zeros 16⟩

def encAuthority (a : Authority) : Bytes :=
  encRaw a.issuer ++ encRaw a.principal ++ encRaw a.stateid ++ encRaw a.session ++
    encU32 a.writer ++ encU32 a.rights ++ encU64 a.leaseEpoch ++ encU64 a.authorityEpoch ++
    encU64 a.fenceSequence

def decAuthority : Dec Authority := do
  let issuer ← decRaw 16
  let principal ← decRaw 16
  let stateid ← decRaw 16
  let session ← decRaw 16
  let writer ← decU32
  let rights ← decU32
  let leaseEpoch ← decU64
  let authorityEpoch ← decU64
  let fenceSequence ← decU64
  pure { issuer, principal, stateid, session, writer, rights, leaseEpoch, authorityEpoch,
         fenceSequence }

def encControlBody : ControlBody → Bytes
  | .admitUnder auth => encAuthority auth
  | .revoke admission => encU64 admission
  | .expire admission => encU64 admission
  | .custody version => encU64 version
  | .release version => encU64 version
  | .certificate certificate => encOpt encRaw certificate

def encControlRequest (r : ControlRequest) : Bytes :=
  encU32 r.body.kind ++ encObjKey r.object ++ encControlBody r.body

/-- The body of a kind; `D1_CTL_ENVELOPE` and unknown kinds have none. -/
def decControlBody (kind : UInt32) : Dec ControlBody :=
  if kind = 2 then do
    let auth ← decAuthority
    pure (.admitUnder auth)
  else if kind = 3 then do
    let admission ← decU64
    pure (.revoke admission)
  else if kind = 4 then do
    let admission ← decU64
    pure (.expire admission)
  else if kind = 5 then do
    let version ← decU64
    pure (.custody version)
  else if kind = 6 then do
    let version ← decU64
    pure (.release version)
  else if kind = 7 then do
    let certificate ← decOpt (decRaw 32)
    pure (.certificate certificate)
  else Dec.fail

def decControlRequest : Dec ControlRequest := do
  let kind ← decU32
  let object ← decObjKey
  let body ← decControlBody kind
  pure ⟨object, body⟩

def encControlResult (r : ControlResult) : Bytes := encU32 r.status ++ encU64 r.id

def decControlResult : Dec ControlResult := do
  let status ← decU32
  let id ← decU64
  pure ⟨status, id⟩

instance : Codec decAuthority encAuthority where
  reads _ := by
    refine .ended ?_
    simp only [encAuthority, List.append_assoc]
    repeat refine .field ?_
    exact .pure _
  spells := by
    unfold decAuthority
    repeat refine .field fun _ => ?_
    exact .pure (by simp only [encAuthority, List.append_assoc, List.append_nil])

lemma reads_controlBody (b : ControlBody) : Reads (decControlBody b.kind) (encControlBody b) b := by
  cases b with
  | admitUnder auth => exact (Codec.reads auth : Reads decAuthority _ _).last rfl
  | revoke id | expire id | custody id | release id => exact (reads_u64 id).last rfl
  | certificate certificate => exact (reads_opt fun v _ => reads_raw v).last rfl

lemma reads_controlRequest (r : ControlRequest) :
    Reads decControlRequest (encControlRequest r) r := by
  simp only [encControlRequest, append_assoc]
  exact .field <| .field <| (reads_controlBody _).last rfl

lemma reads_controlResult (r : ControlResult) : Reads decControlResult (encControlResult r) r :=
  .field <| (reads_u64 _).last rfl

lemma accepts_controlBody (kind : UInt32) : Accepts (decControlBody kind) fun used b =>
    used = encControlBody b ∧ b.kind = kind := by
  unfold decControlBody
  split
  · next h => exact Codec.spells.bind fun _ => .pure ⟨append_nil _, h.symm⟩
  iterate 4
    split
    · next h => exact spells_u64.bind fun _ => .pure ⟨append_nil _, h.symm⟩
  split
  · next h => exact Codec.spells.bind fun _ => .pure ⟨append_nil _, h.symm⟩
  · exact .fail

lemma spells_controlRequest : Spells decControlRequest encControlRequest := by
  refine .field fun kind => .field fun _ =>
    (accepts_controlBody kind).bind fun b used hb => .pure ?_
  simp [encControlRequest, hb.1, hb.2]

lemma spells_controlResult : Spells decControlResult encControlResult := by
  refine .field fun _ => .field fun _ => .pure ?_
  simp [encControlResult]

/-! ## Effects -/

def admitLocked (c : Core) (object : ObjKey) (auth : Authority) : UInt64 × Core :=
  if auth.writer = writerReservedLow ∨ auth.writer = writerReservedHigh then (0, c)
  else if c.nextAdmission = uint64Max then (0, c)
  else match c.admissions.spare with
    | none => (0, c)
    | some i =>
      let row : Admission := {
        id := c.nextAdmission, issuer := auth.issuer, object := object
        principal := auth.principal, writer := auth.writer, stateid := auth.stateid
        session := auth.session, leaseEpoch := auth.leaseEpoch
        authorityEpoch := auth.authorityEpoch, fenceSequence := auth.fenceSequence
        incarnation := c.incarnation, rights := auth.rights, revoked := false, expired := false }
      (c.nextAdmission,
        { c with admissions := c.admissions.set i row, nextAdmission := c.nextAdmission + 1 })

/-- Change the row of an admission; the flag says there is one. -/
def admissionChange (f : Admission → Admission) (c : Core) (admission : UInt64) : Bool × Core :=
  match admissionFind c admission with
  | none => (false, c)
  | some (i, a) => (true, { c with admissions := c.admissions.set i (f a) })

def revokeLocked : Core → UInt64 → Bool × Core :=
  admissionChange fun a => { a with revoked := true }

def expireLocked : Core → UInt64 → Bool × Core :=
  admissionChange fun a => { a with expired := true }

def custodyLocked (c : Core) (version : UInt64) : UInt64 × Core :=
  if (versionFind c version).isNone then (0, c)
  else if c.nextCustody = uint64Max then (0, c)
  else match c.custody.spare with
    | none => (0, c)
    | some i => (c.nextCustody,
        { c with
          custody := c.custody.set i ⟨c.nextCustody, version⟩
          nextCustody := c.nextCustody + 1 })

def versionVisible (c : Core) (version : UInt64) : Bool :=
  (c.objects.find fun o => (List.finRange maxChunks).any fun i =>
    (o.chunks i).visible == some version).isSome

/-- Whether a transaction that has not finished holds the version or would fall back to it. -/
def versionHeld (c : Core) (version : UInt64) : Bool :=
  (c.txns.find fun t => (t.phase = .prepared || t.phase = .finalized) &&
    (t.version == version || t.predecessor == some version)).isSome

def releaseLocked (c : Core) (version : UInt64) : Bool × Core :=
  match versionFind c version with
  | none => (false, c)
  | some (i, v) =>
    if v.released || versionVisible c version || versionHeld c version then (false, c)
    else (true, { c with versions := c.versions.set i { v with released := true } })

/-- What a control request does, and what it answers: the same in a fixture call and in replay. -/
def controlLocked (c : Core) (r : ControlRequest) : ControlResult × Core :=
  let answer (ok : Bool) (no : Status) : UInt32 := if ok then Status.ok.code else no.code
  match r.body with
  | .admitUnder auth =>
    let (id, c) := admitLocked c r.object auth
    (⟨answer (id != 0) .nospc, id⟩, c)
  | .revoke admission =>
    let (ok, c) := revokeLocked c admission
    (⟨answer ok .staleAuth, admission⟩, c)
  | .expire admission =>
    let (ok, c) := expireLocked c admission
    (⟨answer ok .staleAuth, admission⟩, c)
  | .custody version =>
    let (id, c) := custodyLocked c version
    (⟨answer (id != 0) .nospc, id⟩, c)
  | .release version =>
    let (ok, c) := releaseLocked c version
    (⟨answer ok .invalid, version⟩, c)
  | .certificate certificate => (⟨Status.ok.code, 0⟩, { c with certificate := certificate })

/-- Taking a control request back when its record could not be made durable. `before` is the state
the request found, `c` the state it left. -/
def controlTakeBack (before c : Core) (r : ControlRequest) (result : ControlResult) : Core :=
  match r.body with
  | .admitUnder _ => { c with
      admissions := dropFresh ((admissionFind c result.id).map Prod.fst) c.admissions
      nextAdmission := c.nextAdmission - 1 }
  | .revoke admission => match admissionFind before admission with
    | none => c
    | some (i, a) =>
      { c with admissions := c.admissions.modify i fun b => { b with revoked := a.revoked } }
  | .expire admission => match admissionFind before admission with
    | none => c
    | some (i, a) =>
      { c with admissions := c.admissions.modify i fun b => { b with expired := a.expired } }
  | .custody _ => { c with
      custody := fun i => (c.custody i).filter fun k => k.id != result.id
      nextCustody := c.nextCustody - 1 }
  | .release version =>
    if result.status = Status.ok.code then match versionFind c version with
      | none => c
      | some (i, v) => { c with versions := c.versions.set i { v with released := false } }
    else c
  | .certificate _ => { c with certificate := before.certificate }

/-! ## Fixture calls -/

def controlRecord (r : ControlRequest) (result : ControlResult) : Bytes :=
  encU32 r.body.kind ++ encBytes (encControlRequest r) ++ encBytes (encControlResult result)

/-- Run a control request and journal it; an admission or a custody that was not given leaves no
record. -/
def fixtureControl (s : Store) (r : ControlRequest) : ControlResult × Store :=
  let (result, core) := controlLocked s.core r
  if r.body.issues && result.id == 0 then (result, s)
  else if !s.journaling then (result, { s with core := core })
  else match journalEvent s.journal .control (controlRecord r result) with
    | (true, j) => (result, { s with core := core, journal := j })
    | (false, j) =>
      (⟨Status.io.code, 0⟩, { s with core := controlTakeBack s.core core r result, journal := j })

/-- The calls a fixture makes; each is refused by a store that is not serving. -/
inductive FixtureCall where
  | admitUnder (object : ObjKey) (auth : Authority)
  | revoke (admission : Handle)
  | expire (admission : Handle)
  | custody (version : Handle)
  | release (version : Handle)
  | certificate (certificate : Option Certificate)
  | failAppendIn (n : UInt32)
  | failNextFlush
  | failNextIndex
  | failNextSnapshot
  | failReopenStart (which : ReopenStart)
  | exhaustIds (on : Bool)
  | exhaustEpoch (on : Bool)
  | staleIndex (object : ObjKey) (index : UInt64)
  | versionDamage (version : Handle) (checksum : Checksum)
  deriving DecidableEq, Repr

/-- The object of an admission, which the record of its revocation or expiry names. -/
def admissionObject (c : Core) (admission : UInt64) : ObjKey :=
  match admissionFind c admission with
  | none => noObject
  | some (_, a) => a.object

/-- The index row a chunk falls back to when its index is made stale by hand. -/
def staleIndex (s : Store) (object : ObjKey) (index : UInt64) : Store :=
  match objectFind s.core object, chunkIndex index with
  | some (slot, o), some i => match (o.chunks i).visible.bind (versionFind s.core) with
    | none => s
    | some (_, v) => { s with harness := { s.harness with
        overlayActive := true
        index := Function.update s.harness.index slot
          (Function.update (s.harness.index slot) i ⟨v.predecessor, true⟩) } }
  | _, _ => s

def fixture (s : Store) (call : FixtureCall) : Store :=
  if !s.serving then s
  else match call with
    | .admitUnder object auth => (fixtureControl s ⟨object, .admitUnder auth⟩).2
    | .revoke h =>
      if !handleOwned s.instance_ .admission h then s
      else (fixtureControl s ⟨admissionObject s.core h.raw, .revoke h.raw⟩).2
    | .expire h =>
      if !handleOwned s.instance_ .admission h then s
      else (fixtureControl s ⟨admissionObject s.core h.raw, .expire h.raw⟩).2
    | .custody h =>
      (fixtureControl s ⟨noObject, .custody (handleRaw s.instance_ .version h)⟩).2
    | .release h =>
      if !handleOwned s.instance_ .version h then s
      else (fixtureControl s ⟨noObject, .release h.raw⟩).2
    | .certificate certificate => (fixtureControl s ⟨noObject, .certificate certificate⟩).2
    | .failAppendIn n => { s with journal := { s.journal with failAppendIn := n } }
    | .failNextFlush => { s with journal := { s.journal with failNextFlush := true } }
    | .failNextIndex => { s with harness := { s.harness with failNextIndex := true } }
    | .failNextSnapshot => { s with harness := { s.harness with failNextSnapshot := true } }
    | .failReopenStart which => { s with harness := { s.harness with failReopenStart := which } }
    | .exhaustIds on =>
      { s with harness := { s.harness with exhaust := { s.harness.exhaust with ids := on } } }
    | .exhaustEpoch on =>
      { s with harness := { s.harness with exhaust := { s.harness.exhaust with epoch := on } } }
    | .staleIndex object index => staleIndex s object index
    | .versionDamage h checksum =>
      match versionFind s.core (handleRaw s.instance_ .version h) with
      | none => s
      | some (_, v) => { s with harness := { s.harness with
          damaged := Function.update s.harness.damaged v.id (some checksum) } }

/-- The control request that a call makes of a store. A call that arms a fault makes none, and
neither does one that is refused: by a store that is not serving, or for another store's handle. -/
def FixtureCall.request (s : Store) (call : FixtureCall) : Option ControlRequest :=
  if !s.serving then none
  else match call with
    | .admitUnder object auth => some ⟨object, .admitUnder auth⟩
    | .revoke h =>
      if !handleOwned s.instance_ .admission h then none
      else some ⟨admissionObject s.core h.raw, .revoke h.raw⟩
    | .expire h =>
      if !handleOwned s.instance_ .admission h then none
      else some ⟨admissionObject s.core h.raw, .expire h.raw⟩
    | .custody h => some ⟨noObject, .custody (handleRaw s.instance_ .version h)⟩
    | .release h =>
      if !handleOwned s.instance_ .version h then none else some ⟨noObject, .release h.raw⟩
    | .certificate given => some ⟨noObject, .certificate given⟩
    | _ => none

end Reffs.D1
