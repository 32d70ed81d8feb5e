import Reffs.D1.Reach

/-!
# Calls one after the other

A call that nothing interrupts is a stretch of a run (`run_callEvents`), and it ends within one step
for each member (`storeApply_finished`). A `Client` sends such calls one after the other, each under
an operation key of its own; `Client.script` are the events this makes.
-/

namespace Reffs.D1

open ByteCodec SlotTable

/-! ## One call -/

def callEvents (id : Nat) (env : Envelope Handle) : List Event :=
  .enter id env :: List.replicate (1 + env.memberCount) (.advance id)

lemma World.put_put (w : World) (id : Nat) (p q : Store × Call) :
    (w.put id p).put id q = w.put id q := by
  unfold World.put
  rw [Function.update_idem]

lemma run_advance (w : World) (id : Nat) (fuel : Nat) :
    ∀ p, Machine.run step (w.put id p) (List.replicate fuel (.advance id)) =
      w.put id (callRun fuel p) := by
  induction fuel with
  | zero => intro p; rfl
  | succ fuel ih =>
    intro p
    have hstep : step (w.put id p) (.advance id) = w.put id (callStep p.1 p.2) := by
      unfold step
      have hcall : (w.put id p).calls id = some p.2 := Function.update_self ..
      dsimp only
      rw [hcall]
      exact w.put_put id p _
    rw [List.replicate_succ, Machine.run_cons, hstep]
    exact ih _

lemma callRun_add (m n : Nat) : ∀ p, callRun (m + n) p = callRun n (callRun m p) := by
  induction m with
  | zero => intro p; rw [Nat.zero_add]; rfl
  | succ m ih => intro p; rw [Nat.succ_add]; exact ih _

lemma callRun_done (fuel : Nat) (s : Store) (status : Status) (out : Result) :
    callRun fuel (s, .done status out) = (s, .done status out) := by
  induction fuel with
  | zero => rfl
  | succ fuel ih => exact ih

lemma callMember_progress (s : Store) (r : Request) (out : Result) :
    (callMember s r out).2.finished ∨ ∃ out', (callMember s r out).2 = .running r out' ∧
      out'.entries.length = out.entries.length + 1 ∧ out'.entries.length < r.env.memberCount := by
  unfold callMember
  dsimp only
  split
  · exact .inl rfl
  split
  · exact .inl rfl
  split
  · next hmore =>
    refine .inr ⟨_, rfl, ?_, ?_⟩
    · simp
    · simpa using hmore
  · exact .inl rfl

lemma callRun_running (r : Request) (fuel : Nat) :
    ∀ s out, r.env.memberCount ≤ out.entries.length + fuel → 0 < fuel →
      (callRun fuel (s, .running r out)).2.finished := by
  induction fuel with
  | zero => intro s out _ hpos; exact absurd hpos (Nat.lt_irrefl 0)
  | succ fuel ih =>
    intro s out hle _
    change (callRun fuel (callMember s r out)).2.finished
    have hnext := callMember_progress s r out
    generalize callMember s r out = p at hnext
    obtain ⟨s', call⟩ := p
    rcases hnext with hdone | ⟨out', rfl, hlen, hlt⟩
    · cases call with
      | done status out' => rw [callRun_done]; rfl
      | entered env bytes => cases hdone
      | running r' out' => cases hdone
    · exact ih s' out' (by omega) (by omega)

lemma Envelope.memberCount_map {H K : Type} (f : HandleKind → H → K) (env : Envelope H) :
    (env.map f).memberCount = env.memberCount := by
  unfold Envelope.memberCount Envelope.map
  cases env.body <;> simp [Body.map, LifecycleBatch.map]

theorem storeApply_finished (s : Store) (env : Envelope Handle) :
    (storeApply s env).2.finished := by
  have hdone : ∀ fuel (p : Store × Call), p.2.finished → (callRun fuel p).2.finished := by
    rintro fuel ⟨s, call⟩ h
    cases call with
    | done status out => rw [callRun_done]; rfl
    | entered env bytes => cases h
    | running r out => cases h
  have hcheck : ∀ s bytes, envelopeEncode env.raw envelopeMax = some bytes →
      (callRun env.memberCount (callCheck s env bytes)).2.finished := by
    intro s bytes henc
    unfold callCheck
    dsimp only
    split
    · exact hdone _ _ rfl
    split
    · exact hdone _ _ rfl
    next taken hdec =>
    split
    · exact hdone _ _ rfl
    · obtain rfl := envelopeDecode_encode henc hdec
      have hcount : env.raw.memberCount = env.memberCount := env.memberCount_map _
      refine callRun_running _ _ _ _ ?_ ?_
      · simp [hcount]
      · rw [← hcount]
        exact (memberCount_ok (envelopeDecode_validate hdec)).1
  unfold storeApply callEnter
  dsimp only
  split
  · exact hdone _ _ rfl
  split
  · exact hdone _ _ rfl
  split
  · exact hdone _ _ rfl
  · next henc =>
    rw [Nat.add_comm]
    exact hcheck _ _ henc

/-! ## A client -/

/-- A client of one object, with the admission it was given and the store object it talks to. -/
structure Client where
  object : ObjKey
  instance_ : UInt64
  admission : UInt64
  incarnation : UInt64
  writer : UInt32

inductive Item where
  | fixture (call : FixtureCall)
  | apply (body : Body Handle)

namespace Client

variable (cl : Client)

def handle (kind : HandleKind) (raw : UInt64) : Handle := handleOf cl.instance_ kind raw

def owner (n : UInt64) : Owner := ⟨n, cl.writer, 0⟩

def authority (rights : UInt32) : Authority where
  issuer := zeros 16
  principal := zeros 16
  stateid := zeros 16
  session := zeros 16
  writer := cl.writer
  rights := rights
  leaseEpoch := 1
  authorityEpoch := 1
  fenceSequence := 1

def envelope (n : Nat) (body : Body Handle) : Envelope Handle where
  object := cl.object
  admission := cl.handle .admission cl.admission
  incarnation := cl.incarnation
  key := ⟨zeros 16, UInt64.ofNat n, 0⟩
  body := body

/-- One thing after the other; the requests are numbered from `n`. -/
def script : Nat → List Item → List Event
  | _, [] => []
  | n, .fixture call :: rest => .fixture call :: script n rest
  | n, .apply body :: rest => callEvents n (cl.envelope n body) ++ script (n + 1) rest

def payload (bytes : Bytes) : RepairPayload :=
  ⟨bytes, (checksumCompute cksumCrc32 bytes).getD ⟨0, 0, zeros 4⟩⟩

/-- An unguarded write of one chunk under owner `n`. -/
def write (n index : UInt64) (bytes : Bytes) (activate : Bool) : Body Handle :=
  .writeBatch ⟨[⟨index, 0, cl.owner n, none, bytes, (payload bytes).checksum⟩], fileSync, activate⟩

/-- A transaction of one chunk under owner `n`, over the version that was visible. -/
def lifecycle (n index txn : UInt64) (predecessor : Option UInt64) : LifecycleBatch Handle :=
  ⟨index, index + 1,
    [⟨index, cl.owner n, cl.handle .txn txn, predecessor.map (cl.handle .version)⟩],
    verifierOf cl.incarnation⟩

/-- A member of a repair vector that names its chunk and owner only. -/
def member (n index : UInt64) : RepairEntry Handle :=
  ⟨index, 0, cl.owner n, none, none, none, none, none, none⟩

def vector (e : RepairEntry Handle) : RepairBatch Handle :=
  ⟨e.index, e.index + 1, [e], none, none, none, none, none⟩

/-- Mark the first chunk in error, which shows a version held in custody. -/
def markError (n custody version : UInt64) : Item :=
  .apply (.repair .markError (vector { cl.member n 0 with
    custody := some (cl.handle .custody custody)
    successor := some (cl.handle .version version) }))

/-- Begin a repair of the marked chunk, under owner `n`. -/
def beginError (n custody version episode : UInt64) : Item :=
  .apply (.repair .beginRepair { vector { cl.member n 0 with
    mode := repairError
    custody := some (cl.handle .custody custody)
    successor := some (cl.handle .version version) } with
      episode := some (cl.handle .episode episode) })

/-- Prepare, finalize and commit a cohort of the first chunk: `version` gives way to `bytes`. -/
def carryOut (n cohort txn custody version : UInt64) (bytes : Bytes) : List Item :=
  let m := { cl.member n 0 with txn := some (cl.handle .txn txn) }
  let held := { m with
    custody := some (cl.handle .custody custody)
    predecessor := some (cl.handle .version version) }
  let closing := { vector held with
    cohort := some (cl.handle .repair cohort)
    priorVerifier := some (verifierOf cl.incarnation) }
  [.apply (.repair .prepareRepair { vector { m with payload := some (payload bytes) } with
      cohort := some (cl.handle .repair cohort) }),
    .apply (.repair .finalizeRepair closing), .apply (.repair .commitRepair closing)]

end Client

/-! ## A small run

What the guarantees are tried on: a client with every right on one object, which writes one
chunk for good and stages another. -/

def smallClient : Client := ⟨noObject, 1, 1, 1, 9⟩

def smallRights : UInt32 := rightRead ||| rightWrite ||| rightRepair ||| rightSingleWriter

def smallWrite : Body Handle := smallClient.write 1 0 [65] true

def smallEvents : List Event × List Event :=
  (smallClient.script 1 [.fixture (.admitUnder noObject (smallClient.authority smallRights)),
    .apply smallWrite],
   smallClient.script 2 [.fixture (.custody (smallClient.handle .version 1)),
    .apply (smallClient.write 2 1 [66] false)])

def firstWorld : World := (World.open 1 (zeros 16) 4096 1000000).get (by decide +kernel)

lemma firstWorld_reachable : Reachable firstWorld :=
  .opened (Option.some_get _).symm

def admittedWorld : World := Machine.run step firstWorld smallEvents.1.dropLast

lemma admittedWorld_reachable : Reachable admittedWorld := firstWorld_reachable.run _

def writtenWorld : World := Machine.run step firstWorld smallEvents.1

lemma writtenWorld_reachable : Reachable writtenWorld := firstWorld_reachable.run _

def smallWorld : World := Machine.run step writtenWorld smallEvents.2

lemma smallWorld_reachable : Reachable smallWorld := writtenWorld_reachable.run _

end Reffs.D1
