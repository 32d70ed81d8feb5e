import Reffs.D1.Events
import Reffs.D1.Sequential

/-!
# The handles of a request

A handle belongs to one live store and to one of its tables. `d1_envelope_owned` is meant to turn
away every request that names a handle of another store or another table; it asks about all of them
but the transaction and the postcondition of a repair member and the episode of a repair.
-/

namespace Reffs.D1

open ByteCodec SlotTable List Envelope Result Disposition Status

variable {env : Envelope Handle} {s : Store} {bytes : Bytes}

/-! ## The handles of a request -/

def optHandle (kind : HandleKind) (h : Option Handle) : List (HandleKind × Handle) :=
  h.toList.map fun x => (kind, x)

def LifecycleBatch.handles (l : LifecycleBatch Handle) : List (HandleKind × Handle) :=
  l.entries.flatMap fun e => (.txn, e.txn) :: optHandle .version e.predecessor

def RollbackBatch.handles (r : RollbackBatch Handle) : List (HandleKind × Handle) :=
  r.entries.flatMap fun e => (.txn, e.txn) :: (optHandle .version e.visible ++
    optHandle .version e.predecessor ++ optHandle .custody e.custody)

def ControlBatch.handles (k : ControlBatch Handle) : List (HandleKind × Handle) :=
  k.txns.map (fun h => (.txn, h)) ++ (.admission, k.oldAdmission) ::
    optHandle .admission k.newAdmission

/-- The handles of a repair that `d1_envelope_owned` asks about. -/
def RepairBatch.asked (r : RepairBatch Handle) : List (HandleKind × Handle) :=
  (r.entries.flatMap fun e => optHandle .custody e.custody ++ optHandle .version e.successor ++
    optHandle .version e.predecessor) ++ optHandle .repair r.cohort

def RepairBatch.unasked (r : RepairBatch Handle) : List (HandleKind × Handle) :=
  (r.entries.flatMap fun e => optHandle .txn e.txn ++ optHandle .postcond e.postcond) ++
    optHandle .episode r.episode

/-- The handles a request carries in the fields that are asked about, with the table each field
means. -/
def Envelope.asked (env : Envelope Handle) : List (HandleKind × Handle) :=
  (.admission, env.admission) :: match env.body with
    | .writeBatch _ => []
    | .finalizeBatch l => l.handles
    | .commitBatch l => l.handles
    | .rollbackBatch r => r.handles
    | .recoveryAdmit k => k.handles
    | .leaseReap k => k.handles
    | .repair _ r => r.asked
    | .unknown _ => []

def Envelope.unasked (env : Envelope Handle) : List (HandleKind × Handle) :=
  match env.body with
  | .repair _ r => r.unasked
  | _ => []

/-- A handle that was issued by another store, or for another table. -/
def foreign (instance_ : UInt64) (p : HandleKind × Handle) : Bool := !handleOwned instance_ p.1 p.2

/-- Some handle the request carries is foreign to the field it stands in. -/
def Envelope.Foreign (env : Envelope Handle) (instance_ : UInt64) : Prop :=
  ∃ p ∈ env.asked ++ env.unasked, foreign instance_ p = true

lemma all_optHandle {instance_ : UInt64} (kind : HandleKind) (h : Option Handle) :
    (∀ p ∈ optHandle kind h, foreign instance_ p = false) ↔ h.all (handleOwned instance_ kind) := by
  cases h with
  | none => simp [optHandle]
  | some x => simp [optHandle, foreign]

theorem envelopeOwned_iff {instance_ : UInt64} (hv : envelopeValidate env.raw) :
    envelopeOwned instance_ env ↔ ∀ p ∈ env.asked, foreign instance_ p = false := by
  have hone : ∀ kind (h : Handle), foreign instance_ (kind, h) = false ↔
      handleOwned instance_ kind h := by
    intro kind h
    simp [foreign]
  unfold envelopeValidate Envelope.raw Envelope.map at hv
  unfold envelopeOwned Envelope.asked
  cases hbody : env.body with
  | writeBatch w => simp [hone]
  | finalizeBatch l | commitBatch l =>
    rw [hbody] at hv
    simp only [Body.map, LifecycleBatch.map, validateLifecycle, Bool.and_eq_true, countOk_iff,
      length_map] at hv
    simp only [LifecycleBatch.handles, forall_mem_cons, forall_mem_flatMap,
      all_optHandle, Bool.and_eq_true, all_eq_true, decide_eq_true_eq, hv.1.1.1.1.2, true_and]
    simp only [hone]
  | rollbackBatch r =>
    rw [hbody] at hv
    simp only [Body.map, validateRollback, Bool.and_eq_true, countOk_iff, length_map] at hv
    simp only [RollbackBatch.handles, forall_mem_cons, forall_mem_flatMap,
      forall_mem_append, all_optHandle, Bool.and_eq_true, all_eq_true,
      decide_eq_true_eq, hv.1.1.1.1.2, true_and, and_assoc]
    simp only [hone]
  | recoveryAdmit k | leaseReap k =>
    rw [hbody] at hv
    simp only [Body.map, validateControl, Bool.and_eq_true, countOk_iff, length_map] at hv
    simp only [ControlBatch.handles, forall_mem_cons, forall_mem_map,
      forall_mem_append, all_optHandle, Bool.and_eq_true, all_eq_true,
      decide_eq_true_eq, hv.1.1.1.1.2, true_and, and_assoc]
    simp only [hone]
  | repair op r =>
    rw [hbody] at hv
    simp only [Body.map, validateRepair, Bool.and_eq_true, countOk_iff, length_map] at hv
    simp only [RepairBatch.asked, forall_mem_cons, forall_mem_flatMap,
      forall_mem_append, all_optHandle, Bool.and_eq_true, all_eq_true,
      decide_eq_true_eq, hv.1.1.1.1.1.1.1.1.1.1.2, true_and, and_assoc]
    simp only [hone]
  | unknown op =>
    rw [hbody] at hv
    cases hv

/-! ## The door -/

lemma Envelope.op_isSome (hv : envelopeValidate env.raw) : env.body.op.isSome := by
  unfold envelopeValidate raw map at hv
  revert hv
  cases env.body <;> simp [Body.map, Body.op]

section

variable (hserving : s.serving = true) (henc : envelopeEncode env.raw envelopeMax = some bytes)

include hserving henc

lemma callEnter_eq :
    callEnter s env = ({ s with activeCalls := s.activeCalls + 1 }, .entered env bytes) := by
  obtain ⟨op, hop⟩ := Option.isSome_iff_exists.mp (op_isSome (envelopeEncode_valid henc))
  unfold callEnter
  dsimp only
  rw [hserving, hop, henc]
  rfl

lemma storeApply_checked : storeApply s env =
      callRun env.memberCount
        (callCheck { s with activeCalls := s.activeCalls + 1 } env bytes) := by
  unfold storeApply
  rw [callEnter_eq hserving henc, callRun_add]
  rfl

end

/-- A request that passes the door: the store is open, its handles are this store's, its admission
is bound to its object, and it has a canonical form that can be read back. -/
structure Accepted (s : Store) (env : Envelope Handle) (bytes : Bytes) : Prop where
  serving : s.serving = true
  owned : envelopeOwned s.instance_ env = true
  bound : bindingOk s.core { env.raw with
    admission := handleRaw s.instance_ .admission env.admission } = true
  encoded : envelopeEncode env.raw envelopeMax = some bytes
  decoded : envelopeDecode bytes = some env.raw

/-- What a request needs to be let in, as a test. -/
def doorOk (s : Store) (env : Envelope Handle) : Bool :=
  s.serving && envelopeOwned s.instance_ env && bindingOk s.core { env.raw with
      admission := handleRaw s.instance_ .admission env.admission } &&
    envelopeValidate env.raw && decide ((encEnvelope env.raw).length ≤ envelopeMax) &&
    (envelopeDecode (encEnvelope env.raw)).isSome

lemma doorOk_accepted (h : doorOk s env) : Accepted s env (encEnvelope env.raw) := by
  simp only [doorOk, Bool.and_eq_true, decide_eq_true_eq] at h
  obtain ⟨⟨⟨⟨⟨hserving, howned⟩, hbound⟩, hvalid⟩, hlen⟩, hdec⟩ := h
  have henc : envelopeEncode env.raw envelopeMax = some (encEnvelope env.raw) := by
    unfold envelopeEncode
    rw [hvalid, if_pos (by simpa using hlen)]
  obtain ⟨taken, htaken⟩ := Option.isSome_iff_exists.mp hdec
  refine ⟨hserving, howned, hbound, henc, ?_⟩
  rw [htaken, envelopeDecode_encode henc htaken]

lemma adopted_accepted (hserving : s.serving) (hinstance : s.instance_ ≠ 0) {r : Request}
    (hr : r.Good) (hbind : bindingOk s.core r.env) :
    Accepted s (envelopeAdopt s.instance_ r.env) r.bytes := by
  have hraw := envelopeAdopt_raw s.instance_ r.env
  refine ⟨hserving, envelopeOwned_adopt hinstance hr.valid, ?_, ?_, ?_⟩
  · change bindingOk s.core { (envelopeAdopt s.instance_ r.env).raw with
      admission :=
        handleRaw s.instance_ .admission (handleOf s.instance_ .admission r.env.admission) }
    rw [hraw, handleRaw_handleOf hinstance]
    exact hbind
  · rw [hraw]
    exact hr.encoded
  · rw [hraw]
    exact hr.decoded

lemma Accepted.valid (h : Accepted s env bytes) : envelopeValidate env.raw :=
  envelopeDecode_validate h.decoded

lemma handleRaw_of_owned {i : UInt64} (h : envelopeOwned i env) :
    handleRaw i .admission env.admission = env.admission.raw := by
  unfold envelopeOwned at h
  rw [Bool.and_eq_true] at h
  unfold handleRaw
  split
  · rfl
  · next hours =>
    have h0 := h.1
    unfold handleOwned at h0
    rw [Bool.or_eq_true, beq_iff_eq] at h0
    exact (h0.resolve_right hours).symm

lemma Accepted.bindingOk (h : Accepted s env bytes) : bindingOk s.core env.raw := by
  have hbound := h.bound
  rw [handleRaw_of_owned h.owned] at hbound
  exact hbound

lemma Accepted.storeApply_eq (h : Accepted s env bytes) : storeApply s env =
      callRun env.memberCount (callCheck { s with activeCalls := s.activeCalls + 1 } env bytes) :=
  storeApply_checked h.serving h.encoded

lemma Accepted.callCheck_eq (h : Accepted s env bytes) (n : Nat) :
    callCheck { s with activeCalls := n } env bytes =
      if keyConflicts s.core env.object.exportUuid env.key (requestDigest bytes) then
        ({ s with activeCalls := n - 1 }, .done .ok { start env.key with
          disposition := completed.code
          entries := replicate env.memberCount (refusedEntry s replayConflict.code .completed) })
      else ({ s with activeCalls := n }, .running ⟨env.raw, bytes, requestDigest bytes⟩
        (start env.key)) := by
  unfold callCheck
  dsimp only
  rw [h.owned, h.bound, h.decoded]
  rfl

/-- The request is turned away as a whole: every member is answered `STALE_AUTH` without a record,
and the store, its journal included, is as it was. -/
def RefusedUnread (s : Store) (env : Envelope Handle) : Prop :=
  ∃ out, storeApply s env = (s, .done .ok out) ∧
    out.disposition = Disposition.unrecorded.code ∧ out.entries.length = env.memberCount ∧
    ∀ e ∈ out.entries, e.status = Status.staleAuth.code ∧
      e.disposition = Disposition.unrecorded.code

lemma storeApply_refused (hserving : s.serving)
    (henc : envelopeEncode env.raw envelopeMax = some bytes)
    (hno : (envelopeOwned s.instance_ env && bindingOk s.core { env.raw with
      admission := handleRaw s.instance_ .admission env.admission }) = false) :
    RefusedUnread s env := by
  have hcheck : callCheck { s with activeCalls := s.activeCalls + 1 } env bytes =
      (s, .done .ok { start env.key with
        entries := replicate env.memberCount (refusedEntry s staleAuth.code .unrecorded) }) := by
    unfold callCheck
    dsimp only
    rw [hno]
    rfl
  have hrun := (storeApply_checked hserving henc).trans (congrArg (callRun env.memberCount) hcheck)
  rw [callRun_done] at hrun
  refine ⟨_, hrun, rfl, length_replicate, fun e he => ?_⟩
  rw [eq_of_mem_replicate he]
  exact ⟨rfl, rfl⟩

lemma RefusedUnread.same (h : RefusedUnread s env) : (storeApply s env).1 = s := by
  obtain ⟨out, hout, -⟩ := h
  rw [hout]

lemma RefusedUnread.status (h : RefusedUnread s env) {status : Status} {out : Result}
    (he : storeApply s env = (s, .done status out)) : status = .ok := by
  obtain ⟨out', hout, -⟩ := h
  exact (Call.done.inj (congrArg Prod.snd (he.symm.trans hout))).1

lemma storeApply_malformed (h : ¬ (s.serving ∧ (envelopeEncode env.raw envelopeMax).isSome)) :
    ∃ status, status ≠ .ok ∧ storeApply s env = (s, .done status (start env.key)) := by
  have henter : ∃ status, status ≠ .ok ∧ callEnter s env = (s, .done status (start env.key)) := by
    unfold callEnter
    dsimp only
    split
    · exact ⟨.invalid, nofun, rfl⟩
    next hserving =>
    split
    · exact ⟨.unsupported, nofun, rfl⟩
    split
    · exact ⟨.invalid, nofun, rfl⟩
    · next henc => exact absurd ⟨by simpa using hserving, by rw [henc]; rfl⟩ h
  obtain ⟨status, hne, henter⟩ := henter
  refine ⟨status, hne, ?_⟩
  rw [storeApply, henter, callRun_done]

lemma storeApply_undecoded (hserving : s.serving) (howned : envelopeOwned s.instance_ env)
    (hbound : bindingOk s.core { env.raw with
      admission := handleRaw s.instance_ .admission env.admission })
    (henc : envelopeEncode env.raw envelopeMax = some bytes) (hdec : envelopeDecode bytes = none) :
    storeApply s env = (s, .done .invalid (start env.key)) := by
  have hcheck : callCheck { s with activeCalls := s.activeCalls + 1 } env bytes =
      (s, .done .invalid (start env.key)) := by
    unfold callCheck
    dsimp only
    rw [howned, hbound, hdec]
    rfl
  rw [storeApply_checked hserving henc, hcheck, callRun_done]

/-- A member whose admission is bound is never answered `STALE_AUTH` without a record: what it is
refused for goes into its receipt. -/
lemma applyMember_not_unread {w : World} (h : Reachable w) {r : Request} (hr : r.Good) (k n : Nat)
    (hbind : bindingOk w.store.core r.env)
    (hno : (applyMember { w.store with activeCalls := k } r.env r.bytes n r.digest).1.disposition =
      unrecorded.code) :
    (applyMember { w.store with activeCalls := k } r.env r.bytes n r.digest).1.entry.status ≠
      staleAuth.code := by
  have hcompleted : completed.code ≠ unrecorded.code := by decide
  have hnospc : nospc.code ≠ staleAuth.code := by decide
  have hio : io.code ≠ staleAuth.code := by decide
  rcases applyMember_cases (h.inv.store.activeCalls k).toReplays hr n with ⟨complete, hatt, he⟩ |
    ⟨a, b, he⟩ | ⟨st, a, b, type, body, hst, -, -, he⟩
  · rw [he] at hno ⊢
    unfold coreAttempt attempt at hatt
    dsimp only at hatt hno
    rw [hbind] at hatt
    split at hatt
    · next habs => cases habs
    split at hatt
    · rw [← (Attempt.answered.inj hatt).1] at hno
      exact absurd hno hcompleted
    split at hatt
    · next hfind =>
      rw [← (Attempt.answered.inj hatt).1, h.completed (Table.findRow_some hfind).1] at hno
      exact absurd hno hcompleted
    split at hatt
    · rw [← (Attempt.answered.inj hatt).1]
      exact hnospc
    split at hatt
    · next hfull =>
      rw [← (Attempt.answered.inj hatt).1]
      rcases hfull with hfull | hfull
      · rw [hfull]
        exact hnospc
      · rw [hfull]
        exact hio
    · cases hatt
  · rw [he]
    exact hio
  · rw [he] at hno
    obtain ⟨red, hof⟩ := coreAttempt_staged hst
    rw [hof.complete] at hno
    exact absurd hno hcompleted

lemma Accepted.not_refusedUnread {w : World} (h : Reachable w) (ha : Accepted w.store env bytes)
    {op : RepairOp} {rb : RepairBatch Handle} (hbody : env.body = .repair op rb) :
    ¬ RefusedUnread w.store env := by
  rintro ⟨out, hout, hdisp, hlen, hall⟩
  have hone : env.memberCount = 1 := by
    unfold Envelope.memberCount
    rw [hbody]
  rw [ha.storeApply_eq, ha.callCheck_eq, hone] at hout
  split at hout
  · have hcode : Disposition.completed.code = out.disposition :=
      congrArg Result.disposition (Call.done.inj (congrArg Prod.snd hout)).2
    exact absurd (hcode.trans hdisp) (by decide)
  · have hgood := Request.Good.taken ha.encoded ha.decoded
    have hrepair : env.raw.body.isRepair := by
      unfold Envelope.raw Envelope.map
      rw [hbody]
      rfl
    have hmember : callMember { w.store with activeCalls := w.store.activeCalls + 1 }
        ⟨env.raw, bytes, requestDigest bytes⟩ (Result.start env.key) = (w.store, .done .ok out) :=
      hout
    have hno := applyMember_not_unread h hgood (w.store.activeCalls + 1) 0 ha.bindingOk
    unfold callMember at hmember
    dsimp only [Result.start, length_nil, nil_append] at hmember hno
    generalize applyMember { w.store with activeCalls := w.store.activeCalls + 1 } env.raw bytes 0
      (requestDigest bytes) = p at hmember hno
    obtain ⟨complete, s'⟩ := p
    dsimp only at hmember hno
    rw [hrepair, Bool.or_true, if_pos rfl] at hmember
    obtain rfl := (Call.done.inj (congrArg Prod.snd hmember)).2
    exact hno hdisp (hall _ (mem_singleton.mpr rfl)).1

/-- **Which requests with a foreign handle are turned away**, in every state of every run: those of
an open store that have a canonical form, and whose foreign handle stands in a field
`d1_envelope_owned` asks about, or whose admission is not bound to their object. -/
theorem foreign_refused_iff {w : World} (h : Reachable w) {env : Envelope Handle}
    (hf : env.Foreign w.store.instance_) :
    RefusedUnread w.store env ↔ w.store.serving = true ∧
      (envelopeEncode env.raw envelopeMax).isSome = true ∧
      ((∃ p ∈ env.asked, foreign w.store.instance_ p = true) ∨ bindingOk w.store.core { env.raw with
          admission := handleRaw w.store.instance_ .admission env.admission } = false) := by
  constructor
  · intro hrefused
    obtain ⟨hserving, henc⟩ : w.store.serving ∧
        (envelopeEncode env.raw envelopeMax).isSome := by
      by_contra hno
      obtain ⟨status, hne, he⟩ := storeApply_malformed hno
      exact hne (hrefused.status he)
    refine ⟨hserving, henc, ?_⟩
    obtain ⟨bytes, henc⟩ := Option.isSome_iff_exists.mp henc
    by_contra hno
    push Not at hno
    have hasked : ∀ p ∈ env.asked, foreign w.store.instance_ p = false :=
      fun p hp => Bool.eq_false_iff.mpr (hno.1 p hp)
    have hbound := Bool.eq_true_of_not_eq_false hno.2
    have howned := (envelopeOwned_iff (envelopeEncode_valid henc)).mpr hasked
    -- the foreign handle stands where nobody asks, so this is a repair
    obtain ⟨p, hp, hforeign⟩ := hf
    have hunasked : p ∈ env.unasked := (mem_append.mp hp).resolve_left fun hp =>
      Bool.false_ne_true ((hasked p hp).symm.trans hforeign)
    obtain ⟨op, rb, hbody⟩ : ∃ op rb, env.body = .repair op rb := by grind [Envelope.unasked]
    cases hdec : envelopeDecode bytes with
    | none => cases hrefused.status (storeApply_undecoded hserving howned hbound henc hdec)
    | some taken =>
      rw [envelopeDecode_encode henc hdec] at hdec
      exact Accepted.not_refusedUnread h ⟨hserving, howned, hbound, henc, hdec⟩ hbody hrefused
  · rintro ⟨hserving, henc, hno⟩
    obtain ⟨bytes, henc⟩ := Option.isSome_iff_exists.mp henc
    refine storeApply_refused hserving henc ?_
    rcases hno with ⟨p, hp, hforeign⟩ | hbind
    · rw [Bool.and_eq_false_iff, ← Bool.not_eq_true, envelopeOwned_iff (envelopeEncode_valid henc)]
      exact .inl fun hall => Bool.false_ne_true ((hall p hp).symm.trans hforeign)
    · rw [hbind, Bool.and_false]

/-- The write of the small run, under an admission of another store. -/
def strayWrite : Envelope Handle :=
  { smallClient.envelope 2 smallWrite with admission := handleOf 77 .admission 1 }

theorem foreign_refused_iff_stray :
    strayWrite.Foreign writtenWorld.store.instance_ ∧
      RefusedUnread writtenWorld.store strayWrite := by
  have hasked : ∃ p ∈ strayWrite.asked, foreign writtenWorld.store.instance_ p :=
    ⟨(.admission, handleOf 77 .admission 1), mem_cons_self, by decide +kernel⟩
  have hforeign : strayWrite.Foreign writtenWorld.store.instance_ := by
    obtain ⟨p, hp, hf⟩ := hasked
    exact ⟨p, mem_append_left _ hp, hf⟩
  exact ⟨hforeign, (foreign_refused_iff writtenWorld_reachable hforeign).mpr
    ⟨by decide +kernel, by decide +kernel, .inl hasked⟩⟩

def markedWorld : World :=
  let cl := smallClient
  Machine.run step writtenWorld
    (cl.script 2 [.fixture (.custody (cl.handle .version 1)), cl.markError 2 1 1])

/-- The request to repair it, which names an episode of another store. -/
def strayBegin : Envelope Handle :=
  let cl := smallClient
  cl.envelope 3 (.repair .beginRepair { Client.vector { cl.member 3 0 with
    mode := repairError, custody := some (cl.handle .custody 1),
    successor := some (cl.handle .version 1) } with episode := some (handleOf 77 .episode 1) })

/-- The raw number is all that is looked at: the repair is accepted, and a cohort made. -/
theorem foreign_episode_accepted : Reachable markedWorld ∧
    markedWorld.store.serving = true ∧ strayBegin.Foreign markedWorld.store.instance_ ∧
    ¬ RefusedUnread markedWorld.store strayBegin ∧
    (storeApply markedWorld.store strayBegin).1.core.repairs 0 ≠ none := by
  have hopen : markedWorld.store.core.repairs 0 = none ∧ markedWorld.store.serving ∧
      strayBegin.unasked.any (foreign markedWorld.store.instance_) ∧
      ((storeApply markedWorld.store strayBegin).1.core.repairs 0).isSome := by
    decide +kernel
  obtain ⟨hbefore, hserving, hforeign, hafter⟩ := hopen
  obtain ⟨p, hp, hf⟩ := any_eq_true.mp hforeign
  refine ⟨writtenWorld_reachable.run _, hserving, ⟨p, mem_append_right _ hp, hf⟩, ?_,
    Option.isSome_iff_ne_none.mp hafter⟩
  intro hrefused
  rw [hrefused.same, hbefore] at hafter
  cases hafter

end Reffs.D1
