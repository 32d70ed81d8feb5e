import Reffs.D1.Canonical
import Reffs.D1.JournalRuns
import Reffs.D1.Events

/-!
# What replay accepts

`Log.replays` says that what a live store wrote replays. Here is the other half: a log that replay
accepts is one that a live store writes. Each record that replays is, byte for byte, the record that
the store appends when it runs the request the record carries, so a store that runs the requests of
an accepted log in order has that log as its journal.
-/

namespace Reffs.D1

open ByteCodec ByteCodec.Dec SlotTable List Bool Except

variable {env : Envelope UInt64} {digest : Digest} {logged : CompleteResult} {m : MemberRecord}
  {kind : UInt32}

variable {n : Nat} {f : Bytes × UInt32 × Digest × Bytes} {first : Bool} {body : Bytes}

/-! ## The request a record carries -/

inductive Logged where
  /-- A new incarnation. -/
  | start
  | control (r : ControlRequest)
  | member (env : Envelope UInt64) (ordinal : Nat)
  deriving DecidableEq, Repr

def decodeRecord (rec : JournalRecord) : Option Logged :=
  match rec.type with
  | .start => some .start
  | .entry => (((decMemberFields decU32).whole rec.body).bind memberRecord).map
      fun r => .member r.env r.ordinal
  | .cohort =>
    (((decMemberFields (pure 0)).whole rec.body).bind memberRecord).map fun r => .member r.env 0
  | .control => (decControlRecord.whole rec.body).bind fun p =>
    if p.1 = ctlEnvelope then (memberRecord p.2).map fun r => .member r.env 0
    else (decControlRequest.whole p.2.1).map .control

/-- A record that replays is what the live store appends for the request it carries. -/
inductive Rewritten (c : Core) (first : Bool) (rec : JournalRecord) : Logged → Core → Prop where
  | start (type : rec.type = .start) (body : rec.body = encStart rec.incarnation)
      (next : rec.incarnation = (if first then 0 else c.incarnation) + 1) :
      Rewritten c first rec .start { c with incarnation := rec.incarnation }
  | control {r : ControlRequest} (started : first = false)
      (incarnation : rec.incarnation = c.incarnation) (type : rec.type = .control)
      (canonical : controlCanonical c r = true)
      (given : (r.body.issues && (controlLocked c r).1.id == 0) = false)
      (body : rec.body = controlRecord r (controlLocked c r).1) :
      Rewritten c first rec (.control r) (controlLocked c r).2
  | member {r : Request} {n : Nat} {st : Staged} (started : first = false)
      (incarnation : rec.incarnation = c.incarnation) (good : r.Good)
      (count : n < r.env.memberCount)
      (progress : Progress c.receipts r.env.object.exportUuid r.env.key r.digest n)
      (staged : coreAttempt .none c r.env n r.digest = .staged st)
      (record : eventRecord r.env r.bytes n r.digest (encCompleteResult st.complete) =
        (rec.type, rec.body)) :
      Rewritten c first rec (.member r.env n) (st.recorded r.env n r.digest)

/-! ## Members -/

lemma accepts_memberFields {ordinal : Dec UInt32} {e : UInt32 → Bytes} (ho : Spells ordinal e) :
    Accepts (decMemberFields ordinal) fun used f => f.1.length ≤ envelopeMax ∧
      used = encBytes f.1 ++ (e f.2.1 ++ (encRaw f.2.2.1 ++ encBytes f.2.2.2)) := by
  refine (accepts_bytes _).bind fun env used henv => ho.bind fun n => .field fun d =>
    (accepts_bytes _).bind fun result used' hres => .pure ⟨henv.2, ?_⟩
  simp only [henv.1, hres.1, append_nil]

lemma replayMember_staged {c core : Core} (hb : c.board.Inv) (hv : envelopeValidate env)
    (h : replayMember c env n digest logged = .ok core) :
    envelopeDigest env envelopeMax = some digest ∧ ∃ st,
      coreAttempt .none c env n digest = .staged st ∧ core = st.recorded env n digest ∧
        encCompleteResult logged = encCompleteResult st.complete := by
  unfold replayMember at h
  split at h
  · cases h
  next d hd =>
  split at h
  · cases h
  next hsame =>
  obtain rfl := not_not.mp hsame
  refine ⟨hd, ?_⟩
  split at h
  · cases h
  next hbefore =>
  unfold replayAttempt at h
  dsimp only at h
  cases hatt : coreAttempt .none c env n d with
  | answered complete core' =>
    -- an answer leaves the state alone, so the receipt that is asked for cannot have come
    obtain rfl := coreAttempt_answered hb hv hatt
    rw [hatt] at h
    dsimp only at h
    rw [Bool.not_eq_true] at hbefore
    rw [hbefore, Bool.not_false, if_pos rfl] at h
    cases h
  | staged st =>
    rw [hatt] at h
    dsimp only at h
    split at h
    · cases h
    split at h
    · cases h
    next hequal =>
    rw [Bool.not_eq_true, Bool.not_eq_false'] at hequal
    exact ⟨st, rfl, (Except.ok.inj h).symm, (encCompleteResult_of_equal hequal).symm⟩

/-- **A member that replays**: the request as the store takes it, the attempt it is, and the answer
it gives, which is the logged one. -/
theorem replayMember_request {c core : Core} (hc : c.Inv) (hlen : f.1.length ≤ envelopeMax)
    (hm : memberRecord f = some m) (h : replayMember c m.env n m.digest m.logged = .ok core) :
    ∃ st, Request.Good ⟨m.env, f.1, f.2.2.1⟩ ∧
      coreAttempt .none c m.env n f.2.2.1 = .staged st ∧ core = st.recorded m.env n f.2.2.1 ∧
      m.ordinal = f.2.1.toNat ∧ f.2.2.2 = encCompleteResult st.complete := by
  unfold memberRecord at hm
  split at hm
  · next env logged hdec hres =>
    cases hm
    have hv := envelopeDecode_validate hdec
    obtain ⟨hd, st, hst, hcore, hequal⟩ := replayMember_staged hc.board hv h
    have henc : envelopeEncode env envelopeMax = some f.1 := by
      unfold envelopeEncode
      rw [hv, Bool.true_and, ← (envelopeDecode_accepts hdec).1, if_pos (decide_eq_true hlen)]
    have hdigest : f.2.2.1 = requestDigest f.1 := by
      unfold envelopeDigest at hd
      rw [henc] at hd
      exact (Option.some.inj hd).symm
    exact ⟨st, ⟨henc, hdec, hdigest⟩, hst, hcore, rfl,
      (spells_completeResult.whole hres).trans hequal⟩
  · cases hm

/-! ## One record -/

lemma spells_nothing : Spells (pure (0 : UInt32)) fun _ => [] := .pure rfl

section Record

variable {c core : Core} {rec : JournalRecord}

lemma replayEntry_rewritten (hc : c.Inv) (hinc : rec.incarnation = c.incarnation)
    (htype : rec.type = .entry) (h : replayEntry c rec.body = .ok core) :
    ∃ q, decodeRecord rec = some q ∧ Rewritten c false rec q core := by
  unfold replayEntry at h
  split at h
  · cases h
  next m hm =>
  split at h
  · cases h
  next hord =>
  split at h
  · cases h
  next hcount =>
  split at h
  · cases h
  next hkey =>
  obtain ⟨f, hf, hmem⟩ := Option.bind_eq_some_iff.mp hm
  obtain ⟨hlen, hbody⟩ := (accepts_memberFields spells_u32).whole hf
  obtain ⟨st, hgood, hst, rfl, hordinal, hresult⟩ := replayMember_request hc hlen hmem h
  rw [not_eq_true, not_eq_false'] at hord
  refine ⟨.member m.env m.ordinal, ?_, ?_⟩
  · unfold decodeRecord
    rw [htype]
    rw [hm]
    rfl
  · refine .member rfl hinc hgood (not_le.mp hcount) ?_ hst ?_
    · exact .inl fun k hk => hc.dense.recorded_iff.mpr (hk.trans_eq (not_not.mp hkey))
    rw [htype, hbody, hresult, hordinal]
    unfold eventRecord
    rw [UInt32.ofNat_toNat]
    cases hb : m.env.body with
    | repair op r | recoveryAdmit k | leaseReap k => rw [hb] at hord; cases hord
    | _ => simp only [append_assoc]

lemma single_rewritten {st : Staged} (hinc : rec.incarnation = c.incarnation)
    (hgood : Request.Good ⟨m.env, f.1, f.2.2.1⟩)
    (hst : coreAttempt .none c m.env 0 f.2.2.1 = .staged st)
    (hrecord : eventRecord m.env f.1 0 f.2.2.1 (encCompleteResult st.complete) =
      (rec.type, rec.body)) :
    Rewritten c false rec (.member m.env 0) (st.recorded m.env 0 f.2.2.1) :=
  .member rfl hinc hgood (memberCount_ok hgood.valid).1
    (.inl fun _ hk => absurd hk (Nat.not_lt_zero _)) hst hrecord

lemma replayCohort_rewritten (hc : c.Inv) (hinc : rec.incarnation = c.incarnation)
    (htype : rec.type = .cohort) (h : replayCohort c rec.body = .ok core) :
    ∃ q, decodeRecord rec = some q ∧ Rewritten c false rec q core := by
  unfold replayCohort at h
  split at h
  · cases h
  next m hm =>
  split at h
  · cases h
  next hrep =>
  obtain ⟨f, hf, hmem⟩ := Option.bind_eq_some_iff.mp hm
  obtain ⟨hlen, hbody⟩ := (accepts_memberFields spells_nothing).whole hf
  obtain ⟨st, hgood, hst, rfl, -, hresult⟩ := replayMember_request hc hlen hmem h
  rw [not_eq_true, not_eq_false'] at hrep
  refine ⟨.member m.env 0, ?_, single_rewritten hinc hgood hst ?_⟩
  · unfold decodeRecord
    rw [htype]
    rw [hm]
    rfl
  · rw [htype, hbody, hresult]
    unfold eventRecord
    cases hb : m.env.body with
    | repair op r => simp only [nil_append, append_assoc]
    | _ => rw [hb] at hrep; cases hrep

lemma accepts_controlFields (hk : kind ≠ ctlEnvelope) :
    Accepts (decControlFields kind) fun used f =>
      used = encBytes f.1 ++ encBytes f.2.2.2 := by
  unfold decControlFields
  rw [if_neg hk]
  refine (accepts_bytes _).bind fun request used hreq => .require fun _ =>
    (accepts_bytes _).bind fun result used' hres => .pure ?_
  rw [hreq.1, hres.1, append_nil]

lemma accepts_controlRecord : Accepts decControlRecord fun used p =>
    (p.1 = ctlEnvelope → p.2.1.length ≤ envelopeMax ∧ used = encU32 p.1 ++ (encBytes p.2.1 ++
      ([] ++ (encRaw p.2.2.2.1 ++ encBytes p.2.2.2.2)))) ∧
    (p.1 ≠ ctlEnvelope → used = encU32 p.1 ++ (encBytes p.2.1 ++ encBytes p.2.2.2.2)) := by
  refine .field fun kind => ?_
  by_cases hk : kind = ctlEnvelope
  · have hfields : decControlFields kind = decMemberFields (pure 0) := if_pos hk
    rw [hfields]
    refine (accepts_memberFields spells_nothing).bind fun f used hf => .pure ⟨fun _ => ?_, ?_⟩
    · exact ⟨hf.1, by rw [hf.2, append_nil]⟩
    · exact fun hne => absurd hk hne
  · refine (accepts_controlFields hk).bind fun f used hf => .pure ⟨fun he => absurd he hk, ?_⟩
    exact fun _ => by rw [hf, append_nil]

lemma replayFixture_rewritten {r : ControlRequest} {logged : ControlResult}
    (hinc : rec.incarnation = c.incarnation) (htype : rec.type = .control)
    (hbody : rec.body = encU32 kind ++ (encBytes f.1 ++ encBytes f.2.2.2))
    (hreq : decControlRequest.whole f.1 = some r)
    (hres : decControlResult.whole f.2.2.2 = some logged)
    (h : replayFixture c kind r logged = .ok core) : Rewritten c false rec (.control r) core := by
  unfold replayFixture at h
  split at h
  · cases h
  next hkind =>
  split at h
  · cases h
  next hcanon =>
  split at h
  · cases h
  next hgiven =>
  dsimp only at h
  split at h
  · cases h
  next hsame =>
  cases h
  rw [not_eq_true, not_eq_false'] at hcanon
  rw [not_eq_true] at hgiven
  have hlogged := not_not.mp hsame
  refine .control rfl hinc htype hcanon (by rw [hlogged]; exact hgiven) ?_
  rw [hbody, spells_controlRequest.whole hreq, spells_controlResult.whole hres, ← hlogged,
    ← not_not.mp hkind, controlRecord, append_assoc]

lemma replayControl_rewritten (hc : c.Inv) (hinc : rec.incarnation = c.incarnation)
    (htype : rec.type = .control) (h : replayControl c rec.body = .ok core) :
    ∃ q, decodeRecord rec = some q ∧ Rewritten c false rec q core := by
  unfold replayControl at h
  split at h
  · cases h
  next kind f hf =>
  have hdecode : decodeRecord rec = if kind = ctlEnvelope then
      (memberRecord f).map fun r => .member r.env 0
      else (decControlRequest.whole f.1).map .control := by
    unfold decodeRecord
    rw [htype]
    rw [hf]
    rfl
  split at h
  · next hkind =>
    subst hkind
    rw [if_pos rfl] at hdecode
    have hbody : f.1.length ≤ envelopeMax ∧ rec.body = encU32 ctlEnvelope ++ (encBytes f.1 ++
        ([] ++ (encRaw f.2.2.1 ++ encBytes f.2.2.2))) :=
      (accepts_controlRecord.whole hf).1 rfl
    split at h
    · cases h
    next m hmem =>
    split at h
    · cases h
    next hctl =>
    obtain ⟨st, hgood, hst, rfl, -, hresult⟩ := replayMember_request hc hbody.1 hmem h
    rw [not_eq_true, not_eq_false'] at hctl
    refine ⟨.member m.env 0, ?_, single_rewritten hinc hgood hst ?_⟩
    · rw [hdecode, hmem]
      rfl
    rw [htype, hbody.2, hresult]
    unfold eventRecord
    cases hb : m.env.body with
    | recoveryAdmit k | leaseReap k => simp only [nil_append, append_assoc]
    | _ => rw [hb] at hctl; cases hctl
  · next hkind =>
    rw [if_neg hkind] at hdecode
    split at h
    · next r logged hreq hres =>
      refine ⟨.control r, by rw [hdecode, hreq]; rfl, ?_⟩
      exact replayFixture_rewritten hinc htype ((accepts_controlRecord.whole hf).2 hkind)
        hreq hres h
    · cases h

lemma replayStart_rewritten (htype : rec.type = .start)
    (h : replayStart c rec.body rec.incarnation
      first = .ok core) : Rewritten c first rec .start core := by
  unfold replayStart at h
  split at h
  · cases h
  next p hp =>
  split at h
  · cases h
  next hfresh =>
  by_cases hprevious : p.previous = if first then 0 else c.incarnation
  swap
  · rw [if_pos hprevious] at h
    cases h
  rw [if_neg (not_not.mpr hprevious)] at h
  split at h
  · cases h
  next hverifier =>
  obtain ⟨hsucc, hheader⟩ := not_or.mp hfresh
  have hsucc := not_not.mp hsucc
  have hheader := not_not.mp hheader
  have hverifier := not_not.mp hverifier
  cases h
  rw [hheader]
  refine .start htype ?_ ?_
  · rw [accepts_start.whole hp, hverifier, hheader, encStart]
    have hback : p.previous = rec.incarnation - 1 := by grind
    rw [hback]
  · rw [← hheader, hsucc, hprevious]

/-- **A record that replays is the record the live store appends** for the request it carries. -/
theorem replayRecord_rewritten (hc : c.Inv) (h : replayRecord c first rec = .ok core) :
    ∃ q, decodeRecord rec = some q ∧ Rewritten c first rec q core := by
  unfold replayRecord at h
  cases htype : rec.type with
  | start =>
    rw [htype] at h
    refine ⟨.start, ?_, replayStart_rewritten htype h⟩
    unfold decodeRecord
    rw [htype]
  | entry =>
    rw [htype] at h
    dsimp only at h
    split at h
    · cases h
    next hfirst =>
    split at h
    · cases h
    next hinc =>
    rw [not_eq_true] at hfirst
    exact hfirst ▸ replayEntry_rewritten hc (not_not.mp hinc) htype h
  | control =>
    rw [htype] at h
    dsimp only at h
    split at h
    · cases h
    next hfirst =>
    split at h
    · cases h
    next hinc =>
    rw [not_eq_true] at hfirst
    exact hfirst ▸ replayControl_rewritten hc (not_not.mp hinc) htype h
  | cohort =>
    rw [htype] at h
    dsimp only at h
    split at h
    · cases h
    next hfirst =>
    split at h
    · cases h
    next hinc =>
    rw [not_eq_true] at hfirst
    exact hfirst ▸ replayCohort_rewritten hc (not_not.mp hinc) htype h

end Record

/-! ## Refused logs -/

section Refused

variable {c : Core} {status : Status}

lemma replayMember_error (h : replayMember c env n digest logged = .error status) :
    status = .invalid := by
  unfold replayMember at h
  repeat' split at h
  all_goals first | exact (error.inj h).symm | cases h

lemma replayEntry_error (h : replayEntry c body = .error status) : status = .invalid := by
  unfold replayEntry at h
  repeat' split at h
  all_goals first | exact (error.inj h).symm | exact replayMember_error h

lemma replayCohort_error (h : replayCohort c body = .error status) : status = .invalid := by
  unfold replayCohort at h
  repeat' split at h
  all_goals first | exact (error.inj h).symm | exact replayMember_error h

lemma replayControl_error (h : replayControl c body = .error status) : status = .invalid := by
  unfold replayControl replayFixture at h
  repeat' split at h
  all_goals first | exact (error.inj h).symm | exact replayMember_error h | cases h

lemma replayStart_error {incarnation : UInt64}
    (h : replayStart c body incarnation first = .error status) : status = .invalid := by
  unfold replayStart at h
  repeat' split at h
  all_goals first | exact (error.inj h).symm | cases h

lemma replayRecord_error {rec : JournalRecord} (h : replayRecord c first rec = .error status) :
    status = .invalid := by
  unfold replayRecord at h
  split at h
  · exact replayStart_error h
  split at h
  · exact (error.inj h).symm
  split at h
  · exact (error.inj h).symm
  split at h
  · exact replayEntry_error h
  · exact replayControl_error h
  · exact replayCohort_error h

lemma replayLoop_error (fuel : Nat) : ∀ {cursor : JournalCursor} {r : Replayed},
    replayLoop fuel cursor r = .error status → status ≠ .ok := by
  induction fuel with
  | zero =>
    intro cursor r h
    rw [← error.inj h]
    decide
  | succ fuel ih =>
    intro cursor r h
    rw [replayLoop] at h
    split at h
    · cases h
    · rw [← error.inj h]
      decide
    · split at h
      · next hrec =>
        rw [← error.inj h, replayRecord_error hrec]
        decide
      · exact ih h

/-- **What replay answers `OK` to** has been read and replayed to its end, with a START at its
front. -/
theorem storeReplay_ok {s s' : Store} {log : Bytes} (h : storeReplay s log = (.ok, s')) :
    ∃ r, replayLoop (log.length + 1) (journalCursorInit log s.core.uuid) ⟨s.core, true, 0⟩ = .ok r ∧
      r.first = false ∧ s'.core = r.core := by
  unfold storeReplay replayLocked at h
  split at h
  · cases h
  dsimp only at h
  unfold replayLog at h
  cases hloop :
    replayLoop (log.length + 1) (journalCursorInit log s.core.uuid) ⟨s.core, true, 0⟩ with
  | error status =>
    rw [hloop] at h
    exact absurd (Prod.mk.inj h).1 (replayLoop_error _ hloop)
  | ok r => grind

end Refused

end Reffs.D1
