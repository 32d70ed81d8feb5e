import Reffs.D1.Door

/-!
# What callers rely on

Guarantees of a journalling store, each for every world a newly opened store can reach: the durable
bytes rebuild the state; the receipts of a key are an unbroken prefix of one request's members; a
request that was answered is answered again the same way, and another request under its key is
refused; a member that is answered `UNRECORDED` has left no trace; and a chunk is pending exactly
when one staged transaction claims it.
-/

namespace Reffs.D1

open ByteCodec SlotTable List Option Disposition

variable {rc : Nat → Receipt} {s : Store} {r : Request}

/-! ## Recovery -/

/-- **The durable bytes rebuild the state.** Replayed into a store newly opened with the live
store's UUID and geometry they are accepted, and every table, counter and epoch comes out as it is
in the live store. -/
theorem storeReplay_rebuilds {w : World} (h : Reachable w) {instance_ : UInt64}
    (hi : instance_ ≠ 0) : ∃ fresh, storeOpen instance_ w.store.core.uuid w.store.core.chunkBytes
        w.store.core.maxFileBytes = some fresh ∧
      (storeReplay fresh w.store.journal.durableBytes).1 = .ok ∧
      (storeReplay fresh w.store.journal.durableBytes).2.core = w.store.core := by
  obtain ⟨c₀, last, hopen, -⟩ := h.inv.store.log
  have hfresh : (storeOpen instance_ w.store.core.uuid w.store.core.chunkBytes
      w.store.core.maxFileBytes).isSome := by grind [storeOpen]
  obtain ⟨fresh, hfresh⟩ := isSome_iff_exists.mp hfresh
  obtain ⟨c₁, hopen', ho⟩ := storeOpen_opened hfresh
  obtain ⟨_, -, -, hreplay⟩ := h.inv.store.replay hopen' ho
  exact ⟨fresh, hfresh, by rw [hreplay], by rw [hreplay]⟩

theorem storeReplay_rebuilds_small :
    ∃ fresh, storeOpen 7 smallWorld.store.core.uuid smallWorld.store.core.chunkBytes
        smallWorld.store.core.maxFileBytes = some fresh ∧
      (storeReplay fresh smallWorld.store.journal.durableBytes).1 = .ok ∧
      (storeReplay fresh smallWorld.store.journal.durableBytes).2.core = smallWorld.store.core :=
  storeReplay_rebuilds smallWorld_reachable (by decide)

/-! ## Receipts -/

/-- **The receipts of one export and key** carry one digest, and their ordinals are `0 .. n-1`, each
once, whichever way calls interleave. -/
theorem receipts_dense {w : World} (h : Reachable w) (e : Uuid) (k : OpKey) :
    (∀ i j r r', w.store.core.receipts i = some r → w.store.core.receipts j = some r' →
      r.exportUuid = e → r.key = k → r'.exportUuid = e → r'.key = k → r.digest = r'.digest) ∧
    ∃ n, (ordinals w.store.core.receipts e k).Perm (List.range n) := by
  have hdense := h.inv.store.core.dense
  refine ⟨fun i j r r' hi hj he hk he' hk' => ?_, _, hdense.perm e k⟩
  exact hdense.digest i j r r' hi hj (he.trans he'.symm) (hk.trans hk'.symm)

/-- Three chunks under one key, in a batch that is sent twice; each of the two calls records members
that the other finds done. -/
def interleavedWorld : World :=
  let cl := smallClient
  let batch := cl.envelope 1 (.writeBatch ⟨[0, 1, 2].map fun i =>
    ⟨i, 0, cl.owner (i + 1), none, [65], (Client.payload [65]).checksum⟩, fileSync, true⟩)
  Machine.run step firstWorld (.fixture (.admitUnder noObject (cl.authority smallRights)) ::
    [1, 2].map (.enter · batch) ++ [1, 2, 1, 2, 2, 1, 1].map .advance)

lemma interleavedWorld_reachable : Reachable interleavedWorld := firstWorld_reachable.run _

theorem receipts_dense_small :
    ordinals interleavedWorld.store.core.receipts (zeros 16) ⟨zeros 16, 1, 0⟩ = [0, 1, 2] ∧
      ∃ n, (ordinals interleavedWorld.store.core.receipts (zeros 16) ⟨zeros 16, 1, 0⟩).Perm
        (List.range n) :=
  ⟨by decide +kernel, (receipts_dense interleavedWorld_reachable _ _).2⟩

/-! ## The same request again -/

/-- Every member of a request has a receipt; `rc` are the receipts. -/
def Answered (c : Core) (env : Envelope UInt64) (digest : Digest) (rc : Nat → Receipt) : Prop :=
  ∀ n < env.memberCount, ∃ i, c.receipts i = some (rc n) ∧
    (rc n).exportUuid = env.object.exportUuid ∧ (rc n).key = env.key ∧ (rc n).ordinal = n ∧
    (rc n).digest = digest

lemma Answered.free {c : Core} {env : Envelope UInt64} {digest : Digest}
    (h : Answered c env digest rc) (hd : Dense c.receipts) (hpos : 0 < env.memberCount) :
    keyConflicts c env.object.exportUuid env.key digest = false := by
  rw [← Bool.not_eq_true, keyConflicts_iff]
  rintro ⟨j, r, hj, he, hk, hne⟩
  obtain ⟨i, hi, he', hk', -, hdig⟩ := h 0 hpos
  exact hne ((hd.digest j i r (rc 0) hj hi (he.trans he'.symm) (hk.trans hk'.symm)).trans hdig)

lemma applyMember_again (hd : Dense s.core.receipts) (h : Answered s.core r.env r.digest rc)
    (hbind : bindingOk s.core r.env) {n : Nat} (hn : n < r.env.memberCount) :
    applyMember s r.env r.bytes n r.digest = ((rc n).result, s) := by
  obtain ⟨i, hi, he, hk, ho, -⟩ := h n hn
  exact applyMember_receipt hd hi ⟨he, hk, ho⟩ hbind (h.free hd (Nat.zero_lt_of_lt hn))

structure Result.From (out : Result) (rc : Nat → Receipt) (count : Nat) : Prop where
  entries : out.entries = (List.range count).map fun n => (rc n).result.entry
  indexEpoch : out.indexEpoch = (rc (count - 1)).result.indexEpoch
  eof : out.eof = (rc (count - 1)).result.eof

section

variable (hd : Dense s.core.receipts) (h : Answered s.core r.env r.digest rc)
  (hbind : bindingOk s.core r.env = true)
  (hcompleted : ∀ n < r.env.memberCount, (rc n).result.disposition ≠ Disposition.unrecorded.code)

include hd h hbind hcompleted

lemma callMember_again {out : Result} (hn : out.entries.length < r.env.memberCount)
    (hout : out.entries = (range out.entries.length).map fun n => (rc n).result.entry) :
    ∃ out', out'.From rc (out.entries.length + 1) ∧
      callMember s r out = if out.entries.length + 1 < r.env.memberCount then (s, .running r out')
        else (callLeave s, .done .ok out') := by
  have hfrom : ∀ d, Result.From ⟨out.key, (rc out.entries.length).result.indexEpoch,
      (rc out.entries.length).result.eof, d,
      out.entries ++ [(rc out.entries.length).result.entry]⟩ rc (out.entries.length + 1) := by
    intro d
    refine ⟨?_, rfl, rfl⟩
    rw [range_succ, map_append, ← hout]
    rfl
  unfold callMember
  dsimp only
  rw [applyMember_again hd h hbind hn]
  dsimp only
  split
  · next hone =>
    have hcount : r.env.memberCount = 1 := by
      grind [Body.isControl, Body.isRepair, Envelope.memberCount]
    exact ⟨_, hfrom _, (if_neg (by omega)).symm⟩
  · rw [if_neg (hcompleted _ hn)]
    split
    · exact ⟨_, hfrom _, rfl⟩
    · exact ⟨_, hfrom _, rfl⟩

lemma callRun_again (fuel : Nat) : ∀ out :
    Result, out.entries.length + fuel + 1 = r.env.memberCount →
      out.entries = (range out.entries.length).map (fun n => (rc n).result.entry) →
      ∃ out', out'.From rc r.env.memberCount ∧
        callRun (fuel + 1) (s, .running r out) = (callLeave s, .done .ok out') := by
  induction fuel with
  | zero =>
    intro out hlen hout
    obtain ⟨out', hfrom, he⟩ := callMember_again hd h hbind hcompleted (by omega) hout
    rw [if_neg (by omega)] at he
    refine ⟨out', ?_, he⟩
    rw [← hlen]
    exact hfrom
  | succ fuel ih =>
    intro out hlen hout
    obtain ⟨out', hfrom, he⟩ := callMember_again hd h hbind hcompleted (by omega) hout
    rw [if_pos (by omega)] at he
    have hlen' : out'.entries.length = out.entries.length + 1 := by
      rw [hfrom.entries, length_map, length_range]
    have hnext : callRun (fuel + 1 + 1) (s, .running r out) =
        callRun (fuel + 1) (s, .running r out') := congrArg (callRun (fuel + 1)) he
    rw [hnext]
    refine ih out' (by omega) ?_
    rw [hlen']
    exact hfrom.entries

end

/-- **The same request again**: every member is answered from its receipt, and the store is as it
was. -/
theorem storeApply_again (hd : Dense s.core.receipts) {env : Envelope Handle} {bytes : Bytes}
    (hacc : Accepted s env bytes) (h : Answered s.core env.raw (requestDigest bytes) rc)
    (hcompleted : ∀ n < env.raw.memberCount, (rc n).result.disposition ≠ unrecorded.code) :
    ∃ out, out.From rc env.memberCount ∧ storeApply s env = (s, .done .ok out) := by
  have hcount : env.raw.memberCount = env.memberCount := env.memberCount_map _
  have hpos := (memberCount_ok hacc.valid).1
  have hfree := h.free hd hpos
  rw [hacc.storeApply_eq, hacc.callCheck_eq]
  change keyConflicts s.core env.object.exportUuid env.key (requestDigest bytes) = false at hfree
  rw [hfree, if_neg Bool.false_ne_true]
  obtain ⟨out, hfrom, he⟩ := callRun_again (s := { s with activeCalls := s.activeCalls + 1 })
    (r := ⟨env.raw, bytes, requestDigest bytes⟩) hd h hacc.bindingOk hcompleted
    (env.raw.memberCount - 1) (Result.start env.key)
    (by change 0 + (env.raw.memberCount - 1) + 1 = env.raw.memberCount; omega) rfl
  rw [Nat.sub_add_cancel hpos, hcount] at he
  refine ⟨out, hcount ▸ hfrom, ?_⟩
  rw [he]
  rfl

/-- **Another request under a bound key**: every member is refused, and the store is as it was. -/
theorem storeApply_conflict {env : Envelope Handle} {bytes : Bytes} (hacc : Accepted s env bytes)
    (h : keyConflicts s.core env.object.exportUuid env.key (requestDigest bytes)) :
    ∃ out, storeApply s env = (s, .done .ok out) ∧ out.entries.length = env.memberCount ∧
      ∀ e ∈ out.entries, e.status = Status.replayConflict.code := by
  rw [hacc.storeApply_eq, hacc.callCheck_eq, if_pos h, callRun_done]
  refine ⟨_, rfl, length_replicate, fun e he => ?_⟩
  rw [eq_of_mem_replicate he]
  rfl

/-- **Exactly once.** Let a request have been recorded in a reachable world `w` under the digest of
`bytes`, and let anything happen after it, reopens included. When all its members have receipts
`rc`, the same request, made again and let in, is answered member by member from `rc` and changes
nothing. When any member has a receipt, a request with another digest under the same key is refused
member by member and changes nothing, and the first request is then taken as if it had not been
made. -/
theorem storeApply_exactly_once {w : World} (h : Reachable w) (bytes : Bytes) (es : List Event) :
    let s := (Machine.run step w es).store
    (∀ (env : Envelope UInt64) (rc : Nat → Receipt),
      Answered w.store.core env (requestDigest bytes) rc →
      ∀ env' : Envelope Handle, env'.raw = env → Accepted s env' bytes →
        ∃ out, out.From rc env.memberCount ∧ storeApply s env' = (s, .done .ok out)) ∧
    (∀ (i : Fin maxReceipts) (rc : Receipt), w.store.core.receipts i = some rc →
      rc.digest = requestDigest bytes →
      ∀ (other : Envelope Handle) (bytes' : Bytes), Accepted s other bytes' →
        other.object.exportUuid = rc.exportUuid → other.key = rc.key →
        requestDigest bytes' ≠ requestDigest bytes →
        ∃ out, storeApply s other = (s, .done .ok out) ∧ out.entries.length = other.memberCount ∧
          (∀ e ∈ out.entries, e.status = Status.replayConflict.code) ∧
          ∀ env : Envelope Handle, Accepted s env bytes → env.object.exportUuid = rc.exportUuid →
            env.key = rc.key → storeApply (storeApply s other).1 env =
              callRun env.memberCount ({ s with activeCalls := s.activeCalls + 1 },
                .running ⟨env.raw, bytes, requestDigest bytes⟩ (Result.start env.key))) := by
  have hw := h.run es
  have hdense := hw.inv.store.core.dense
  have hkept : ∀ i rc, w.store.core.receipts i = some rc →
      (Machine.run step w es).store.core.receipts i = some rc := fun _ _ => run_receipts h.inv es
  revert hw hdense hkept
  generalize (Machine.run step w es) = w'
  intro hw hdense hkept
  refine ⟨?_, ?_⟩
  · rintro env rc hrc env' rfl hacc
    have hlater : Answered w'.store.core env'.raw (requestDigest bytes) rc := by
      intro n hn
      obtain ⟨i, hi, hrest⟩ := hrc n hn
      exact ⟨i, hkept i _ hi, hrest⟩
    have hdone :
        ∀ n < env'.raw.memberCount, (rc n).result.disposition ≠ Disposition.unrecorded.code := by
      intro n hn
      obtain ⟨i, hi, -⟩ := hlater n hn
      rw [hw.completed hi]
      decide
    have hagain := storeApply_again hdense hacc hlater hdone
    rwa [← show env'.raw.memberCount = env'.memberCount from env'.memberCount_map _] at hagain
  · intro i rc hi hdig other bytes' hacc he hk hne
    have hrow := hkept i rc hi
    have hconf : keyConflicts w'.store.core other.object.exportUuid other.key
        (requestDigest bytes') = true := by
      refine keyConflicts_iff.mpr ⟨i, rc, hrow, he.symm, hk.symm, ?_⟩
      rw [hdig]
      exact hne.symm
    obtain ⟨out, happly, hlen, hall⟩ := storeApply_conflict hacc hconf
    refine ⟨out, happly, hlen, hall, fun env hacc' he' hk' => ?_⟩
    have hfree : keyConflicts w'.store.core env.object.exportUuid env.key
        (requestDigest bytes) = false := by
      rw [← Bool.not_eq_true, keyConflicts_iff]
      rintro ⟨j, r, hj, hje, hjk, hjd⟩
      refine hjd ?_
      rw [← hdig]
      exact hdense.digest j i r rc hj hrow (hje.trans he') (hjk.trans hk')
    rw [happly, hacc'.storeApply_eq, hacc'.callCheck_eq, hfree, if_neg Bool.false_ne_true]

def smallOther : Body Handle := smallClient.write 1 0 [67] true

lemma smallWorld_doors : doorOk smallWorld.store (smallClient.envelope 1 smallWrite) ∧
    doorOk smallWorld.store (smallClient.envelope 1 smallOther) := by
  decide +kernel

lemma smallDigests_ne : requestDigest (encEnvelope (smallClient.envelope 1 smallOther).raw) ≠
    requestDigest (encEnvelope (smallClient.envelope 1 smallWrite).raw) := by
  have hne : (requestDigest (encEnvelope (smallClient.envelope 1 smallOther).raw)).toList ≠
      (requestDigest (encEnvelope (smallClient.envelope 1 smallWrite).raw)).toList := by
    decide +kernel
  exact fun he => hne (congrArg Vector.toList he)

lemma writtenWorld_receipt : ∃ rc, writtenWorld.store.core.receipts 0 = some rc ∧
    rc.exportUuid = zeros 16 ∧ rc.key = ⟨zeros 16, 1, 0⟩ ∧ rc.ordinal = 0 ∧
    rc.digest = requestDigest (encEnvelope (smallClient.envelope 1 smallWrite).raw) := by
  have hrow : (writtenWorld.store.core.receipts 0).map
      (fun rc => (rc.exportUuid, rc.key, rc.ordinal, rc.digest.toList)) =
      some (zeros 16, ⟨zeros 16, 1, 0⟩, 0,
        (requestDigest (encEnvelope (smallClient.envelope 1 smallWrite).raw)).toList) := by
    decide +kernel
  obtain ⟨rc, hrc, he⟩ := map_eq_some_iff.mp hrow
  simp only [Prod.mk.injEq] at he
  exact ⟨rc, hrc, he.1, he.2.1, he.2.2.1, Vector.toList_inj.mp he.2.2.2⟩

theorem storeApply_exactly_once_small : (∃ out : Result, out.entries.length = 1 ∧
      storeApply smallWorld.store (smallClient.envelope 1 smallWrite) =
        (smallWorld.store, .done .ok out)) ∧
    ∃ out :
    Result, out.entries.length = 1 ∧ (∀ e ∈ out.entries, e.status = Status.replayConflict.code) ∧
      storeApply smallWorld.store (smallClient.envelope 1 smallOther) =
        (smallWorld.store, .done .ok out) := by
  obtain ⟨rc, hrc, hexp, hkey, hord, hdig⟩ := writtenWorld_receipt
  obtain ⟨hagain, hother⟩ := storeApply_exactly_once writtenWorld_reachable
    (encEnvelope (smallClient.envelope 1 smallWrite).raw) smallEvents.2
  refine ⟨?_, ?_⟩
  · obtain ⟨out, hfrom, he⟩ := hagain (smallClient.envelope 1 smallWrite).raw (fun _ => rc)
      (fun n hn => ⟨0, hrc, hexp, hkey, hord.trans (Nat.lt_one_iff.mp hn).symm, hdig⟩) _ rfl
      (doorOk_accepted smallWorld_doors.1)
    exact ⟨out, by rw [hfrom.entries]; rfl, he⟩
  · obtain ⟨out, he, hlen, hall, -⟩ := hother 0 rc hrc hdig (smallClient.envelope 1 smallOther) _
      (doorOk_accepted smallWorld_doors.2) hexp.symm hkey.symm smallDigests_ne
    exact ⟨out, hlen, hall, he⟩

/-! ## Members that were not recorded -/

def Call.entries : Call → List EntryResult
  | .entered _ _ => []
  | .running _ out => out.entries
  | .done _ out => out.entries

lemma callMember_entries (s : Store) (r : Request) (out : Result)
    (h : (applyMember s r.env r.bytes out.entries.length r.digest).1.disposition ≠
      unrecorded.code) : (callMember s r out).2.entries =
      out.entries ++ [(applyMember s r.env r.bytes out.entries.length r.digest).1.entry] := by
  unfold callMember
  dsimp only
  split
  · rfl
  split <;> rfl

/-- **A member answered `UNRECORDED` leaves no trace**, whatever refused it: the tables, counters,
epoch and receipts are those it found, and so are the durable bytes and the next LSN. -/
theorem unrecorded_leaves_no_trace {w : World} (h : Reachable w) {id : Nat} {call : Call}
    (hcall : w.calls id = some call)
    (hun : ∃ e ∈ (callStep w.store call).2.entries.drop call.entries.length,
      e.disposition = Disposition.unrecorded.code) : (callStep w.store call).1.core = w.store.core ∧
      (callStep w.store call).1.journal.durableBytes = w.store.journal.durableBytes ∧
      (callStep w.store call).1.journal.nextLsn = w.store.journal.nextLsn := by
  have hgood := h.inv.calls id call hcall
  cases call with
  | done status out => exact ⟨rfl, rfl, rfl⟩
  | entered env bytes =>
    obtain ⟨n, hn⟩ := callCheck_store w.store env bytes
    change (callCheck w.store env bytes).1.core = _ ∧
      (callCheck w.store env bytes).1.journal.durableBytes
      = _ ∧ (callCheck w.store env bytes).1.journal.nextLsn = _
    rw [hn]
    exact ⟨rfl, rfl, rfl⟩
  | running r out =>
    obtain ⟨n, hn⟩ := callMember_store w.store r out
    change (callMember w.store r out).1.core = _ ∧ (callMember w.store r out).1.journal.durableBytes
      = _ ∧ (callMember w.store r out).1.journal.nextLsn = _
    rw [hn]
    rcases applyMember_cases h.inv.store.toReplays hgood.1 out.entries.length with ⟨complete,
      -, he⟩ |
      ⟨a, b, he⟩ | ⟨st, a, b, type, body, hst, -, -, he⟩
    · rw [he]
      exact ⟨rfl, rfl, rfl⟩
    · rw [he]
      exact ⟨rfl, rfl, rfl⟩
    · -- A recorded member answers one entry, and that says so.
      obtain ⟨red, hof⟩ := coreAttempt_staged hst
      obtain ⟨e, hmem, hdisp⟩ := hun
      have hentries := callMember_entries w.store r out
        (by rw [he, hof.complete]
            exact (by decide : completed.code ≠ unrecorded.code))
      change e ∈ (callMember w.store r out).2.entries.drop out.entries.length at hmem
      rw [hentries, drop_left, mem_singleton, he] at hmem
      rw [hmem, (hof.loggable h.inv.store.core.board hgood.1.valid).2] at hdisp
      exact absurd hdisp (by decide)

def failingWorld : World :=
  Machine.run step firstWorld [.fixture (.admitUnder noObject (smallClient.authority smallRights)),
     .fixture (.failAppendIn 1), .enter 1 (smallClient.envelope 1 smallWrite), .advance 1]

lemma failingWorld_reachable : Reachable failingWorld := firstWorld_reachable.run _

lemma failingWorld_call : ∃ call, failingWorld.calls 1 = some call ∧
    ∃ e ∈ (callStep failingWorld.store call).2.entries.drop call.entries.length,
      e.disposition = unrecorded.code := by
  have hcall : (failingWorld.calls 1).any (fun call =>
      ((callStep failingWorld.store call).2.entries.drop call.entries.length).any
        (·.disposition == unrecorded.code)) := by
    decide +kernel
  obtain ⟨call, hc, hany⟩ := (any_eq_true _ _).mp hcall
  obtain ⟨e, he, hd⟩ := any_eq_true.mp hany
  exact ⟨call, hc, e, he, beq_iff_eq.mp hd⟩

theorem unrecorded_leaves_no_trace_failing : ∃ call, failingWorld.calls 1 = some call ∧
    (callStep failingWorld.store call).1.core = failingWorld.store.core ∧
    (callStep failingWorld.store call).1.journal.nextLsn = failingWorld.store.journal.nextLsn := by
  obtain ⟨call, hcall, hun⟩ := failingWorld_call
  have hsame := unrecorded_leaves_no_trace failingWorld_reachable hcall hun
  exact ⟨call, hcall, hsame.1, hsame.2.2⟩

/-! ## Pending chunks -/

/-- **Pending pointers and staged transactions answer to each other.** A chunk is pending exactly
when one transaction that is prepared or finalized claims it; the pointer is that transaction's
number, its predecessor is what the chunk shows, and the chunk is under no error, repair or lock. A
commit that got as far as comparing the two therefore finds them equal. -/
theorem pending_iff_staged {w : World} (h : Reachable w) (s : ObjectSlot) (i : ChunkIndex) :
    ((chunkAt w.store.core.objects s i).pending.isSome ↔
      ∃! ti, ∃ t, w.store.core.txns ti = some t ∧ t.Staged ∧ t.object = s ∧ t.index = i) ∧
    (∀ ti t, w.store.core.txns ti = some t → t.Staged → t.object = s → t.index = i →
      (chunkAt w.store.core.objects s i).pending = some t.id ∧
      t.predecessor = (chunkAt w.store.core.objects s i).visible ∧
      (chunkAt w.store.core.objects s i).error = none ∧
      (chunkAt w.store.core.objects s i).repair = none ∧
      (chunkAt w.store.core.objects s i).repairLocked = false) ∧
    (∀ (object : ObjKey) (o : Object) (txn : UInt64) (ti : Fin maxTxns) (t : Txn) (owner : Owner)
      (a : Admission), objectFind w.store.core object = some (s, o) →
      txnFind w.store.core txn = some (ti, t) → lifecycleTxnCheck t s i owner a = none →
      t.phase = lifecyclePhase true → t.predecessor = (o.chunks i).visible) := by
  have hb := h.inv.store.core.board
  have hstaged : ∀ ti t, w.store.core.txns ti = some t → t.Staged → t.object = s → t.index = i →
      (chunkAt w.store.core.objects s i).pending = some t.id ∧
      (chunkAt w.store.core.objects s i).visible = t.predecessor ∧
      chunkWritable (chunkAt w.store.core.objects s i) := by
    rintro ti t ht hst rfl rfl
    exact hb.staged_chunk ht hst
  refine ⟨⟨fun hsome => ?_, ?_⟩, fun ti t ht hst ho hi => ?_, ?_⟩
  · obtain ⟨id, hid⟩ := isSome_iff_exists.mp hsome
    obtain ⟨-, ti, cl, hcl, rfl, rfl, rfl⟩ := hb.pending.pending s i id hid
    obtain ⟨t, ht, hst, rfl⟩ := claimAt_some hcl
    refine ⟨ti, ⟨t, ht, hst, rfl, rfl⟩, ?_⟩
    rintro tj ⟨t', ht', hst', ho, hi⟩
    have hpend := (hstaged tj t' ht' hst' ho hi).1
    exact hb.txn.unique tj ti t' t ht' ht (some.inj (hpend.symm.trans hid))
  · rintro ⟨ti, ⟨t, ht, hst, ho, hi⟩, -⟩
    rw [(hstaged ti t ht hst ho hi).1]
    rfl
  · obtain ⟨hpend, hvis, hwritable⟩ := hstaged ti t ht hst ho hi
    exact ⟨hpend, hvis.symm, chunkWritable_iff.mp hwritable⟩
  · intro object o txn ti t owner a hobj htxn hcheck hphase
    obtain ⟨hs, -⟩ := Table.findRow_some hobj
    obtain ⟨ht, -, -⟩ := findById_some htxn
    obtain ⟨⟨hto, hti⟩, hmode, -⟩ := lifecycleTxnCheck_none hcheck
    rw [← chunkAt_of hs i]
    exact (hstaged ti t ht ⟨hmode, .inr hphase⟩ hto hti).2.1.symm

/-- A run whose transactions and versions are numbered apart: a repair takes a transaction before it
stages a version. -/
def apartEvents : List Event :=
  let cl := smallClient
  let marked := { cl.member 2 0 with
    custody := some (cl.handle .custody 1), successor := some (cl.handle .version 1) }
  cl.script 1 [.fixture (.admitUnder noObject (cl.authority smallRights)), .apply smallWrite,
     .fixture (.custody (cl.handle .version 1)),
     .apply (.repair .markError (Client.vector marked)),
     .apply (.repair .beginRepair { Client.vector { marked with mode := repairError } with
       episode := some (cl.handle .episode 1) }),
     .apply (cl.write 4 1 [66] false)]

def apartWorld : World := Machine.run step firstWorld apartEvents

lemma apartWorld_reachable : Reachable apartWorld := firstWorld_reachable.run _

lemma apartWorld_staged : (apartWorld.store.core.txns 2).map
    (fun t => (decide t.Staged, t.object, t.index, t.id, t.version)) = some (true, 0, 1, 3, 2) ∧
    (chunkAt apartWorld.store.core.objects 0 1).pending = some 3 := by
  decide +kernel

theorem pending_iff_staged_apart : ∃ t, apartWorld.store.core.txns 2 = some t ∧ t.Staged ∧
    t.predecessor = (chunkAt apartWorld.store.core.objects 0 1).visible := by
  obtain ⟨t, ht, he⟩ := map_eq_some_iff.mp apartWorld_staged.1
  simp only [Prod.mk.injEq, decide_eq_true_eq] at he
  exact ⟨t, ht, he.1,
    ((pending_iff_staged apartWorld_reachable 0 1).2.1 2 t ht he.1 he.2.1 he.2.2.1).2.1⟩

/-- The pending pointer is not the number of the staged version. -/
theorem pending_not_version : ∃ w s i ti t, Reachable w ∧ w.store.core.txns ti = some t ∧ t.Staged ∧
    t.object = s ∧ t.index = i ∧ (chunkAt w.store.core.objects s i).pending ≠ some t.version := by
  obtain ⟨t, ht, he⟩ := map_eq_some_iff.mp apartWorld_staged.1
  simp only [Prod.mk.injEq, decide_eq_true_eq] at he
  refine ⟨apartWorld, 0, 1, 2, t, apartWorld_reachable, ht, he.1, he.2.1, he.2.2.1, ?_⟩
  rw [apartWorld_staged.2, he.2.2.2.2]
  decide

end Reffs.D1
