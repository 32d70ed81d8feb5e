import Reffs.D1.Reach

/-!
# What an event does to the state

Most events leave the state alone. Those that do not are a reopen, which counts the incarnation; a
fixture call, which runs a control request; and a member that is recorded now (`recordedBy`).
`Effect` says so once, and what holds along runs is derived from it.
-/

namespace Reffs.D1

open ByteCodec SlotTable Table Machine Option World Disposition

variable {s : Store} {ans : MemberAnswer} {uuid : Uuid} {chunkBytes : UInt32}
    {maxFileBytes : UInt64}

structure MemberAnswer where
  env : Envelope UInt64
  ordinal : Nat
  entry : EntryResult

variable {w : World} {id : Nat} {e : Event} {c : Core} {env : Envelope UInt64}
    {obs : Option MemberAnswer}
  {i : Fin maxReceipts} {rc : Receipt}

/-- The member an event records, with its answer: one that had no receipt before the event and has
one after it. -/
def recordedBy (w : World) : Event → Option MemberAnswer
  | .advance id => match w.calls id with
    | some (.running r out) =>
      let n := out.entries.length
      let p := applyMember w.store r.env r.bytes n r.digest
      if recordReceipt w.store.core r.env n then none
      else if recordReceipt p.2.core r.env n then some ⟨r.env, n, p.1.entry⟩
      else none
    | _ => none
  | _ => none

inductive Effect (w : World) : Event → Option MemberAnswer → Core → Prop where
  | idle (e : Event) : Effect w e none w.store.core
  | reopened (arm : ReopenStart) (count : w.store.core.incarnation ≠ uint64Max) :
      Effect w (.reopen arm) none { w.store.core with incarnation := w.store.core.incarnation + 1 }
  | control (call : FixtureCall) (r : ControlRequest) : Effect w (.fixture call) none
      (controlLocked w.store.core r).2
  | recorded {id : Nat} {r : Request} {out : Result} {st : Staged} {red : Reduced}
      (call : w.calls id = some (.running r out)) (good : r.Good)
      (staged : st.Of w.store.harness.exhaust w.store.core r.env out.entries.length r.digest red) :
      Effect w (.advance id) (some ⟨r.env, out.entries.length, st.complete.entry⟩)
        (st.recorded r.env out.entries.length r.digest)

lemma callMember_core (s : Store) (r : Request) (out : Result) : (callMember s r out).1.core =
      (applyMember s r.env r.bytes out.entries.length r.digest).2.core := by
  obtain ⟨n, hn⟩ := callMember_store s r out
  rw [hn]

lemma callCheck_core (s : Store) (env : Envelope Handle) (bytes : Bytes) :
    (callCheck s env bytes).1.core = s.core := by
  obtain ⟨n, hn⟩ := callCheck_store s env bytes
  rw [hn]

lemma callEnter_core (s : Store) (env : Envelope Handle) : (callEnter s env).1.core = s.core := by
  obtain ⟨n, hn⟩ := callEnter_store s env
  rw [hn]

lemma fixture_core (hs : s.Inv) (call : FixtureCall) :
    (fixture s call).core = s.core ∨ ∃ r, (fixture s call).core = (controlLocked s.core r).2 := by
  have hcontrol : ∀ r, (fixtureControl s r).2.core = s.core ∨
      (fixtureControl s r).2.core = (controlLocked s.core r).2 := by
    intro r
    unfold fixtureControl
    dsimp only
    split
    · exact .inl rfl
    next hgiven =>
    rw [if_neg (by rw [hs.journaling]; exact Bool.false_ne_true)]
    split
    · exact .inr rfl
    · exact .inl (controlTakeBack_eq hs.core.issued r (Bool.not_eq_true _ ▸ hgiven))
  rcases fixture_cases s call with ⟨r, -, -, he⟩ | ⟨-, x, a, b, he⟩
  · rw [he]
    exact (hcontrol r).imp_right fun h => ⟨r, h⟩
  · rw [he]
    exact .inl rfl

lemma reopen_core (h : w.Inv) (arm : ReopenStart) :
    (w.reopen arm).store.core = w.store.core ∨ w.store.core.incarnation ≠ uint64Max ∧
      (w.reopen arm).store.core =
        { w.store.core with incarnation := w.store.core.incarnation + 1 } := by
  unfold reopen
  dsimp only
  split
  · exact .inl rfl
  next fresh hfresh =>
  obtain ⟨c₀, hopen, ho⟩ := storeOpen_opened hfresh
  have ho' : Store.Opened { fresh with
      harness := { fresh.harness with failReopenStart := arm } } c₀ := { ho with }
  split
  · next s hs => exact .inr (h.store.reopen hopen ho' hs).2
  · exact .inl rfl

lemma advance_effect (h : w.Inv) {r : Request} {out : Result}
    (hcall : w.calls id = some (.running r out)) :
    Effect w (.advance id) (recordedBy w (.advance id)) (callMember w.store r out).1.core := by
  obtain ⟨hr, -, -⟩ := h.calls id _ hcall
  have hquiet : ∀ p, applyMember w.store r.env r.bytes out.entries.length r.digest = p →
      p.2.core = w.store.core →
      Effect w (.advance id) (recordedBy w (.advance id)) (callMember w.store r out).1.core := by
    intro p hp hcore
    have hobs : recordedBy w (.advance id) = none := by
      unfold recordedBy
      dsimp only
      rw [hcall]
      dsimp only
      rw [hp, hcore]
      split
      · rfl
      · rfl
    rw [hobs, callMember_core, hp, hcore]
    exact .idle _
  rcases applyMember_cases h.store.toReplays hr out.entries.length with ⟨complete, -, he⟩ | ⟨a,
    b, he⟩ |
    ⟨st, a, b, type, body, hst, -, -, he⟩
  · exact hquiet _ he rfl
  · exact hquiet _ he rfl
  · obtain ⟨red, hof⟩ := coreAttempt_staged hst
    have hbefore : recordReceipt w.store.core r.env out.entries.length = false := by
      unfold recordReceipt
      rw [hof.fresh]
      rfl
    have hafter : recordReceipt (st.recorded r.env out.entries.length r.digest) r.env
        out.entries.length :=
      receiptFind_isSome.mpr ⟨st.slot, _, set_self _ _ _, rfl, rfl, rfl⟩
    have hobs :
        recordedBy w (.advance id) = some ⟨r.env, out.entries.length, st.complete.entry⟩ := by
      unfold recordedBy
      dsimp only
      rw [hcall]
      dsimp only
      rw [he, hbefore]
      dsimp only
      rw [hafter]
      rfl
    rw [hobs, callMember_core, he]
    exact .recorded hcall hr hof

theorem step_effect (h : w.Inv) (e : Event) :
    Effect w e (recordedBy w e) (step w e).store.core := by
  have hidle : ∀ e c, recordedBy w e = none → c = w.store.core → Effect w e (recordedBy w e) c := by
    intro e c hobs hc
    rw [hobs, hc]
    exact .idle e
  cases e with
  | enter id env =>
    unfold step
    dsimp only
    split
    · exact hidle _ _ rfl (callEnter_core _ _)
    · exact hidle _ _ rfl rfl
  | advance id =>
    unfold step
    dsimp only
    cases hcall : w.calls id with
    | none =>
      refine hidle _ _ ?_ rfl
      unfold recordedBy
      dsimp only
      rw [hcall]
    | some call =>
      cases call with
      | running r out => exact advance_effect h hcall
      | entered env bytes =>
        refine hidle _ _ ?_ (callCheck_core _ _ _)
        unfold recordedBy
        dsimp only
        rw [hcall]
      | done status out =>
        refine hidle _ _ ?_ rfl
        unfold recordedBy
        dsimp only
        rw [hcall]
  | fixture call =>
    rcases fixture_core h.store call with hsame | ⟨r, hr⟩
    · exact hidle _ _ rfl hsame
    · change Effect w (.fixture call) none (fixture w.store call).core
      rw [hr]
      exact .control call r
  | viewOpen object admission sel byteBegin byteEnd =>
    obtain ⟨x, hx⟩ := viewOpen_harness w.store object admission sel byteBegin byteEnd
    refine hidle _ _ rfl ?_
    unfold step
    dsimp only
    rw [hx]
  | viewClose view =>
    obtain ⟨x, hx⟩ := viewClose_harness w.store view
    refine hidle _ _ rfl ?_
    unfold step
    dsimp only
    rw [hx]
  | close =>
    refine hidle _ _ rfl ?_
    unfold step storeClose
    dsimp only
    split <;> rfl
  | reopen arm =>
    rcases reopen_core h arm with hsame | ⟨hcount, hnext⟩
    · exact hidle _ _ rfl hsame
    · change Effect w (.reopen arm) none (w.reopen arm).store.core
      rw [hnext]
      exact .reopened arm hcount

/-- A member that an event records was answered by its reducer. -/
structure ReducedBy (c : Core) (ans : MemberAnswer) (red : Reduced) : Prop where
  reduced : ∃ x, red = reduceEnvelope x c ans.env ans.ordinal (completeStart c ans.env.key).entry
  recorded : red.status ≠ .nospc ∧ red.status ≠ .io
  entry : ans.entry = { red.res with status := red.status.code }

lemma recordedBy_reduced (h : w.Inv) (hrec : recordedBy w e = some ans) :
    ∃ red, ReducedBy w.store.core ans red := by
  have he := step_effect h e
  rw [hrec] at he
  generalize (step w e).store.core = core at he
  cases he with
  | @recorded id r out st red call good staged =>
    exact ⟨red, ⟨_, staged.reduced⟩, staged.answered, by rw [staged.complete]⟩

/-! ## A recorded member

What the two layers below say of a recorded member: its change, or nothing when it was refused, and
then its receipt. -/

inductive Records (c : Core) : MemberAnswer → Core → Prop where
  | mk {env : Envelope UInt64} {ordinal : Nat} {entry : EntryResult} {slot : Fin maxReceipts}
      {status : Status} {core : Core} (receipt : Receipt) (valid : envelopeValidate env = true)
      (spare : c.receipts.spare = some slot) (code : entry.status = status.code)
      (ground : core.ground = c.ground)
        (change : status ≠ .ok ∧ core = c ∨ Change c env ordinal entry.cohort status core) :
      Records c ⟨env, ordinal, entry⟩ { core with receipts := c.receipts.set slot receipt }

lemma Staged.Of.records {st : Staged} {x : Exhaust} {ordinal : Nat} {digest : Digest}
    {red : Reduced}
    (h : st.Of x c env ordinal digest red) (hb : c.board.Inv) (hv : envelopeValidate env) :
    Records c ⟨env, ordinal, st.complete.entry⟩ (st.recorded env ordinal digest) := by
  have hground := h.ground hb hv
  have hreceipts : st.core.receipts = c.receipts := congrArg (·.2.2.2.2.2.2.2.2.1) hground
  have hcode : st.complete.entry.status = red.status.code := by rw [h.complete]
  unfold Staged.recorded
  rw [hreceipts]
  exact .mk _ hv h.slot hcode hground (h.change hb hv)

/-- The effect of an event, once more: what a recorded member does is one of the changes. -/
lemma Effect.elim {P : Option MemberAnswer → Core → Prop} (h : w.Inv) (he : Effect w e obs c)
    (same : P none w.store.core) (reopened : w.store.core.incarnation ≠ uint64Max →
      P none { w.store.core with incarnation := w.store.core.incarnation + 1 })
    (control : ∀ r, P none (controlLocked w.store.core r).2)
    (records : ∀ ans core, Records w.store.core ans core → P (some ans) core) : P obs c := by
  cases he with
  | idle => exact same
  | reopened arm count => exact reopened count
  | control call r => exact control r
  | recorded call good staged => exact records _ _ (staged.records h.store.core.board good.valid)

lemma recordedBy_records (h : w.Inv) (hrec : recordedBy w e = some ans) :
    Records w.store.core ans (step w e).store.core := by
  have hall : ∀ ans, recordedBy w e = some ans →
      Records w.store.core ans (step w e).store.core := by
    refine (step_effect h e).elim
      (P := fun obs c => ∀ ans, obs = some ans → Records w.store.core ans c) h ?_ ?_ ?_ ?_
    · exact fun ans hans => nomatch hans
    · exact fun _ ans hans => nomatch hans
    · exact fun _ ans hans => nomatch hans
    · intro ans core hrec ans' hans
      exact (some.inj hans) ▸ hrec
  exact hall ans hrec

/-! ## Receipts stay -/

lemma Effect.receipts (h : w.Inv) (he : Effect w e obs c)
    (hrc : w.store.core.receipts i = some rc) : c.receipts i = some rc := by
  cases he with
  | idle => exact hrc
  | reopened => exact hrc
  | control call r =>
    obtain ⟨_, _, _, _, _, _, hframe⟩ := controlLocked_frame w.store.core r
    rw [hframe]
    exact hrc
  | recorded call good staged =>
    have hslot := spare_some staged.slot
    rw [staged.receipts h.store.core.board good.valid, set_ne, hrc]
    rintro rfl
    rw [hslot] at hrc
    cases hrc

theorem run_receipts (h : w.Inv) (es : List Event) (hrc : w.store.core.receipts i = some rc) :
    (run step w es).store.core.receipts i = some rc :=
  (run_invariant (I := fun w => w.Inv ∧ w.store.core.receipts i = some rc)
    (fun w e hw => ⟨step_inv w e hw.1, (step_effect hw.1 e).receipts hw.1 hw.2⟩) ⟨h, hrc⟩ es).2

/-! ## Receipts are answers -/

lemma World.open_core {i : UInt64} (h : World.open i uuid chunkBytes maxFileBytes = some w) :
    coreOpen uuid chunkBytes maxFileBytes = some w.store.core := by
  unfold World.open at h
  split at h
  · cases h
  next s hs =>
  obtain ⟨c₀, hopen, ho⟩ := storeOpen_opened hs
  split at h
  · next s' hs' =>
    rw [← some.inj h, hopen, ← ho.core]
    unfold journalEnable at hs'
    split at hs'
    · cases hs'
    dsimp only at hs'
    split at hs'
    · next s'' hstart =>
      obtain ⟨a, b, -, he⟩ := startAppend_ok hstart
      rw [← (Prod.mk.inj hs').2, he]
    · next hne _ => exact absurd (Prod.mk.inj hs').1 hne
  · cases h

/-- **What holds of a state that was just opened, and is kept by every event from a reachable world,
holds in every reachable world.** -/
theorem Reachable.induct {P : Core → Prop}
    (start : ∀ {uuid chunkBytes maxFileBytes c}, coreOpen uuid chunkBytes maxFileBytes = some c →
      P c)
    (next : ∀ {w e}, Reachable w → P w.store.core → P (step w e).store.core) (h : Reachable w) :
    P w.store.core := by
  obtain ⟨inst, uuid, chunkBytes, maxFileBytes, w₀, es, hopen, rfl⟩ := h
  exact (run_invariant (I := fun w => Reachable w ∧ P w.store.core)
    (fun w e hw => ⟨hw.1.run [e], next hw.1 hw.2⟩)
    ⟨.opened hopen, start (World.open_core hopen)⟩ es).2

structure Core.Empty (c : Core) : Prop where
  objects : c.objects = Table.empty
  txns : c.txns = Table.empty
  versions : c.versions = Table.empty
  admissions : c.admissions = Table.empty
  owners : c.owners = Table.empty
  receipts : c.receipts = Table.empty
  repairs : c.repairs = Table.empty
  nextVersion : c.nextVersion = 1

lemma coreOpen_empty (h : coreOpen uuid chunkBytes maxFileBytes = some c) : c.Empty := by
  unfold coreOpen at h
  split at h
  · cases h
  split at h
  · cases h
  rw [← some.inj h]
  exact ⟨rfl, rfl, rfl, rfl, rfl, rfl, rfl, rfl⟩

lemma Effect.completed (h : w.Inv) (he : Effect w e obs c)
    (hall : ∀ i rc, w.store.core.receipts i = some rc → rc.result.disposition = completed.code) :
    ∀ i rc, c.receipts i = some rc → rc.result.disposition = completed.code := by
  cases he with
  | idle => exact hall
  | reopened => exact hall
  | control call r =>
    obtain ⟨_, _, _, _, _, _, hframe⟩ := controlLocked_frame w.store.core r
    rw [hframe]
    exact hall
  | recorded call good staged =>
    intro i rc hrc
    rw [staged.receipts h.store.core.board good.valid, set_apply] at hrc
    split at hrc
    · rw [← some.inj hrc, staged.complete]
      rfl
    · exact hall i rc hrc

lemma Reachable.completed (h : Reachable w) (hrc : w.store.core.receipts i = some rc) :
    rc.result.disposition = Disposition.completed.code := by
  refine Reachable.induct (P := fun c => ∀ i rc, c.receipts i = some rc →
    rc.result.disposition = Disposition.completed.code) (fun hopen j rc' hrc' => ?_)
    (fun hw hall => (step_effect hw.inv _).completed hw.inv hall) h i rc hrc
  rw [(coreOpen_empty hopen).receipts] at hrc'
  cases hrc'

/-! ## Requests in flight -/

def Call.request : Call → Option (Envelope UInt64)
  | .entered env _ => some env.raw
  | .running r _ => some r.env
  | .done _ _ => none

lemma callEnter_request (s : Store) (handles : Envelope Handle)
    (h : (callEnter s handles).2.request = some env) : handles.raw = env := by
  unfold callEnter at h
  split at h
  · cases h
  split at h
  · cases h
  split at h
  · cases h
  · exact some.inj h

lemma callMember_request (s : Store) (r : Request) (out : Result)
    (h : (callMember s r out).2.request = some env) : r.env = env := by
  unfold callMember at h
  dsimp only at h
  split at h
  · cases h
  split at h
  · cases h
  split at h
  · exact some.inj h
  · cases h

lemma callCheck_request {handles : Envelope Handle} {bytes : Bytes}
    (henc : envelopeEncode handles.raw envelopeMax = some bytes)
    (h : (callCheck s handles bytes).2.request = some env) : handles.raw = env := by
  unfold callCheck at h
  dsimp only at h
  split at h
  · cases h
  split at h
  · cases h
  next taken hdec =>
  split at h
  · cases h
  · rw [← some.inj h]
    exact (envelopeDecode_encode henc hdec).symm

lemma World.put_self (w : World) (id : Nat) (p : Store × Call) : (w.put id p).calls id = some p.2 :=
  Function.update_self ..

lemma World.put_ne {id' : Nat} {p : Store × Call} (h : id' ≠ id) :
    (w.put id p).calls id' = w.calls id' := Function.update_of_ne h ..

theorem step_request (h : w.Inv) {call : Call} (hcall : (step w e).calls id = some call)
    (hreq : call.request = some env) : (∃ old, w.calls id = some old ∧ old.request = some env) ∨
      ∃ handles, e = .enter id handles ∧ handles.raw = env := by
  have hkeep : w.calls id = some call → (∃ old, w.calls id = some old ∧ old.request = some env) ∨
      ∃ handles, e = .enter id handles ∧ handles.raw = env := fun hold => .inl ⟨call, hold, hreq⟩
  cases e with
  | enter id' handles =>
    unfold step at hcall
    dsimp only at hcall
    split at hcall
    · by_cases hid : id = id'
      · subst hid
        rw [put_self] at hcall
        rw [← some.inj hcall] at hreq
        exact .inr ⟨handles, rfl, callEnter_request _ _ hreq⟩
      · rw [put_ne hid] at hcall
        exact hkeep hcall
    · exact hkeep hcall
  | advance id' =>
    unfold step at hcall
    dsimp only at hcall
    split at hcall
    · exact hkeep hcall
    next old hold =>
    by_cases hid : id = id'
    · subst hid
      rw [put_self] at hcall
      rw [← some.inj hcall] at hreq
      refine .inl ⟨old, hold, ?_⟩
      cases old with
      | entered handles bytes =>
        exact congrArg some (callCheck_request (h.calls id _ hold) hreq)
      | running r out => exact congrArg some (callMember_request _ _ _ hreq)
      | done status out => cases hreq
    · rw [put_ne hid] at hcall
      exact hkeep hcall
  | fixture | viewOpen | viewClose | close => exact hkeep hcall
  | reopen arm =>
    unfold step reopen at hcall
    dsimp only at hcall
    split at hcall
    · exact hkeep hcall
    split at hcall
    · cases hcall
    · exact hkeep hcall

end Reffs.D1
