import Reffs.D1.Execution

/-!
# A store restored from a journal

`d1_fixture_restore_journal` replays a log and takes it over as the journal of the rebuilt store.
The journal it makes carries the incarnation that `d1_journal_init` gives it, zero, until a START is
written; the records of an incarnation replay only if they carry that incarnation. So a restored
store keeps a log that replays for as long as it hands no record to the journal before it has been
reopened (`restored_replays`), and the first record it does hand over makes the log one that neither
replays nor reopens (`restored_refused`).
-/

namespace Reffs.D1

open ByteCodec SlotTable

variable {w : World} {s : Store} {i : UInt64}

/-- The world of a store opened under `instance_` and restored from the durable bytes of `w`. -/
def World.restore (w : World) (instance_ : UInt64) : Option World :=
  let c := w.store.core
  match storeOpen instance_ c.uuid c.chunkBytes c.maxFileBytes with
  | none => none
  | some fresh => match restoreJournal fresh w.store.journal.durableBytes with
    | (.ok, s) => some ⟨s, instance_ + 1, fun _ => none⟩
    | _ => none

/-- What a restored world keeps: `World.Inv` without the incarnation of the next record. -/
structure World.Replays (w : World) : Prop where
  store : w.store.Replays
  calls : w.CallsGood

lemma World.Inv.replays (h : w.Inv) : w.Replays := ⟨h.store.toReplays, h.calls⟩

/-! ## Restoring -/

lemma restoreJournal_eq {fresh : Store} (h : s.Replays) {c₀ : Core}
    (hopen : coreOpen s.core.uuid s.core.chunkBytes s.core.maxFileBytes = some c₀)
    (ho : fresh.Opened c₀) :
    ∃ s', restoreJournal fresh s.journal.durableBytes = (.ok, s') ∧ s'.Replays := by
  obtain ⟨last, -, hlog, hreplay⟩ := h.replayLocked hopen ho
  have hne := hlog.ne_nil rfl
  have hempty : (journalInit s.core.uuid).buf = [] := rfl
  unfold restoreJournal
  rw [hreplay, h.settled.durableBytes, if_neg hne]
  dsimp only
  unfold journalAdopt
  rw [if_neg (not_not.mpr hempty)]
  exact ⟨_, rfl, h.core, ⟨rfl, rfl⟩, rfl, ho.poisoned, rfl, c₀, last, hopen, hlog, rfl⟩

theorem World.Replays.restore (h : w.Replays) (hi : i ≠ 0) :
    ∃ w₀, w.restore i = some w₀ ∧ w₀.Replays := by
  obtain ⟨c₀, -, hopen, -, -⟩ := h.store.log
  obtain ⟨fresh, hfresh, ho, -, -⟩ := storeOpen_eq hi hopen
  obtain ⟨s, hs, hreplays⟩ := restoreJournal_eq h.store hopen ho
  refine ⟨⟨s, i + 1, fun _ => none⟩, ?_, hreplays, fun id call hcall => nomatch hcall⟩
  unfold World.restore
  dsimp only
  rw [hfresh]
  dsimp only
  rw [hs]

lemma World.Replays.restored {w₀ : World} (h : w.Replays) (hr : w.restore i = some w₀) :
    w₀.Replays := by
  have hi : i ≠ 0 := by
    rintro rfl
    cases hr
  obtain ⟨w₁, hr', hreplays⟩ := h.restore hi
  rw [Option.some.inj (hr.symm.trans hr')]
  exact hreplays

/-! ## What a step hands to the journal -/

/-- The event comes to a record: a member that is ready to be recorded, or a control request that
was given. -/
def offersRecord (w : World) : Event → Bool
  | .advance id => match w.calls id with
    | some (.running r out) =>
      match coreAttempt w.store.harness.exhaust w.store.core r.env out.entries.length r.digest with
      | .staged _ => true
      | .answered _ _ => false
    | _ => false
  | .fixture call => match call.request w.store with
    | some r => !(r.body.issues && (controlLocked w.store.core r).1.id == 0)
    | none => false
  | _ => false

/-- The journal stamps records with the incarnation of the state, or the event comes to none. -/
def Stamped (w : World) (e : Event) : Prop :=
  w.store.journal.incarnation = w.store.core.incarnation ∨ offersRecord w e = false

instance (w : World) (e : Event) : Decidable (Stamped w e) := inferInstanceAs (Decidable (_ ∨ _))

lemma Store.Replays.activeCalls (h : s.Replays) (n : Nat) :
    ({ s with activeCalls := n } : Store).Replays :=
  { h with }

lemma callStep_quiet (h : w.Replays) {id : Nat} {call : Call} (hcall : w.calls id = some call)
    (hquiet : offersRecord w (.advance id) = false) :
    ∃ n, (callStep w.store call).1 = { w.store with activeCalls := n } := by
  cases call with
  | entered env bytes => exact callCheck_store w.store env bytes
  | done status out => exact ⟨w.store.activeCalls, rfl⟩
  | running r out =>
    unfold offersRecord at hquiet
    dsimp only at hquiet
    rw [hcall] at hquiet
    dsimp only at hquiet
    have hgood : r.Good := (h.calls id _ hcall).1
    have happly : (applyMember w.store r.env r.bytes out.entries.length r.digest).2 = w.store := by
      cases hatt : coreAttempt w.store.harness.exhaust w.store.core r.env out.entries.length
          r.digest with
      | staged st =>
        rw [hatt] at hquiet
        cases hquiet
      | answered complete core =>
        obtain rfl := coreAttempt_answered h.store.core.board hgood.valid hatt
        unfold applyMember
        rw [hatt]
    obtain ⟨n, hn⟩ := callMember_store w.store r out
    exact ⟨n, hn.trans (by rw [happly])⟩

lemma fixture_quiet (h : w.Replays) {call : FixtureCall}
    (hquiet : offersRecord w (.fixture call) = false) :
    (fixture w.store call).Replays ∧ (fixture w.store call).core = w.store.core := by
  unfold offersRecord at hquiet
  dsimp only at hquiet
  rcases fixture_cases w.store call with ⟨r, hr, -, he⟩ | ⟨-, x, a, b, he⟩
  · rw [hr] at hquiet
    dsimp only at hquiet
    rw [Bool.not_eq_false'] at hquiet
    have hsame : (fixtureControl w.store r).2 = w.store := by
      unfold fixtureControl
      dsimp only
      rw [if_pos hquiet]
    rw [he, hsame]
    exact ⟨h.store, rfl⟩
  · rw [he]
    exact ⟨{ h.store with settled := h.store.settled.armed a b }, rfl⟩

lemma World.Replays.reopen (h : w.Replays) (arm : ReopenStart) : (w.reopen arm).Replays := by
  unfold World.reopen
  dsimp only
  split
  · exact h
  next fresh hfresh =>
  obtain ⟨c₀, hopen, ho⟩ := storeOpen_opened hfresh
  have ho' : Store.Opened { fresh with
      harness := { fresh.harness with failReopenStart := arm } } c₀ := { ho with }
  split
  · next s hs =>
    exact ⟨(h.store.reopen hopen ho' hs).1.toReplays, fun id call hcall => nomatch hcall⟩
  · exact ⟨h.store, h.calls⟩

theorem step_replays (w : World) (e : Event) (h : w.Replays) (hstamp : Stamped w e) :
    (step w e).Replays := by
  rcases hstamp with hstamp | hquiet
  · exact (step_inv w e ⟨⟨h.store, hstamp⟩, h.calls⟩).replays
  cases e with
  | enter id env =>
    unfold step
    dsimp only
    split
    · obtain ⟨n, hn⟩ := callEnter_store w.store env
      refine ⟨?_, h.calls.enter id env⟩
      change (callEnter w.store env).1.Replays
      exact hn ▸ h.store.activeCalls n
    · exact h
  | advance id =>
    unfold step
    dsimp only
    split
    · exact h
    · next call hcall =>
      obtain ⟨n, hn⟩ := callStep_quiet h hcall hquiet
      obtain ⟨hgood, hkeep⟩ := callStep_good h.store (h.calls id call hcall)
      refine ⟨?_, h.calls.put hgood hkeep⟩
      change (callStep w.store call).1.Replays
      exact hn ▸ h.store.activeCalls n
  | fixture call =>
    obtain ⟨hs, hcore⟩ := fixture_quiet h hquiet
    exact ⟨hs, h.calls.store_step (congrArg Core.receipts hcore)⟩
  | viewOpen object admission sel byteBegin byteEnd =>
    obtain ⟨x, hx⟩ := viewOpen_harness w.store object admission sel byteBegin byteEnd
    unfold step
    dsimp only
    rw [hx]
    exact ⟨{ h.store with }, h.calls.store_step rfl⟩
  | viewClose view =>
    obtain ⟨x, hx⟩ := viewClose_harness w.store view
    unfold step
    dsimp only
    rw [hx]
    exact ⟨{ h.store with }, h.calls.store_step rfl⟩
  | close =>
    unfold step storeClose
    dsimp only
    split
    · exact h
    · exact ⟨{ h.store with }, h.calls.store_step rfl⟩
  | reopen arm => exact h.reopen arm

/-! ## What a restored store's log is good for -/

/-- **A restored store that has handed no record to a journal without its incarnation.** Its durable
bytes replay to its state, and a new store takes them over under the next incarnation. -/
theorem restored_replays {w w₀ : World} (h : Reachable w) {i : UInt64}
    (hr : w.restore i = some w₀) {es : List Event} (hes : Machine.Along step Stamped w₀ es)
    (hsize : (Machine.run step w₀ es).store.journal.buf.length < 2 ^ 64) {j : UInt64} (hj : j ≠ 0) :
    let s := (Machine.run step w₀ es).store
    ∃ fresh, storeOpen j s.core.uuid s.core.chunkBytes s.core.maxFileBytes = some fresh ∧
      (∃ s', storeReplay fresh s.journal.durableBytes = (.ok, s') ∧ s'.core = s.core) ∧
      ∃ s', storeReopen fresh s.journal.durableBytes = (.ok, s') ∧
        s'.core = { s.core with incarnation := s.core.incarnation + 1 } := by
  have hrun := Machine.run_invariant_along step_replays (h.inv.replays.restored hr) hes
  revert hsize hrun
  generalize Machine.run step w₀ es = w'
  intro hsize hrun
  obtain ⟨hinc, hlsn⟩ := hrun.store.room hsize
  obtain ⟨c₀, -, hopen, -, -⟩ := hrun.store.log
  obtain ⟨fresh, hfresh, ho, -, hclean⟩ := storeOpen_eq hj hopen
  obtain ⟨_, -, -, hreplay⟩ := hrun.store.replay hopen ho
  have hroom : w'.store.journal.nextLsn ≠ 0xffffffffffffffff := by
    intro hmax
    rw [hmax] at hlsn
    have : (0xffffffffffffffff : UInt64).toNat = 2 ^ 64 - 1 := rfl
    omega
  obtain ⟨_, hreopen⟩ := hrun.store.reopen_eq hopen ho (by rw [hclean]; rfl) hinc hroom
  exact ⟨fresh, hfresh, ⟨_, hreplay, rfl⟩, _, hreopen, rfl⟩

def restoredWorld : World := (firstWorld.restore 2).get (by decide +kernel)

lemma restoredWorld_eq : firstWorld.restore 2 = some restoredWorld := (Option.some_get _).symm

def smallAdmit : Event := .fixture (.admitUnder noObject (smallClient.authority smallRights))

/-- Reopened first, it goes on like any other store. -/
theorem restored_replays_reopened :
    Machine.Along step Stamped restoredWorld [.reopen .ok, smallAdmit] ∧
    let s := (Machine.run step restoredWorld [.reopen .ok, smallAdmit]).store
    ∃ fresh, storeOpen 9 s.core.uuid s.core.chunkBytes s.core.maxFileBytes = some fresh ∧
      (∃ s', storeReplay fresh s.journal.durableBytes = (.ok, s') ∧ s'.core = s.core) ∧
      ∃ s', storeReopen fresh s.journal.durableBytes = (.ok, s') ∧
        s'.core = { s.core with incarnation := s.core.incarnation + 1 } := by
  have halong : Machine.Along step Stamped restoredWorld [.reopen .ok, smallAdmit] :=
    ⟨by decide +kernel, by decide +kernel, trivial⟩
  exact ⟨halong, restored_replays firstWorld_reachable restoredWorld_eq halong (by decide +kernel)
    (by decide)⟩

def thirdStore : Store := (storeOpen 3 (zeros 16) 4096 1000000).get (by decide +kernel)

/-- **The first record of a restored store that was not reopened**: an admission is given and made
durable, and the log is then refused by replay and by a reopen. -/
theorem restored_refused : Reachable firstWorld ∧ firstWorld.restore 2 = some restoredWorld ∧
    let s := (step restoredWorld smallAdmit).store
    s.journal.durableBytes ≠ restoredWorld.store.journal.durableBytes ∧
    storeOpen 3 s.core.uuid s.core.chunkBytes s.core.maxFileBytes = some thirdStore ∧
      (storeReplay thirdStore s.journal.durableBytes).1 = .invalid ∧
      (storeReopen thirdStore s.journal.durableBytes).1 = .invalid := by
  have hgeometry : (step restoredWorld smallAdmit).store.core.uuid = zeros 16 ∧
      (step restoredWorld smallAdmit).store.core.chunkBytes = 4096 ∧
      (step restoredWorld smallAdmit).store.core.maxFileBytes = 1000000 := by decide +kernel
  refine ⟨firstWorld_reachable, restoredWorld_eq,
    by decide +kernel, ?_, by decide +kernel, by decide +kernel⟩
  rw [hgeometry.1, hgeometry.2.1, hgeometry.2.2]
  exact (Option.some_get _).symm

end Reffs.D1
