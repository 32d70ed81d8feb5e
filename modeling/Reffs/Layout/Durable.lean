import Reffs.Layout.Fixed

/-!
# A write layout that is owed shows on disk

`Safe` is what every step keeps: while a write layout has not had its commit and its return
accepted, the record on disk is not a clean one, and in memory the barrier still names its stateid
or the file is out of service.
-/

namespace Reffs.Layout

open Machine Shared

variable {file : File} {expected : Segment} {s s' : Shared} {r r' : Record}

lemma transition_spec {next : InventoryState} (h : r.transition next file = some r') :
    r'.state = next ∧ r'.owner = some file ∧ (next = .fenced ∨ next = .retired ∨
      r.state = .free ∨ r.state = .claimed) := by
  unfold Record.transition at h
  grind

lemma metadataTransition_spec {next : MetadataState} (h : r.metadataTransition next = some r') :
    r.state = .assigned ∧ r'.state = .assigned ∧ r'.metadata = next ∧ r'.owner = r.owner ∧
      r'.shape = r.shape := by
  unfold Record.metadataTransition at h
  grind

def Record.Out (r : Record) : Prop := r.state = .fenced ∨ r.state = .retired

/-- Not to be taken for the record of a file that nobody writes. -/
def Record.Unclean (r : Record) : Prop := r.Out ∨ r.state = .assigned ∧ r.metadata ≠ .clean

def Record.Owned (r : Record) : Prop := r.state ≠ .free → r.owner.isSome

/-- Memory still knows of an owed grant. -/
def Tracks (r : Record) (b : Barrier) (g : Grant) : Prop :=
  r.Out ∨ r.state = .assigned ∧ b.uncertain = true ∧ g.other = b.stateid.other ∧
    (b.commitSeen = true → g.committed = true)

structure Safe (s : Shared) : Prop where
  record : s.record.Owned
  disk : s.disk.Owned
  owed : ∀ g ∈ s.grants, g.Owed → s.disk.Unclean ∧ Tracks s.record s.barrier g

lemma Safe.settled (h : Safe s) (hout : ¬ s.record.Out)
    (hidle : s.record.state = .assigned → s.barrier.uncertain = false) :
    ∀ g ∈ s.grants, ¬ g.Owed := by
  intro g hg howed
  obtain hgone | ⟨hstate, hun, -⟩ := (h.owed g hg howed).2
  · exact hout hgone
  · simp [hidle hstate] at hun

/-- What `Safe` reads of the barrier, of the records and of the grants. -/
def Shared.gist (s : Shared) :=
  (s.record, s.disk, s.grants, s.barrier.uncertain, s.barrier.stateid.other, s.barrier.commitSeen)

namespace Safe

variable (h : Safe s)

include h

lemma congr (hs : s.gist = s'.gist) : Safe s' := by
  simp only [gist, Prod.mk.injEq] at hs
  obtain ⟨hr, hd, hg, hun, hother, hseen⟩ := hs
  refine ⟨hr ▸ h.record, hd ▸ h.disk, ?_⟩
  simp only [Tracks, ← hr, ← hd, ← hg, ← hun, ← hother, ← hseen]
  exact h.owed

lemma save_settled (hnone : ∀ g ∈ s.grants, ¬ g.Owed) (hr : r.Owned) (ok : Bool) :
    Safe (s.save r ok) where
  record := hr
  disk := by cases ok; exacts [h.disk, hr]
  owed := fun g hg howed => absurd howed (hnone g hg)

lemma save_out (hout : r.Out) (hr : r.Owned) (ok : Bool) : Safe (s.save r ok) where
  record := hr
  disk := by cases ok; exacts [h.disk, hr]
  owed := fun g hg howed => by
    refine ⟨?_, .inl hout⟩
    cases ok
    · exact (h.owed g hg howed).1
    · exact .inl hout

lemma transition {next : InventoryState} (ht : s.record.transition next file = some r)
    (ok : Bool) : Safe (s.save r ok) := by
  obtain ⟨hstate, howner, hcase⟩ := transition_spec ht
  have hr : r.Owned := fun _ => by simp [howner]
  by_cases hout : r.Out
  · exact h.save_out hout hr ok
  · refine h.save_settled (h.settled ?_ ?_) hr ok <;> grind [Record.Out]

lemma metadataTransition {next : MetadataState} (ht : s.record.metadataTransition next = some r)
    (ok : Bool) (hnext : ok → next = .clean → ∀ g ∈ s.grants, ¬ g.Owed) : Safe (s.save r ok) := by
  obtain ⟨hold, hstate, hmeta, howner, -⟩ := metadataTransition_spec ht
  have hr : r.Owned := fun _ => howner ▸ h.record (by simp [hold])
  refine ⟨hr, by cases ok; exacts [h.disk, hr], fun g hg howed => ?_⟩
  obtain ⟨hdisk, htracks⟩ := h.owed g hg howed
  refine ⟨?_, by simpa [Tracks, save, Record.Out, hold, hstate] using htracks⟩
  cases ok
  · exact hdisk
  · exact .inr ⟨hstate, fun hclean => hnext rfl (hmeta.symm.trans hclean) g hg howed⟩

end Safe

/-! ## The handlers -/

lemma grantPublish_eq (s : Shared) (sid : Stateid) : ∃ seqid,
    grantPublish s sid = { s with barrier := { s.barrier with latestGrant := seqid } } := by
  unfold grantPublish
  dsimp only
  split
  · exact ⟨_, rfl⟩
  · exact ⟨s.barrier.latestGrant, rfl⟩

/-- A barrier whose return was seen, and not accepted. -/
def Barrier.Forgives (b : Barrier) : Prop :=
  b.uncertain = true ∧ b.commitSeen = true ∧ b.returnSeen = true

instance (b : Barrier) : Decidable b.Forgives := inferInstanceAs (Decidable (_ ∧ _))

section

variable (h : Safe s)

include h

lemma retire_safe (ok : Bool) : Safe (retire file s ok) := by
  unfold retire
  split
  · split
    · exact h.transition ‹_› ok
    · exact h
  · exact h

lemma inventoryFence_safe (ok : Bool) : Safe (inventoryFence file s ok) := by
  unfold inventoryFence
  split
  · exact h
  split
  · exact h.transition ‹_› ok
  · exact h

lemma assignSegment_safe (e : AssignEnv) : Safe (assignSegment file expected s e).2 := by
  have hactive : Safe { s with
      segments := [expected], barrier := { s.barrier with active := true } } :=
    h.congr rfl
  have hsegments : Safe { s with segments := [expected] } := h.congr rfl
  unfold assignSegment
  split
  · exact inventoryFence_safe h _
  split
  · exact h
  split
  · exact inventoryFence_safe h _
  dsimp only
  split
  · split
    · exact hsegments
    · split
      · exact hactive.transition ‹_› true
      · exact hsegments.transition ‹_› false
  · exact hactive

lemma assign_safe (e : AssignEnv) : Safe (assign file expected s e).2 := by
  unfold assign
  iterate 4
    split
    · exact h
  split
  · split
    · exact h
    split
    · exact h
    · next hfree _ _ r ht =>
      have hclaim : Safe (s.save { r with shape := expected.shape } e.claimSave) :=
        h.save_settled (h.settled (by simp [Record.Out, hfree]) (by simp [hfree]))
          (fun _ => by simp [(transition_spec ht).2.1]) _
      split
      · exact assignSegment_safe hclaim e
      · exact hclaim
  · exact assignSegment_safe h e

lemma barrierBegin_safe (client : Nat) (sid : Stateid) (ok : Bool) :
    Safe (barrierBegin file s client sid ok).2 := by
  unfold barrierBegin
  split
  · exact h
  · next hguard =>
    split
    · exact h
    · next r ht =>
      have hsaved := h.metadataTransition ht ok (by simp)
      obtain ⟨hold, hstate, hmeta, -, -⟩ := metadataTransition_spec ht
      have hnone := h.settled (by simp [Record.Out, hold]) (by simp_all)
      cases ok
      · exact hsaved
      refine ⟨hsaved.record, hsaved.disk, fun g hg howed => ?_⟩
      obtain rfl | hg := List.mem_cons.mp hg
      · exact ⟨.inr ⟨hstate, by simp [save, hmeta]⟩,
          .inr ⟨hstate, rfl, rfl, by simp [Barrier.none]⟩⟩
      · exact absurd howed (hnone g hg)

lemma Safe.accept {b : Barrier} {other : Nat} {f : Grant → Grant}
    (howed : ∀ g, (f g).Owed → g.Owed) (htracks : ∀ g, Tracks s.record s.barrier g →
      Tracks s.record b (if g.other = other then f g else g)) :
    Safe (accept { s with barrier := b } other f) := by
  refine ⟨h.record, h.disk, fun g' hg' howed' => ?_⟩
  obtain ⟨g, hg, rfl⟩ := List.mem_map.mp hg'
  have hold : g.Owed := by
    split at howed'
    · exact howed g howed'
    · exact howed'
  exact ⟨(h.owed g hg hold).1, htracks g (h.owed g hg hold).2⟩

lemma layoutcommit_safe (client : Option Nat) (sid : Stateid) (valid ok : Bool) :
    Safe (layoutcommit file s client sid valid ok).2 := by
  have hcommit : ∀ g : Grant, ({ g with committed := true } : Grant).Owed → g.Owed := by
    grind [Grant.Owed]
  unfold layoutcommit
  dsimp only
  split
  · exact h
  split
  · exact h
  · next hguard =>
    split
    · split
      · exact h
      · exact h.accept hcommit (by grind [Tracks])
    split
    · exact h
    split
    · exact h
    split
    · exact h.congr rfl
    · next r ht =>
      have hsaved := h.metadataTransition ht ok (by simp)
      split
      · exact hsaved.congr rfl
      · -- every grant that is still owed is one of the stateid that commits
        have hsid : sid.other = s.barrier.stateid.other := by
          simp_all [Barrier.commitStateidEqual]
        exact hsaved.accept hcommit (by grind [Tracks, save])

lemma clearBits_safe (other : Nat) (mode : Iomode) : Safe (clearBits s other mode).2 :=
  h.congr rfl

lemma layoutreturn_safe (client : Option Nat) (sid : Stateid) (mode : Iomode) :
    Safe (layoutreturn s client sid mode).2 := by
  unfold layoutreturn
  split
  · exact h
  split
  · exact h
  split
  · exact clearBits_safe h ..
  split
  · exact h
  · exact clearBits_safe (h.accept (b := s.barrier) (by grind [Grant.Owed]) (by grind [Tracks])) ..

lemma returnFixed_safe (sid : Stateid) (mode : Iomode) (ok : Bool) :
    Safe (returnFixed file s sid mode ok).2 := by
  unfold returnFixed
  dsimp only
  split
  · exact h
  split
  · exact h
  · next hguard hseen =>
    have hcleared := clearBits_safe h sid.other mode
    split
    · exact hcleared.congr rfl
    · next r ht =>
      have hfailed := hcleared.metadataTransition ht false (by simp)
      split
      · next hok =>
        obtain rfl : ok = false := by simpa using hok
        exact hfailed.congr rfl
      · next hok =>
        -- every grant that is still owed was committed, and is one of the stateid that returns
        obtain rfl : ok = true := by simpa using hok
        have hsid : sid.other = s.barrier.stateid.other := by
          simp_all [Barrier.returnStateidEqual]
        have hstate := (metadataTransition_spec ht).1
        refine ⟨hfailed.record, hfailed.record, fun g' hg' howed => ?_⟩
        obtain ⟨g, hg, rfl⟩ := List.mem_map.mp hg'
        have htracks := (hcleared.owed g hg (by grind [Grant.Owed])).2
        exact absurd howed (by grind [Tracks, Record.Out, Grant.Owed, clearBits, setStid])

lemma recallAdvance_safe {sid : Stateid} (ha : recallAdvance s = some (sid, s')) : Safe s' := by
  unfold recallAdvance at ha
  dsimp only at ha
  split at ha
  · cases ha
    exact h
  · split at ha
    · cases ha
    · split at ha <;> cases ha
      exact h.congr rfl

lemma metadataBarrier_safe (hb : ¬ s.barrier.Forgives) (late : Bool) :
    Safe (metadataBarrier s late).2 := by
  unfold metadataBarrier
  dsimp only
  split
  · exact h
  split
  · next hactive hboth => exact absurd ⟨by simp_all, hboth⟩ hb
  split
  · exact h.congr rfl
  split
  · exact h
  split
  · exact h.congr rfl
  · next ha => exact (recallAdvance_safe h ha).congr rfl

lemma barrierResume_safe (r : Recall) (cb : Callback) (late : Bool) :
    Safe (barrierResume s r cb late).2 := by
  have hcondemned :
      Safe { s with barrier := { s.barrier with fenced := true, recallInFlight := false } } :=
    h.congr rfl
  have hacked : Safe { s with barrier := { s.barrier with recallAcked := true } } :=
    h.congr rfl
  unfold barrierResume
  dsimp only
  repeat' split
  all_goals first | exact h | exact hcondemned | exact hacked

end

/-! ## Recovery -/

lemma recover_owned (h : s.disk.Owned) (e : RestartEnv) :
    (recover expected s e).record.Owned ∧ (recover expected s e).disk.Owned := by
  have hmove : ∀ (s : Shared) next ok, s.record.Owned → s.disk.Owned →
      (s.recoveryTransition next ok).record.Owned ∧ (s.recoveryTransition next ok).disk.Owned := by
    intro s next ok hrecord hdisk
    unfold recoveryTransition
    split
    · exact ⟨hrecord, hdisk⟩
    · next r ht =>
      obtain ⟨owner, -, ht⟩ := Option.bind_eq_some_iff.mp ht
      have hr : r.Owned := fun _ => by simp [(transition_spec ht).2.1]
      exact ⟨hr, by cases ok; exacts [hdisk, hr]⟩
  unfold recover
  dsimp only
  repeat' split
  all_goals first | exact ⟨h, h⟩ | exact hmove _ _ _ h h

lemma recover_out (howned : s.disk.Owned) (h : s.disk.Unclean) (e : RestartEnv) :
    (recover expected s e).serving = false ∧ (recover expected s e).record.Out ∧
      (recover expected s e).disk.Unclean := by
  have hdisk := h
  obtain (hout | hout) | ⟨hstate, hmeta⟩ := h
  · simpa [recover, hout, Record.Out] using hdisk
  · simpa [recover, hout, Record.Out] using hdisk
  · obtain ⟨owner, howner⟩ := Option.isSome_iff_exists.mp (howned (by simp [hstate]))
    by_cases hfound : e.found <;> by_cases hok : e.ok <;>
      simp [recover, recoveryTransition, Record.transition, save, Record.Out,
        Record.Unclean, owner.ino_ne, hstate, hmeta, howner, hfound, hok]

lemma recover_safe (h : Safe s) (e : RestartEnv) : Safe (recover expected s e) := by
  have hgrants : (recover expected s e).grants = s.grants := by
    unfold recover recoveryTransition save
    grind
  refine ⟨(recover_owned h.disk e).1, (recover_owned h.disk e).2, fun g hg howed => ?_⟩
  have hunclean := (h.owed g (hgrants ▸ hg) howed).1
  exact ⟨(recover_out h.disk hunclean e).2.2, .inl (recover_out h.disk hunclean e).2.1⟩

/-! ## Runs -/

variable {ι : Type} [DecidableEq ι] {w : World ι}

lemma World.take_shared (w : World ι) (i : ι) (out : Next × Shared) :
    (w.take i out).shared = out.2 := by
  unfold World.take
  split <;> rfl

lemma run_safe (h : Safe s) (c : Choice) (pc : Pc) : Safe (pc.run file s c).2 := by
  cases pc with
  | idle => exact h
  | test | finish => exact h.congr rfl
  | bump =>
    rw [Pc.run]
    split
    · exact h
    · exact h.congr rfl
  | find =>
    rw [Pc.run]
    split
    · exact h
    split
    · exact h.congr rfl
    · exact h
  | build => exact h
  | begin client sid => exact barrierBegin_safe h client sid c.ok
  | publish rw sid =>
    obtain ⟨seqid, hpublish⟩ := grantPublish_eq s sid
    cases rw
    · exact h.congr (by simp [Pc.run, hpublish, gist, setStid])
    · exact h.congr rfl
  | returning sid mode => exact returnFixed_safe h sid mode c.ok
  | recalling r => exact barrierResume_safe h r c.cb c.late
  | retire => exact retire_safe h c.ok

/-- The step does not take an unaccepted return for an accepted one. -/
def Undisturbed (w : World ι) : Act ι → Prop
  | .request _ (.metadata _) => ¬ w.shared.barrier.Forgives
  | _ => True

instance (w : World ι) (a : Act ι) : Decidable (Undisturbed w a) := by
  unfold Undisturbed
  split <;> infer_instance

lemma step_safe (h : Safe w.shared) {a : Act ι} (ha : Undisturbed w a) :
    Safe (step file expected w a).shared := by
  cases a with
  | advance i c =>
    rw [step, World.take_shared]
    exact run_safe h c _
  | restart e => exact recover_safe h e
  | request i r =>
    rw [step]
    split
    · rw [World.take_shared]
      cases r with
      | layoutget rw client e => exact assign_safe h e
      | layoutcommit => exact layoutcommit_safe h ..
      | layoutreturn => exact layoutreturn_safe h ..
      | layouterror =>
        rw [Request.run]
        split
        · exact h
        · exact h.congr rfl
      | metadata late => exact metadataBarrier_safe h ha late
    · exact h

structure Start (w : World ι) : Prop where
  fresh : w.shared.grants = []
  record : w.shared.record.Owned
  disk : w.shared.disk.Owned

/-- **What is owed shows on disk.** Along every run of any number of handlers, with saves that fail
and restarts at any point, that takes no unaccepted return for an accepted one: while a write layout
has not had both its commit and its return accepted, the record on disk is not that of a clean file
in service, and recovery would fence or retire the file. -/
theorem owed_not_clean (hw : Start w) {acts : List (Act ι)}
    (hacts : Along (step file expected) Undisturbed w acts) :
    let s := (run (step file expected) w acts).shared
    (∃ g ∈ s.grants, g.Owed) → ¬ s.disk.Clean ∧
      ∀ e, (recover expected s e).serving = false ∧ (recover expected s e).record.Out := by
  intro s ⟨g, hg, howed⟩
  have hsafe : Safe s := run_invariant_along (I := fun w : World ι => Safe w.shared)
    (fun _ _ h ha => step_safe h ha) ⟨hw.record, hw.disk, by simp [hw.fresh]⟩ hacts
  have hunclean := (hsafe.owed g hg howed).1
  refine ⟨?_, fun e => ?_⟩
  · rintro ⟨hstate, hclean⟩
    simp_all [Record.Unclean, Record.Out]
  · exact (recover_out hsafe.disk hunclean e).imp_right And.left

/-- A file whose inventory is free, and a server with two handlers. -/
def freshWorld : World Bool where
  shared := ⟨true, ⟨.free, .clean, 0, none, 0⟩, ⟨.free, .clean, 0, none, 0⟩, [], .none, [], []⟩
  pc := fun _ => .idle
  reply := fun _ => none

def someFile : File := ⟨1, 1, by decide⟩

def calmAssign : AssignEnv := ⟨true, true, true, true, true, true⟩

/-- One step of a handler in which all goes well, or the save fails. -/
def going (i ok : Bool) : Act Bool := .advance i ⟨none, ok, .acked, false⟩

def writeLayout (i : Bool) (client : Nat) : List (Act Bool) :=
  .request i (.layoutget true client calmAssign) :: List.replicate 6 (going i true)

def step₁ : World Bool → Act Bool → World Bool := step someFile ⟨7, 6⟩

/-- A client writes, commits, and its return is seen and not saved. -/
def unsavedReturn : List (Act Bool) :=
  writeLayout true 1 ++ [.request true (.layoutcommit (some 1) ⟨1, 0⟩ true true),
    .request true (.layoutreturn (some 1) ⟨1, 0⟩ .rw), going true false]

/-- While the first handler has still to fence the file, an operation lets the second client write,
commit and return. -/
theorem owed_and_clean :
    let s := (run step₁ freshWorld (unsavedReturn ++ .request false (.metadata false) ::
      writeLayout false 2 ++ [.request false (.layoutcommit (some 2) ⟨1, 1⟩ true true),
        .request false (.layoutreturn (some 2) ⟨1, 1⟩ .rw), going false true])).shared
    (∃ g ∈ s.grants, g.Owed) ∧ s.disk.Clean ∧
      (recover ⟨7, 6⟩ s ⟨true, true, true⟩).serving = true := by
  decide

/-- The theorem on the run up to the failed save. -/
theorem owed_not_clean_unsaved :
    Start freshWorld ∧ Along step₁ Undisturbed freshWorld unsavedReturn ∧
    let s := (run step₁ freshWorld unsavedReturn).shared
    (∃ g ∈ s.grants, g.Owed) ∧ ¬ s.disk.Clean ∧
      ∀ e, (recover ⟨7, 6⟩ s e).serving = false ∧ (recover ⟨7, 6⟩ s e).record.Out := by
  have hstart : Start freshWorld := ⟨rfl, nofun, nofun⟩
  have halong : Along step₁ Undisturbed freshWorld unsavedReturn := by decide
  have howed : ∃ g ∈ (run step₁ freshWorld unsavedReturn).shared.grants, g.Owed := by decide
  exact ⟨hstart, halong, howed, owed_not_clean hstart halong howed⟩

end Reffs.Layout
