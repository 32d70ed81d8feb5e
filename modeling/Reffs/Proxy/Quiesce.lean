import Reffs.Lib.Machine
import Reffs.Lib.Tally

/-!
# The quiesce protocol of a listener

An operation on a proxy listener counts itself in `pls_active_buffer_refs` and then reads the state
of the listener: it is admitted if the listener is running, and takes itself out of the count
otherwise. The thread that brings the count to zero takes the drain mutex and signals the drain
condition. `ps_listener_stop` moves the state to draining, waits for the count to be zero, destroys
the table of write buffers and with it the condition and the mutex, and moves the state to stopped.

Each access to an atomic variable, the mutex or the condition is a step of its own, and threads
interleave in any way. No operation is inside when the stop passes its wait, and none is admitted
later.
-/

namespace Reffs.Proxy

open Tally Machine Function Option Or

/-- `enum ps_listener_state_kind`. -/
inductive ListenerState where
  | running | draining | stopped
  deriving DecidableEq, Repr

/-- Where a thread is in `ps_write_buffer_enter_quiesce_or_bail` and
`ps_write_buffer_leave_quiesce`. -/
inductive Place where
  | outside
  /-- It has counted itself, and has not read the state. -/
  | counted
  | admitted
  /-- It has read another state than running, and will take itself out of the count. -/
  | refused
  /-- It has brought the count to zero, and will lock the drain mutex. -/
  | notifying
  | locked
  /-- It has signalled the condition, and will unlock the mutex. -/
  | signalled
  deriving DecidableEq, Repr

/-- Where the thread in `ps_listener_stop` is. -/
inductive StopPlace where
  | before
  /-- The state is draining. -/
  | elected
  /-- It has the drain mutex, and will read the count. -/
  | checking
  | waiting
  /-- It has left the condition, and needs the mutex again. -/
  | woken
  /-- It has read a count of zero. -/
  | drained
  | destroying
  /-- The condition has been destroyed. -/
  | condGone
  /-- The mutex has been destroyed, too. -/
  | gone
  /-- The state is stopped. -/
  | returned
  deriving DecidableEq, Repr

def StopPlace.past : StopPlace → Bool
  | .before | .elected | .checking | .waiting | .woken => false
  | _ => true

/-- The fields of `struct ps_listener_state` that the protocol uses, and where the threads are. -/
structure Gate (ι : Type) where
  activeRefs : Nat
  state : ListenerState
  mutexHeld : Bool
  mutexLive : Bool
  condLive : Bool
  place : ι → Place
  stop : StopPlace

inductive GateAct (ι : Type) where
  | count (i : ι)
  | load (i : ι)
  | uncount (i : ι)
  | lock (i : ι)
  | broadcast (i : ι)
  | unlock (i : ι)
  | stop
  /-- The stop leaves the condition without a signal. -/
  | wake
  deriving DecidableEq, Repr

namespace Gate

variable {ι : Type} [DecidableEq ι]

def init : Gate ι := ⟨0, .running, false, true, true, fun _ => .outside, .before⟩

def move (g : Gate ι) (i : ι) (p : Place) : Gate ι :=
  { g with place := Function.update g.place i p }

/-- The next step of `ps_listener_stop`. -/
def stopNext (g : Gate ι) : Option (Gate ι) :=
  match g.stop with
  | .before => some { g with state := .draining, stop := .elected }
  | .elected | .woken =>
    if g.mutexHeld then none else some { g with mutexHeld := true, stop := .checking }
  | .checking =>
    if 0 < g.activeRefs then some { g with mutexHeld := false, stop := .waiting }
    else some { g with stop := .drained }
  | .waiting => none
  | .drained => some { g with mutexHeld := false, stop := .destroying }
  | .destroying => some { g with condLive := false, stop := .condGone }
  | .condGone => some { g with mutexLive := false, stop := .gone }
  | .gone => some { g with state := .stopped, stop := .returned }
  | .returned => none

def next (g : Gate ι) : GateAct ι → Option (Gate ι)
  | .count i =>
    if g.place i = .outside then some { g.move i .counted with activeRefs := g.activeRefs + 1 }
      else none
  | .load i =>
    if g.place i = .counted then
      some (g.move i (if g.state = .running then .admitted else .refused))
    else none
  | .uncount i =>
    if g.place i = .admitted ∨ g.place i = .refused then
      some { g.move i (if g.activeRefs = 1 then .notifying else .outside) with
        activeRefs := g.activeRefs - 1 }
    else none
  | .lock i =>
    if g.place i = .notifying ∧ g.mutexHeld = false then
      some { g.move i .locked with mutexHeld := true }
    else none
  | .broadcast i =>
    if g.place i = .locked then
      some { g.move i .signalled with stop := if g.stop = .waiting then .woken else g.stop }
    else none
  | .unlock i =>
    if g.place i = .signalled then some { g.move i .outside with mutexHeld := false } else none
  | .stop => g.stopNext
  | .wake => if g.stop = .waiting then some { g with stop := .woken } else none

/-- A step that cannot be taken changes nothing. -/
def step (g : Gate ι) (a : GateAct ι) : Gate ι := (g.next a).getD g

def locks (g : Gate ι) : GateAct ι → Bool
  | .lock _ => true
  | .stop => g.stop == .elected || g.stop == .woken
  | _ => false

def signals : GateAct ι → Bool
  | .broadcast _ => true
  | _ => false

/-- The step locks a mutex, or signals a condition, that has been destroyed. -/
def Misuses (g : Gate ι) (a : GateAct ι) : Prop :=
  (g.next a).isSome = true ∧
    (g.locks a = true ∧ g.mutexLive = false ∨ signals a = true ∧ g.condLive = false)

def inCount : Place → Bool
  | .counted | .admitted | .refused => true
  | _ => false

/-! ## What holds in every state -/

variable [Fintype ι] {g g' : Gate ι}

structure Sound (g : Gate ι) : Prop where
  refs : g.activeRefs = tally inCount g.place
  past : g.stop.past = true → ∀ i, g.place i ≠ .admitted
  running : g.state = .running ↔ g.stop = .before
  cond : g.condLive = false → g.stop = .condGone ∨ g.stop = .gone ∨ g.stop = .returned
  mutex : g.mutexLive = false → g.stop = .gone ∨ g.stop = .returned

lemma Sound.move (h : g.Sound) (i : ι) (p : Place) (refs : Nat) (held : Bool)
    (hrefs : refs + (inCount (g.place i)).toNat = g.activeRefs + (inCount p).toNat)
    (hadmits : p = .admitted → g.state = .running) :
    Sound { g.move i p with activeRefs := refs, mutexHeld := held } where
  refs := by
    have hmoved := @tally_update _ _ _ inCount g.place _ i p
    have hcount := h.refs
    show refs = tally inCount (update g.place i p)
    omega
  past := by
    intro (hpast : g.stop.past) j
    show update g.place i p j ≠ .admitted
    by_cases hj : j = i
    · rw [hj, update_self]
      intro hp
      rw [h.running.mp (hadmits hp)] at hpast
      cases hpast
    · rw [update_of_ne hj]
      exact h.past hpast j
  running := h.running
  cond := h.cond
  mutex := h.mutex

section Stop

omit [DecidableEq ι]

lemma init_sound : Sound (init : Gate ι) where
  refs := (tally_eq_zero.mpr fun _ => rfl).symm
  past := nofun
  running := ⟨fun _ => rfl, fun _ => rfl⟩
  cond := nofun
  mutex := nofun

lemma Sound.live (h : g.Sound) (hpast : g.stop.past = false) : g.condLive ∧ g.mutexLive := by
  constructor
  · by_contra hcond
    rcases h.cond (Bool.eq_false_iff.mpr hcond) with heq | heq | heq <;> rw [heq] at hpast
      <;> cases hpast
  · by_contra hmutex
    rcases h.mutex (Bool.eq_false_iff.mpr hmutex) with heq | heq <;> rw [heq] at hpast
      <;> cases hpast

lemma Sound.wait (h : g.Sound) (stop : StopPlace) (held : Bool) (hfrom : g.stop.past = false)
    (hbefore : g.stop ≠ .before) (hto : stop.past = false) (hstop : stop ≠ .before) :
    Sound { g with mutexHeld := held, stop := stop } where
  refs := h.refs
  past := fun hpast => absurd (hto.symm.trans hpast) (by decide)
  running := ⟨fun hrunning => absurd (h.running.mp hrunning) hbefore, fun heq => absurd heq hstop⟩
  cond := fun hcond => absurd ((h.live hfrom).1.symm.trans hcond) (by decide)
  mutex := fun hmutex => absurd ((h.live hfrom).2.symm.trans hmutex) (by decide)

lemma Sound.finish (h : g.Sound) (g' : Gate ι) (hrefs : g'.activeRefs = g.activeRefs)
    (hplace : g'.place = g.place) (hnone : ∀ i, g.place i ≠ .admitted)
    (hstate : g'.state ≠ .running) (hpast : g'.stop.past)
    (hcond : g'.condLive = false → g'.stop = .condGone ∨ g'.stop = .gone ∨ g'.stop = .returned)
    (hmutex : g'.mutexLive = false → g'.stop = .gone ∨ g'.stop = .returned) : Sound g' where
  refs := by rw [hrefs, hplace, h.refs]
  past := by
    intro _ i
    rw [hplace]
    exact hnone i
  running := by
    refine ⟨fun hrunning => absurd hrunning hstate, fun hbefore => ?_⟩
    rw [hbefore] at hpast
    cases hpast
  cond := hcond
  mutex := hmutex

lemma Sound.stopNext (h : g.Sound) (hnext : g.stopNext = some g') : g'.Sound := by
  have hdraining : g.stop ≠ .before → g.state ≠ .running :=
    fun hne hrunning => hne (h.running.mp hrunning)
  have hcond := h.cond
  have hmutex := h.mutex
  unfold Gate.stopNext at hnext
  cases hstop : g.stop <;> rw [hstop] at hnext hdraining hcond hmutex <;> dsimp only at hnext
  case before =>
    cases hnext
    have hlive := h.live (by rw [hstop]; rfl)
    exact ⟨h.refs, nofun, ⟨nofun, nofun⟩, fun hc => absurd (hlive.1.symm.trans hc) (by decide),
      fun hm => absurd (hlive.2.symm.trans hm) (by decide)⟩
  case elected =>
    split at hnext <;> cases hnext
    exact h.wait .checking true (by rw [hstop]; rfl) (by rw [hstop]; nofun) rfl nofun
  case woken =>
    split at hnext <;> cases hnext
    exact h.wait .checking true (by rw [hstop]; rfl) (by rw [hstop]; nofun) rfl nofun
  case checking =>
    split at hnext <;> cases hnext
    · exact h.wait .waiting false (by rw [hstop]; rfl) (by rw [hstop]; nofun) rfl nofun
    · next hzero =>
      -- the count is zero, so that nobody is admitted
      have hnone := tally_eq_zero.mp (show tally inCount g.place = 0 by have := h.refs; omega)
      have hlive := h.live (by rw [hstop]; rfl)
      refine h.finish _ rfl rfl (fun i hadmitted => ?_) (hdraining nofun) rfl
        (fun hc => absurd (hlive.1.symm.trans hc) (by decide))
        (fun hm => absurd (hlive.2.symm.trans hm) (by decide))
      have hout := hnone i
      rw [hadmitted] at hout
      cases hout
  case waiting => cases hnext
  case drained =>
    cases hnext
    exact h.finish _ rfl rfl (h.past (by rw [hstop]; rfl)) (hdraining nofun) rfl
      (fun hc => by simpa using hcond hc) (fun hm => by simpa using hmutex hm)
  case destroying =>
    cases hnext
    exact h.finish _ rfl rfl (h.past (by rw [hstop]; rfl)) (hdraining nofun) rfl
      (fun _ => inl rfl) (fun hm => by simpa using hmutex hm)
  case condGone =>
    cases hnext
    exact h.finish _ rfl rfl (h.past (by rw [hstop]; rfl)) (hdraining nofun) rfl
      (fun _ => inr (inl rfl)) (fun _ => inl rfl)
  case gone =>
    cases hnext
    exact h.finish _ rfl rfl (h.past (by rw [hstop]; rfl)) nofun rfl
      (fun _ => inr (inr rfl)) (fun _ => inr rfl)
  case returned => cases hnext

end Stop

lemma Sound.next (h : g.Sound) {a : GateAct ι} (hnext : g.next a = some g') : g'.Sound := by
  cases a with
  | count i =>
    obtain ⟨hplace, rfl⟩ := ite_some_none_eq_some.mp hnext
    exact h.move i .counted (g.activeRefs + 1) g.mutexHeld (by rw [hplace]; rfl) nofun
  | load i =>
    obtain ⟨hplace, rfl⟩ := ite_some_none_eq_some.mp hnext
    refine h.move i _ g.activeRefs g.mutexHeld ?_ ?_
    · rw [hplace]
      split <;> rfl
    · grind
  | uncount i =>
    obtain ⟨hplace, rfl⟩ := ite_some_none_eq_some.mp hnext
    have hin : inCount (g.place i) := by
      rcases hplace with hplace | hplace <;> rw [hplace] <;> rfl
    have hpos := tally_pos hin
    have hrefs := h.refs
    refine h.move i _ (g.activeRefs - 1) g.mutexHeld ?_ ?_
    · have hout : inCount (if g.activeRefs = 1 then .notifying else .outside) = false := by
        split <;> rfl
      rw [hin, hout]
      show g.activeRefs - 1 + 1 = g.activeRefs + 0
      omega
    · split <;> nofun
  | lock i =>
    obtain ⟨⟨hplace, -⟩, rfl⟩ := ite_some_none_eq_some.mp hnext
    exact h.move i .locked g.activeRefs true (by rw [hplace]; rfl) nofun
  | broadcast i =>
    obtain ⟨hplace, rfl⟩ := ite_some_none_eq_some.mp hnext
    have hmoved := h.move i .signalled g.activeRefs g.mutexHeld (by rw [hplace]; rfl) nofun
    by_cases hwaiting : g.stop = .waiting
    · rw [if_pos hwaiting]
      refine hmoved.wait .woken g.mutexHeld ?_ ?_ rfl nofun
      · show g.stop.past = false
        rw [hwaiting]
        rfl
      · show g.stop ≠ .before
        rw [hwaiting]
        nofun
    · rw [if_neg hwaiting]
      exact hmoved
  | unlock i =>
    obtain ⟨hplace, rfl⟩ := ite_some_none_eq_some.mp hnext
    exact h.move i .outside g.activeRefs false (by rw [hplace]; rfl) nofun
  | stop => exact h.stopNext hnext
  | wake =>
    obtain ⟨hwaiting, rfl⟩ := ite_some_none_eq_some.mp hnext
    exact h.wait .woken g.mutexHeld (by rw [hwaiting]; rfl) (by rw [hwaiting]; nofun) rfl nofun

omit [Fintype ι] in
lemma step_of_next {P : Gate ι → Prop} {a : GateAct ι} (hg : P g)
    (hnext : ∀ g', g.next a = some g' → P g') : P (g.step a) := by
  unfold step
  cases hn : g.next a with
  | none => exact hg
  | some g' => exact hnext g' hn

lemma run_sound (as : List (GateAct ι)) : Sound (run step init as) :=
  run_invariant (fun _ _ h => step_of_next h fun _ hnext => h.next hnext) init_sound as

/-! ## Admission -/

section Admission

omit [Fintype ι]

omit [DecidableEq ι] in
lemma stopNext_place (hnext : g.stopNext = some g') :
    g'.place = g.place ∧ (g.state ≠ .running → g'.state ≠ .running) := by
  unfold stopNext at hnext
  cases hstop : g.stop <;> rw [hstop] at hnext <;> dsimp only at hnext
  case elected | woken =>
    split at hnext <;> cases hnext
    exact ⟨rfl, id⟩
  case checking => split at hnext <;> cases hnext <;> exact ⟨rfl, id⟩
  case before | gone =>
    cases hnext
    exact ⟨rfl, fun _ => nofun⟩
  case waiting | returned => cases hnext
  case drained | destroying | condGone =>
    cases hnext
    exact ⟨rfl, id⟩

lemma next_closed {a : GateAct ι} (hclosed : g.state ≠ .running) (hnext : g.next a = some g') :
    g'.state ≠ .running ∧ ∀ i, g'.place i = .admitted → g.place i = .admitted := by
  have hmoved : ∀ (j i : ι) (p : Place), p ≠ .admitted →
      update g.place j p i = .admitted → g.place i = .admitted := by grind
  cases a with
  | stop =>
    obtain ⟨hplace, hstate⟩ := stopNext_place hnext
    exact ⟨hstate hclosed, fun i hi => by rwa [hplace] at hi⟩
  | wake =>
    obtain ⟨-, rfl⟩ := ite_some_none_eq_some.mp hnext
    exact ⟨hclosed, fun _ hi => hi⟩
  | load j =>
    obtain ⟨-, rfl⟩ := ite_some_none_eq_some.mp hnext
    exact ⟨hclosed, fun i => hmoved j i _ (by rw [if_neg hclosed]; nofun)⟩
  | uncount j =>
    obtain ⟨-, rfl⟩ := ite_some_none_eq_some.mp hnext
    exact ⟨hclosed, fun i => hmoved j i _ (by split <;> nofun)⟩
  | count j | lock j | broadcast j | unlock j =>
    obtain ⟨-, rfl⟩ := ite_some_none_eq_some.mp hnext
    exact ⟨hclosed, fun i => hmoved j i _ nofun⟩

lemma run_closed (hclosed : g.state ≠ .running) (as : List (GateAct ι)) (i : ι)
    (hi : (run step g as).place i = .admitted) : g.place i = .admitted := by
  let I : Gate ι → Prop := fun g' => g'.state ≠ .running ∧ ∀ i, g'.place i = .admitted →
    g.place i = .admitted
  have hrun : I (run step g as) := by
    refine run_invariant (fun g₁ a h => ?_) ⟨hclosed, fun _ hi => hi⟩ as
    refine @step_of_next _ _ g₁ I a h fun g₂ hnext => ?_
    obtain ⟨hstate, hplace⟩ := next_closed h.1 hnext
    exact ⟨hstate, fun i hi => h.2 i (hplace i hi)⟩
  exact hrun.2 i hi

end Admission

/-! ## The mutex and the condition -/

/-- The step does not begin to destroy the condition and the mutex while a thread is between the
start of its enter and the end of its leave, and is no enter that starts when they have been
destroyed. -/
def Orderly (g : Gate ι) (a : GateAct ι) : Prop :=
  (a = .stop → g.stop = .destroying → ∀ i, g.place i = .outside) ∧
  ∀ i, a = .count i → g.condLive = true

instance : DecidablePred (Orderly g) := fun a =>
  inferInstanceAs (Decidable ((a = .stop → g.stop = .destroying → ∀ i, g.place i = .outside) ∧
    ∀ i, a = .count i → g.condLive = true))

/-- Nobody is around when the condition or the mutex is not there. -/
structure Deserted (g : Gate ι) : Prop where
  sound : g.Sound
  outside : g.stop = .condGone ∨ g.stop = .gone ∨ g.stop = .returned →
    g.condLive = false ∧ ∀ i, g.place i = .outside

lemma Deserted.next (h : g.Deserted) {a : GateAct ι} (ha : g.Orderly a)
    (hnext : g.next a = some g') : g'.Deserted := by
  refine ⟨h.sound.next hnext, fun hgone => ?_⟩
  have houtside := h.outside
  cases a with
  | stop =>
    rw [(stopNext_place hnext).1]
    unfold Gate.next Gate.stopNext at hnext
    cases hstop : g.stop <;> rw [hstop] at hnext houtside <;> dsimp only at hnext
    case destroying =>
      cases hnext
      exact ⟨rfl, ha.1 rfl hstop⟩
    case condGone =>
      cases hnext
      exact houtside (inl rfl)
    case gone =>
      cases hnext
      exact houtside (inr (inl rfl))
    all_goals
      try split at hnext
      all_goals
        cases hnext
        try simp at hgone
  | wake =>
    obtain ⟨-, rfl⟩ := ite_some_none_eq_some.mp hnext
    simp at hgone
  | count i =>
    obtain ⟨-, rfl⟩ := ite_some_none_eq_some.mp hnext
    exact absurd ((ha.2 i rfl).symm.trans (houtside hgone).1) (by decide)
  | broadcast i =>
    obtain ⟨hplace, rfl⟩ := ite_some_none_eq_some.mp hnext
    have hgone' : g.stop = .condGone ∨ g.stop = .gone ∨ g.stop = .returned := by grind
    exact absurd (hplace.symm.trans ((houtside hgone').2 i)) nofun
  | load i | unlock i =>
    obtain ⟨hplace, rfl⟩ := ite_some_none_eq_some.mp hnext
    exact absurd (hplace.symm.trans ((houtside hgone).2 i)) nofun
  | uncount i =>
    obtain ⟨hplace, rfl⟩ := ite_some_none_eq_some.mp hnext
    have hout := (houtside hgone).2 i
    rcases hplace with hplace | hplace <;> exact absurd (hplace.symm.trans hout) nofun
  | lock i =>
    obtain ⟨⟨hplace, -⟩, rfl⟩ := ite_some_none_eq_some.mp hnext
    exact absurd (hplace.symm.trans ((houtside hgone).2 i)) nofun

lemma run_deserted {as : List (GateAct ι)} (has : Machine.Along step Orderly init as) :
    Deserted (run step (init : Gate ι) as) :=
  run_invariant_along (fun _ _ h ha => step_of_next h fun _ hnext => h.next ha hnext)
    ⟨init_sound, by simp [init]⟩ has

lemma Deserted.not_misuses (h : g.Deserted) (a : GateAct ι) : ¬ g.Misuses a := by
  rintro ⟨hsome, hlock | hsignal⟩
  · obtain ⟨hlocks, hmutex⟩ := hlock
    have hstop := h.sound.mutex hmutex
    have hout := (h.outside (inr hstop)).2
    cases a with
    | lock i =>
      obtain ⟨g', hnext⟩ := isSome_iff_exists.mp hsome
      obtain ⟨⟨hplace, -⟩, -⟩ := ite_some_none_eq_some.mp hnext
      exact absurd (hplace.symm.trans (hout i)) nofun
    | stop => rcases hstop with hstop | hstop <;> simp [locks, hstop] at hlocks
    | _ => cases hlocks
  · obtain ⟨hsignals, hcond⟩ := hsignal
    have hout := (h.outside (h.sound.cond hcond)).2
    cases a with
    | broadcast i =>
      obtain ⟨g', hnext⟩ := isSome_iff_exists.mp hsome
      obtain ⟨hplace, -⟩ := ite_some_none_eq_some.mp hnext
      exact absurd (hplace.symm.trans (hout i)) nofun
    | _ => cases hsignals

/-- **The quiesce protocol.** In every interleaving, no operation that was admitted is between its
enter and its leave when the stop is past its wait, and none is admitted once the state is not
running. If every step is orderly, nobody locks the mutex or signals the condition when they have
been destroyed. -/
theorem quiesce_protocol (as : List (GateAct ι)) :
    ((Machine.run step init as).stop.past = true →
      ∀ i, (Machine.run step init as).place i ≠ .admitted) ∧
    ((Machine.run step init as).state ≠ .running → ∀ as' i,
      (Machine.run step (Machine.run step init as) as').place i = .admitted →
        (Machine.run step init as).place i = .admitted) ∧
    (Machine.Along step Orderly init as → ∀ a, ¬ (Machine.run step init as).Misuses a) :=
  ⟨(run_sound as).past, fun hclosed as' i => run_closed hclosed as' i,
    fun has a => (run_deserted has).not_misuses a⟩

def quietStop : List (GateAct (Fin 1)) :=
  [.count 0, .load 0, .uncount 0, .lock 0, .broadcast 0, .unlock 0, .stop, .stop, .stop, .stop,
    .stop, .stop, .stop]

theorem quietStop_protocol : (Machine.run step init quietStop).stop = .returned ∧
    ∀ a, ¬ (Machine.run step init quietStop).Misuses a :=
  ⟨by decide, (quiesce_protocol quietStop).2.2 (by decide)⟩

/-- An operation that comes to a listener that has stopped, and one that is late with its signal,
lock the mutex that has been destroyed. -/
theorem stopped_mutex_locked : (Machine.run step (init : Gate (Fin 1)) (List.replicate 7 .stop ++
      [.count 0, .load 0, .uncount 0])).Misuses (.lock 0) ∧
    (Machine.run step (init : Gate (Fin 1)) ([.count 0, .load 0, .uncount 0] ++
      List.replicate 7 .stop)).Misuses (.lock 0) :=
  ⟨⟨by decide, inl ⟨rfl, by decide⟩⟩, ⟨by decide, inl ⟨rfl, by decide⟩⟩⟩

end Gate

end Reffs.Proxy
