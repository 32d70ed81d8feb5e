import Reffs.Lib.SlotTable

/-!
# Undo logs

An operation that changes a map key by key can be taken back by a log of the values it overwrote:
`Covers orig cur log` says that the log holds original values, and that every key whose value may
have changed is in the log. Playing the log back then gives the original map (`Covers.replay`), both
over the changed map and over the original one.
-/

namespace UndoLog

open Function List

variable {κ υ : Type}

structure Covers (orig cur : κ → υ) (log : List (κ × υ)) : Prop where
  logged : ∀ k v, (k, v) ∈ log → v = orig k
  rest : ∀ k, (∀ v, (k, v) ∉ log) → cur k = orig k

lemma Covers.start (m : κ → υ) : Covers m m [] := ⟨by simp, fun _ _ => rfl⟩

variable {orig cur : κ → υ} {log : List (κ × υ)} {k : κ}

/-- What the log says holds of the original map as well. -/
lemma Covers.origin (h : Covers orig cur log) : Covers orig orig log :=
  ⟨h.logged, fun _ _ => rfl⟩

/-- Log the current value of a key that has no entry. -/
lemma Covers.note (h : Covers orig cur log)
    (hk : ∀ v, (k, v) ∉ log) : Covers orig cur (log ++ [(k, cur k)]) := by
  constructor
  · intro k' v hv
    rcases mem_append.mp hv with hv | hv
    · exact h.logged k' v hv
    · obtain ⟨rfl, rfl⟩ := Prod.mk.inj (mem_singleton.mp hv)
      exact h.rest k' hk
  · intro k' hno
    exact h.rest k' fun v hv => hno v (mem_append_left _ hv)

/-- Change a map at a key that has an entry. -/
lemma Covers.write {orig cur cur' : κ → υ} {log : List (κ × υ)} (h : Covers orig cur log) {k : κ}
    {v : υ} (hk : (k, v) ∈ log) (hcur : ∀ k', k' ≠ k → cur' k' = cur k') :
    Covers orig cur' log := by
  refine ⟨h.logged, fun k' hno => ?_⟩
  have hne : k' ≠ k := by rintro rfl; exact hno v hk
  rw [hcur k' hne]
  exact h.rest k' hno

/-- Log the value of a key that has no entry, and change the map there. -/
lemma Covers.noteWrite {cur' : κ → υ} (h : Covers orig cur log)
    (hk : ∀ v, (k, v) ∉ log) (hcur : ∀ k', k' ≠ k → cur' k' = cur k') :
    Covers orig cur' (log ++ [(k, cur k)]) :=
  (h.note hk).write (mem_append_right _ (mem_singleton_self _)) hcur

variable [DecidableEq κ]

def replay (log : List (κ × υ)) (m : κ → υ) : κ → υ :=
  log.foldl (fun m p => Function.update m p.1 p.2) m

/-- A key reads what some log entry for it says, or, without one, what it read before. -/
lemma replay_cases (log : List (κ × υ)) (m : κ → υ) (k : κ) :
    (∃ v, (k, v) ∈ log ∧ replay log m k = v) ∨ ((∀ v, (k, v) ∉ log) ∧ replay log m k = m k) := by
  induction log generalizing m with
  | nil => exact .inr ⟨fun _ => not_mem_nil, rfl⟩
  | cons p log ih =>
    rcases ih (update m p.1 p.2) with ⟨v, hv, h⟩ | ⟨hno, h⟩
    · exact .inl ⟨v, mem_cons_of_mem _ hv, h⟩
    · by_cases hk : p.1 = k
      · subst hk
        exact .inl ⟨p.2, mem_cons_self, h.trans (update_self ..)⟩
      · refine .inr ⟨fun v hv => ?_, h.trans (update_of_ne (Ne.symm hk) ..)⟩
        rcases mem_cons.mp hv with rfl | hv
        · exact hk rfl
        · exact hno v hv

lemma Covers.replay (h : Covers orig cur log) : UndoLog.replay log cur = orig := by
  funext k
  rcases replay_cases log cur k with ⟨v, hv, hk⟩ | ⟨hno, hk⟩
  · rw [hk, h.logged k v hv]
  · rw [hk, h.rest k hno]

end UndoLog
