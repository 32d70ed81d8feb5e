import Mathlib.Data.List.Basic

/-!
# Runs of a deterministic machine

A machine is a step function `σ → ε → σ`; a run is a list of events taken one after the other. The
rules here turn what one step keeps into what a run keeps: `run_invariant` for every run, and
`run_invariant_along` for the runs whose every step meets a condition on the event and on the state
it is taken in (`Along`).
-/

namespace Machine

variable {σ ε : Type}

def run (step : σ → ε → σ) (s : σ) (es : List ε) : σ := es.foldl step s

/-- Every event of the run meets `ok` in the state it is taken in. -/
def Along (step : σ → ε → σ) (ok : σ → ε → Prop) : σ → List ε → Prop
  | _, [] => True
  | s, e :: es => ok s e ∧ Along step ok (step s e) es

instance decidableAlong (step : σ → ε → σ) (ok : σ → ε → Prop) [∀ s e, Decidable (ok s e)] :
    ∀ s es, Decidable (Along step ok s es)
  | _, [] => isTrue trivial
  | s, e :: es =>
    have := decidableAlong step ok (step s e) es
    inferInstanceAs (Decidable (ok s e ∧ Along step ok (step s e) es))

variable {step : σ → ε → σ} {ok : σ → ε → Prop} {I : σ → Prop}

@[simp] lemma run_nil (s : σ) : run step s [] = s := rfl

@[simp] lemma run_cons (s : σ) (e : ε) (es : List ε) :
    run step s (e :: es) = run step (step s e) es := rfl

lemma run_append (s : σ) (es fs : List ε) : run step s (es ++ fs) = run step (run step s es) fs :=
  List.foldl_append

lemma run_invariant_along (hstep : ∀ s e, I s → ok s e → I (step s e)) {s : σ}
    {es : List ε} (hs : I s) (hes : Along step ok s es) : I (run step s es) := by
  induction es generalizing s with
  | nil => exact hs
  | cons e es ih => exact ih (hstep s e hs hes.1) hes.2

lemma along_of_forall {P : ε → Prop} (hok : ∀ s e, P e → ok s e) {es : List ε}
    (hes : ∀ e ∈ es, P e) (s : σ) : Along step ok s es := by
  induction es generalizing s with
  | nil => trivial
  | cons e es ih =>
    exact ⟨hok s e (hes e List.mem_cons_self),
      ih (fun e' he' => hes e' (List.mem_cons_of_mem e he')) (step s e)⟩

lemma run_turns {P : σ → Prop} {s : σ} {es : List ε} (hstart : ¬ P s)
    (hend : P (run step s es)) : ∃ before e after, es = before ++ e :: after ∧
      ¬ P (run step s before) ∧ P (step (run step s before) e) := by
  induction es generalizing s with
  | nil => exact absurd hend hstart
  | cons e es ih =>
    by_cases hnow : P (step s e)
    · exact ⟨[], e, es, rfl, hstart, hnow⟩
    · obtain ⟨before, e', after, he, hbefore, hthen⟩ := ih hnow hend
      exact ⟨e :: before, e', after, congrArg (e :: ·) he, hbefore, hthen⟩

lemma run_invariant (hstep : ∀ s e, I s → I (step s e)) {s : σ} (hs : I s)
    (es : List ε) : I (run step s es) := by
  induction es generalizing s with
  | nil => exact hs
  | cons e es ih => exact ih (hstep s e hs)

end Machine
