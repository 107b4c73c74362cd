/-
# LTSearch.Foundation.Run -- runs of a step function under a list of choices

A system whose nondeterminism is spelled out as a choice per step is a function
`step : σ → α → σ`, and a run is a fold of it over the choices made.  The two rules say what holds
at the end of every run: an invariant of the step, also when the step keeps it only as long as some
assumption about the whole run, which earlier states inherit from later ones, holds.
-/
import Mathlib

namespace LTSearch.Foundation

universe u v

variable {σ : Type u} {α : Type v}

/-- The state after the choices `as`. -/
def run (step : σ → α → σ) (s : σ) (as : List α) : σ :=
  as.foldl step s

variable {step : σ → α → σ}

@[simp]
theorem run_nil (s : σ) : run step s [] = s := rfl

@[simp]
theorem run_cons (s : σ) (a : α) (as : List α) : run step s (a :: as) = run step (step s a) as := rfl

theorem run_append (s : σ) (as bs : List α) :
    run step s (as ++ bs) = run step (run step s as) bs := by
  simp only [run, List.foldl_append]

/-- What every step keeps holds after every run. -/
theorem run_invariant (Inv : σ → Prop) (hstep : ∀ s a, Inv s → Inv (step s a)) {s : σ}
    (h : Inv s) (as : List α) : Inv (run step s as) := by
  induction as generalizing s with
  | nil => exact h
  | cons a as ih => exact ih (hstep s a h)

/-- What every step keeps, given that `Good` holds after it, holds after every run that ends in a
`Good` state, when states before a `Good` state are `Good`. -/
theorem run_invariant_of_good (Inv Good : σ → Prop)
    (hgood : ∀ s a, Good (step s a) → Good s)
    (hstep : ∀ s a, Inv s → Good (step s a) → Inv (step s a)) {s : σ} (h : Inv s)
    (as : List α) (hend : Good (run step s as)) : Inv (run step s as) := by
  induction as using List.reverseRecOn with
  | nil => exact h
  | append_singleton as a ih =>
      rw [run_append] at hend ⊢
      exact hstep _ _ (ih (hgood _ _ hend)) hend

/-- `Good` at the end of a run held at its start. -/
theorem good_of_run (Good : σ → Prop) (hgood : ∀ s a, Good (step s a) → Good s) {s : σ}
    (as : List α) (hend : Good (run step s as)) : Good s := by
  induction as generalizing s with
  | nil => exact hend
  | cons a as ih => exact hgood s a (ih hend)

/-- What does not hold at the start of a run and holds at its end came about in one of its steps. -/
theorem exists_step_of_run {P : σ → Prop} {s : σ} (hstart : ¬P s) {as : List α} (hend : P (run step s as)) :
    ∃ before a rest, as = before ++ a :: rest ∧ ¬P (run step s before) ∧
      P (step (run step s before) a) := by
  induction as using List.reverseRecOn with
  | nil => exact absurd hend hstart
  | append_singleton as a ih =>
      by_cases has : P (run step s as)
      · obtain ⟨before, a', rest, rfl, hbefore, hafter⟩ := ih has
        exact ⟨before, a', rest ++ [a], by rw [List.append_assoc, List.cons_append], hbefore, hafter⟩
      · rw [run_append] at hend
        exact ⟨as, a, [], rfl, has, hend⟩

/-- A counted loop: what round `k` takes from `k` rounds to one more holds after all of them. -/
theorem foldl_finRange {d : Nat} (Inv : Nat → σ → Prop) (round : σ → Fin d → σ)
    (hround : ∀ (k : Fin d) s, Inv k s → Inv (k + 1) (round s k)) {s : σ} (h : Inv 0 s) :
    Inv d ((List.finRange d).foldl round s) := by
  induction d with
  | zero => exact h
  | succ d ih =>
      rw [List.finRange_succ_last, List.foldl_append, List.foldl_map]
      exact hround (Fin.last d) _ (ih (fun s k => round s k.castSucc) fun k => hround k.castSucc)

end LTSearch.Foundation
