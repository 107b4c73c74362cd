/-
# LTSearch.Foundation.Shrinking -- taking away until it fits

A state is made smaller step by step until its cost is within a budget, or nothing is left to take
away.  What a step takes away does not depend on the budget, so a larger budget stops no later.
-/
import Mathlib

namespace LTSearch.Foundation

universe u

/-- A way to make a state smaller. -/
structure Shrinking (σ : Type u) where
  step : σ → Option σ
  size : σ → Nat
  size_lt {s s' : σ} : step s = some s' → size s' < size s

namespace Shrinking

variable {σ : Type u} (S : Shrinking σ) (cost : σ → Nat)

/-- Steps until the cost is within the budget. -/
def fitTo (budget : Nat) (s : σ) : σ :=
  if cost s ≤ budget then s
  else
    match _h : S.step s with
    | none => s
    | some s' => fitTo budget s'
termination_by S.size s
decreasing_by exact S.size_lt _h

variable {S cost} {budget budget' : Nat} {s s' : σ}

theorem fitTo_of_le (h : cost s ≤ budget) : S.fitTo cost budget s = s := by
  rw [fitTo, if_pos h]

theorem fitTo_of_none (h : S.step s = none) : S.fitTo cost budget s = s := by
  rw [fitTo]
  split
  · rfl
  · split
    · rfl
    · rename_i heq
      rw [h] at heq
      cases heq

theorem fitTo_of_some (hcost : ¬cost s ≤ budget) (h : S.step s = some s') :
    S.fitTo cost budget s = S.fitTo cost budget s' := by
  rw [fitTo, if_neg hcost]
  split
  · rename_i heq
    rw [h] at heq
    cases heq
  · rename_i heq
    rw [h] at heq
    injection heq with heq
    rw [heq]

/-- The induction over a run: it stops at once, or after one step more. -/
theorem fitTo_induction {P : σ → σ → Prop} (budget : Nat)
    (hfits : ∀ s, cost s ≤ budget → P s s) (hnone : ∀ s, S.step s = none → P s s)
    (hstep : ∀ s s' t, ¬cost s ≤ budget → S.step s = some s' → P s' t → P s t) (s : σ) :
    P s (S.fitTo cost budget s) := by
  induction hsize : S.size s using Nat.strong_induction_on generalizing s with
  | _ size ih =>
      by_cases hcost : cost s ≤ budget
      · rw [fitTo_of_le hcost]
        exact hfits s hcost
      · cases hs : S.step s with
        | none =>
            rw [fitTo_of_none hs]
            exact hnone s hs
        | some s' =>
            rw [fitTo_of_some hcost hs]
            exact hstep s s' _ hcost hs (ih _ (hsize ▸ S.size_lt hs) s' rfl)

/-- What every step keeps, from a state to a later one, holds between the ends of a run. -/
theorem fitTo_keeps {R : σ → σ → Prop} (hrefl : ∀ s, R s s)
    (hstep : ∀ s s' t, S.step s = some s' → R s' t → R s t) (budget : Nat) (s : σ) :
    R s (S.fitTo cost budget s) :=
  fitTo_induction budget (fun s _ => hrefl s) (fun s _ => hrefl s)
    (fun s s' t _ h => hstep s s' t h) s

/-- In the end it fits, or nothing is left to take away. -/
theorem fitTo_fits (budget : Nat) (s : σ) :
    cost (S.fitTo cost budget s) ≤ budget ∨ S.step (S.fitTo cost budget s) = none :=
  fitTo_induction (P := fun _ t => cost t ≤ budget ∨ S.step t = none) budget
    (fun _ h => .inl h) (fun _ h => .inr h) (fun _ _ _ _ _ h => h) s

theorem size_fitTo_le (budget : Nat) (s : σ) : S.size (S.fitTo cost budget s) ≤ S.size s := by
  apply fitTo_keeps (R := fun s t => S.size t ≤ S.size s)
  · exact fun s => le_rfl
  · exact fun s s' t h hle => hle.trans (S.size_lt h).le

/-- Nothing is taken away exactly if it fits or there is nothing to take away. -/
theorem fitTo_eq_self_iff : S.fitTo cost budget s = s ↔ cost s ≤ budget ∨ S.step s = none := by
  constructor
  · intro h
    by_contra hneither
    rw [not_or] at hneither
    obtain ⟨s', hs'⟩ := Option.ne_none_iff_exists'.mp hneither.2
    rw [fitTo_of_some hneither.1 hs'] at h
    have hle : S.size (S.fitTo cost budget s') ≤ S.size s' := size_fitTo_le budget s'
    rw [h] at hle
    exact (S.size_lt hs').not_ge hle
  · rintro (h | h)
    · exact fitTo_of_le h
    · exact fitTo_of_none h

/-- A smaller budget goes on from where a larger one stops. -/
theorem fitTo_fitTo (h : budget ≤ budget') (s : σ) :
    S.fitTo cost budget (S.fitTo cost budget' s) = S.fitTo cost budget s := by
  apply fitTo_induction (P := fun s t => S.fitTo cost budget t = S.fitTo cost budget s) budget'
  · exact fun s _ => rfl
  · exact fun s _ => rfl
  · intro s s' t hcost hs ht
    rw [ht, fitTo_of_some (fun hle => hcost (hle.trans h)) hs]

end Shrinking

end LTSearch.Foundation
