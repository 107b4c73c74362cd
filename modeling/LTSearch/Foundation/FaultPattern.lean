/-
# LTSearch.Foundation.FaultPattern -- a program under a pattern of choices

The choices of a run are given in advance, one for each step, so that which operation goes wrong is
data.  A part of a program is undisturbed if every step it makes is under a good choice.
-/
import LTSearch.Foundation.Interleaving

namespace LTSearch.Foundation

variable {S : Signature} {World Choice Thread : Type} {α β : Type}

/-- The machine under a pattern.  The world counts the steps. -/
def Machine.timed (M : Machine S World Choice Thread) :
    Machine S (World × Nat) (Nat → Choice) Thread where
  apply t op pattern w :=
    let result := M.apply t op (pattern w.2) w.1
    (result.1, (result.2, w.2 + 1))

namespace Machine

variable {M : Machine S World Choice Thread} {t : Thread}

/-- What no operation of the program undoes holds at its end. -/
theorem alone_within {choice : Choice} {ops : S.Op → Prop} {P : World → Prop} {p : Prog S α} {w : World}
    (hp : p.Within ops) (hstep : ∀ op w, ops op → P w → P (M.apply t op choice w).2) (hw : P w) :
    P (M.alone t choice p w).2 := by
  induction p generalizing w with
  | done a => exact hw
  | call op next ih => exact ih _ (hp.2 _) (hstep op w hp.1 hw)

variable (M t) (good : Choice → Prop) (pattern : Nat → Choice)

/-- Every step of the program is under a good choice. -/
def Undisturbed : Prog S α → World × Nat → Prop
  | .done _, _ => True
  | .call op next, w =>
      good (pattern w.2) ∧
        Undisturbed (next (M.timed.apply t op pattern w).1) (M.timed.apply t op pattern w).2

/-- Every step after one that has reported an error is under a good choice. -/
def QuietAfter (failed : (op : S.Op) → S.Ans op → Prop) : Prog S α → World × Nat → Prop
  | .done _, _ => True
  | .call op next, w =>
      let answer := (M.timed.apply t op pattern w).1
      (failed op answer →
          M.Undisturbed t good pattern (next answer) (M.timed.apply t op pattern w).2) ∧
        QuietAfter failed (next answer) (M.timed.apply t op pattern w).2

variable {M t good pattern}

theorem undisturbed_bind {p : Prog S α} {f : α → Prog S β} {w : World × Nat} :
    M.Undisturbed t good pattern (p >>= f) w ↔
      M.Undisturbed t good pattern p w ∧
        M.Undisturbed t good pattern (f (M.timed.alone t pattern p w).1)
          (M.timed.alone t pattern p w).2 := by
  induction p generalizing w with
  | done a => exact ⟨fun h => ⟨trivial, h⟩, And.right⟩
  | call op next ih => exact (and_congr_right fun _ => ih _).trans and_assoc.symm

/-- A part that begins after the last bad choice is undisturbed. -/
theorem undisturbed_of_good {p : Prog S α} {w : World × Nat} (h : ∀ n, w.2 ≤ n → good (pattern n)) :
    M.Undisturbed t good pattern p w := by
  induction p generalizing w with
  | done a => trivial
  | call op next ih => exact ⟨h w.2 le_rfl, ih _ fun n hn => h n (Nat.le_of_succ_le hn)⟩

/-- So is what follows an error in it. -/
theorem quietAfter_of_good {failed : (op : S.Op) → S.Ans op → Prop} {p : Prog S α} {w : World × Nat}
    (h : ∀ n, w.2 ≤ n → good (pattern n)) : M.QuietAfter t good pattern failed p w := by
  induction p generalizing w with
  | done a => trivial
  | call op next ih =>
      have hlater : ∀ n, w.2 + 1 ≤ n → good (pattern n) := fun n hn => h n (Nat.le_of_succ_le hn)
      exact ⟨fun _ => undisturbed_of_good hlater, ih _ hlater⟩

end Machine

end LTSearch.Foundation
