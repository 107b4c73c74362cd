/-
# LTSearch.Foundation.Attempts -- one program after another, each of which may stop anywhere

The actor is alone: nothing happens between two of its operations, so what others may do in the rules
of a contract is nothing.  An attempt runs the program under the choices it gets and stops when they
are used up, wherever it is; the next attempt starts from the world that is left.
-/
import LTSearch.Foundation.Interleaving

namespace LTSearch.Foundation

variable {S : Signature} {World Choice : Type} {α : Type}

/-- The contract of an actor that is alone; `ok` is what it may assume of the choices, where they are made. -/
def Contract.solo (M : Machine S World Choice Unit) (inv : World → Prop)
    (ok : S.Op → Choice → World → Prop) :
    Contract M where
  inv := inv
  change _ _ := True
  frame _ w w' := w' = w
  allowed _ op c w := ok op c w
  change_refl _ := trivial
  change_trans _ _ := trivial
  frame_refl _ _ := rfl
  frame_trans h h' := h'.trans h

variable {M : Machine S World Choice Unit} {inv : World → Prop}
  {ok : S.Op → Choice → World → Prop}

/-- Nothing happens in between. -/
theorem Contract.rely_solo {w w' : World} (h : (solo M inv ok).Rely () w w') : w' = w := h.2

/-- One operation of an actor that is alone. -/
theorem Contract.Safe.solo {op : S.Op} {Q : S.Ans op → World → Prop} {w : World}
    (h : ∀ c, inv w → ok op c w → inv (M.apply () op c w).2 ∧
      Q (M.apply () op c w).1 (M.apply () op c w).2) :
    (Contract.solo M inv ok).Safe () (Prog.ask op) Q w := by
  refine Contract.Safe.ask (P := fun w' => w' = w) (fun w₁ w₂ hrely _ h => ?_) rfl
    fun w' c hinv hsame hc => ?_
  · exact (Contract.rely_solo hrely).trans h
  · subst hsame
    obtain ⟨hinv', hQ⟩ := h c hinv hc
    refine ⟨⟨hinv', trivial, fun t ht => absurd rfl ht⟩, fun w'' hrely _ => ?_⟩
    rw [Contract.rely_solo hrely]
    exact hQ

/-- What an attempt under these choices leaves behind. -/
def Machine.attempt (M : Machine S World Choice Unit) (p : Prog S α) (w : World)
    (choices : List Choice) : World :=
  (run M.step { world := w, threads := fun _ => p } (choices.map fun c => ((), c))).world

/-- What a number of attempts, one after the other, leaves behind. -/
def Machine.attempts (M : Machine S World Choice Unit) (p : Prog S α) (w : World)
    (attempts : List (List Choice)) : World :=
  run (M.attempt p) w attempts

/-- Every operation of the attempts is made under a choice that it may assume. -/
def Machine.AttemptsAllowed (M : Machine S World Choice Unit) (ok : S.Op → Choice → World → Prop)
    (p : Prog S α) : World → List (List Choice) → Prop
  | _, [] => True
  | w, attempt :: rest =>
      M.Allows (fun _ => ok) { world := w, threads := fun _ => p } (attempt.map fun c => ((), c)) ∧
        M.AttemptsAllowed ok p (M.attempt p w attempt) rest

/-- What all choices are may be assumed of them everywhere. -/
theorem Machine.AttemptsAllowed.mono {ok ok' : S.Op → Choice → World → Prop} {p : Prog S α} {w : World}
    {attempts : List (List Choice)} (h : M.AttemptsAllowed ok p w attempts)
    (himp : ∀ op, ∀ attempt ∈ attempts, ∀ c ∈ attempt, ∀ w, ok op c w → ok' op c w) :
    M.AttemptsAllowed ok' p w attempts := by
  induction attempts generalizing w with
  | nil => trivial
  | cons attempt rest ih =>
      obtain ⟨hattempt, hrest⟩ := h
      refine ⟨hattempt.mono fun _ op w turn hturn => ?_, ?_⟩
      · obtain ⟨c, hc, rfl⟩ := List.mem_map.mp hturn
        exact himp op attempt List.mem_cons_self c hc w
      · exact ih hrest fun op attempt hmem => himp op attempt (List.mem_cons_of_mem _ hmem)

theorem Machine.attemptsAllowed_true (M : Machine S World Choice Unit) (p : Prog S α) (w : World)
    (attempts : List (List Choice)) : M.AttemptsAllowed (fun _ _ _ => True) p w attempts := by
  induction attempts generalizing w with
  | nil => trivial
  | cons attempt rest ih =>
      refine ⟨?_, ih _⟩
      exact Contract.allowed_of_forall (K := Contract.solo M (fun _ => True) fun _ _ _ => True)
        (fun _ _ _ _ => trivial) _ _

/-- A program that is safe in every world of the invariant keeps it, wherever its attempts stop. -/
theorem Machine.attempts_inv {p : Prog S α} {Q : α → World → Prop}
    (hsafe : ∀ w, inv w → (Contract.solo M inv ok).Safe () p Q w) {w : World} (hinv : inv w)
    {attempts : List (List Choice)} (hok : M.AttemptsAllowed ok p w attempts) :
    inv (M.attempts p w attempts) := by
  induction attempts generalizing w with
  | nil => exact hinv
  | cons attempt rest ih =>
      obtain ⟨hattempt, hrest⟩ := hok
      refine ih ?_ hrest
      exact (Contract.run_safe (K := Contract.solo M inv ok) (Q := fun _ => Q)
        (c := { world := w, threads := fun _ => p }) hinv (fun _ => hsafe w hinv) _ hattempt).1

end LTSearch.Foundation
