/-
# LTSearch.Foundation.CallBound -- how many operations a program asks for

A bound on the operations holds whatever they answer, so a program with a bound has ended once it has
had that many turns.
-/
import LTSearch.Foundation.Interleaving

namespace LTSearch.Foundation

variable {S : Signature} {α β ε : Type}

namespace Prog

/-- Whatever the answers, the program asks for at most so many operations. -/
def CallsAtMost : Prog S α → Nat → Prop
  | .done _, _ => True
  | .call _ _, 0 => False
  | .call _ next, n + 1 => ∀ ans, (next ans).CallsAtMost n

theorem CallsAtMost.mono {p : Prog S α} {m n : Nat} (h : p.CallsAtMost m) (hle : m ≤ n) :
    p.CallsAtMost n := by
  induction p generalizing m n with
  | done a => trivial
  | call op next ih =>
      cases m with
      | zero => exact h.elim
      | succ m =>
          obtain ⟨n, rfl⟩ : ∃ n', n = n' + 1 := ⟨n - 1, by omega⟩
          exact fun ans => ih ans (h ans) (Nat.le_of_succ_le_succ hle)

theorem callsAtMost_ask (op : S.Op) : (ask op).CallsAtMost 1 := fun _ => trivial

theorem CallsAtMost.bind {p : Prog S α} {f : α → Prog S β} {m n : Nat} (hp : p.CallsAtMost m)
    (hf : ∀ a, (f a).CallsAtMost n) : (p >>= f).CallsAtMost (m + n) := by
  induction p generalizing m with
  | done a => exact (hf a).mono (Nat.le_add_left n m)
  | call op next ih =>
      cases m with
      | zero => exact hp.elim
      | succ m =>
          rw [Nat.add_right_comm]
          exact fun ans => ih ans (hp ans)

/-! ## Programs that may fail -/

theorem CallsAtMost.bindExcept {p : ExceptT ε (Prog S) α} {f : α → ExceptT ε (Prog S) β}
    {m n : Nat} (hp : p.run.CallsAtMost m) (hf : ∀ a, (f a).run.CallsAtMost n) :
    (p >>= f).run.CallsAtMost (m + n) := by
  refine CallsAtMost.bind hp fun r => ?_
  cases r with
  | ok a => exact hf a
  | error e => trivial

theorem CallsAtMost.liftExcept {p : Prog S α} {n : Nat} (hp : p.CallsAtMost n) :
    (liftM p : ExceptT ε (Prog S) α).run.CallsAtMost n := by
  have hend : ∀ a : α, (done (.ok a) : Prog S (Except ε α)).CallsAtMost 0 := fun _ => trivial
  exact CallsAtMost.bind hp hend

/-- A check asks for nothing. -/
theorem callsAtMost_check (x : Except ε α) : (liftM x : ExceptT ε (Prog S) α).run.CallsAtMost 0 := by
  cases x <;> trivial

end Prog

variable {World Choice Thread : Type} [DecidableEq Thread] {M : Machine S World Choice Thread}

/-- After that many turns the thread is done. -/
theorem Machine.done_of_callsAtMost {c : Config S World Thread α} {t : Thread} {n : Nat}
    {turns : List (Thread × Choice)} (h : (c.threads t).CallsAtMost n)
    (hturns : ∀ turn ∈ turns, turn.1 = t) (hlength : n ≤ turns.length) :
    ∃ a, (run M.step c turns).threads t = .done a := by
  induction turns generalizing c n with
  | nil =>
      obtain rfl : n = 0 := Nat.le_zero.mp hlength
      show ∃ a, c.threads t = .done a
      cases hp : c.threads t with
      | done a => exact ⟨a, rfl⟩
      | call op next =>
          rw [hp] at h
          exact h.elim
  | cons turn rest ih =>
      obtain ⟨hturn, hrest⟩ := List.forall_mem_cons.mp hturns
      rw [run_cons]
      have hstep : ((M.step c turn).threads t).CallsAtMost (n - 1) := by
        unfold Machine.step
        rw [hturn]
        cases hp : c.threads t with
        | done a =>
            simp only [hp]
            trivial
        | call op next =>
            rw [hp] at h
            simp only [Function.update_self]
            cases n with
            | zero => exact h.elim
            | succ n => exact h _
      exact ih hstep hrest (by rw [List.length_cons] at hlength; omega)

end LTSearch.Foundation
