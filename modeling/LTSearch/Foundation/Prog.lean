/-
# LTSearch.Foundation.Prog -- programs over atomic operations

A program asks for one operation after another and goes on with the answers it gets.  What an
operation does is not said here: a machine (`Foundation.Interleaving`) gives it a meaning, and may
let any number of programs take turns between two operations of one of them.  Programs are trees, so
every program stops; a loop is written by recursion on the list or the number it goes through.
-/
import Mathlib

namespace LTSearch.Foundation

/-- The operations that programs may ask for, each with the type of its answers. -/
structure Signature where
  Op : Type
  Ans : Op → Type

/-- A program with results in `α`. -/
inductive Prog (S : Signature) (α : Type) where
  | done (a : α)
  | call (op : S.Op) (next : S.Ans op → Prog S α)

namespace Prog

variable {S : Signature} {α β : Type}

/-- Run `p`, then the program its result selects. -/
protected def bind : Prog S α → (α → Prog S β) → Prog S β
  | done a, f => f a
  | call op next, f => call op fun ans => (next ans).bind f

instance : Monad (Prog S) where
  pure := done
  bind := Prog.bind

/-- The program that asks for one operation and returns its answer. -/
def ask (op : S.Op) : Prog S (S.Ans op) := call op done

@[simp]
theorem pure_eq (a : α) : (pure a : Prog S α) = done a := rfl

@[simp]
theorem done_bind (a : α) (f : α → Prog S β) : done a >>= f = f a := rfl

@[simp]
theorem call_bind (op : S.Op) (next : S.Ans op → Prog S α) (f : α → Prog S β) :
    call op next >>= f = call op fun ans => next ans >>= f := rfl

/-! ## The operations a program may reach -/

/-- Every operation the program asks for, whatever the answers, is one of `p`. -/
def Within (ops : S.Op → Prop) : Prog S α → Prop
  | done _ => True
  | call op next => ops op ∧ ∀ ans, (next ans).Within ops

variable {ops : S.Op → Prop}

theorem within_ask {op : S.Op} (h : ops op) : (ask op).Within ops :=
  ⟨h, fun _ => trivial⟩

theorem Within.mono {ops' : S.Op → Prop} (himp : ∀ op, ops op → ops' op) {p : Prog S α}
    (h : p.Within ops) : p.Within ops' := by
  induction p with
  | done a => trivial
  | call op next ih => exact ⟨himp op h.1, fun ans => ih ans (h.2 ans)⟩

theorem Within.bind {p : Prog S α} {f : α → Prog S β} (hp : p.Within ops)
    (hf : ∀ a, (f a).Within ops) : (p >>= f).Within ops := by
  induction p with
  | done a => exact hf a
  | call op next ih => exact ⟨hp.1, fun ans => ih ans (hp.2 ans)⟩

/-! ## Programs that may fail -/

variable {ε : Type}

theorem Within.bindExcept {p : ExceptT ε (Prog S) α} {f : α → ExceptT ε (Prog S) β}
    (hp : p.run.Within ops) (hf : ∀ a, (f a).run.Within ops) : (p >>= f).run.Within ops := by
  refine Within.bind hp fun r => ?_
  cases r with
  | ok a => exact hf a
  | error e => trivial

end Prog

end LTSearch.Foundation
