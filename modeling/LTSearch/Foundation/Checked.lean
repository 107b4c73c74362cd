/-
# LTSearch.Foundation.Checked -- computations that can panic

A computation ends with a value, with an error of its own, or by a panic: an index or a slice out of
bounds, an assertion that fails, arithmetic that leaves the machine word.  `Total` says that it does
not panic, and is proved along the program: a sequence is total when its first half is and its second
half is for every value the first half can return.
-/
import LTSearch.Foundation.Checks

namespace LTSearch.Foundation

/-- How a computation stops without a value. -/
inductive Stop (ε : Type) where
  | error (e : ε)
  | panic (why : String)

/-- A computation with values in `α` and errors in `ε`. -/
abbrev Checked (ε α : Type) := Except (Stop ε) α

variable {ε ε' α β : Type}

namespace Checked

/-- Return an error. -/
def fail (e : ε) : Checked ε α := .error (.error e)

/-- Panic. -/
def panicked (why : String) : Checked ε α := .error (.panic why)

/-- `assert!`. -/
def assertThat (p : Prop) [Decidable p] (why : String) : Checked ε Unit :=
  if p then .ok () else panicked why

/-- Return an error when `p` holds. -/
def failIf (p : Prop) [Decidable p] (e : ε) : Checked ε Unit :=
  if p then fail e else .ok ()

/-- `map_err`. -/
def mapErr (f : ε → ε') : Checked ε α → Checked ε' α
  | .ok a => .ok a
  | .error (.error e) => .error (.error (f e))
  | .error (.panic why) => .error (.panic why)

/-- The result of code that cannot panic. -/
def lifted : Except ε α → Checked ε α
  | .ok a => .ok a
  | .error e => fail e

/-- `expect`: an error is a panic. -/
def expect (why : String) : Except ε' α → Checked ε α
  | .ok a => .ok a
  | .error _ => panicked why

/-- `match` on a result: the error becomes a value, a panic stays one. -/
def attempt : Checked ε α → Checked ε' (Except ε α)
  | .ok a => .ok (.ok a)
  | .error (.error e) => .ok (.error e)
  | .error (.panic why) => .error (.panic why)

/-- The words of a 64-bit machine. -/
def usizeSize : Nat := 2 ^ 64

/-- `a + b` on `usize`. -/
def usizeAdd (a b : Nat) : Checked ε Nat :=
  if a + b < usizeSize then .ok (a + b) else panicked "attempt to add with overflow"

/-- `a * b` on `usize`. -/
def usizeMul (a b : Nat) : Checked ε Nat :=
  if a * b < usizeSize then .ok (a * b) else panicked "attempt to multiply with overflow"

/-- `&xs[start..stop]`. -/
def slice (start stop : Nat) (xs : List α) : Checked ε (List α) :=
  if start ≤ stop ∧ stop ≤ xs.length then .ok ((xs.drop start).take (stop - start))
  else panicked "range out of bounds of slice"

/-- `xs[i]`. -/
def at' (i : Nat) (xs : List α) : Checked ε α :=
  match xs[i]? with
  | some a => .ok a
  | none => panicked "index out of bounds"

/-- `std::array::from_fn`, of a function that can stop. -/
def tabulate (n : Nat) (f : Nat → Checked ε α) : Checked ε (Vector α n) :=
  match h : (List.range n).mapM f with
  | .ok xs => .ok ⟨xs.toArray, by
      rw [List.size_toArray, ← (mapM_eq_ok_iff.mp h).length_eq, List.length_range]⟩
  | .error e => .error e

end Checked

open Checked

/-- The computation does not panic. -/
def Total (x : Checked ε α) : Prop := ∀ why, x ≠ .error (.panic why)

/-! ## What returned -/

@[simp]
theorem fail_eq_ok {e : ε} {a : α} : (fail e : Checked ε α) = .ok a ↔ False := by simp [fail]

@[simp]
theorem panicked_eq_ok {why : String} {a : α} : (panicked why : Checked ε α) = .ok a ↔ False := by
  simp [panicked]

@[simp]
theorem assertThat_eq_ok {p : Prop} [Decidable p] {why : String} {u : Unit} :
    (assertThat p why : Checked ε Unit) = .ok u ↔ p := by
  by_cases hp : p <;> simp [assertThat, hp]

@[simp]
theorem failIf_eq_ok {p : Prop} [Decidable p] {e : ε} {u : Unit} :
    (failIf p e : Checked ε Unit) = .ok u ↔ ¬p := by
  by_cases hp : p <;> simp [failIf, hp]

@[simp]
theorem mapErr_eq_ok {f : ε → ε'} {x : Checked ε α} {a : α} : x.mapErr f = .ok a ↔ x = .ok a := by
  rcases x with (e | why) | a' <;> simp [mapErr]

@[simp]
theorem lifted_eq_ok {x : Except ε α} {a : α} : lifted x = .ok a ↔ x = .ok a := by
  cases x <;> simp [lifted]

@[simp]
theorem expect_eq_ok {why : String} {x : Except ε' α} {a : α} :
    (expect why x : Checked ε α) = .ok a ↔ x = .ok a := by
  cases x <;> simp [expect]

@[simp]
theorem usizeAdd_eq_ok {a b c : Nat} :
    (usizeAdd a b : Checked ε Nat) = .ok c ↔ a + b < usizeSize ∧ a + b = c := by
  by_cases h : a + b < usizeSize <;> simp [usizeAdd, h]

@[simp]
theorem usizeMul_eq_ok {a b c : Nat} :
    (usizeMul a b : Checked ε Nat) = .ok c ↔ a * b < usizeSize ∧ a * b = c := by
  by_cases h : a * b < usizeSize <;> simp [usizeMul, h]

@[simp]
theorem slice_eq_ok {start stop : Nat} {xs ys : List α} :
    (slice start stop xs : Checked ε (List α)) = .ok ys ↔
      (start ≤ stop ∧ stop ≤ xs.length) ∧ (xs.drop start).take (stop - start) = ys := by
  by_cases h : start ≤ stop ∧ stop ≤ xs.length <;> simp [slice, h]

@[simp]
theorem at'_eq_ok {i : Nat} {xs : List α} {a : α} :
    (at' i xs : Checked ε α) = .ok a ↔ xs[i]? = some a := by
  unfold at'
  cases xs[i]? <;> simp

/-- An array is built when each of its entries is. -/
theorem tabulate_isOk {n : Nat} {f : Nat → Checked ε α} (h : ∀ i, i < n → ∃ a, f i = .ok a) :
    ∃ xs, tabulate n f = .ok xs := by
  obtain ⟨xs, hxs⟩ := mapM_isOk fun i hi => h i (List.mem_range.mp hi)
  unfold tabulate
  split
  · exact ⟨_, rfl⟩
  · rename_i herr
    rw [hxs] at herr
    cases herr

/-! ## What does not panic -/

namespace Total

theorem ok (a : α) : Total (.ok a : Checked ε α) := by
  intro why h
  cases h

theorem fail (e : ε) : Total (Checked.fail e : Checked ε α) := by
  intro why h
  cases h

theorem bind {x : Checked ε α} {f : α → Checked ε β} (hx : Total x)
    (hf : ∀ a, x = .ok a → Total (f a)) : Total (x >>= f) := by
  intro why h
  rcases bind_eq_error.mp h with h | ⟨a, ha, h⟩
  · exact hx why h
  · exact hf a ha why h

theorem map {x : Checked ε α} {f : α → β} (hx : Total x) : Total (f <$> x) := by
  rcases x with (e | why) | a
  · intro why h
    cases h
  · exact absurd rfl (hx why)
  · exact ok _

theorem mapErr {x : Checked ε α} {f : ε → ε'} (hx : Total x) : Total (x.mapErr f) := by
  rcases x with (e | why) | a
  · exact fail _
  · exact absurd rfl (hx why)
  · exact ok _

theorem attempt {x : Checked ε α} (hx : Total x) : Total (x.attempt : Checked ε' _) := by
  rcases x with (e | why) | a
  · exact ok _
  · exact absurd rfl (hx why)
  · exact ok _

theorem lifted (x : Except ε α) : Total (Checked.lifted x) := by
  cases x with
  | ok a => exact ok a
  | error e => exact fail e

theorem failIf (p : Prop) [Decidable p] (e : ε) : Total (Checked.failIf p e) := by
  unfold Checked.failIf
  split
  · exact fail e
  · exact ok ()

theorem usizeAdd {a b : Nat} (h : a + b < usizeSize) : Total (Checked.usizeAdd a b : Checked ε Nat) := by
  unfold Checked.usizeAdd
  rw [if_pos h]
  exact ok _

theorem usizeMul {a b : Nat} (h : a * b < usizeSize) : Total (Checked.usizeMul a b : Checked ε Nat) := by
  unfold Checked.usizeMul
  rw [if_pos h]
  exact ok _

theorem slice {start stop : Nat} {xs : List α} (h : start ≤ stop) (h' : stop ≤ xs.length) :
    Total (Checked.slice start stop xs : Checked ε (List α)) := by
  unfold Checked.slice
  rw [if_pos ⟨h, h'⟩]
  exact ok _

theorem ite {p : Prop} [Decidable p] {x y : Checked ε α} (hx : p → Total x) (hy : ¬p → Total y) :
    Total (if p then x else y) := by
  split
  · exact hx ‹_›
  · exact hy ‹_›

theorem mapM {l : List α} {f : α → Checked ε β} (h : ∀ a ∈ l, Total (f a)) : Total (l.mapM f) := by
  intro why hm
  obtain ⟨a, ha, hfa⟩ := mapM_eq_error hm
  exact h a ha why hfa

theorem forM {l : List α} {f : α → Checked ε Unit} (h : ∀ a ∈ l, Total (f a)) :
    Total (l.forM f) := by
  intro why hm
  obtain ⟨a, ha, hfa⟩ := forM_eq_error hm
  exact h a ha why hfa

end Total

end LTSearch.Foundation
