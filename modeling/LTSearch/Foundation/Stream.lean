/-
# LTSearch.Foundation.Stream -- values drawn one after another from a state

A stream is a state with a function that draws the next value.  Filling buffers one after another
draws what one long buffer would get.  A stream that draws words in pairs, and hands out the two halves
of what it makes of a pair one by one, has its value `n` from the words `2·⌊n/2⌋` and `2·⌊n/2⌋ + 1`.
-/
import Mathlib

namespace LTSearch.Foundation

universe u

variable {σ τ : Type u} {α ω : Type}

/-! ## Drawing -/

/-- The state after `n` draws. -/
def drawn (next : σ → α × σ) : Nat → σ → σ
  | 0, s => s
  | n + 1, s => drawn next n (next s).2

/-- Value `n`. -/
def nth (next : σ → α × σ) (s : σ) (n : Nat) : α := (next (drawn next n s)).1

/-- The values for the places of a buffer, in order. -/
def fill (next : σ → α × σ) : (out : List α) → σ → List α × σ
  | [], s => ([], s)
  | _ :: out, s =>
      let (value, s) := next s
      let (values, s) := fill next out s
      (value :: values, s)

/-- Buffers one after another. -/
def fills (next : σ → α × σ) : (outs : List (List α)) → σ → List (List α) × σ
  | [], s => ([], s)
  | out :: outs, s =>
      let (values, s) := fill next out s
      let (rest, s) := fills next outs s
      (values :: rest, s)

variable {next : σ → α × σ}

theorem drawn_add (m n : Nat) (s : σ) : drawn next (m + n) s = drawn next n (drawn next m s) := by
  induction m generalizing s with
  | zero => simp [drawn]
  | succ m ih =>
      rw [Nat.succ_add]
      exact ih (next s).2

/-- A buffer gets the first values. -/
theorem fill_eq (out : List α) (s : σ) :
    fill next out s = ((List.range out.length).map (nth next s), drawn next out.length s) := by
  induction out generalizing s with
  | nil => rfl
  | cons slot out ih =>
      simp only [fill, ih, List.length_cons, List.range_succ_eq_map, List.map_cons, List.map_map]
      rfl

theorem fill_congr {out out' : List α} (h : out.length = out'.length) (s : σ) :
    fill next out s = fill next out' s := by
  rw [fill_eq, fill_eq, h]

/-- Buffers of any lengths get what one buffer of the total length gets. -/
theorem fills_eq (outs : List (List α)) (s : σ) :
    ((fills next outs s).1.flatten, (fills next outs s).2) = fill next outs.flatten s := by
  induction outs generalizing s with
  | nil => rfl
  | cons out outs ih =>
      have hrest := ih (drawn next out.length s)
      rw [fill_eq] at hrest ⊢
      simp only [Prod.mk.injEq] at hrest
      simp only [fills, fill_eq, List.flatten_cons, hrest, List.length_append, drawn_add,
        List.range_add, List.map_append, List.map_map]
      -- what the rest draws starts where the buffer ends
      refine congrArg (fun values => (_ ++ values, _)) (List.map_congr_left fun n _ => ?_)
      show nth next (drawn next out.length s) n = nth next s (out.length + n)
      rw [nth, nth, drawn_add]

/-- A shorter buffer gets a first part of what a longer one gets. -/
theorem fill_isPrefix {out out' : List α} (h : out.length ≤ out'.length) (s : σ) :
    (fill next out s).1 <+: (fill next out' s).1 := by
  rw [fill_eq, fill_eq]
  apply List.IsPrefix.map
  rw [← Nat.add_sub_cancel' h, List.range_add]
  exact List.prefix_append _ _

/-! ## Pairs -/

/-- The stream draws two words when nothing is pending, and the second half stays pending. -/
structure Pairs (next : τ → α × τ) (word : σ → ω × σ) (pair : ω → ω → α × α) (source : τ → σ)
    (pending : τ → Option α) : Prop where
  of_pending (t : τ) (a : α) : pending t = some a →
    (next t).1 = a ∧ source (next t).2 = source t ∧ pending (next t).2 = none
  of_none (t : τ) : pending t = none →
    (next t).1 = (pair (nth word (source t) 0) (nth word (source t) 1)).1 ∧
      source (next t).2 = drawn word 2 (source t) ∧
      pending (next t).2 = some (pair (nth word (source t) 0) (nth word (source t) 1)).2

namespace Pairs

variable {next : τ → α × τ} {word : σ → ω × σ} {pair : ω → ω → α × α} {source : τ → σ}
  {pending : τ → Option α}

/-- After whole pairs nothing is pending. -/
theorem drawn_double (h : Pairs next word pair source pending) {t : τ} (ht : pending t = none)
    (k : Nat) : pending (drawn next (2 * k) t) = none ∧
      source (drawn next (2 * k) t) = drawn word (2 * k) (source t) := by
  induction k with
  | zero => exact ⟨ht, rfl⟩
  | succ k ih =>
      obtain ⟨hpending, hsource⟩ := ih
      rw [show 2 * (k + 1) = 2 * k + 2 by omega, drawn_add, drawn_add, ← hsource]
      obtain ⟨-, hfirst, hhalf⟩ := h.of_none _ hpending
      obtain ⟨-, hsecond, hnone⟩ := h.of_pending _ _ hhalf
      exact ⟨hnone, hsecond.trans hfirst⟩

/-- Value `n` is one half of what is made of two words at known places. -/
theorem nth_eq (h : Pairs next word pair source pending) {t : τ} (ht : pending t = none) (n : Nat) :
    nth next t n =
      let both := pair (nth word (source t) (2 * (n / 2))) (nth word (source t) (2 * (n / 2) + 1))
      if n % 2 = 0 then both.1 else both.2 := by
  obtain ⟨hpending, hsource⟩ := h.drawn_double ht (n / 2)
  obtain ⟨hfirst, -, hhalf⟩ := h.of_none _ hpending
  have hword : ∀ i, nth word (source (drawn next (2 * (n / 2)) t)) i =
      nth word (source t) (2 * (n / 2) + i) := by
    intro i
    rw [hsource, nth, nth, drawn_add]
  rw [hword, hword] at hfirst hhalf
  dsimp only
  split
  · rename_i heven
    conv_lhs => rw [show n = 2 * (n / 2) by omega]
    exact hfirst
  · rename_i hodd
    conv_lhs => rw [show n = 2 * (n / 2) + 1 by omega, nth, drawn_add]
    exact (h.of_pending _ _ hhalf).1

end Pairs

end LTSearch.Foundation
