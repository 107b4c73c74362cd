/-
# LTSearch.Foundation.Digits -- decimal numbers of a fixed width

Padded with zeros to one width, numbers are in the order of their texts, and so are texts that begin
with them.
-/
import Mathlib

namespace LTSearch.Foundation

/-! ## The order of texts -/

section Order

variable {α : Type} [LT α]

/-- Where the first part decides, the rest does not count. -/
theorem append_lt_append_of_lt {l l' : List α} (hlength : l.length = l'.length) (h : l < l')
    (rest rest' : List α) : l ++ rest < l' ++ rest' := by
  induction l generalizing l' with
  | nil =>
      rw [List.length_nil, eq_comm, List.length_eq_zero_iff] at hlength
      subst hlength
      exact absurd h (List.not_lt_nil [])
  | cons a l ih =>
      cases l' with
      | nil => cases hlength
      | cons a' l' =>
          rw [List.cons_lt_cons_iff] at h
          show a :: (l ++ rest) < a' :: (l' ++ rest')
          rw [List.cons_lt_cons_iff]
          rcases h with h | ⟨heq, h⟩
          · exact .inl h
          · exact .inr ⟨heq, ih (Nat.succ.inj hlength) h⟩

end Order

/-! ## Padding -/

/-- The last `width` digits of a number. -/
def padded : (width value : Nat) → List Char
  | 0, _ => []
  | width + 1, value => padded width (value / 10) ++ [(value % 10).digitChar]

@[simp] theorem length_padded (width value : Nat) : (padded width value).length = width := by
  induction width generalizing value with
  | zero => rfl
  | succ width ih => simp [padded, ih]

theorem padded_zero (width : Nat) : padded width 0 = List.replicate width '0' := by
  induction width with
  | zero => rfl
  | succ width ih =>
      rw [padded, List.replicate_succ', Nat.zero_div, ih]
      rfl

/-- Zeros before the digits of a number that has no more than `width` of them. -/
theorem replicate_append_toDigits {width value : Nat} (h : value < 10 ^ width) (hwidth : 0 < width) :
    List.replicate (width - (Nat.toDigits 10 value).length) '0' ++ Nat.toDigits 10 value =
      padded width value := by
  induction width generalizing value with
  | zero => cases hwidth
  | succ width ih =>
      rcases Nat.lt_or_ge value 10 with hsmall | hlarge
      · rw [Nat.toDigits_of_lt_base hsmall, padded, Nat.div_eq_of_lt hsmall, padded_zero,
          Nat.mod_eq_of_lt hsmall]
        rfl
      · have hquotient : value / 10 < 10 ^ width := by
          rw [Nat.div_lt_iff_lt_mul (by decide), ← Nat.pow_succ]
          exact h
        have hwidth : 0 < width := by
          apply Nat.pos_of_ne_zero
          rintro rfl
          omega
        rw [Nat.toDigits_of_base_le (by decide) hlarge, padded, ← ih hquotient hwidth]
        simp

theorem digitChar_lt {a b : Nat} (h : a < b) (hb : b < 10) : a.digitChar < b.digitChar := by
  interval_cases b <;> interval_cases a <;> decide

/-- Of one width, the smaller number has the smaller text. -/
theorem padded_lt {width a b : Nat} (h : a < b) (hb : b < 10 ^ width) :
    padded width a < padded width b := by
  induction width generalizing a b with
  | zero => simp at hb; omega
  | succ width ih =>
      rcases Nat.lt_or_ge (a / 10) (b / 10) with hquotient | hquotient
      · apply append_lt_append_of_lt (by simp)
        apply ih hquotient
        rw [Nat.div_lt_iff_lt_mul (by decide), ← Nat.pow_succ]
        exact hb
      · -- the last digit decides
        have heq : a / 10 = b / 10 := by omega
        rw [padded, padded, heq]
        apply List.append_left_lt
        rw [List.cons_lt_cons_iff]
        exact .inl (digitChar_lt (by omega) (by omega))

end LTSearch.Foundation
