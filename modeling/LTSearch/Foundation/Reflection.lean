/-
# LTSearch.Foundation.Reflection -- reflections that leave the first coordinates alone

The matrix `1 − β·w·wᵀ` is a reflection where `β·wᵀw = 2`, and the identity where `β = 0`; either way
it is symmetric and its own inverse.  A vector that ends at row `k` upwards is reflected by looking at
its lower rows only, and what has no lower rows stays as it is.
-/
import Mathlib

namespace LTSearch.Foundation

open Matrix

variable {K : Type} [Field K] {ι : Type} [Fintype ι] [DecidableEq ι]

/-! ## Reflections -/

/-- `1 − β·w·wᵀ` -/
def reflection (β : K) (w : ι → K) : Matrix ι ι K := 1 - β • vecMulVec w w

/-- A reflection, or the identity. -/
def Reflects (β : K) (w : ι → K) : Prop := β = 0 ∨ β * (w ⬝ᵥ w) = (2 : ℕ)

theorem reflection_mulVec (β : K) (w x : ι → K) :
    reflection β w *ᵥ x = x - (β * (w ⬝ᵥ x)) • w := by
  rw [reflection, sub_mulVec, one_mulVec, smul_mulVec, vecMulVec_mulVec, op_smul_eq_smul, smul_smul]

theorem reflection_fixes {β : K} {w x : ι → K} (h : w ⬝ᵥ x = 0) : reflection β w *ᵥ x = x := by
  rw [reflection_mulVec, h, mul_zero, zero_smul, sub_zero]

omit [Fintype ι] in
theorem reflection_transpose (β : K) (w : ι → K) : (reflection β w)ᵀ = reflection β w := by
  rw [reflection, transpose_sub, transpose_one, transpose_smul, transpose_vecMulVec]

/-- A reflection undoes itself. -/
theorem reflection_mul_self {β : K} {w : ι → K} (h : Reflects β w) :
    reflection β w * reflection β w = 1 := by
  have hsquare : (β • vecMulVec w w) * (β • vecMulVec w w) = (β * (β * (w ⬝ᵥ w))) • vecMulVec w w := by
    rw [smul_mul_smul_comm, vecMulVec_mul_vecMulVec, vecMulVec_smul, smul_smul, mul_assoc]
  have htwice : β * (β * (w ⬝ᵥ w)) = β + β := by
    rcases h with rfl | h
    · ring
    · rw [h, Nat.cast_ofNat]
      ring
  rw [reflection, sub_mul, mul_sub, mul_sub, hsquare, htwice, one_mul, mul_one, one_mul, add_smul]
  abel

/-- A reflection is orthogonal. -/
theorem reflection_mem_orthogonalGroup {β : K} {w : ι → K} (h : Reflects β w) :
    reflection β w ∈ Matrix.orthogonalGroup ι K := by
  rw [mem_orthogonalGroup_iff, reflection_transpose]
  exact reflection_mul_self h

/-- The reflection along the difference of two vectors of one length sends the one to the other. -/
theorem reflection_sub_mulVec {x y : ι → K} (hlength : x ⬝ᵥ x = y ⬝ᵥ y)
    (hne : (x - y) ⬝ᵥ (x - y) ≠ 0) : reflection (2 / ((x - y) ⬝ᵥ (x - y))) (x - y) *ᵥ x = y := by
  have hdouble : (x - y) ⬝ᵥ (x - y) = 2 * ((x - y) ⬝ᵥ x) := by
    rw [sub_dotProduct, dotProduct_sub, dotProduct_sub, sub_dotProduct, dotProduct_comm x y, hlength]
    ring
  rw [reflection_mulVec, div_mul_eq_mul_div, ← hdouble, div_self hne, one_smul, sub_sub_cancel]

/-! ## The lower rows -/

section Lower

variable {d : Nat} {k : Fin d}

/-- The rows from `k` on. -/
def lower (k : Fin d) (c : Fin d → K) (i : Fin (d - k)) : K := c ⟨k + i, by omega⟩

/-- Other rows from `k` on. -/
def setLower (k : Fin d) (y : Fin (d - k) → K) (c : Fin d → K) (i : Fin d) : K :=
  if h : k ≤ i then y ⟨i - k, by omega⟩ else c i

omit [Field K] in
theorem setLower_of_lt {y : Fin (d - k) → K} {c : Fin d → K} {i : Fin d} (h : i < k) :
    setLower k y c i = c i := dif_neg (not_le.mpr h)

omit [Field K] in
@[simp] theorem setLower_add (y : Fin (d - k) → K) (c : Fin d → K) (i : Fin (d - k)) :
    setLower k y c ⟨k + i, by omega⟩ = y i := by
  rw [setLower, dif_pos (Fin.le_def.mpr (Nat.le_add_right _ _))]
  exact congrArg y (Fin.ext (Nat.add_sub_cancel_left _ _))

/-- A row is above `k` or one of the lower ones. -/
theorem lt_or_lower (k i : Fin d) : i < k ∨ ∃ r : Fin (d - k), i = ⟨k + r, by omega⟩ := by
  rcases lt_or_ge i k with h | h
  · exact .inl h
  · exact .inr ⟨⟨i - k, by omega⟩, Fin.ext (Nat.add_sub_of_le h).symm⟩

/-- Only the lower rows count for a vector without upper ones. -/
theorem setLower_dotProduct (v : Fin (d - k) → K) (c : Fin d → K) :
    setLower k v 0 ⬝ᵥ c = v ⬝ᵥ lower k c := by
  refine (Fintype.sum_of_injective (fun i : Fin (d - k) => (⟨k + i, by omega⟩ : Fin d)) ?_ _ _ ?_
    fun i => ?_).symm
  · exact fun i j h => Fin.ext (Nat.add_left_cancel (Fin.mk.inj h))
  · intro i hi
    rcases lt_or_lower k i with h | ⟨r, rfl⟩
    · rw [setLower_of_lt h, Pi.zero_apply, zero_mul]
    · exact absurd ⟨r, rfl⟩ hi
  · rw [setLower_add]
    rfl

omit [Field K] in
@[simp] theorem lower_setLower (v : Fin (d - k) → K) (c : Fin d → K) : lower k (setLower k v c) = v :=
  funext fun i => setLower_add v c i

/-- A reflection along lower rows is the reflection of the lower rows. -/
theorem reflection_setLower_mulVec (β : K) (v : Fin (d - k) → K) (c : Fin d → K) :
    reflection β (setLower k v 0) *ᵥ c = setLower k (reflection β v *ᵥ lower k c) c := by
  rw [reflection_mulVec, reflection_mulVec, setLower_dotProduct]
  funext i
  rcases lt_or_lower k i with h | ⟨r, rfl⟩
  · simp [setLower_of_lt h]
  · simp [lower]

theorem reflects_setLower {β : K} {v : Fin (d - k) → K} (h : Reflects β v) :
    Reflects β (setLower k v 0) := by
  rwa [Reflects, setLower_dotProduct, lower_setLower]

/-- What has no lower rows stays. -/
theorem reflection_setLower_fixes (β : K) (v : Fin (d - k) → K) {c : Fin d → K}
    (h : ∀ i, k ≤ i → c i = 0) : reflection β (setLower k v 0) *ᵥ c = c := by
  refine reflection_fixes ?_
  rw [setLower_dotProduct, show lower k c = 0 from funext fun i => h _ (Fin.le_def.mpr
    (Nat.le_add_right _ _)), dotProduct_zero]

end Lower

end LTSearch.Foundation
