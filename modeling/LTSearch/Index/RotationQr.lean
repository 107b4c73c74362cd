/-
# LTSearch.Index.RotationQr -- the factorisation behind a rotation

A rotation is the orthogonal factor of a matrix of Gaussians.  The columns are reduced one by one, in
place, by reflections of their lower rows; the reflections, the last one first, then build the
orthogonal factor out of the identity.  Over exact numbers the factors multiply to the matrix, and
choosing the signs of the diagonal keeps that.
-/
import LTSearch.Foundation.Reflection
import LTSearch.Foundation.Run
import LTSearch.Index.TurboProdExact

namespace LTSearch

open LTSearch.Foundation Matrix

/-! ## Column-major matrices -/

section Flat

variable {K : Type} {n len d : Nat}

/-- `a[start..start + len]` -/
def sliceAt (a : Fin n → K) (start : Nat) (h : start + len ≤ n) (i : Fin len) : K :=
  a ⟨start + i, by omega⟩

/-- `a[start..start + len]` overwritten. -/
def writeAt (a : Fin n → K) (start : Nat) (values : Fin len → K) (p : Fin n) : K :=
  if h : start ≤ p ∧ p < start + len then values ⟨p - start, by omega⟩ else a p

/-- Row `i` of column `j`, at `j·d + i`. -/
def cell (i j : Fin d) : Fin (d * d) :=
  ⟨j * d + i, calc
    j * d + i < j * d + d := by omega
    _ = (j + 1) * d := (Nat.succ_mul _ _).symm
    _ ≤ d * d := Nat.mul_le_mul_right _ j.isLt⟩

/-- The column from row `k` on ends where the column ends. -/
theorem column_end (j k : Fin d) : j * d + k + (d - k) ≤ d * d := calc
  j * d + k + (d - k) = (j + 1) * d := by rw [Nat.succ_mul]; omega
  _ ≤ d * d := Nat.mul_le_mul_right _ j.isLt

end Flat

/-! ## Reflectors -/

/-- `Reflector`: `I − β·v·vᵀ`. -/
structure Reflector (K : Type) (n : Nat) where
  v : Fin n → K
  beta : K

namespace Reflector

variable {K : Type} [Field K] {n : Nat}

/-- `zeroing_below_first`, with what the column is overwritten with. -/
def zeroingBelowFirst [LinearOrder K] (arith : ExactArith K) (hn : 0 < n) (x : Fin n → K) :
    Reflector K n × (Fin n → K) :=
  let norm := arith.sqrt (∑ i, x i * x i)
  if norm = 0 then (⟨fun _ => 0, 0⟩, x)
  else
    let alpha := if x ⟨0, hn⟩ < 0 then norm else -norm
    let v := Function.update x ⟨0, hn⟩ (x ⟨0, hn⟩ - alpha)
    (⟨v, (2 : ℕ) / ∑ i, v i * v i⟩, Function.update 0 ⟨0, hn⟩ alpha)

/-- `apply` -/
def apply (reflector : Reflector K n) (y : Fin n → K) (i : Fin n) : K :=
  let scale := reflector.beta * ∑ i, reflector.v i * y i
  y i - scale * reflector.v i

end Reflector

/-! ## The factorisation -/

section Qr

variable {K : Type} [Field K] {d : Nat}

/-- `reflector.apply(&mut column[k..])` for column `j`. -/
def applyBelow (k : Fin d) (reflector : Reflector K (d - k)) (a : Fin (d * d) → K) (j : Fin d) :
    Fin (d * d) → K :=
  writeAt a (j * d + k) (reflector.apply (sliceAt a (j * d + k) (column_end j k)))

/-- The reflectors of the columns so far, with their columns. -/
abbrev Reflectors (K : Type) (d : Nat) := List (Σ k : Fin d, Reflector K (d - k))

/-- `vec![0.0; d * d]` with ones on the diagonal. -/
def identity (K : Type) [Field K] (d : Nat) : Fin (d * d) → K :=
  (List.finRange d).foldl (fun q i => Function.update q (cell i i) 1) 0

/-- The second loop: the reflectors from the last one on, each on the columns from its own on. -/
def accumulate (reflectors : Reflectors K d) : Fin (d * d) → K :=
  reflectors.foldr (fun r q => ((List.finRange d).drop r.1).foldl (applyBelow r.1 r.2) q)
    (identity K d)

variable [LinearOrder K]

/-- One round of the first loop: column `k` is reduced, and the later columns follow. -/
def reduceColumn (arith : ExactArith K) (state : (Fin (d * d) → K) × Reflectors K d) (k : Fin d) :
    (Fin (d * d) → K) × Reflectors K d :=
  let start := k * d + k
  let (reflector, x) := Reflector.zeroingBelowFirst arith (Nat.sub_pos_of_lt k.isLt)
    (sliceAt state.1 start (column_end k k))
  let a := writeAt state.1 start x
  (((List.finRange d).drop (k + 1)).foldl (applyBelow k reflector) a,
    state.2 ++ [⟨k, reflector⟩])

/-- `householder_qr`: the orthogonal factor, and what the matrix is overwritten with. -/
def householderQr (arith : ExactArith K) (a : Fin (d * d) → K) :
    (Fin (d * d) → K) × (Fin (d * d) → K) :=
  let (r, reflectors) := (List.finRange d).foldl (reduceColumn arith) (a, [])
  (accumulate reflectors, r)

/-- One round: column `j` of the one matrix and row `j` of the other change their sign. -/
def flipSign (factors : (Fin (d * d) → K) × (Fin (d * d) → K)) (j : Fin d) :
    (Fin (d * d) → K) × (Fin (d * d) → K) :=
  if factors.2 (cell j j) < 0 then
    (fun p => if (j : Nat) * d ≤ p ∧ (p : Nat) < (j + 1) * d then -factors.1 p else factors.1 p,
      -- from `j` on in steps of `d`
      fun p => if (j : Nat) ≤ p ∧ (p - j : Nat) % d = 0 then -factors.2 p else factors.2 p)
  else factors

/-- `make_r_diagonal_positive` -/
def makeRDiagonalPositive (factors : (Fin (d * d) → K) × (Fin (d * d) → K)) :
    (Fin (d * d) → K) × (Fin (d * d) → K) :=
  (List.finRange d).foldl flipSign factors

end Qr

/-! ## Columns -/

section Columns

variable {K : Type} {d : Nat}

/-- Column `j`. -/
def column (a : Fin (d * d) → K) (j i : Fin d) : K := a (cell i j)

/-- The matrix that an array stores. -/
def entries (a : Fin (d * d) → K) : Matrix (Fin d) (Fin d) K := fun i j => a (cell i j)

theorem cell_div (i j : Fin d) : (cell i j : Nat) / d = j := by
  rw [show (cell i j : Nat) = j * d + i from rfl, Nat.mul_comm, Nat.mul_add_div i.pos,
    Nat.div_eq_of_lt i.isLt, Nat.add_zero]

theorem cell_mod (i j : Fin d) : (cell i j : Nat) % d = i := by
  rw [show (cell i j : Nat) = j * d + i from rfl, Nat.mul_add_mod', Nat.mod_eq_of_lt i.isLt]

theorem cell_injective {i j i' j' : Fin d} (h : cell i j = cell i' j') : i = i' ∧ j = j' := by
  constructor
  · rw [Fin.ext_iff, ← cell_mod i j, h, cell_mod]
  · rw [Fin.ext_iff, ← cell_div i j, h, cell_div]

/-- A cell is in column `j`. -/
theorem in_column_iff {i j j' : Fin d} :
    (j : Nat) * d ≤ cell i j' ∧ (cell i j' : Nat) < (j + 1) * d ↔ j' = j := by
  constructor
  · rintro ⟨hge, hlt⟩
    rw [Fin.ext_iff, ← cell_div i j']
    exact Nat.div_eq_of_lt_le hge hlt
  · rintro rfl
    have hval : (cell i j' : Nat) = j' * d + i := rfl
    rw [hval, Nat.succ_mul]
    omega

/-- A cell is in the lower rows of column `j`. -/
theorem in_lower_iff {i j j' k : Fin d} :
    (j : Nat) * d + k ≤ cell i j' ∧ (cell i j' : Nat) < j * d + k + (d - k) ↔ j' = j ∧ k ≤ i := by
  have hend : (j : Nat) * d + k + (d - k) = (j + 1) * d := by
    rw [Nat.succ_mul]
    omega
  rw [hend]
  constructor
  · rintro ⟨hge, hlt⟩
    obtain rfl := in_column_iff.mp ⟨(Nat.le_add_right _ _).trans hge, hlt⟩
    exact ⟨rfl, Nat.le_of_add_le_add_left hge⟩
  · rintro ⟨rfl, hk⟩
    exact ⟨Nat.add_le_add_left hk _, (in_column_iff.mpr rfl).2⟩

/-- A cell is in the steps of `d` from `j` on. -/
theorem in_row_iff {i j j' : Fin d} :
    (j : Nat) ≤ cell i j' ∧ (cell i j' - j : Nat) % d = 0 ↔ i = j := by
  constructor
  · rintro ⟨hge, hmod⟩
    have hcong := (Nat.modEq_iff_dvd' hge).mpr (Nat.dvd_of_mod_eq_zero hmod)
    rw [Nat.ModEq, cell_mod, Nat.mod_eq_of_lt j.isLt] at hcong
    exact Fin.ext hcong.symm
  · rintro rfl
    have hval : (cell i j' : Nat) = j' * d + i := rfl
    rw [hval, Nat.add_sub_cancel, Nat.mul_mod_left]
    exact ⟨Nat.le_add_left _ _, rfl⟩

theorem sliceAt_column (a : Fin (d * d) → K) (j k : Fin d) :
    sliceAt a (j * d + k) (column_end j k) = lower k (column a j) :=
  funext fun _ => congrArg a (Fin.ext (Nat.add_assoc _ _ _))

/-- Lower rows of one column are overwritten. -/
theorem column_writeAt (a : Fin (d * d) → K) (j k : Fin d) (values : Fin (d - k) → K) (j' : Fin d) :
    column (writeAt a (j * d + k) values) j' =
      if j' = j then setLower k values (column a j) else column a j' := by
  funext i
  unfold column writeAt
  by_cases hin : j' = j ∧ k ≤ i
  · rw [dif_pos (in_lower_iff.mpr hin), if_pos hin.1, setLower, dif_pos hin.2]
    obtain ⟨rfl, -⟩ := hin
    exact congrArg values (Fin.ext (Nat.add_sub_add_left _ _ _))
  · rw [dif_neg (mt in_lower_iff.mp hin)]
    split
    · rename_i hj
      rw [setLower, dif_neg fun hk => hin ⟨hj, hk⟩, hj]
    · rfl

theorem column_applyBelow [Field K] (k : Fin d) (reflector : Reflector K (d - k))
    (a : Fin (d * d) → K) (j j' : Fin d) :
    column (applyBelow k reflector a j) j' =
      if j' = j then setLower k (reflector.apply (lower k (column a j))) (column a j)
      else column a j' := by
  rw [applyBelow, column_writeAt, sliceAt_column]

theorem entries_identity [Field K] : entries (identity K d) = 1 := by
  have hfold : ∀ (l : List (Fin d)) (a : Fin (d * d) → K) (i j : Fin d),
      l.foldl (fun q i => Function.update q (cell i i) 1) a (cell i j) =
        if i = j ∧ j ∈ l then 1 else a (cell i j) := by
    intro l a i j
    induction l generalizing a with
    | nil => simp
    | cons i' l ih =>
        rw [List.foldl_cons, ih, Function.update_apply]
        by_cases hcell : cell i j = cell i' i'
        · obtain ⟨rfl, rfl⟩ := cell_injective hcell
          simp
        · have hij : ¬(i = j ∧ j = i') := by
            rintro ⟨rfl, rfl⟩
            exact hcell rfl
          rw [if_neg hcell]
          grind
  ext i j
  rw [entries, identity, hfold, Matrix.one_apply]
  simp

end Columns

/-! ## Reflectors as matrices -/

namespace Reflector

variable {K : Type} [Field K] {n d : Nat}

/-- The reflector is a reflection or the identity. -/
def IsReflection (reflector : Reflector K n) : Prop := Reflects reflector.beta reflector.v

theorem apply_eq (reflector : Reflector K n) (y : Fin n → K) :
    reflector.apply y = reflection reflector.beta reflector.v *ᵥ y := by
  rw [reflection_mulVec]
  rfl

/-- The reflector on the lower rows, as a matrix on all rows. -/
def matrix {k : Fin d} (reflector : Reflector K (d - k)) : Matrix (Fin d) (Fin d) K :=
  reflection reflector.beta (setLower k reflector.v 0)

theorem matrix_mulVec {k : Fin d} (reflector : Reflector K (d - k)) (c : Fin d → K) :
    reflector.matrix *ᵥ c = setLower k (reflector.apply (lower k c)) c := by
  rw [matrix, reflection_setLower_mulVec, apply_eq]

/-- The reflector sends the vector to what it is overwritten with. -/
theorem zeroingBelowFirst_spec [LinearOrder K] [IsStrictOrderedRing K] (arith : ExactArith K)
    (hn : 0 < n) (x : Fin n → K) :
    (zeroingBelowFirst arith hn x).1.IsReflection ∧
      (zeroingBelowFirst arith hn x).1.apply x = (zeroingBelowFirst arith hn x).2 ∧
      ∀ i, i ≠ ⟨0, hn⟩ → (zeroingBelowFirst arith hn x).2 i = 0 := by
  have hsum : 0 ≤ ∑ i, x i * x i := Finset.sum_nonneg fun i _ => mul_self_nonneg (x i)
  have hroot := arith.mul_self_sqrt hsum
  have hnonneg := arith.sqrt_nonneg (∑ i, x i * x i)
  unfold zeroingBelowFirst
  generalize hnorm : arith.sqrt (∑ i, x i * x i) = norm at hroot hnonneg
  dsimp only
  split
  · rename_i hzero
    -- a zero vector
    rw [hzero, mul_zero, eq_comm, Finset.sum_eq_zero_iff_of_nonneg fun i _ => mul_self_nonneg (x i)]
      at hroot
    have hx : ∀ i, x i = 0 := fun i => mul_self_eq_zero.mp (hroot i (Finset.mem_univ i))
    refine ⟨.inl rfl, funext fun i => ?_, fun i _ => hx i⟩
    simp [apply]
  · rename_i hne
    set first : Fin n := ⟨0, hn⟩
    set alpha := if x first < 0 then norm else -norm with halpha
    set target : Fin n → K := Function.update 0 first alpha with htarget
    have hv : Function.update x first (x first - alpha) = x - target := by
      funext i
      by_cases hi : i = first
      · subst hi
        simp [htarget]
      · simp [htarget, hi]
    have hsquare : alpha * alpha = norm * norm := by
      rw [halpha]
      split
      · rfl
      · rw [neg_mul_neg]
    have hlength : x ⬝ᵥ x = target ⬝ᵥ target := by
      have htarget' : target = Pi.single first alpha := rfl
      rw [htarget', single_dotProduct, Pi.single_eq_same, hsquare, hroot]
      rfl
    -- the sign of `alpha` is not that of the first entry
    have hfirst : x first - alpha ≠ 0 := by
      rw [halpha]
      have hpos : 0 < norm := lt_of_le_of_ne hnonneg (Ne.symm hne)
      split
      · rename_i hneg
        exact (sub_neg.mpr (hneg.trans hpos)).ne
      · rename_i hge
        rw [sub_neg_eq_add]
        exact (add_pos_of_nonneg_of_pos (not_lt.mp hge) hpos).ne'
    have hpositive : (x - target) ⬝ᵥ (x - target) ≠ 0 := by
      intro hzero
      have hall := (Finset.sum_eq_zero_iff_of_nonneg fun i _ => mul_self_nonneg ((x - target) i)).mp
        hzero first (Finset.mem_univ _)
      rw [← hv, Function.update_self] at hall
      exact hfirst (mul_self_eq_zero.mp hall)
    rw [hv, Nat.cast_ofNat]
    refine ⟨.inr ((div_mul_cancel₀ 2 hpositive).trans Nat.cast_ofNat.symm), ?_, fun i hi => Function.update_of_ne hi _ _⟩
    rw [apply_eq]
    exact reflection_sub_mulVec hlength hpositive

theorem matrix_mul_self {k : Fin d} {reflector : Reflector K (d - k)} (h : reflector.IsReflection) :
    reflector.matrix * reflector.matrix = 1 := reflection_mul_self (reflects_setLower h)

theorem matrix_mem_orthogonalGroup {k : Fin d} {reflector : Reflector K (d - k)}
    (h : reflector.IsReflection) : reflector.matrix ∈ Matrix.orthogonalGroup (Fin d) K :=
  reflection_mem_orthogonalGroup (reflects_setLower h)

end Reflector

/-! ## The loops -/

section Loops

variable {K : Type} [Field K] {d : Nat}

theorem entries_eq_mul {a b : Fin (d * d) → K} {H : Matrix (Fin d) (Fin d) K}
    (h : ∀ j, column b j = H *ᵥ column a j) : entries b = H * entries a :=
  Matrix.ext fun i j => congrFun (h j) i

theorem mem_drop_finRange {k : Nat} {j : Fin d} : j ∈ (List.finRange d).drop k ↔ k ≤ j := by
  rw [List.mem_drop_iff_getElem]
  constructor
  · rintro ⟨i, hi, rfl⟩
    simp
  · intro h
    exact ⟨j - k, by simp; omega, Fin.ext (by simp; omega)⟩

/-- The columns of the loop are reflected, the others stay. -/
theorem column_foldl_applyBelow {k : Fin d} (reflector : Reflector K (d - k)) {js : List (Fin d)}
    (hjs : js.Nodup) (a : Fin (d * d) → K) (j : Fin d) :
    column (js.foldl (applyBelow k reflector) a) j =
      if j ∈ js then reflector.matrix *ᵥ column a j else column a j := by
  induction js generalizing a with
  | nil => rfl
  | cons j' js ih =>
      rw [List.nodup_cons] at hjs
      rw [List.foldl_cons, ih hjs.2, column_applyBelow, Reflector.matrix_mulVec]
      by_cases hj : j = j'
      · subst hj
        rw [if_neg hjs.1, if_pos rfl, if_pos List.mem_cons_self, Reflector.matrix_mulVec]
      · simp only [hj, if_false, List.mem_cons, false_or, Reflector.matrix_mulVec]

theorem column_foldl_drop {k : Fin d} (reflector : Reflector K (d - k)) (start : Nat)
    (a : Fin (d * d) → K) (j : Fin d) :
    column (((List.finRange d).drop start).foldl (applyBelow k reflector) a) j =
      if start ≤ j then reflector.matrix *ᵥ column a j else column a j := by
  rw [column_foldl_applyBelow _ ((List.nodup_finRange d).sublist (List.drop_sublist _ _))]
  simp only [mem_drop_finRange]

/-- The product of the reflectors, the first one on the left. -/
def product (reflectors : Reflectors K d) : Matrix (Fin d) (Fin d) K :=
  (reflectors.map fun r => r.2.matrix).prod

/-- Columns before those of all reflectors stay. -/
theorem product_mulVec {reflectors : Reflectors K d} {c : Fin d → K}
    (h : ∀ r ∈ reflectors, ∀ i, r.1 ≤ i → c i = 0) : product reflectors *ᵥ c = c := by
  induction reflectors with
  | nil => exact Matrix.one_mulVec c
  | cons r rest ih =>
      rw [product, List.map_cons, List.prod_cons, ← Matrix.mulVec_mulVec, ← product,
        ih fun r hr => h r (List.mem_cons_of_mem _ hr)]
      exact reflection_setLower_fixes _ _ (h r List.mem_cons_self)

/-- The second loop multiplies the reflectors. -/
theorem entries_accumulate {reflectors : Reflectors K d}
    (hsorted : (reflectors.map Sigma.fst).Pairwise (· < ·)) :
    entries (accumulate reflectors) = product reflectors := by
  induction reflectors with
  | nil => exact entries_identity
  | cons r rest ih =>
      rw [List.map_cons, List.pairwise_cons] at hsorted
      have hrest := ih hsorted.2
      refine (entries_eq_mul fun j => ?_).trans (congrArg (r.2.matrix * ·) hrest)
      rw [show accumulate (r :: rest) =
        ((List.finRange d).drop r.1).foldl (applyBelow r.1 r.2) (accumulate rest) from rfl,
        column_foldl_drop]
      split
      · rfl
      · rename_i hj
        -- an earlier column is still one of the identity
        have hunit : column (accumulate rest) j = Pi.single j 1 := by
          have hfix : product rest *ᵥ Pi.single j 1 = Pi.single j 1 := by
            refine product_mulVec fun r' hr' i hi => Pi.single_eq_of_ne ?_ _
            have := hsorted.1 _ (List.mem_map_of_mem hr')
            omega
          rw [← hfix, ← hrest, Matrix.mulVec_single_one]
          rfl
        rw [hunit]
        refine (reflection_setLower_fixes _ _ fun i hi => Pi.single_eq_of_ne ?_ _).symm
        omega

variable [LinearOrder K]

/-- What the first loop keeps: the reflectors turn the rest back into the matrix. -/
structure Reduced (g : Fin (d * d) → K) (k : Nat) (state : (Fin (d * d) → K) × Reflectors K d) :
    Prop where
  below : ∀ r ∈ state.2, (r.1 : Nat) < k
  sorted : (state.2.map Sigma.fst).Pairwise (· < ·)
  reflections : ∀ r ∈ state.2, r.2.IsReflection
  product_mul : product state.2 * entries state.1 = entries g
  upper : ∀ i j : Fin d, (j : Nat) < k → j < i → entries state.1 i j = 0

variable [IsStrictOrderedRing K] {arith : ExactArith K} {g : Fin (d * d) → K}

/-- One more column is reduced. -/
theorem Reduced.round {k : Fin d} {state : (Fin (d * d) → K) × Reflectors K d}
    (h : Reduced g k state) : Reduced g (k + 1) (reduceColumn arith state k) := by
  obtain ⟨a, reflectors⟩ := state
  have hspec := Reflector.zeroingBelowFirst_spec arith (Nat.sub_pos_of_lt k.isLt)
    (lower k (column a k))
  unfold reduceColumn
  simp only [sliceAt_column]
  generalize Reflector.zeroingBelowFirst arith (Nat.sub_pos_of_lt k.isLt) (lower k (column a k)) =
    result at hspec ⊢
  obtain ⟨reflector, x⟩ := result
  obtain ⟨hreflection, happly, hzero⟩ := hspec
  simp only at hreflection happly hzero ⊢
  have hcolumn : ∀ j, column (((List.finRange d).drop (k + 1)).foldl (applyBelow k reflector)
      (writeAt a (k * d + k) x)) j =
        if k < j then reflector.matrix *ᵥ column a j
        else if j = k then setLower k x (column a k) else column a j := by
    intro j
    rw [column_foldl_drop, column_writeAt]
    by_cases hlater : k < j
    · rw [if_pos (Nat.succ_le_of_lt hlater), if_pos hlater, if_neg hlater.ne']
    · rw [if_neg hlater, if_neg (by omega)]
  -- every column is reflected: an earlier one has no lower rows
  have hentries : entries (((List.finRange d).drop (k + 1)).foldl (applyBelow k reflector)
      (writeAt a (k * d + k) x)) = reflector.matrix * entries a := by
    refine entries_eq_mul fun j => ?_
    rw [hcolumn]
    rcases lt_trichotomy k j with hlater | rfl | hearlier
    · rw [if_pos hlater]
    · rw [if_neg (lt_irrefl _), if_pos rfl, Reflector.matrix_mulVec, happly]
    · rw [if_neg hearlier.asymm, if_neg hearlier.ne]
      exact (reflection_setLower_fixes _ _ fun i hi =>
        h.upper i j hearlier (hearlier.trans_le hi)).symm
  refine ⟨?_, ?_, ?_, ?_, ?_⟩
  · intro r hr
    rcases List.mem_append.mp hr with hr | hr
    · exact (h.below r hr).trans (Nat.lt_succ_self _)
    · rw [List.mem_singleton.mp hr]
      exact Nat.lt_succ_self _
  · rw [List.map_append, List.pairwise_append]
    refine ⟨h.sorted, List.pairwise_singleton _ _, fun i hi j hj => ?_⟩
    obtain ⟨r, hr, rfl⟩ := List.mem_map.mp hi
    rw [List.mem_singleton.mp hj]
    exact h.below r hr
  · intro r hr
    rcases List.mem_append.mp hr with hr | hr
    · exact h.reflections r hr
    · rw [List.mem_singleton.mp hr]
      exact hreflection
  · rw [hentries, product, List.map_append, List.prod_append, List.map_singleton, List.prod_singleton,
      Matrix.mul_assoc, ← Matrix.mul_assoc reflector.matrix, Reflector.matrix_mul_self hreflection,
      Matrix.one_mul]
    exact h.product_mul
  · intro i j hj hij
    refine (congrFun (hcolumn j) i).trans ?_
    rcases Nat.lt_succ_iff_lt_or_eq.mp hj with hearlier | heq
    · rw [if_neg (Fin.lt_def.mpr hearlier).asymm, if_neg (Fin.lt_def.mpr hearlier).ne]
      exact h.upper i j hearlier hij
    · obtain rfl : j = k := Fin.ext heq
      rw [if_neg (lt_irrefl _), if_pos rfl, setLower, dif_pos hij.le]
      refine hzero _ fun hfirst => ?_
      have hrow : (i : Nat) - j = 0 := congrArg Fin.val hfirst
      omega

/-- The first loop reduces all columns. -/
theorem reduced_foldl : Reduced g d ((List.finRange d).foldl (reduceColumn arith) (g, [])) := by
  refine foldl_finRange (Reduced g) (reduceColumn arith) (fun k state h => h.round) ?_
  refine ⟨nofun, List.Pairwise.nil, nofun, Matrix.one_mul _, nofun⟩

end Loops

/-! ## The factors -/

section Factors

variable {K : Type} [Field K] {d : Nat}

/-- The arrays store a factorisation of the matrix: the one is orthogonal and the other upper
triangular. -/
structure IsQr (g q r : Fin (d * d) → K) : Prop where
  orthogonal : entries q ∈ Matrix.orthogonalGroup (Fin d) K
  upper : ∀ i j : Fin d, j < i → entries r i j = 0
  product_mul : entries q * entries r = entries g

/-- A column of the one factor and the row of the other can change their sign together. -/
theorem IsQr.signs {g q r q' r' : Fin (d * d) → K} (h : IsQr g q r) {s : Fin d → K}
    (hs : ∀ i, s i * s i = 1) (hq : entries q' = entries q * Matrix.diagonal s)
    (hr : entries r' = Matrix.diagonal s * entries r) : IsQr g q' r' := by
  have hsquare : Matrix.diagonal s * Matrix.diagonal s = (1 : Matrix (Fin d) (Fin d) K) := by
    rw [Matrix.diagonal_mul_diagonal, funext hs, Matrix.diagonal_one]
  refine ⟨?_, fun i j hij => ?_, ?_⟩
  · rw [hq]
    refine mul_mem h.orthogonal ?_
    rwa [Matrix.mem_orthogonalGroup_iff, Matrix.diagonal_transpose]
  · rw [hr, Matrix.diagonal_mul, h.upper i j hij, mul_zero]
  · rw [hq, hr, Matrix.mul_assoc, ← Matrix.mul_assoc (Matrix.diagonal s), hsquare, Matrix.one_mul]
    exact h.product_mul

variable [LinearOrder K] [IsStrictOrderedRing K] {arith : ExactArith K} {g : Fin (d * d) → K}

theorem isQr_householderQr (arith : ExactArith K) (g : Fin (d * d) → K) :
    IsQr g (householderQr arith g).1 (householderQr arith g).2 := by
  have h : Reduced g d ((List.finRange d).foldl (reduceColumn arith) (g, [])) := reduced_foldl
  unfold householderQr
  generalize (List.finRange d).foldl (reduceColumn arith) (g, []) = state at h ⊢
  refine ⟨?_, fun i j => h.upper i j j.isLt, ?_⟩
  · rw [entries_accumulate h.sorted]
    refine list_prod_mem fun M hM => ?_
    obtain ⟨r, hr, rfl⟩ := List.mem_map.mp hM
    exact Reflector.matrix_mem_orthogonalGroup (h.reflections r hr)
  · rw [entries_accumulate h.sorted]
    exact h.product_mul

/-- One round multiplies by a diagonal of signs, and leaves no negative entry at its place. -/
theorem flipSign_spec (factors : (Fin (d * d) → K) × (Fin (d * d) → K)) (j : Fin d) :
    ∃ s : Fin d → K, (∀ i, s i * s i = 1) ∧ (∀ i, i ≠ j → s i = 1) ∧
      0 ≤ entries (flipSign factors j).2 j j ∧
      entries (flipSign factors j).1 = entries factors.1 * Matrix.diagonal s ∧
      entries (flipSign factors j).2 = Matrix.diagonal s * entries factors.2 := by
  unfold flipSign
  split
  · rename_i hneg
    refine ⟨Function.update 1 j (-1), fun i => ?_, fun i hi => Function.update_of_ne hi _ _, ?_, ?_,
      ?_⟩
    · by_cases hi : i = j <;> simp [hi]
    · simpa [entries, in_row_iff] using hneg.le
    · ext i j'
      rw [Matrix.mul_diagonal]
      by_cases hj : j' = j
      · simp [entries, in_column_iff, hj]
      · simp [entries, in_column_iff, hj]
    · ext i j'
      rw [Matrix.diagonal_mul]
      by_cases hi : i = j
      · simp [entries, in_row_iff, hi]
      · simp [entries, in_row_iff, hi]
  · rename_i hpos
    exact ⟨1, fun i => mul_one 1, fun i _ => rfl, not_lt.mp hpos, by
      rw [Matrix.diagonal_one', Matrix.mul_one], by rw [Matrix.diagonal_one', Matrix.one_mul]⟩

/-- The signs keep the factorisation, and leave no negative diagonal entry. -/
theorem IsQr.makeRDiagonalPositive {q r : Fin (d * d) → K} (h : IsQr g q r) :
    IsQr g (makeRDiagonalPositive (q, r)).1 (makeRDiagonalPositive (q, r)).2 ∧
      ∀ j, 0 ≤ entries (makeRDiagonalPositive (q, r)).2 j j := by
  have hrun := foldl_finRange
    (fun k (factors : (Fin (d * d) → K) × (Fin (d * d) → K)) => IsQr g factors.1 factors.2 ∧
      ∀ j : Fin d, (j : Nat) < k → 0 ≤ entries factors.2 j j) flipSign ?_ (s := (q, r)) ⟨h, nofun⟩
  · exact ⟨hrun.1, fun j => hrun.2 j j.isLt⟩
  · rintro k factors ⟨hqr, hnonneg⟩
    obtain ⟨s, hs, hother, hk, hq, hr⟩ := flipSign_spec factors k
    refine ⟨hqr.signs hs hq hr, fun j hj => ?_⟩
    rcases Nat.lt_succ_iff_lt_or_eq.mp hj with hearlier | heq
    · rw [hr, Matrix.diagonal_mul, hother j (Fin.ne_of_lt hearlier), one_mul]
      exact hnonneg j hearlier
    · rwa [show j = k from Fin.ext heq]

/-- The loops factorise every matrix, and choosing the signs of the diagonal keeps a
factorisation. -/
theorem householderQr_isQr (arith : ExactArith K) (d : Nat) (g : Fin (d * d) → K) :
    IsQr g (householderQr arith g).1 (householderQr arith g).2 ∧
      ∀ q r, IsQr g q r →
        IsQr g (makeRDiagonalPositive (q, r)).1 (makeRDiagonalPositive (q, r)).2 ∧
          ∀ j, 0 ≤ entries (makeRDiagonalPositive (q, r)).2 j j :=
  ⟨isQr_householderQr arith g, fun _ _ h => h.makeRDiagonalPositive⟩

/-- Two rows of ones. -/
def ones : Fin (2 * 2) → ℝ := fun _ => 1

theorem householderQr_isQr_ones :
    IsQr ones (householderQr ExactProd.realArith ones).1 (householderQr ExactProd.realArith ones).2 ∧
      0 ≤ entries (makeRDiagonalPositive (householderQr ExactProd.realArith ones)).2 0 0 := by
  have h := householderQr_isQr ExactProd.realArith 2 ones
  exact ⟨h.1, (h.2 _ _ h.1).2 0⟩

end Factors

end LTSearch
