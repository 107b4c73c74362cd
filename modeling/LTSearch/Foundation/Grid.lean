/-
# LTSearch.Foundation.Grid -- numbers on a grid, and the cells between them

A grid is what a floating-point format can represent: it can be rounded to, and a point that is not
the last one has a next one.  Rounding and one step up find the least point at or above a number.  An
ascending list of centres cuts the line at the midpoints, and counting the cuts at or below a number
finds a nearest centre.
-/
import Mathlib

namespace LTSearch.Foundation

/-! ## Rounding up -/

/-- Points of a field, with rounding to a nearest one and the step to the next one. -/
structure Grid (K : Type) [Field K] [LinearOrder K] where
  Point : K → Prop
  round : K → K
  nextUp : K → K
  /-- between two points there is a nearest one -/
  round_point {x low high : K} : Point low → Point high → low ≤ x → x ≤ high → Point (round x)
  round_nearest {x low high p : K} : Point low → Point high → low ≤ x → x ≤ high → Point p →
    |x - round x| ≤ |x - p|
  /-- below another point there is a next one -/
  nextUp_point {p q : K} : Point p → Point q → p < q → Point (nextUp p)
  lt_nextUp {p q : K} : Point p → Point q → p < q → p < nextUp p
  nextUp_le {p q : K} : Point p → Point q → p < q → nextUp p ≤ q

namespace Grid

variable {K : Type} [Field K] [LinearOrder K]

/-- One step up where rounding went down. -/
def roundUp (grid : Grid K) (x : K) : K :=
  if grid.round x < x then grid.nextUp (grid.round x) else grid.round x

variable [IsStrictOrderedRing K] {grid : Grid K} {x low high : K}

/-- The least point at or above the number. -/
theorem isLeast_roundUp (hlow : grid.Point low) (hhigh : grid.Point high) (hle : low ≤ x)
    (hge : x ≤ high) : IsLeast {p | grid.Point p ∧ x ≤ p} (grid.roundUp x) := by
  have hround := grid.round_point hlow hhigh hle hge
  have hnearest : ∀ {p}, grid.Point p → |x - grid.round x| ≤ |x - p| :=
    fun hp => grid.round_nearest hlow hhigh hle hge hp
  unfold roundUp
  split
  · rename_i hdown
    have hnext := hdown.trans_le hge
    have hpoint := grid.nextUp_point hround hhigh hnext
    refine ⟨⟨hpoint, ?_⟩, fun q hq => grid.nextUp_le hround hq.1 (hdown.trans_le hq.2)⟩
    -- a next point that is still below would be nearer
    by_contra hbelow
    have hcloser := hnearest hpoint
    rw [abs_of_pos (sub_pos.mpr hdown), abs_of_pos (sub_pos.mpr (not_le.mp hbelow)),
      sub_le_sub_iff_left] at hcloser
    exact hcloser.not_gt (grid.lt_nextUp hround hhigh hnext)
  · rename_i hup
    refine ⟨⟨hround, not_lt.mp hup⟩, fun q hq => ?_⟩
    have hcloser := hnearest hq.1
    rw [abs_sub_comm, abs_of_nonneg (sub_nonneg.mpr (not_lt.mp hup)), abs_sub_comm,
      abs_of_nonneg (sub_nonneg.mpr hq.2), sub_le_sub_iff_right] at hcloser
    exact hcloser

end Grid

/-! ## Cells -/

section Neighbours

variable {K : Type} {centres : List K}

/-- The pairs of neighbours: `windows(2)`. -/
def neighbours (centres : List K) : List (K × K) := centres.zip centres.tail

theorem length_neighbours (centres : List K) : (neighbours centres).length = centres.length - 1 := by
  rw [neighbours, List.length_zip, List.length_tail]
  omega

theorem getElem_neighbours {k : Nat} (hk : k < (neighbours centres).length)
    (hnext : k + 1 < centres.length) :
    (neighbours centres)[k] = (centres[k], centres[k + 1]) := by
  simp only [neighbours, List.getElem_zip, List.getElem_tail]

/-- The cuts at or below a number come before those above it. -/
theorem getElem_le_iff_lt_countP [LinearOrder K] {cuts : List K} (hsorted : cuts.Pairwise (· < ·))
    (x : K) {k : Nat} (hk : k < cuts.length) : cuts[k] ≤ x ↔ k < cuts.countP (· ≤ x) := by
  induction cuts generalizing k with
  | nil => exact absurd hk (Nat.not_lt_zero k)
  | cons cut rest ih =>
      rw [List.pairwise_cons] at hsorted
      by_cases hcut : cut ≤ x
      · rw [List.countP_cons_of_pos (by simpa using hcut)]
        cases k with
        | zero => exact ⟨fun _ => Nat.zero_lt_succ _, fun _ => hcut⟩
        | succ k => rw [List.getElem_cons_succ, ih hsorted.2, Nat.add_lt_add_iff_right]
      · have hnone : (cut :: rest).countP (· ≤ x) = 0 := by
          refine List.countP_eq_zero.mpr fun other hother => ?_
          rw [decide_eq_true_eq, not_le]
          rcases List.mem_cons.mp hother with rfl | hother
          · exact not_le.mp hcut
          · exact (not_le.mp hcut).trans (hsorted.1 other hother)
        rw [hnone]
        refine ⟨fun hle => absurd ?_ hcut, fun hlt => absurd hlt (Nat.not_lt_zero k)⟩
        rcases List.mem_cons.mp (List.getElem_mem hk) with heq | hmem
        · exact heq ▸ hle
        · exact (hsorted.1 _ hmem).le.trans hle

end Neighbours

section Cells

variable {K : Type} [Field K] [LinearOrder K] {centres : List K}

def midpoints (centres : List K) : List K := (neighbours centres).map fun pair => (pair.1 + pair.2) / 2

/-- The number of midpoints at or below. -/
def cell (centres : List K) (x : K) : Nat := (midpoints centres).countP (· ≤ x)

omit [LinearOrder K] in
theorem length_midpoints (centres : List K) : (midpoints centres).length = centres.length - 1 := by
  rw [midpoints, List.length_map, length_neighbours]

omit [LinearOrder K] in
theorem getElem_midpoints {k : Nat} (hk : k < (midpoints centres).length)
    (hnext : k + 1 < centres.length) :
    (midpoints centres)[k] = (centres[k] + centres[k + 1]) / 2 := by
  simp only [midpoints, List.getElem_map, getElem_neighbours _ hnext]

theorem cell_lt_length (hne : centres ≠ []) (x : K) : cell centres x < centres.length := by
  have hlength := List.length_pos_iff.mpr hne
  have hcount : cell centres x ≤ (midpoints centres).length := List.countP_le_length
  rw [length_midpoints] at hcount
  omega

theorem cell_mono {x y : K} (h : x ≤ y) : cell centres x ≤ cell centres y := by
  refine List.countP_mono_left fun cut _ hcut => ?_
  rw [decide_eq_true_eq] at hcut ⊢
  exact hcut.trans h

variable [IsStrictOrderedRing K]

/-- The midpoints of ascending centres ascend. -/
theorem pairwise_midpoints (hcentres : centres.Pairwise (· < ·)) :
    (midpoints centres).Pairwise (· < ·) := by
  rw [List.pairwise_iff_getElem]
  intro i j hi hj hij
  have hlength := length_midpoints centres
  rw [getElem_midpoints hi (by omega), getElem_midpoints hj (by omega)]
  have hlow := List.pairwise_iff_getElem.mp hcentres i j (by omega) (by omega) hij
  have hhigh := List.pairwise_iff_getElem.mp hcentres (i + 1) (j + 1) (by omega) (by omega) (by omega)
  linarith

theorem abs_sub_le_of_midpoint_le {a b x : K} (hab : a < b) (hx : (a + b) / 2 ≤ x) :
    |x - b| ≤ |x - a| := by
  rw [abs_of_nonneg (show 0 ≤ x - a by linarith), abs_le]
  exact ⟨by linarith, by linarith⟩

theorem abs_sub_lt_of_lt_midpoint {a b x : K} (hab : a < b) (hx : x < (a + b) / 2) :
    |x - a| < |x - b| := by
  rw [abs_sub_comm x b, abs_of_nonneg (show 0 ≤ b - x by linarith), abs_lt]
  exact ⟨by linarith, by linarith⟩

/-- The cell of a number has a nearest centre, and of two nearest ones the upper. -/
theorem nearest_cell (hcentres : centres.Pairwise (· < ·)) {x : K} (hcell : cell centres x < centres.length)
    {j : Nat} (hj : j < centres.length) :
    |x - centres[cell centres x]| ≤ |x - centres[j]| ∧
      (|x - centres[cell centres x]| = |x - centres[j]| → j ≤ cell centres x) := by
  have hcuts := pairwise_midpoints hcentres
  have hlength := length_midpoints centres
  rcases lt_trichotomy j (cell centres x) with hlt | rfl | hgt
  · -- the last cut at or below `x` is past all centres up to the one before it
    have hcut := (getElem_le_iff_lt_countP hcuts x (k := cell centres x - 1) (by omega)).mpr
      (show cell centres x - 1 < cell centres x by omega)
    rw [getElem_midpoints _ (by omega)] at hcut
    simp only [Nat.sub_add_cancel (show 1 ≤ cell centres x by omega)] at hcut
    have hab := List.pairwise_iff_getElem.mp hcentres j (cell centres x) hj hcell hlt
    have hle : centres[j] ≤ centres[cell centres x - 1] := by
      rcases Nat.lt_or_ge j (cell centres x - 1) with hj' | hj'
      · exact (List.pairwise_iff_getElem.mp hcentres j _ hj (by omega) hj').le
      · exact le_of_eq (getElem_congr_idx (by omega))
    exact ⟨abs_sub_le_of_midpoint_le hab (by linarith), fun _ => hlt.le⟩
  · exact ⟨le_rfl, fun _ => le_rfl⟩
  · -- the first cut above `x` is before all centres from the next one on
    have hcut := not_le.mp fun hle => lt_irrefl (cell centres x)
      ((getElem_le_iff_lt_countP hcuts x (k := cell centres x) (by omega)).mp hle)
    rw [getElem_midpoints _ (by omega)] at hcut
    have hab := List.pairwise_iff_getElem.mp hcentres (cell centres x) j hcell hj hgt
    have hle : centres[cell centres x + 1] ≤ centres[j] := by
      rcases Nat.lt_or_ge (cell centres x + 1) j with hj' | hj'
      · exact (List.pairwise_iff_getElem.mp hcentres _ j (by omega) hj hj').le
      · exact le_of_eq (getElem_congr_idx (by omega))
    have hfar := abs_sub_lt_of_lt_midpoint hab (by linarith : x < _)
    exact ⟨hfar.le, fun heq => absurd heq hfar.ne⟩

end Cells

end LTSearch.Foundation
