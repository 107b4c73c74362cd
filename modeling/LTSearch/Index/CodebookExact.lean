/-
# LTSearch.Index.CodebookExact -- the cells of a codebook, on a grid of rationals

`f32` is a grid: what can be rounded to, and a next point after each.  A threshold is the least point
at or above the midpoint of two centroids, so comparing a point with the thresholds is comparing it
with the midpoints.
-/
import LTSearch.Foundation.Checked
import LTSearch.Foundation.Grid
import LTSearch.Index.Assets

namespace LTSearch

open LTSearch.Foundation

/-- `f32` and its way through `f64`. -/
structure CodebookArith where
  grid : Grid ℚ
  /-- `midpoint`, in `f64` -/
  midpoint : ℚ → ℚ → ℚ

/-- `LloydMaxCodebook`, with rationals for the floats. -/
structure ExactCodebook where
  dim : UInt32
  bits : UInt8
  centroids : List ℚ
  thresholds : List ℚ

/-- `threshold_between`. -/
def CodebookArith.thresholdBetween (arith : CodebookArith) (lower upper : ℚ) : ℚ :=
  let midpoint := arith.midpoint lower upper
  let nearest := arith.grid.round midpoint
  if nearest < midpoint then arith.grid.nextUp nearest else nearest

namespace ExactCodebook

/-- `from_centroids`, with its two debug assertions. -/
def fromCentroids (arith : CodebookArith) (dim : UInt32) (bits : UInt8) (centroids : List ℚ) :
    Checked AssetError ExactCodebook := do
  Checked.assertThat (centroids.length = 2 ^ bits.toNat) "assertion `left == right` failed"
  Checked.assertThat (∀ pair ∈ neighbours centroids, pair.1 < pair.2)
    "assertion failed: centroids.is_sorted_by(|lower, upper| lower < upper)"
  return {
    dim
    bits
    centroids
    thresholds := (neighbours centroids).map fun pair => arith.thresholdBetween pair.1 pair.2 }

/-- `+` on bytes. -/
def addU8 (a b : UInt8) : Checked AssetError UInt8 :=
  if a.toNat + b.toNat < 2 ^ 8 then .ok (a + b) else Checked.panicked "attempt to add with overflow"

/-- `encode`: the number of thresholds at or below, as a sum of bytes. -/
def encode (codebook : ExactCodebook) (x : ℚ) : Checked AssetError UInt8 :=
  codebook.thresholds.foldlM (fun sum threshold => addU8 sum (if x ≥ threshold then 1 else 0)) 0

/-- The sum does not overflow where the number is a byte. -/
theorem foldlM_addU8 {thresholds : List ℚ} {x : ℚ} {sum : UInt8}
    (h : sum.toNat + thresholds.countP (· ≤ x) < 2 ^ 8) :
    thresholds.foldlM (fun sum threshold => addU8 sum (if x ≥ threshold then 1 else 0)) sum =
      .ok (UInt8.ofNat (sum.toNat + thresholds.countP (· ≤ x))) := by
  induction thresholds generalizing sum with
  | nil =>
      rw [List.countP_nil, Nat.add_zero, UInt8.ofNat_toNat]
      rfl
  | cons threshold rest ih =>
      rw [List.foldlM_cons]
      by_cases hle : threshold ≤ x
      · rw [List.countP_cons_of_pos (by simpa using hle)] at h ⊢
        have hone : (1 : UInt8).toNat = 1 := rfl
        have hsum : (sum + 1).toNat = sum.toNat + 1 := by
          rw [UInt8.toNat_add, hone, Nat.mod_eq_of_lt (by omega)]
        rw [if_pos hle, addU8, if_pos (by rw [hone]; omega)]
        refine (ih (by rw [hsum]; omega)).trans ?_
        rw [hsum, Nat.add_right_comm, Nat.add_assoc]
      · rw [List.countP_cons_of_neg (by simpa using hle)] at h ⊢
        have hzero : (0 : UInt8).toNat = 0 := rfl
        rw [if_neg hle, addU8, if_pos (by rw [hzero]; omega)]
        refine (ih (by rw [UInt8.add_zero]; omega)).trans ?_
        rw [UInt8.add_zero]

variable {arith : CodebookArith} {dim : UInt32} {bits : UInt8} {centroids : List ℚ}

/-- Ascending lists pass the debug assertion. -/
theorem lt_of_mem_neighbours (hascending : centroids.Pairwise (· < ·)) {pair : ℚ × ℚ}
    (h : pair ∈ neighbours centroids) : pair.1 < pair.2 := by
  obtain ⟨k, hk, rfl⟩ := List.getElem_of_mem h
  have hlength := length_neighbours centroids
  rw [getElem_neighbours hk (by omega)]
  exact List.pairwise_iff_getElem.mp hascending k (k + 1) _ _ (Nat.lt_succ_self k)

theorem mem_of_mem_neighbours {pair : ℚ × ℚ} (h : pair ∈ neighbours centroids) :
    pair.1 ∈ centroids ∧ pair.2 ∈ centroids := by
  have hpair := List.of_mem_zip (a := pair.1) (b := pair.2) h
  exact ⟨hpair.1, List.mem_of_mem_tail hpair.2⟩

section Points

variable (hgrid : ∀ centroid ∈ centroids, arith.grid.Point centroid)
  (hascending : centroids.Pairwise (· < ·))
  (hexact : ∀ pair ∈ neighbours centroids, arith.midpoint pair.1 pair.2 = (pair.1 + pair.2) / 2)
include hgrid hascending hexact

/-- A threshold is the least point at or above the midpoint. -/
theorem isLeast_thresholdBetween {pair : ℚ × ℚ} (h : pair ∈ neighbours centroids) :
    IsLeast {p | arith.grid.Point p ∧ (pair.1 + pair.2) / 2 ≤ p}
      (arith.thresholdBetween pair.1 pair.2) := by
  have hlt := lt_of_mem_neighbours hascending h
  obtain ⟨hlower, hupper⟩ := mem_of_mem_neighbours h
  have hleast := Grid.isLeast_roundUp (hgrid _ hlower) (hgrid _ hupper)
    (show pair.1 ≤ (pair.1 + pair.2) / 2 by linarith) (by linarith)
  rw [← hexact pair h] at hleast ⊢
  exact hleast

/-- The thresholds count like the midpoints. -/
theorem countP_thresholds {x : ℚ} (hx : arith.grid.Point x) :
    ((neighbours centroids).map fun pair => arith.thresholdBetween pair.1 pair.2).countP (· ≤ x) =
      cell centroids x := by
  rw [cell, midpoints, List.countP_map, List.countP_map]
  refine List.countP_congr fun pair hpair => ?_
  have hleast := isLeast_thresholdBetween hgrid hascending hexact hpair
  simp only [Function.comp_apply, decide_eq_true_eq]
  exact ⟨fun h => hleast.1.2.trans h, fun h => hleast.2 ⟨hx, h⟩⟩

end Points

/-- Thresholds are the least points at or above the midpoints, a point is encoded as the index of a
nearest centroid, of two nearest ones the upper, and a larger point does not get a smaller index. -/
theorem encode_nearest (arith : CodebookArith) (dim : UInt32) (bits : UInt8) (centroids : List ℚ)
    (hlength : centroids.length = 2 ^ bits.toNat) (hbits : bits.toNat ≤ 8)
    (hgrid : ∀ centroid ∈ centroids, arith.grid.Point centroid)
    (hascending : centroids.Pairwise (· < ·))
    (hexact : ∀ pair ∈ neighbours centroids, arith.midpoint pair.1 pair.2 = (pair.1 + pair.2) / 2) :
    (∀ pair ∈ neighbours centroids, IsLeast {p | arith.grid.Point p ∧ (pair.1 + pair.2) / 2 ≤ p}
      (arith.thresholdBetween pair.1 pair.2)) ∧
    ∃ codebook, fromCentroids arith dim bits centroids = .ok codebook ∧
      (∀ x, arith.grid.Point x → ∃ index, codebook.encode x = .ok index ∧
        ∃ hindex : index.toNat < centroids.length, ∀ j (hj : j < centroids.length),
          |x - centroids[index.toNat]| ≤ |x - centroids[j]| ∧
          (|x - centroids[index.toNat]| = |x - centroids[j]| → j ≤ index.toNat)) ∧
      ∀ x y, arith.grid.Point x → arith.grid.Point y → x ≤ y → ∀ index index',
        codebook.encode x = .ok index → codebook.encode y = .ok index' → index ≤ index' := by
  have hne : centroids ≠ [] := by
    rintro rfl
    exact (Nat.two_pow_pos bits.toNat).ne hlength
  have hbytes : centroids.length ≤ 2 ^ 8 := hlength.trans_le (Nat.pow_le_pow_right (by decide) hbits)
  let codebook : ExactCodebook := {
    dim
    bits
    centroids
    thresholds := (neighbours centroids).map fun pair => arith.thresholdBetween pair.1 pair.2 }
  have hencode : ∀ x, arith.grid.Point x →
      codebook.encode x = .ok (UInt8.ofNat (cell centroids x)) ∧
        (UInt8.ofNat (cell centroids x)).toNat = cell centroids x := by
    intro x hx
    have hcount := countP_thresholds hgrid hascending hexact hx
    have hcell := cell_lt_length hne x
    refine ⟨(foldlM_addU8 ?_).trans ?_, ?_⟩
    · rw [hcount]
      show 0 + _ < _
      omega
    · rw [hcount]
      show _ = Except.ok (UInt8.ofNat (cell centroids x))
      rw [UInt8.toNat_zero, Nat.zero_add]
    · rw [UInt8.toNat_ofNat', Nat.mod_eq_of_lt (by omega)]
  refine ⟨fun pair hpair => isLeast_thresholdBetween hgrid hascending hexact hpair, codebook, ?_,
    fun x hx => ?_, fun x y hx hy hxy index index' hindex hindex' => ?_⟩
  · exact bind_eq_ok.mpr ⟨(), assertThat_eq_ok.mpr hlength, bind_eq_ok.mpr
      ⟨(), assertThat_eq_ok.mpr fun pair hpair => lt_of_mem_neighbours hascending hpair, rfl⟩⟩
  · obtain ⟨hok, hnat⟩ := hencode x hx
    refine ⟨_, hok, ?_⟩
    rw [hnat]
    exact ⟨cell_lt_length hne x, fun j hj => nearest_cell hascending _ hj⟩
  · obtain ⟨hok, hnat⟩ := hencode x hx
    obtain ⟨hok', hnat'⟩ := hencode y hy
    obtain rfl := Except.ok.inj (hok.symm.trans hindex)
    obtain rfl := Except.ok.inj (hok'.symm.trans hindex')
    rw [UInt8.le_iff_toNat_le, hnat, hnat']
    exact cell_mono hxy

/-- The integers, and a midpoint without rounding. -/
def integers : CodebookArith where
  grid := {
    Point := fun x => ∃ n : ℤ, (n : ℚ) = x
    round := fun x => round x
    nextUp := fun x => x + 1
    round_point := fun _ _ _ _ => ⟨_, rfl⟩
    round_nearest := by
      rintro x _ _ _ - - - - ⟨n, rfl⟩
      exact round_le x n
    nextUp_point := by
      rintro _ _ ⟨n, rfl⟩ - -
      exact ⟨n + 1, by push_cast; rfl⟩
    lt_nextUp := fun _ _ _ => lt_add_one _
    nextUp_le := by
      rintro _ _ ⟨n, rfl⟩ ⟨m, rfl⟩ hlt
      exact_mod_cast hlt }
  midpoint lower upper := (lower + upper) / 2

/-- Between the two middle centroids the upper one is taken. -/
theorem encode_nearest_integers : ∃ codebook,
    fromCentroids integers 1 2 [-3, -1, 1, 3] = .ok codebook ∧
      ∃ index, codebook.encode 0 = .ok index ∧ 2 ≤ index.toNat := by
  obtain ⟨-, codebook, hcodebook, hnearest, -⟩ := encode_nearest integers 1 2 [-3, -1, 1, 3] rfl
    (by decide)
    (by
      intro centroid h
      simp only [List.mem_cons, List.not_mem_nil, or_false] at h
      rcases h with rfl | rfl | rfl | rfl
      exacts [⟨-3, by norm_num⟩, ⟨-1, by norm_num⟩, ⟨1, by norm_num⟩, ⟨3, by norm_num⟩])
    (by norm_num) (fun _ _ => rfl)
  obtain ⟨index, hindex, hlt, hbest⟩ := hnearest 0 ⟨0, by norm_num⟩
  refine ⟨codebook, hcodebook, index, hindex, ?_⟩
  obtain ⟨hclose, htie⟩ := hbest 2 (by decide)
  by_contra hsmall
  have hcases : index.toNat = 0 ∨ index.toNat = 1 := by omega
  rcases hcases with hzero | hone
  · simp only [hzero, List.getElem_cons_zero, List.getElem_cons_succ] at hclose
    norm_num at hclose
  · simp only [hone, List.getElem_cons_zero, List.getElem_cons_succ] at htie
    norm_num at htie

end ExactCodebook

end LTSearch
