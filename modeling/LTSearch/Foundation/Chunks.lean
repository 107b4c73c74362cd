/-
# LTSearch.Foundation.Chunks -- a list read chunk by chunk, next to a list with one entry a chunk

`chunks(n)` cuts a list into pieces of `n` elements, the last one shorter.  A loop over the pieces and
over what belongs to each adds up one term for each element, and reads no more than there are
elements.
-/
import Mathlib

namespace LTSearch.Foundation

variable {α β M : Type}

/-- The number of chunks: `div_ceil`. -/
def chunkCount (n length : Nat) : Nat := (length + (n - 1)) / n

/-- `chunks(n)`. -/
def chunks (n : Nat) (l : List α) : List (List α) :=
  (List.range (chunkCount n l.length)).map fun k => (l.drop (n * k)).take n

theorem chunkCount_zero {n : Nat} (hn : 0 < n) : chunkCount n 0 = 0 := by
  rw [chunkCount, Nat.zero_add]
  exact Nat.div_eq_of_lt (by omega)

theorem chunkCount_of_pos {n length : Nat} (hn : 0 < n) (h : 0 < length) :
    chunkCount n length = chunkCount n (length - n) + 1 := by
  rw [chunkCount, chunkCount]
  rcases Nat.lt_or_ge length n with hlt | hge
  · rw [Nat.sub_eq_zero_of_le hlt.le, Nat.zero_add, Nat.div_eq_of_lt (show n - 1 < n by omega),
      show length + (n - 1) = length - 1 + n by omega, Nat.add_div_right _ hn,
      Nat.div_eq_of_lt (by omega)]
  · rw [show length + (n - 1) = length - n + (n - 1) + n by omega, Nat.add_div_right _ hn]

theorem div_lt_chunkCount {n length j : Nat} (hn : 0 < n) (hj : j < length) :
    j / n < chunkCount n length := by
  rw [chunkCount, Nat.div_lt_iff_lt_mul hn]
  have hdiv := Nat.div_add_mod (length + (n - 1)) n
  have hmod := Nat.mod_lt (length + (n - 1)) hn
  rw [Nat.mul_comm] at hdiv
  omega

theorem chunks_nil {n : Nat} (hn : 0 < n) : chunks n ([] : List α) = [] := by
  rw [chunks, List.length_nil, chunkCount_zero hn]
  rfl

theorem chunks_of_ne_nil {n : Nat} (hn : 0 < n) {l : List α} (h : l ≠ []) :
    chunks n l = l.take n :: chunks n (l.drop n) := by
  rw [chunks, chunkCount_of_pos hn (List.length_pos_iff.mpr h), List.range_succ_eq_map, List.map_cons,
    Nat.mul_zero, List.drop_zero, List.map_map, chunks, List.length_drop]
  refine congrArg _ (List.map_congr_left fun k _ => ?_)
  simp only [Function.comp_apply, List.drop_drop]
  rw [Nat.mul_succ, Nat.add_comm]

section Sum

variable [AddCommMonoid M]

theorem foldl_add_eq_sum (f : α × Nat → M) (l : List (α × Nat)) (start : M) :
    l.foldl (fun sum entry => sum + f entry) start = start + (l.map f).sum := by
  induction l generalizing start with
  | nil => exact (add_zero start).symm
  | cons entry rest ih => rw [List.foldl_cons, ih, List.map_cons, List.sum_cons, add_assoc]

/-- Element `j` is read next to entry `j / n`, in place `j % n`. -/
theorem foldl_zip_chunks {n : Nat} (hn : 0 < n) (f : α → β → Nat → M) (l : List α) (entries : List β)
    (hlength : entries.length = chunkCount n l.length) (start : M) :
    ((chunks n l).zip entries).foldl
        (fun sum chunk => chunk.1.zipIdx.foldl (fun sum value => sum + f value.1 chunk.2 value.2) sum)
        start =
      start + (l.zipIdx.map fun value =>
        (entries[value.2 / n]?).elim 0 fun entry => f value.1 entry (value.2 % n)).sum := by
  induction entries generalizing l start with
  | nil =>
      have hl : l = [] := by
        by_contra hne
        rw [chunkCount_of_pos hn (List.length_pos_iff.mpr hne)] at hlength
        exact absurd hlength (Nat.succ_ne_zero _).symm
      subst hl
      rw [chunks_nil hn]
      exact (add_zero start).symm
  | cons entry rest ih =>
      have hne : l ≠ [] := by
        rintro rfl
        rw [List.length_nil, chunkCount_zero hn] at hlength
        exact Nat.succ_ne_zero _ hlength
      have hrest : rest.length = chunkCount n (l.drop n).length := by
        rw [chunkCount_of_pos hn (List.length_pos_iff.mpr hne), List.length_cons,
          Nat.add_right_cancel_iff] at hlength
        rw [hlength, List.length_drop]
      rw [chunks_of_ne_nil hn hne, List.zip_cons_cons, List.foldl_cons, ih (l.drop n) hrest,
        foldl_add_eq_sum fun value => f value.1 entry value.2, add_assoc]
      refine congrArg (start + ·) ?_
      -- the first chunk and the rest, with the places they have in the whole list
      have hsplit : l.zipIdx = (l.take n).zipIdx ++ (l.drop n).zipIdx (l.take n).length := by
        rw [← Nat.zero_add (l.take n).length, ← List.zipIdx_append, List.take_append_drop]
      rw [hsplit, List.map_append, List.sum_append]
      refine congrArg₂ (· + ·) (congrArg List.sum (List.map_congr_left fun value hvalue => ?_)) ?_
      · have hlt : value.2 < n :=
          (List.snd_lt_of_mem_zipIdx hvalue).trans_le (List.length_take_le n l)
        rw [Nat.div_eq_of_lt hlt, Nat.mod_eq_of_lt hlt]
        rfl
      · rcases Nat.lt_or_ge l.length n with hshort | hlong
        · rw [List.drop_eq_nil_of_le hshort.le]
          rfl
        · rw [List.length_take, Nat.min_eq_left hlong, List.zipIdx_eq_map_add (i := n), List.map_map]
          refine congrArg List.sum (List.map_congr_left fun value _ => ?_)
          simp only [Function.comp_apply]
          rw [Nat.add_comm n, Nat.add_div_right _ hn, Nat.add_mod_right]
          rfl

end Sum

end LTSearch.Foundation
