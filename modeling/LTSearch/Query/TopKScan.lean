/-
# LTSearch.Query.TopKScan -- the parallel scan is a sort and a cut

However the scan splits the records and whichever of several worst candidates a heap drops, the
ranked result has the first `top_k` keys of all candidates in order, and is the first `top_k`
candidates themselves where no two have the same key.
-/
import LTSearch.Foundation.BestK
import LTSearch.Query.TurboSearcher

namespace LTSearch

open LTSearch.Foundation

/-! ## The order -/

/-- A float is known by its place in the order of `total_cmp`. -/
theorem F32.totalKey_injective : Function.Injective F32.totalKey := by
  intro x y h
  have hx : x.magnitude = (x.bits.toNat % 2 ^ 31 : Nat) := by
    rw [F32.magnitude, BitVec.extractLsb'_toNat, Nat.shiftRight_zero]
  have hy : y.magnitude = (y.bits.toNat % 2 ^ 31 : Nat) := by
    rw [F32.magnitude, BitVec.extractLsb'_toNat, Nat.shiftRight_zero]
  have hxlt := x.bits.isLt
  have hylt := y.bits.isLt
  have hbits : x.bits.toNat = y.bits.toNat := by
    unfold F32.totalKey at h
    rw [hx, hy, BitVec.msb_eq_decide, BitVec.msb_eq_decide] at h
    simp only [decide_eq_true_eq] at h
    split at h <;> split at h <;> omega
  cases x
  cases y
  exact congrArg F32.mk (BitVec.eq_of_toNat_eq hbits)

/-- What the ranking goes by: the score, a higher one first, and then the doc id. -/
def RankedResult.rankKey (r : RankedResult) : Lex (OrderDual Int × Nat) :=
  toLex (OrderDual.toDual r.score.totalKey, r.docId.toNat)

theorem rankKey_lt {a b : RankedResult} : a.rankKey < b.rankKey ↔
    b.score.totalKey < a.score.totalKey ∨
      b.score.totalKey = a.score.totalKey ∧ a.docId < b.docId := by
  rw [RankedResult.rankKey, RankedResult.rankKey, Prod.Lex.toLex_lt_toLex, UInt64.lt_iff_toNat_lt]
  exact or_congr_right (and_congr_left' eq_comm)

theorem compareRankedResults_eq (a b : RankedResult) :
    compareRankedResults a b = compare a.rankKey b.rankKey := by
  unfold compareRankedResults
  rcases lt_trichotomy a.rankKey b.rankKey with h | h | h
  · rw [compare_lt_iff_lt.mpr h, Ordering.then_eq_lt, compare_lt_iff_lt, compare_eq_iff_eq,
      Std.compare_eq_lt]
    exact rankKey_lt.mp h
  · obtain ⟨hscore, hdocId⟩ := Prod.mk.inj (toLex.injective h)
    rw [compare_eq_iff_eq.mpr h, Ordering.then_eq_eq, compare_eq_iff_eq]
    rw [UInt64.toNat_inj.mp hdocId]
    exact ⟨(OrderDual.toDual.injective hscore).symm, Std.ReflCmp.compare_self⟩
  · rw [compare_gt_iff_gt.mpr h, Ordering.then_eq_gt, compare_gt_iff_gt, compare_eq_iff_eq,
      Std.compare_eq_gt]
    exact (rankKey_lt.mp h).imp id fun h => ⟨h.1.symm, h.2⟩

/-- The key is the score and the doc id. -/
theorem rankKey_eq_iff {a b : RankedResult} :
    a.rankKey = b.rankKey ↔ (a.score, a.docId) = (b.score, b.docId) := by
  constructor
  · intro h
    obtain ⟨hscore, hdocId⟩ := Prod.mk.inj (toLex.injective h)
    exact Prod.ext (F32.totalKey_injective (OrderDual.toDual.injective hscore))
      (UInt64.toNat_inj.mp hdocId)
  · intro h
    obtain ⟨hscore, hdocId⟩ := Prod.mk.inj h
    rw [RankedResult.rankKey, RankedResult.rankKey, hscore, hdocId]

/-! ## The scan -/

/-- `ranked.sort_by(compare_ranked_results)`. -/
def rankResults (results : List RankedResult) : List RankedResult :=
  results.mergeSort fun a b => compareRankedResults a b ≠ .gt

/-- Every record with its score, as the scan sees them. -/
def scoredRecords {R : Type} (records : List R) (scoreRecord : R → UInt64 × F32) :
    List RankedResult :=
  records.zipIdx.map fun (record, recordIndex) =>
    { score := (scoreRecord record).2, docId := (scoreRecord record).1, recordIndex }

theorem map_scoredRecords {R : Type} (records : List R) (scoreRecord : R → UInt64 × F32) :
    (scoredRecords records scoreRecord).map (fun r => (r.docId, r.score)) =
      records.map scoreRecord := by
  conv_rhs => rw [← List.zipIdx_map_fst 0 records]
  rw [scoredRecords, List.map_map, List.map_map]
  rfl

theorem scanTopK_eq {ε R : Type} (scanner : Scanner) (records : List R) (topK : Nat)
    (scoreRecord : R → UInt64 × F32) :
    (scanTopK scanner records topK fun record => .ok (scoreRecord record) : Checked ε _) =
      .ok (scanner.heap.scan topK scanner.plan (scoredRecords records scoreRecord)) := by
  have hscored : ∀ entries : List (R × Nat), (entries.mapM fun entry => do
      let scored ← (.ok (scoreRecord entry.1) : Checked ε (UInt64 × F32))
      return { score := scored.2, docId := scored.1, recordIndex := entry.2 : RankedResult }) =
      .ok (entries.map fun entry =>
        { score := (scoreRecord entry.1).2, docId := (scoreRecord entry.1).1,
          recordIndex := entry.2 }) := by
    intro entries
    induction entries with
    | nil => rfl
    | cons entry rest ih =>
        rw [List.mapM_cons, ih]
        rfl
  exact bind_eq_ok.mpr ⟨_, hscored records.zipIdx, rfl⟩

/-- The ranked result of the scan is the first `top_k` of all candidates in order: the same scores
and doc ids always, and the same records where no two candidates share a score and a doc id. -/
theorem rankResults_scanTopK {ε R : Type} (scanner : Scanner) (records : List R) {topK : Nat}
    (hk : 1 ≤ topK) (scoreRecord : R → UInt64 × F32) :
    ∃ heap, (scanTopK scanner records topK fun record => .ok (scoreRecord record) : Checked ε _) =
        .ok heap ∧
      (rankResults heap).map (fun r => (r.score, r.docId)) =
        ((rankResults (scoredRecords records scoreRecord)).take topK).map
          (fun r => (r.score, r.docId)) ∧
      ((records.map scoreRecord).Nodup →
        rankResults heap = (rankResults (scoredRecords records scoreRecord)).take topK) := by
  refine ⟨_, scanTopK_eq scanner records topK scoreRecord, ?_, fun hnodup => ?_⟩
  all_goals
    have hbest := scanner.heap.bestOf_scan compareRankedResults_eq hk scanner.plan
      (scoredRecords records scoreRecord)
    simp only [rankResults, MaxPop.mergeSort_eq compareRankedResults_eq]
  · -- the key tells the score and the doc id
    have hkeys := hbest.map_sortBy
    have hpairs : ∀ l l' : List RankedResult, l.map RankedResult.rankKey = l'.map RankedResult.rankKey →
        l.map (fun r => (r.score, r.docId)) = l'.map (fun r => (r.score, r.docId)) := by
      intro l l' h
      rw [← List.forall₂_eq_eq_eq, List.forall₂_map_left_iff, List.forall₂_map_right_iff] at h ⊢
      exact h.imp fun a b hab => rankKey_eq_iff.mp hab
    exact hpairs _ _ hkeys
  · refine hbest.sortBy_eq (List.pairwise_map.mpr ?_)
    rw [← map_scoredRecords, List.Nodup, List.pairwise_map] at hnodup
    refine hnodup.imp fun hne heq => hne ?_
    obtain ⟨hscore, hdocId⟩ := Prod.mk.inj (rankKey_eq_iff.mp heq)
    exact Prod.ext hdocId hscore

theorem compareRankedResults_trans (a b c : RankedResult) (hab : compareRankedResults a b ≠ .gt)
    (hbc : compareRankedResults b c ≠ .gt) : compareRankedResults a c ≠ .gt := by
  rw [MaxPop.cmp_ne_gt compareRankedResults_eq] at hab hbc ⊢
  exact hab.trans hbc

theorem compareRankedResults_total (a b : RankedResult) :
    compareRankedResults a b ≠ .gt ∨ compareRankedResults b a ≠ .gt := by
  rw [MaxPop.cmp_ne_gt compareRankedResults_eq, MaxPop.cmp_ne_gt compareRankedResults_eq]
  exact le_total _ _

/-- A scanner that keeps its heaps sorted and scans in two pieces. -/
def twoPieces : Scanner where
  heap := .ofSort compareRankedResults compareRankedResults_trans compareRankedResults_total
  plan := .split 2 .segment .segment

/-- Three records, of which two have the same score. -/
theorem rankResults_scanTopK_twoPieces :
    ∃ heap, (scanTopK twoPieces [(1, F32.mk 0), (3, ⟨5⟩), (2, ⟨5⟩)] 2 fun record => .ok record :
          Checked Empty _) = .ok heap ∧
      rankResults heap = (rankResults (scoredRecords [(1, F32.mk 0), (3, ⟨5⟩), (2, ⟨5⟩)] id)).take 2 := by
  obtain ⟨heap, hheap, -, hrecords⟩ := rankResults_scanTopK (ε := Empty) twoPieces
    [(1, F32.mk 0), (3, ⟨5⟩), (2, ⟨5⟩)] (show 1 ≤ 2 by decide) id
  exact ⟨heap, hheap, hrecords (by decide)⟩

end LTSearch
