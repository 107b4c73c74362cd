/-
# LTSearch.Query.RetrievalCommon -- ranking that the retrievers share

The results of several shards or rounds become one list: one result for each document, a best one,
in the order of the scores and then of the doc ids, cut to `top_k`.
-/
import LTSearch.Foundation.BestPer
import LTSearch.Query.Ranker
import LTSearch.Query.TopKScan

namespace LTSearch

open LTSearch.Foundation

/-- `compare_search_results`. -/
def compareSearchResults (left right : SearchResult) : Ordering :=
  (compare right.score.totalKey left.score.totalKey).then (compare left.docId right.docId)

/-- The order in which a hash map gives its values. -/
structure MapOrder (ρ : Type) where
  intoValues : List ρ → List ρ
  perm : ∀ rows, (intoValues rows).Perm rows

section Dedupe

variable {ρ : Type} {docId : ρ → String} (ge : ρ → ρ → Bool)

/-- One step of the loop: a result that is at least as good stays. -/
def keepBetter (deduped : Table docId) (result : ρ) : Table docId :=
  match deduped.get (docId result) with
  | some existing => if ge existing result then deduped else deduped.put result
  | none => deduped.put result

variable (docId)

/-- `dedupe_best_by_doc_id`, for results that are compared by `ge` and sorted by `cmp`. -/
def dedupeBest (cmp : ρ → ρ → Ordering) (order : MapOrder ρ) (results : List ρ) (topK : Nat) :
    List ρ :=
  ((order.intoValues (results.foldl (keepBetter ge) (∅ : Table docId)).rows).mergeSort
    fun left right => cmp left right ≠ .gt).take topK

end Dedupe

/-- `dedupe_best_by_doc_id`. -/
def dedupeBestByDocId (order : MapOrder SearchResult) (results : List SearchResult) (topK : Nat) :
    List SearchResult :=
  dedupeBest SearchResult.docId (fun existing result => existing.score.ge result.score)
    compareSearchResults order results topK

/-! ## The order -/

namespace SearchResult

/-- What the ranking goes by. -/
def rankKey (r : SearchResult) : Lex (OrderDual Int × String) :=
  toLex (OrderDual.toDual r.score.totalKey, r.docId)

theorem rankKey_lt {a b : SearchResult} : a.rankKey < b.rankKey ↔
    b.score.totalKey < a.score.totalKey ∨
      b.score.totalKey = a.score.totalKey ∧ a.docId < b.docId := by
  rw [rankKey, rankKey, Prod.Lex.toLex_lt_toLex]
  exact or_congr_right (and_congr_left' eq_comm)

/-- Of one document, a higher score is before a lower one. -/
theorem rankKey_le_of_docId {a b : SearchResult} (h : a.docId = b.docId) :
    a.rankKey ≤ b.rankKey ↔ b.score.totalKey ≤ a.score.totalKey := by
  rw [← not_lt, rankKey_lt, h]
  simp only [lt_irrefl, and_false, or_false, not_lt]

/-- The key is the doc id and the score. -/
theorem rankKey_eq_iff {a b : SearchResult} :
    a.rankKey = b.rankKey ↔ (a.docId, a.score) = (b.docId, b.score) := by
  constructor
  · intro h
    obtain ⟨hscore, hdocId⟩ := Prod.mk.inj (toLex.injective h)
    exact Prod.ext hdocId (F32.totalKey_injective (OrderDual.toDual.injective hscore))
  · intro h
    obtain ⟨hdocId, hscore⟩ := Prod.mk.inj h
    rw [rankKey, rankKey, hscore, hdocId]

end SearchResult

theorem compareSearchResults_eq (a b : SearchResult) :
    compareSearchResults a b = compare a.rankKey b.rankKey := by
  unfold compareSearchResults
  rcases lt_trichotomy a.rankKey b.rankKey with h | h | h
  · rw [compare_lt_iff_lt.mpr h, Ordering.then_eq_lt, compare_lt_iff_lt, compare_eq_iff_eq,
      compare_lt_iff_lt]
    exact SearchResult.rankKey_lt.mp h
  · obtain ⟨hdocId, hscore⟩ := Prod.mk.inj (SearchResult.rankKey_eq_iff.mp h)
    rw [compare_eq_iff_eq.mpr h, Ordering.then_eq_eq, compare_eq_iff_eq, compare_eq_iff_eq, hscore]
    exact ⟨rfl, hdocId⟩
  · rw [compare_gt_iff_gt.mpr h, Ordering.then_eq_gt, compare_gt_iff_gt, compare_eq_iff_eq,
      compare_gt_iff_gt]
    exact (SearchResult.rankKey_lt.mp h).imp id fun h => ⟨h.1.symm, h.2⟩

/-- Results are told apart by their documents. -/
def resultRanking : Ranking SearchResult String (Lex (OrderDual Int × String)) where
  id := SearchResult.docId
  key := SearchResult.rankKey
  id_eq h := (Prod.mk.inj (SearchResult.rankKey_eq_iff.mp h)).1

/-! ## The loop -/

section Loop

variable {ρ V : Type} [LinearOrder V] {docId : ρ → String} {ge : ρ → ρ → Bool} (value : ρ → V)

/-- What the loop has kept: a best result of each document. -/
structure Kept (seen : List ρ) (deduped : Table docId) : Prop where
  mem : ∀ r ∈ deduped.rows, r ∈ seen
  covers : ∀ b ∈ seen, ∃ a ∈ deduped.rows, docId a = docId b ∧ value b ≤ value a

/-- The comparison goes by the value. -/
def Compares (ge : ρ → ρ → Bool) (results : List ρ) : Prop :=
  ∀ a ∈ results, ∀ b ∈ results, ge a b = true ↔ value b ≤ value a

variable {value}

theorem Kept.step {seen : List ρ} {deduped : Table docId} {result : ρ}
    (h : Kept value seen deduped) (hge : Compares value ge (seen ++ [result])) :
    Kept value (seen ++ [result]) (keepBetter ge deduped result) := by
  have hresult : result ∈ seen ++ [result] := List.mem_append_right _ (List.mem_singleton_self _)
  -- a result that is put into the map is at least as good as the one it replaces
  have hput : (∀ existing, deduped.get (docId result) = some existing →
      value existing ≤ value result) → Kept value (seen ++ [result]) (deduped.put result) := by
    intro hbetter
    refine ⟨fun r hr => ?_, fun b hb => ?_⟩
    · rw [Table.mem_iff_get, Table.get_put] at hr
      split at hr
      · rw [← Option.some.inj hr]
        exact hresult
      · exact List.mem_append_left _ (h.mem r (Table.mem_iff_get.mpr hr))
    · by_cases hid : docId result = docId b
      · refine ⟨result, ?_, hid, ?_⟩
        · rw [Table.mem_iff_get, Table.get_put, if_pos rfl]
        · rcases List.mem_append.mp hb with hb | hb
          · obtain ⟨a, ha, haid, hle⟩ := h.covers b hb
            refine hle.trans (hbetter a ?_)
            rw [hid, ← haid]
            exact Table.mem_iff_get.mp ha
          · rw [List.mem_singleton.mp hb]
      · rcases List.mem_append.mp hb with hb | hb
        · obtain ⟨a, ha, haid, hle⟩ := h.covers b hb
          refine ⟨a, ?_, haid, hle⟩
          rw [Table.mem_iff_get, Table.get_put, if_neg fun heq => hid (heq.trans haid)]
          exact Table.mem_iff_get.mp ha
        · exact absurd (congrArg docId (List.mem_singleton.mp hb)).symm hid
  unfold keepBetter
  split
  · rename_i existing hexisting
    have hmem : existing ∈ deduped.rows := by
      rw [Table.mem_iff_get, Table.key_of_get hexisting]
      exact hexisting
    have hge := hge existing (List.mem_append_left _ (h.mem _ hmem)) result hresult
    split
    · rename_i hkept
      refine ⟨fun r hr => List.mem_append_left _ (h.mem r hr), fun b hb => ?_⟩
      rcases List.mem_append.mp hb with hb | hb
      · exact h.covers b hb
      · rw [List.mem_singleton.mp hb]
        exact ⟨existing, hmem, Table.key_of_get hexisting, hge.mp hkept⟩
    · rename_i hreplaced
      refine hput fun other hother => ?_
      obtain rfl := Option.some.inj (hexisting.symm.trans hother)
      exact (not_le.mp (mt hge.mpr hreplaced)).le
  · rename_i hnone
    exact hput fun existing hexisting => by
      rw [hnone] at hexisting
      cases hexisting

theorem kept_foldl {results : List ρ} (hge : Compares value ge results) :
    Kept value results (results.foldl (keepBetter ge) (∅ : Table docId)) := by
  suffices h : ∀ seen (deduped : Table docId), Kept value seen deduped →
      Compares value ge (seen ++ results) →
      Kept value (seen ++ results) (results.foldl (keepBetter ge) deduped) from
    h [] ∅ ⟨nofun, nofun⟩ hge
  clear hge
  induction results with
  | nil =>
      intro seen deduped h _
      rwa [List.append_nil]
  | cons result rest ih =>
      intro seen deduped h hge
      rw [List.append_cons] at hge ⊢
      exact ih _ _ (h.step fun a ha b hb =>
        hge a (List.mem_append_left _ ha) b (List.mem_append_left _ hb)) hge

omit [LinearOrder V] in
/-- No document is met twice, so every hit is kept. -/
theorem rows_keepBetter {results : List ρ}
    (h : (results.map docId).Nodup) :
    (results.foldl (keepBetter ge) (∅ : Table docId)).rows = results := by
  induction results using List.reverseRecOn with
  | nil => rfl
  | append_singleton seen result ih =>
      rw [List.map_append, List.nodup_append] at h
      obtain ⟨hseen, -, hfresh⟩ := h
      have hrows := ih hseen
      have hne : ∀ r ∈ seen, docId r ≠ docId result := fun r hr =>
        hfresh (docId r) (List.mem_map_of_mem hr) (docId result)
          (List.mem_map_of_mem (List.mem_singleton_self _))
      rw [List.foldl_append, List.foldl_cons, List.foldl_nil, keepBetter]
      have hnone : (seen.foldl (keepBetter ge) (∅ : Table docId)).get (docId result) = none := by
        rw [Table.get_eq_none_iff, hrows]
        exact hne
      rw [hnone]
      show (seen.foldl (keepBetter ge) ∅).rows.filter _ ++ [result] = seen ++ [result]
      rw [hrows, List.filter_eq_self.mpr fun r hr => decide_eq_true (hne r hr)]

/-! ## What is returned -/

variable {κ : Type} [LinearOrder κ] {R : Ranking ρ String κ} {cmp : ρ → ρ → Ordering}
  {order : MapOrder ρ} {results : List ρ} {topK : Nat}

theorem mem_dedupeBest {a : ρ} (h : a ∈ dedupeBest docId ge cmp order results topK) :
    a ∈ (results.foldl (keepBetter ge) (∅ : Table docId)).rows :=
  (order.perm _).mem_iff.mp (List.mem_mergeSort.mp (List.mem_of_mem_take h))

/-- A document comes once. -/
theorem nodup_dedupeBest : ((dedupeBest docId ge cmp order results topK).map docId).Nodup := by
  have hperm := (List.mergeSort_perm
    (order.intoValues (results.foldl (keepBetter ge) (∅ : Table docId)).rows)
    fun left right => cmp left right ≠ .gt).trans (order.perm _)
  exact ((List.take_sublist _ _).map docId).nodup
    ((hperm.map docId).nodup_iff.mpr (results.foldl (keepBetter ge) (∅ : Table docId)).nodup)

omit [LinearOrder V] in
/-- Distinct documents are sorted and cut. -/
theorem dedupeBest_eq (hcmp : ∀ a b, cmp a b = compare (R.key a) (R.key b))
    (h : (results.map R.id).Nodup) :
    dedupeBest R.id ge cmp order results topK = (sortBy R.key results).take topK := by
  have hkeys : (results.map R.key).Nodup := List.pairwise_map.mpr
    ((List.pairwise_map.mp h).imp fun hne heq => hne (R.id_eq heq))
  rw [dedupeBest, rows_keepBetter h, MaxPop.mergeSort_eq hcmp,
    sortBy_congr R.key (order.perm results).symm hkeys]

/-- It comes with its largest value. -/
theorem best_dedupeBest (hge : Compares value ge results) {a : ρ}
    (h : a ∈ dedupeBest docId ge cmp order results topK) :
    a ∈ results ∧ ∀ b ∈ results, docId b = docId a → value b ≤ value a := by
  have hkept : Kept value results (results.foldl (keepBetter ge) (∅ : Table docId)) := kept_foldl hge
  refine ⟨hkept.mem a (mem_dedupeBest h), fun b hb hid => ?_⟩
  obtain ⟨a', ha', hid', hle⟩ := hkept.covers b hb
  rwa [List.inj_on_of_nodup_map (results.foldl (keepBetter ge) (∅ : Table docId)).nodup ha'
    (mem_dedupeBest h) (hid'.trans hid)] at hle

/-- Where the value of a document tells its place in the order, what is returned is the first
`top_k` by the ranking. -/
theorem topPer_dedupeBest (hcmp : ∀ a b, cmp a b = compare (R.key a) (R.key b))
    (hge : Compares value ge results)
    (hkey : ∀ a ∈ results, ∀ b ∈ results, R.id a = R.id b → value b ≤ value a → R.key a ≤ R.key b) :
    R.TopPer topK results (dedupeBest R.id ge cmp order results topK) := by
  have hkept : Kept value results (results.foldl (keepBetter ge) (∅ : Table R.id)) := kept_foldl hge
  rw [dedupeBest, MaxPop.mergeSort_eq hcmp]
  refine Ranking.BestPer.topPer ?_ (order.perm _)
  refine ⟨hkept.mem, (results.foldl (keepBetter ge) (∅ : Table R.id)).nodup, fun b hb => ?_⟩
  obtain ⟨a, ha, hid, hle⟩ := hkept.covers b hb
  exact ⟨a, ha, hid, hkey a (hkept.mem a ha) b hb hid hle⟩

end Loop

/-! ## The scores -/

namespace F32

/-- A larger number is later in the order of `total_cmp`. -/
theorem totalKey_lt_of_value {x y : F32} (h : x.value < y.value) : x.totalKey < y.totalKey := by
  have hx : 0 ≤ x.magnitude := Int.natCast_nonneg _
  have hy : 0 ≤ y.magnitude := Int.natCast_nonneg _
  unfold value at h
  unfold totalKey
  by_cases hxs : x.bits.msb = true <;> by_cases hys : y.bits.msb = true <;>
    simp only [hxs, hys, if_true, Bool.false_eq_true, if_false] at h ⊢ <;> omega

/-- Finite floats are compared as numbers. -/
theorem ge_iff {x y : F32} (hx : x.isFinite = true) (hy : y.isFinite = true) :
    x.ge y = true ↔ y.value ≤ x.value := by
  have hnumber : ∀ z : F32, z.isFinite = true → z.isNan = false := by
    intro z hz
    rw [isFinite, bne_iff_ne] at hz
    simp only [isNan, hz, decide_false, Bool.false_and]
  have hlt : x.lt y = true ↔ x.value < y.value := by
    simp only [lt, hnumber x hx, hnumber y hy, Bool.not_false, Bool.true_and, decide_eq_true_eq]
    rfl
  simp only [ge, hnumber x hx, hnumber y hy, Bool.not_false, Bool.true_and, Bool.not_eq_true',
    ← Bool.not_eq_true, hlt, not_lt]

end F32

/-- The scores are numbers. -/
def FiniteScores (results : List SearchResult) : Prop :=
  ∀ result ∈ results, result.score.isFinite = true

instance (results : List SearchResult) : Decidable (FiniteScores results) :=
  inferInstanceAs (Decidable (∀ result ∈ results, result.score.isFinite = true))

/-- The scores of one document differ as numbers where they differ: it has not both zeros. -/
def OneZero (results : List SearchResult) : Prop :=
  ∀ a ∈ results, ∀ b ∈ results, a.docId = b.docId → a.score.value = b.score.value → a.score = b.score

instance (results : List SearchResult) : Decidable (OneZero results) :=
  inferInstanceAs (Decidable (∀ a ∈ results, ∀ b ∈ results, a.docId = b.docId →
    a.score.value = b.score.value → a.score = b.score))

variable {order : MapOrder SearchResult} {results : List SearchResult} {topK : Nat}

theorem FiniteScores.compares (h : FiniteScores results) :
    Compares (fun r : SearchResult => r.score.value)
      (fun existing result => existing.score.ge result.score) results :=
  fun a ha b hb => F32.ge_iff (h a ha) (h b hb)

/-- One result for each document, with its largest score, in order. -/
structure Deduped (results out : List SearchResult) : Prop where
  distinct : (out.map SearchResult.docId).Nodup
  best : ∀ a ∈ out, a ∈ results ∧
    ∀ b ∈ results, b.docId = a.docId → b.score.value ≤ a.score.value
  ordered : out.Pairwise fun a b => compareSearchResults a b = .lt

theorem deduped_dedupe (hfinite : FiniteScores results) :
    Deduped results (dedupeBestByDocId order results topK) := by
  refine ⟨nodup_dedupeBest, fun a ha => best_dedupeBest hfinite.compares ha, ?_⟩
  have hdistinct : ((dedupeBestByDocId order results topK).map SearchResult.docId).Nodup :=
    nodup_dedupeBest
  have hsorted : (dedupeBestByDocId order results topK).Pairwise fun a b => a.rankKey ≤ b.rankKey := by
    rw [dedupeBestByDocId, dedupeBest, MaxPop.mergeSort_eq compareSearchResults_eq]
    exact (pairwise_sortBy _ _).sublist (List.take_sublist _ _)
  refine (hsorted.and (List.pairwise_map.mp hdistinct)).imp ?_
  rintro a b ⟨hle, hne⟩
  rw [compareSearchResults_eq, compare_lt_iff_lt]
  exact lt_of_le_of_ne hle fun heq => hne (resultRanking.id_eq heq)

/-- Where no document has both zeros, it is the first `top_k` by the ranking. -/
theorem topPer_dedupe (hfinite : FiniteScores results) (hzero : OneZero results) :
    resultRanking.TopPer topK results (dedupeBestByDocId order results topK) := by
  refine topPer_dedupeBest (R := resultRanking) compareSearchResults_eq hfinite.compares
    fun a ha b hb hid hle => (SearchResult.rankKey_le_of_docId hid).mpr ?_
  rcases hle.lt_or_eq with hlt | heq
  · exact (F32.totalKey_lt_of_value hlt).le
  · rw [hzero a ha b hb hid heq.symm]

/-! ## Merging -/

/-- A result as a caller tells it apart. -/
def SearchResult.scored (r : SearchResult) : String × F32 := (r.docId, r.score)

/-- The first `top_k` of the parts' first `top_k`, in any order, are the first `top_k` of the whole;
and what is returned has one result for each document, with its largest score, in order. -/
theorem dedupe_parts (parts : List (MapOrder SearchResult × List SearchResult)) (topK : Nat)
    (hfinite : FiniteScores (parts.map (·.2)).flatten) :
    (∀ order, Deduped (parts.map (·.2)).flatten
        (dedupeBestByDocId order (parts.map (·.2)).flatten topK)) ∧
      (OneZero (parts.map (·.2)).flatten → ∀ (order order' : MapOrder SearchResult) (merged : List SearchResult),
        merged.Perm (parts.map fun part => dedupeBestByDocId part.1 part.2 topK).flatten →
        (dedupeBestByDocId order merged topK).map SearchResult.scored =
          (dedupeBestByDocId order' (parts.map (·.2)).flatten topK).map SearchResult.scored) := by
  refine ⟨fun order => deduped_dedupe hfinite, fun hzero order order' merged hmerged => ?_⟩
  have hpart : ∀ part ∈ parts, ∀ r ∈ part.2, r ∈ (parts.map (·.2)).flatten := fun part hpart r hr =>
    List.mem_flatten.mpr ⟨part.2, List.mem_map_of_mem hpart, hr⟩
  -- the parts' first results are enough to rank the whole by
  have henough : resultRanking.Enough topK (parts.map (·.2)).flatten merged := by
    have h := @Ranking.enough_flatten _ _ _ _ resultRanking topK
      (parts.map fun part => (part.2, dedupeBestByDocId part.1 part.2 topK)) merged
      (fun pair hpair => ?_) (fun r => ?_)
    · rwa [List.map_map] at h
    · obtain ⟨part, hmem, rfl⟩ := List.mem_map.mp hpair
      exact topPer_dedupe (fun r hr => hfinite r (hpart part hmem r hr))
        fun a ha b hb => hzero a (hpart part hmem a ha) b (hpart part hmem b hb)
    · rw [hmerged.mem_iff, List.map_map]
      rfl
  have hmem := henough.mem
  have htop : resultRanking.TopPer topK merged (dedupeBestByDocId order merged topK) :=
    topPer_dedupe (fun r hr => hfinite r (hmem r hr))
      fun a ha b hb => hzero a (hmem a ha) b (hmem b hb)
  have hall : resultRanking.TopPer topK (parts.map (·.2)).flatten
      (dedupeBestByDocId order' (parts.map (·.2)).flatten topK) := topPer_dedupe hfinite hzero
  have hkeys := (htop.of_enough henough).unique hall
  rw [← List.forall₂_eq_eq_eq, List.forall₂_map_left_iff, List.forall₂_map_right_iff] at hkeys ⊢
  exact hkeys.imp fun a b hab => SearchResult.rankKey_eq_iff.mp hab

/-- A result of the given document and score. -/
def plainResult (docId : String) (score : F32) : SearchResult where
  docId
  score
  text := ""
  metadata := none
  source := .vector
  chunkSource := .dynamic
  corpusType := none
  citation := none

/-- A hash map that gives its values as they are stored. -/
def storedOrder : MapOrder SearchResult := ⟨id, fun _ => .refl _⟩

/-- `-0.0`. -/
def F32.negZero : F32 := ⟨0x80000000#32⟩

theorem dedupe_parts_two :
    (dedupeBestByDocId storedOrder
        ((dedupeBestByDocId storedOrder [plainResult "b" ⟨5⟩, plainResult "a" ⟨5⟩] 1) ++
          (dedupeBestByDocId storedOrder [plainResult "b" ⟨7⟩] 1)) 1).map SearchResult.scored =
      (dedupeBestByDocId storedOrder
        [plainResult "b" ⟨5⟩, plainResult "a" ⟨5⟩, plainResult "b" ⟨7⟩] 1).map SearchResult.scored := by
  have h := (dedupe_parts [(storedOrder, [plainResult "b" ⟨5⟩, plainResult "a" ⟨5⟩]),
    (storedOrder, [plainResult "b" ⟨7⟩])] 1 (by decide)).2
  exact h (by decide) _ _ _ (by simp)

theorem dedupe_single (result : SearchResult) :
    dedupeBestByDocId storedOrder [result] 2 = [result] := by
  show ([result].mergeSort fun left right => compareSearchResults left right ≠ .gt).take 2 = _
  rw [List.mergeSort_singleton]
  rfl

theorem dedupe_pair {results : List SearchResult} {first second : SearchResult}
    (hrows : (results.foldl (keepBetter fun existing result => existing.score.ge result.score)
      (∅ : Table SearchResult.docId)).rows = [first, second]) :
    dedupeBestByDocId storedOrder results 2 =
      if compareSearchResults first second ≠ .gt then [first, second] else [second, first] := by
  rw [dedupeBestByDocId, dedupeBest, hrows]
  show ([first, second].mergeSort fun left right => compareSearchResults left right ≠ .gt).take 2 = _
  simp [List.mergeSort, List.MergeSort.Internal.splitInTwo, List.merge]
  split <;> rfl

/-- Three shards, of which two return the same document with zeros of different signs: put together
in another order, the documents come in another order. -/
theorem dedupe_parts_zeros :
    (dedupeBestByDocId storedOrder
        [plainResult "a" .negZero, plainResult "a" .zero, plainResult "b" .zero] 2).map
          SearchResult.docId = ["b", "a"] ∧
      (dedupeBestByDocId storedOrder
        (dedupeBestByDocId storedOrder [plainResult "a" .zero] 2 ++
          dedupeBestByDocId storedOrder [plainResult "a" .negZero] 2 ++
          dedupeBestByDocId storedOrder [plainResult "b" .zero] 2) 2).map
          SearchResult.docId = ["a", "b"] := by
  constructor
  · rw [dedupe_pair rfl]
    decide
  · rw [dedupe_single, dedupe_single, dedupe_single, dedupe_pair rfl]
    decide

end LTSearch
