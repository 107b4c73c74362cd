/-
# LTSearch.Query.RrfExact -- reciprocal rank fusion in exact arithmetic

`fuse`, with rationals for the floats: each document comes once, with the sum of the reciprocals of
all its ranks, and the fused order respects every document that both lists put first.
-/
import LTSearch.Foundation.Grouping
import LTSearch.Query.Ranker
import LTSearch.Query.RetrievalCommon

namespace LTSearch

open LTSearch.Foundation

/-! ## The ranker -/

/-- `HybridRanker`; `new` asserts that the constant is positive. -/
structure ExactRanker where
  rrfK : ℚ
  positive : 0 < rrfK

/-- A fused hit, with its exact score beside the one its retriever gave it. -/
structure FusedHit where
  result : SearchResult
  score : ℚ

namespace FusedHit

def docId (hit : FusedHit) : String := hit.result.docId

/-- What the fused hits are sorted by. -/
def rankKey (hit : FusedHit) : Lex (OrderDual ℚ × String) :=
  toLex (OrderDual.toDual hit.score, hit.docId)

end FusedHit

namespace ExactRanker

variable (ranker : ExactRanker)

/-- `compute_rrf_score`, of a rank from 1 on. -/
def computeRrfScore (rank : Nat) : ℚ := 1 / (ranker.rrfK + rank)

/-- The two maps that `fuse` fills. -/
structure Fusion where
  rrfScores : Table (fun entry : String × ℚ => entry.1)
  docMap : Table SearchResult.docId

/-- `entry(doc_id).or_insert(0.0) += compute_rrf_score(rank)`. -/
def addScore (scores : Table fun entry : String × ℚ => entry.1) (hit : SearchResult × Nat) :
    Table fun entry : String × ℚ => entry.1 :=
  scores.upsert (hit.1.docId, 0 + ranker.computeRrfScore (hit.2 + 1))
    (fun entry => (entry.1, entry.2 + ranker.computeRrfScore (hit.2 + 1))) fun _ => rfl

/-- One vector hit: the first one of a document stays. -/
def addVector (fusion : Fusion) (hit : SearchResult × Nat) : Fusion where
  rrfScores := ranker.addScore fusion.rrfScores hit
  docMap := fusion.docMap.upsert hit.1 (fun existing => existing) fun _ => rfl

theorem docId_completed (hit : SearchResult × Nat) (existing : SearchResult) :
    (mergeResultPayload existing hit.1).docId = existing.docId := rfl

/-- One keyword hit: it completes the payload of its document. -/
def addKeyword (fusion : Fusion) (hit : SearchResult × Nat) : Fusion where
  rrfScores := ranker.addScore fusion.rrfScores hit
  docMap := fusion.docMap.upsert hit.1 (fun existing => mergeResultPayload existing hit.1)
    (docId_completed hit)

/-- Both loops. -/
def collect (vectorResults keywordResults : List SearchResult) : Fusion :=
  keywordResults.zipIdx.foldl ranker.addKeyword
    (vectorResults.zipIdx.foldl ranker.addVector { rrfScores := ∅, docMap := ∅ })

/-- The fused hit of one document. -/
def fusedHit (docMap : Table SearchResult.docId) (entry : String × ℚ) : Checked SearchError FusedHit :=
  match docMap.get entry.1 with
  | none => Checked.panicked "missing search result"
  | some result => .ok { result := { result with source := .hybrid }, score := entry.2 }

/-- The order of the fused hits: a higher score first, then the smaller doc id. -/
def compareFused (left right : FusedHit) : Ordering :=
  (compare right.score left.score).then (compare left.docId right.docId)

/-- `fuse`, for whatever order the map of the scores gives its entries in. -/
def fuse (order : MapOrder (String × ℚ)) (vectorResults keywordResults : List SearchResult) :
    Checked SearchError (List FusedHit) := do
  let fusion := ranker.collect vectorResults keywordResults
  let fused ← (order.intoValues fusion.rrfScores.rows).mapM (fusedHit fusion.docMap)
  return fused.mergeSort fun left right => compareFused left right ≠ .gt

/-! ## The scores -/

/-- The reciprocals of the ranks that a list gives the document, added up. -/
def reciprocalRanks (results : List SearchResult) (docId : String) : ℚ :=
  (((results.zipIdx 1).filter fun hit => hit.1.docId = docId).map fun hit =>
    1 / (ranker.rrfK + hit.2)).sum

variable {ranker}

/-- What the loop adds for one list. -/
theorem sum_rrfScores (results : List SearchResult) (docId : String) :
    ((results.zipIdx.filter fun hit => hit.1.docId = docId).map fun hit =>
      ranker.computeRrfScore (hit.2 + 1)).sum = ranker.reciprocalRanks results docId := by
  rw [reciprocalRanks, show 1 = 0 + 1 from rfl, List.zipIdx_succ, List.filter_map, List.map_map]
  rfl

/-- Adding to an entry that is there. -/
theorem foldl_addTo (hits : List (SearchResult × Nat)) (entry : String × ℚ) :
    hits.foldl (fun entry hit => (entry.1, entry.2 + ranker.computeRrfScore (hit.2 + 1))) entry =
      (entry.1, entry.2 + (hits.map fun hit => ranker.computeRrfScore (hit.2 + 1)).sum) := by
  induction hits generalizing entry with
  | nil => simp only [List.foldl_nil, List.map_nil, List.sum_nil, add_zero]
  | cons hit rest ih => rw [List.foldl_cons, ih, List.map_cons, List.sum_cons, add_assoc]

theorem rrfScores_foldl {f : Fusion → SearchResult × Nat → Fusion}
    (hf : ∀ fusion hit, (f fusion hit).rrfScores = ranker.addScore fusion.rrfScores hit)
    (hits : List (SearchResult × Nat)) (fusion : Fusion) :
    (hits.foldl f fusion).rrfScores = hits.foldl ranker.addScore fusion.rrfScores := by
  induction hits generalizing fusion with
  | nil => rfl
  | cons hit rest ih => rw [List.foldl_cons, List.foldl_cons, ih, hf]

/-- A document has an entry if it has a hit, and the entry is the sum over all its hits. -/
theorem get_rrfScores (vectorResults keywordResults : List SearchResult) (docId : String) :
    (ranker.collect vectorResults keywordResults).rrfScores.get docId =
      if ∃ hit ∈ vectorResults ++ keywordResults, hit.docId = docId then
        some (docId, ranker.reciprocalRanks vectorResults docId +
          ranker.reciprocalRanks keywordResults docId)
      else none := by
  have hloops : (ranker.collect vectorResults keywordResults).rrfScores =
      (vectorResults.zipIdx ++ keywordResults.zipIdx).foldl ranker.addScore ∅ := by
    rw [collect, rrfScores_foldl fun _ _ => rfl, rrfScores_foldl fun _ _ => rfl, List.foldl_append]
  have hget := @Table.get_foldl_upsert _ _ _ (fun entry : String × ℚ => entry.1) _
    (fun hit : SearchResult × Nat => (hit.1.docId, 0 + ranker.computeRrfScore (hit.2 + 1)))
    (fun hit entry => (entry.1, entry.2 + ranker.computeRrfScore (hit.2 + 1))) (fun _ _ => rfl)
    (vectorResults.zipIdx ++ keywordResults.zipIdx) ∅ docId
  rw [hloops, ← sum_rrfScores, ← sum_rrfScores, ← List.sum_append, ← List.map_append,
    ← List.filter_append]
  refine hget.trans ?_
  rw [Table.get_empty, Table.foldl_entered_none]
  -- the hits of the document, in both lists
  have hmem : ∀ hit, hit ∈ (vectorResults.zipIdx ++ keywordResults.zipIdx).filter
      (fun hit => hit.1.docId = docId) →
      hit.1 ∈ vectorResults ++ keywordResults ∧ hit.1.docId = docId := by
    intro hit hhit
    rw [List.mem_filter, decide_eq_true_eq, List.mem_append] at hhit
    exact ⟨List.mem_append.mpr (hhit.1.imp List.fst_mem_of_mem_zipIdx List.fst_mem_of_mem_zipIdx), hhit.2⟩
  cases hhits : (vectorResults.zipIdx ++ keywordResults.zipIdx).filter
      fun hit => hit.1.docId = docId with
  | nil =>
      rw [if_neg]
      · rfl
      · rintro ⟨hit, hhit, hdoc⟩
        have hzip : ∀ (results : List SearchResult), hit ∈ results →
            ∃ index, (hit, index) ∈ results.zipIdx := by
          intro results hmem
          obtain ⟨i, hi, rfl⟩ := List.getElem_of_mem hmem
          exact ⟨i, List.mem_zipIdx_iff_getElem?.mpr (by simp [hi])⟩
        have hnone := List.filter_eq_nil_iff.mp hhits
        rcases List.mem_append.mp hhit with hhit | hhit
        · obtain ⟨index, hindex⟩ := hzip _ hhit
          exact hnone _ (List.mem_append_left _ hindex) (decide_eq_true hdoc)
        · obtain ⟨index, hindex⟩ := hzip _ hhit
          exact hnone _ (List.mem_append_right _ hindex) (decide_eq_true hdoc)
  | cons hit rest =>
      obtain ⟨hhit, hdoc⟩ := hmem hit (hhits ▸ List.mem_cons_self)
      rw [if_pos ⟨hit.1, hhit, hdoc⟩]
      show some (rest.foldl _ _) = _
      rw [foldl_addTo, List.map_cons, List.sum_cons, hdoc, zero_add]

theorem mem_rrfScores {vectorResults keywordResults : List SearchResult} {entry : String × ℚ} :
    entry ∈ (ranker.collect vectorResults keywordResults).rrfScores.rows ↔
      (∃ hit ∈ vectorResults ++ keywordResults, hit.docId = entry.1) ∧
        entry.2 = ranker.reciprocalRanks vectorResults entry.1 +
          ranker.reciprocalRanks keywordResults entry.1 := by
  rw [Table.mem_iff_get, get_rrfScores]
  split
  · rename_i hsome
    rw [Option.some.injEq]
    exact ⟨fun h => ⟨hsome, (congrArg Prod.snd h).symm⟩, fun h => Prod.ext rfl h.2.symm⟩
  · rename_i hnone
    exact ⟨nofun, fun h => absurd h.1 hnone⟩

/-! ## The payloads -/

/-- A hit of which nothing was replaced: what it lacked was added from the other hits, where an earlier
one goes before a later one. -/
structure Completed (first : SearchResult) (hits : List SearchResult) (result : SearchResult) : Prop where
  body : result.docId = first.docId ∧ result.text = first.text ∧
    result.chunkSource = first.chunkSource ∧ result.corpusType = first.corpusType
  fields : ∀ key, result.field key = (first.field key).or (hits.findSome? fun hit => hit.field key)
  metadata : result.metadata.isSome = (first.metadata.isSome || hits.any (·.metadata.isSome))
  citation : result.citation = first.citation.or (hits.findSome? SearchResult.citation)

namespace Completed

variable {first result hit : SearchResult} {hits : List SearchResult}

theorem refl : Completed result [] result where
  body := ⟨rfl, rfl, rfl, rfl⟩
  fields _ := (Option.or_none).symm
  metadata := (Bool.or_false _).symm
  citation := (Option.or_none).symm

theorem merged (h : Completed (mergeResultPayload first hit) hits result) :
    Completed first (hit :: hits) result where
  body := h.body
  fields key := by
    rw [h.fields, field_mergeResultPayload, Option.or_assoc, List.findSome?_cons]
    cases hit.field key <;> rfl
  metadata := by
    rw [h.metadata, List.any_cons, ← Bool.or_assoc]
    show ((mergeMetadata first.metadata hit.metadata).isSome || _) = _
    cases first.metadata <;> cases hit.metadata <;> rfl
  citation := by
    rw [h.citation, List.findSome?_cons]
    show (first.citation.orElse fun _ => hit.citation).or _ = _
    cases first.citation with
    | some citation => rfl
    | none => cases hit.citation <;> rfl

/-- A hit is not completed by itself. -/
theorem cons_self (h : Completed first hits result) : Completed first (first :: hits) result where
  body := h.body
  fields key := by
    rw [h.fields, List.findSome?_cons]
    cases first.field key <;> rfl
  metadata := by rw [h.metadata, List.any_cons, ← Bool.or_assoc, Bool.or_self]
  citation := by
    rw [h.citation, List.findSome?_cons]
    cases first.citation <;> rfl

end Completed

theorem completed_foldl (hits : List (SearchResult × Nat)) (first : SearchResult) :
    Completed first (hits.map (·.1))
      (hits.foldl (fun existing hit => mergeResultPayload existing hit.1) first) := by
  induction hits generalizing first with
  | nil => exact .refl
  | cons hit rest ih => exact (ih (mergeResultPayload first hit.1)).merged

/-- The hits of one document, in their order. -/
theorem map_filter_zipIdx (results : List SearchResult) (docId : String) (n : Nat) :
    ((results.zipIdx n).filter fun hit => hit.1.docId = docId).map (·.1) =
      results.filter fun hit => hit.docId = docId := by
  have hmap := List.filter_map (p := fun hit : SearchResult => decide (hit.docId = docId))
    (f := fun hit : SearchResult × Nat => hit.1) (l := results.zipIdx n)
  rw [List.zipIdx_map_fst] at hmap
  exact hmap.symm

theorem docMap_foldl {f : Fusion → SearchResult × Nat → Fusion}
    (update : SearchResult × Nat → SearchResult → SearchResult)
    (hupdate : ∀ hit r, (update hit r).docId = r.docId)
    (hf : ∀ fusion hit, (f fusion hit).docMap =
      fusion.docMap.upsert hit.1 (update hit) (hupdate hit))
    (hits : List (SearchResult × Nat)) (fusion : Fusion) (docId : String) :
    (hits.foldl f fusion).docMap.get docId = (hits.filter fun hit => hit.1.docId = docId).foldl
      (Table.entered (·.1) update) (fusion.docMap.get docId) := by
  rw [← @Table.get_foldl_upsert _ _ _ SearchResult.docId _ (·.1) update hupdate hits]
  congr 1
  induction hits generalizing fusion with
  | nil => rfl
  | cons hit rest ih => rw [List.foldl_cons, List.foldl_cons, ih, hf]

/-- The payload of a document is that of its first vector hit, or else of its first keyword hit,
completed by its keyword hits. -/
theorem get_docMap {vectorResults keywordResults : List SearchResult} {docId : String}
    {first : SearchResult}
    (hfirst : (vectorResults ++ keywordResults).find? (fun hit => hit.docId = docId) = some first) :
    ∃ result, (ranker.collect vectorResults keywordResults).docMap.get docId = some result ∧
      Completed first (keywordResults.filter fun hit => hit.docId = docId) result := by
  have hget : (ranker.collect vectorResults keywordResults).docMap.get docId =
      (keywordResults.zipIdx.filter fun hit => hit.1.docId = docId).foldl
        (Table.entered (·.1) fun hit existing => mergeResultPayload existing hit.1)
        (((vectorResults.zipIdx.filter fun hit => hit.1.docId = docId).head?).map (·.1)) := by
    rw [collect, docMap_foldl (fun hit existing => mergeResultPayload existing hit.1)
      (fun _ _ => rfl) fun _ _ => rfl, docMap_foldl (fun _ existing => existing)
      (fun _ _ => rfl) fun _ _ => rfl, Table.foldl_entered_id]
    rfl
  rw [hget, ← List.head?_map, map_filter_zipIdx, List.head?_filter]
  rw [← map_filter_zipIdx keywordResults docId 0]
  rw [List.find?_append] at hfirst
  cases hvector : vectorResults.find? fun hit => hit.docId = docId with
  | some hit =>
      rw [hvector, Option.some_or] at hfirst
      obtain rfl := Option.some.inj hfirst
      exact ⟨_, Table.foldl_entered_some _ _, completed_foldl _ _⟩
  | none =>
      rw [hvector, Option.none_or, ← List.head?_filter, ← map_filter_zipIdx keywordResults docId 0] at hfirst
      cases hkeyword : keywordResults.zipIdx.filter fun hit => hit.1.docId = docId with
      | nil =>
          rw [hkeyword] at hfirst
          cases hfirst
      | cons hit rest =>
          rw [hkeyword] at hfirst
          obtain rfl := Option.some.inj hfirst
          exact ⟨_, Table.foldl_entered_some rest hit.1, (completed_foldl rest hit.1).cons_self⟩

/-! ## The fused hits -/

/-- What fusion is for. -/
structure Fused (ranker : ExactRanker) (vectorResults keywordResults : List SearchResult)
    (fused : List FusedHit) : Prop where
  once : (fused.map FusedHit.docId).Nodup
  all : ∀ docId, docId ∈ fused.map FusedHit.docId ↔
    ∃ hit ∈ vectorResults ++ keywordResults, hit.docId = docId
  score : ∀ hit ∈ fused, hit.score =
    ranker.reciprocalRanks vectorResults hit.docId + ranker.reciprocalRanks keywordResults hit.docId
  ordered : fused.Pairwise fun left right =>
    right.score < left.score ∨ left.score = right.score ∧ left.docId < right.docId
  payload : ∀ hit ∈ fused, ∃ first,
    (vectorResults ++ keywordResults).find? (fun other => other.docId = hit.docId) = some first ∧
    Completed first (keywordResults.filter fun other => other.docId = hit.docId) hit.result ∧
    hit.result.source = .hybrid

theorem rankKey_lt {left right : FusedHit} : left.rankKey < right.rankKey ↔
    right.score < left.score ∨ left.score = right.score ∧ left.docId < right.docId := by
  rw [FusedHit.rankKey, FusedHit.rankKey, Prod.Lex.toLex_lt_toLex]
  exact Iff.rfl

theorem compareFused_eq (left right : FusedHit) :
    compareFused left right = compare left.rankKey right.rankKey := by
  unfold compareFused
  rcases lt_trichotomy left.rankKey right.rankKey with h | h | h
  · rw [compare_lt_iff_lt.mpr h, Ordering.then_eq_lt, compare_lt_iff_lt, compare_eq_iff_eq,
      compare_lt_iff_lt]
    exact (rankKey_lt.mp h).imp id fun h => ⟨h.1.symm, h.2⟩
  · obtain ⟨hscore, hdocId⟩ := Prod.mk.inj (toLex.injective h)
    rw [compare_eq_iff_eq.mpr h, Ordering.then_eq_eq, compare_eq_iff_eq, compare_eq_iff_eq]
    exact ⟨(OrderDual.toDual.injective hscore).symm, hdocId⟩
  · rw [compare_gt_iff_gt.mpr h, Ordering.then_eq_gt, compare_gt_iff_gt, compare_eq_iff_eq,
      compare_gt_iff_gt]
    exact rankKey_lt.mp h

theorem fusedHit_eq_ok {docMap : Table SearchResult.docId} {entry : String × ℚ} {hit : FusedHit} :
    fusedHit docMap entry = .ok hit ↔ ∃ result, docMap.get entry.1 = some result ∧
      hit = { result := { result with source := .hybrid }, score := entry.2 } := by
  unfold fusedHit
  cases docMap.get entry.1 with
  | none =>
      constructor
      · exact nofun
      · rintro ⟨_, h, -⟩
        cases h
  | some result =>
      constructor
      · intro h
        exact ⟨result, rfl, (Except.ok.inj h).symm⟩
      · rintro ⟨_, h, rfl⟩
        cases h
        rfl

theorem docId_of_fusedHit {docMap : Table SearchResult.docId} {entry : String × ℚ} {hit : FusedHit}
    (h : fusedHit docMap entry = .ok hit) : hit.docId = entry.1 := by
  obtain ⟨result, hget, rfl⟩ := fusedHit_eq_ok.mp h
  have hdocId : result.docId = entry.1 := Table.key_of_get hget
  exact hdocId

/-- An entry of the scores, with the payload of its document. -/
theorem fusedHit_collect {vectorResults keywordResults : List SearchResult} {entry : String × ℚ}
    (h : entry ∈ (ranker.collect vectorResults keywordResults).rrfScores.rows) :
    ∃ hit first, fusedHit (ranker.collect vectorResults keywordResults).docMap entry = .ok hit ∧
      (vectorResults ++ keywordResults).find? (fun other => other.docId = entry.1) = some first ∧
      Completed first (keywordResults.filter fun other => other.docId = entry.1) hit.result ∧
      hit.result.source = .hybrid := by
  have hsome := (mem_rrfScores.mp h).1
  obtain ⟨first, hfirst⟩ : ∃ first,
      (vectorResults ++ keywordResults).find? (fun other => other.docId = entry.1) = some first := by
    refine Option.isSome_iff_exists.mp (List.find?_isSome.mpr ?_)
    simpa only [decide_eq_true_eq] using hsome
  obtain ⟨result, hresult, hcompleted⟩ := @get_docMap ranker _ _ _ _ hfirst
  exact ⟨{ result := { result with source := .hybrid }, score := entry.2 }, first,
    fusedHit_eq_ok.mpr ⟨result, hresult, rfl⟩, hfirst,
    ⟨hcompleted.body, hcompleted.fields, hcompleted.metadata, hcompleted.citation⟩, rfl⟩

/-- The hits before they are sorted: one for each entry of the scores. -/
theorem entries_of_mapM {docMap : Table SearchResult.docId} {entries : List (String × ℚ)}
    {hits : List FusedHit} (h : entries.mapM (fusedHit docMap) = .ok hits) :
    hits.map (fun hit => (hit.docId, hit.score)) = entries := by
  refine List.forall₂_eq_eq_eq ▸ List.forall₂_map_left_iff.mpr
    ((mapM_eq_ok_iff.mp h).flip.imp fun hit entry hhit => ?_)
  have hdocId := docId_of_fusedHit hhit
  obtain ⟨result, -, rfl⟩ := fusedHit_eq_ok.mp hhit
  exact Prod.ext hdocId rfl

theorem exists_fuse (ranker : ExactRanker) (order : MapOrder (String × ℚ))
    (vectorResults keywordResults : List SearchResult) :
    ∃ fused, ranker.fuse order vectorResults keywordResults = .ok fused ∧
      Fused ranker vectorResults keywordResults fused := by
  let fusion := ranker.collect vectorResults keywordResults
  have horder := order.perm fusion.rrfScores.rows
  obtain ⟨hits, hhits⟩ : ∃ hits,
      (order.intoValues fusion.rrfScores.rows).mapM (fusedHit fusion.docMap) = .ok hits :=
    mapM_isOk fun entry hentry => by
      obtain ⟨hit, -, hhit, -⟩ := fusedHit_collect (horder.mem_iff.mp hentry)
      exact ⟨hit, hhit⟩
  have hsort : (hits.mergeSort fun left right => compareFused left right ≠ .gt) =
      sortBy FusedHit.rankKey hits := MaxPop.mergeSort_eq compareFused_eq hits
  -- sorting moves the hits, and there is one for each entry of the scores
  have hperm := sortBy_perm FusedHit.rankKey hits
  have hentries : ((sortBy FusedHit.rankKey hits).map fun hit => (hit.docId, hit.score)).Perm
      fusion.rrfScores.rows := by
    refine (hperm.map _).trans ?_
    rw [entries_of_mapM hhits]
    exact horder
  have honce : ((sortBy FusedHit.rankKey hits).map FusedHit.docId).Nodup := by
    have hids := (hentries.map Prod.fst).nodup_iff.mpr fusion.rrfScores.nodup
    rwa [List.map_map] at hids
  have hmem : ∀ hit ∈ sortBy FusedHit.rankKey hits, (hit.docId, hit.score) ∈ fusion.rrfScores.rows :=
    fun hit hhit => hentries.mem_iff.mp (List.mem_map_of_mem hhit)
  refine ⟨sortBy FusedHit.rankKey hits, bind_eq_ok.mpr ⟨hits, hhits, congrArg Except.ok hsort⟩,
    honce, fun docId => ⟨?_, fun hdocId => ?_⟩, fun hit hhit => (mem_rrfScores.mp (hmem hit hhit)).2,
    ?_, fun hit hhit => ?_⟩
  · intro hdocId
    obtain ⟨hit, hhit, rfl⟩ := List.mem_map.mp hdocId
    exact (mem_rrfScores.mp (hmem hit hhit)).1
  · have hrow : (docId, ranker.reciprocalRanks vectorResults docId +
        ranker.reciprocalRanks keywordResults docId) ∈ fusion.rrfScores.rows :=
      mem_rrfScores.mpr ⟨hdocId, rfl⟩
    obtain ⟨hit, hhit, heq⟩ := List.mem_map.mp (hentries.mem_iff.mpr hrow)
    exact List.mem_map.mpr ⟨hit, hhit, congrArg Prod.fst heq⟩
  · refine ((pairwise_sortBy FusedHit.rankKey hits).and (List.pairwise_map.mp honce)).imp ?_
    rintro left right ⟨hle, hne⟩
    refine rankKey_lt.mp (lt_of_le_of_ne hle fun heq => hne ?_)
    exact (Prod.mk.inj (toLex.injective heq)).2
  · obtain ⟨entry, hentry, hhit'⟩ :=
      exists_of_mapM hhits (hperm.mem_iff.mp hhit)
    obtain ⟨hit', first, hfused, hfirst, hpayload⟩ := fusedHit_collect (horder.mem_iff.mp hentry)
    obtain rfl := Except.ok.inj (hfused.symm.trans hhit')
    have hdocId := docId_of_fusedHit hfused
    exact ⟨first, hdocId ▸ hfirst, hdocId ▸ hpayload⟩

/-! ## Symmetry -/

namespace Fused

variable {left right left' right' : List SearchResult} {fused fused' : List FusedHit}

theorem mem_scored (h : Fused ranker left right fused) {entry : String × ℚ} :
    entry ∈ fused.map (fun hit => (hit.docId, hit.score)) ↔
      (∃ hit ∈ left ++ right, hit.docId = entry.1) ∧
        entry.2 = ranker.reciprocalRanks left entry.1 + ranker.reciprocalRanks right entry.1 := by
  rw [← h.all]
  constructor
  · intro hentry
    obtain ⟨hit, hhit, rfl⟩ := List.mem_map.mp hentry
    exact ⟨List.mem_map_of_mem hhit, h.score hit hhit⟩
  · rintro ⟨hdocId, hscore⟩
    obtain ⟨hit, hhit, hid⟩ := List.mem_map.mp hdocId
    refine List.mem_map.mpr ⟨hit, hhit, Prod.ext hid ?_⟩
    rw [hscore, ← hid]
    exact h.score hit hhit

/-- Documents and scores determine the sequence. -/
theorem scored_eq (h : Fused ranker left right fused) (h' : Fused ranker left' right' fused')
    (hentries : ∀ entry, entry ∈ fused.map (fun hit => (hit.docId, hit.score)) ↔
      entry ∈ fused'.map fun hit => (hit.docId, hit.score)) :
    fused.map (fun hit => (hit.docId, hit.score)) = fused'.map fun hit => (hit.docId, hit.score) := by
  have hnodup : ∀ hits : List FusedHit, (hits.map FusedHit.docId).Nodup →
      (hits.map fun hit => (hit.docId, hit.score)).Nodup := fun hits hids =>
    List.Nodup.of_map Prod.fst (by rwa [List.map_map])
  have hperm := (List.perm_ext_iff_of_nodup (hnodup fused h.once) (hnodup fused' h'.once)).mpr hentries
  refine @List.Perm.eq_of_pairwise _ (fun a b : String × ℚ => b.2 < a.2 ∨ a.2 = b.2 ∧ a.1 < b.1)
    _ _ ?_ (List.pairwise_map.mpr h.ordered) (List.pairwise_map.mpr h'.ordered) hperm
  rintro a b - - (hab | ⟨hab, hlt⟩) (hba | ⟨hba, hlt'⟩)
  · exact absurd hab hba.asymm
  · exact absurd hba hab.ne
  · exact absurd hab hba.ne
  · exact absurd hlt hlt'.asymm

/-- The lists may be swapped. -/
theorem swap (h : Fused ranker left right fused) (h' : Fused ranker right left fused') :
    fused.map (fun hit => (hit.docId, hit.score)) = fused'.map fun hit => (hit.docId, hit.score) := by
  refine h.scored_eq h' fun entry => ?_
  simp only [h.mem_scored, h'.mem_scored, List.mem_append, Or.comm, add_comm]

end Fused

/-! ## Dominance -/

/-- The place of a document in a list, after all others where it is absent. -/
def position (results : List SearchResult) (docId : String) : Nat :=
  (results.map SearchResult.docId).idxOf docId

/-- In both lists at least as good, and better in one. -/
structure Outranks (vectorResults keywordResults : List SearchResult) (docId other : String) : Prop where
  vector : position vectorResults docId ≤ position vectorResults other
  keyword : position keywordResults docId ≤ position keywordResults other
  strict : position vectorResults docId < position vectorResults other ∨
    position keywordResults docId < position keywordResults other

section Distinct

variable {results : List SearchResult}

theorem position_cons (hit : SearchResult) (docId : String) : position (hit :: results) docId =
    if hit.docId = docId then 0 else position results docId + 1 := by
  rw [position, List.map_cons, List.idxOf_cons]
  by_cases hdocId : hit.docId = docId
  · simp only [hdocId, beq_self_eq_true, cond_true, if_true]
  · simp only [beq_eq_false_iff_ne.mpr hdocId, cond_false, if_neg hdocId]
    rfl

/-- A document has one rank in a list, or none. -/
theorem ranks_of_distinct (hdistinct : (results.map SearchResult.docId).Nodup) (docId : String) (n : Nat) :
    ((results.zipIdx n).filter fun hit => hit.1.docId = docId).map (·.2) =
      if position results docId < results.length then [n + position results docId] else [] := by
  induction results generalizing n with
  | nil => rfl
  | cons hit rest ih =>
      rw [List.map_cons, List.nodup_cons] at hdistinct
      rw [List.zipIdx_cons, position_cons]
      by_cases hdocId : hit.docId = docId
      · have habsent : ¬position rest docId < rest.length := by
          rw [position, ← List.length_map SearchResult.docId, List.idxOf_lt_length_iff, ← hdocId]
          exact hdistinct.1
        rw [List.filter_cons_of_pos (by simpa using hdocId), List.map_cons, ih hdistinct.2,
          if_neg habsent, if_pos hdocId, if_pos (by rw [List.length_cons]; omega)]
        rfl
      · rw [List.filter_cons_of_neg (by simpa using hdocId), ih hdistinct.2, if_neg hdocId,
          List.length_cons]
        simp only [Nat.add_lt_add_iff_right, Nat.add_assoc, Nat.add_comm 1]

theorem reciprocalRanks_of_distinct (hdistinct : (results.map SearchResult.docId).Nodup)
    (docId : String) : ranker.reciprocalRanks results docId =
      if position results docId < results.length then
        1 / (ranker.rrfK + (1 + position results docId : ℕ))
      else 0 := by
  have hranks := congrArg (fun ranks : List ℕ => (ranks.map fun rank : ℕ => 1 / (ranker.rrfK + rank)).sum)
    (ranks_of_distinct hdistinct docId 1)
  rw [List.map_map] at hranks
  refine hranks.trans ?_
  split
  · simp only [List.map_cons, List.map_nil, List.sum_cons, List.sum_nil, add_zero]
  · rfl

/-- A better place gives a larger share. -/
theorem reciprocalRanks_lt (hdistinct : (results.map SearchResult.docId).Nodup) {docId other : String}
    (h : position results docId < position results other) :
    ranker.reciprocalRanks results other < ranker.reciprocalRanks results docId := by
  have hk := ranker.positive
  have hle : position results other ≤ results.length :=
    (List.idxOf_le_length).trans (List.length_map _).le
  rw [reciprocalRanks_of_distinct hdistinct, reciprocalRanks_of_distinct hdistinct,
    if_pos (h.trans_le hle)]
  split
  · refine one_div_lt_one_div_of_lt (by positivity) ?_
    exact add_lt_add_right (Nat.cast_lt.mpr (by omega)) _
  · positivity

theorem reciprocalRanks_le (hdistinct : (results.map SearchResult.docId).Nodup) {docId other : String}
    (h : position results docId ≤ position results other) :
    ranker.reciprocalRanks results other ≤ ranker.reciprocalRanks results docId := by
  rcases h.lt_or_eq with hlt | heq
  · exact (reciprocalRanks_lt hdistinct hlt).le
  · rw [reciprocalRanks_of_distinct hdistinct, reciprocalRanks_of_distinct hdistinct, heq]

end Distinct

section Order

variable {vectorResults keywordResults : List SearchResult} {fused : List FusedHit}

/-- A document with a larger score comes first. -/
theorem Fused.idxOf_lt (h : Fused ranker vectorResults keywordResults fused) {hit other : FusedHit}
    (hhit : hit ∈ fused) (hother : other ∈ fused) (hscore : other.score < hit.score) :
    (fused.map FusedHit.docId).idxOf hit.docId < (fused.map FusedHit.docId).idxOf other.docId := by
  -- the place of a hit holds the hit
  have hplace : ∀ x ∈ fused, ∃ hi : (fused.map FusedHit.docId).idxOf x.docId < fused.length,
      fused[(fused.map FusedHit.docId).idxOf x.docId] = x := by
    intro x hx
    have hlt := List.idxOf_lt_length_iff.mpr (List.mem_map_of_mem (f := FusedHit.docId) hx)
    have hget := List.getElem_idxOf hlt
    rw [List.getElem_map] at hget
    rw [List.length_map] at hlt
    exact ⟨hlt, List.inj_on_of_nodup_map h.once (List.getElem_mem hlt) hx hget⟩
  obtain ⟨hi, hhit'⟩ := hplace hit hhit
  obtain ⟨hj, hother'⟩ := hplace other hother
  by_contra hnot
  rcases (not_lt.mp hnot).lt_or_eq with hlt | heq
  · have hordered := List.pairwise_iff_getElem.mp h.ordered _ _ hj hi hlt
    rw [hhit', hother'] at hordered
    rcases hordered with hgt | ⟨heq, -⟩
    · exact hgt.asymm hscore
    · exact hscore.ne heq
  · simp only [heq, hhit'] at hother'
    exact hscore.ne (congrArg FusedHit.score hother'.symm)

/-- What outranks a document comes before it. -/
theorem Fused.precedes (h : Fused ranker vectorResults keywordResults fused)
    (hvector : (vectorResults.map SearchResult.docId).Nodup)
    (hkeyword : (keywordResults.map SearchResult.docId).Nodup) {docId other : String}
    (houtranks : Outranks vectorResults keywordResults docId other) :
    (fused.map FusedHit.docId).idxOf docId < (fused.map FusedHit.docId).idxOf other := by
  have hpresent : ∀ {results : List SearchResult},
      position results docId < position results other → ∃ hit ∈ results, hit.docId = docId := by
    intro results hlt
    exact List.mem_map.mp (List.idxOf_lt_length_iff.mp (hlt.trans_le List.idxOf_le_length))
  have hdocId : docId ∈ fused.map FusedHit.docId := by
    refine (h.all docId).mpr ?_
    rcases houtranks.strict with hlt | hlt
    · obtain ⟨hit, hhit, hid⟩ := hpresent hlt
      exact ⟨hit, List.mem_append_left _ hhit, hid⟩
    · obtain ⟨hit, hhit, hid⟩ := hpresent hlt
      exact ⟨hit, List.mem_append_right _ hhit, hid⟩
  by_cases hother : other ∈ fused.map FusedHit.docId
  · obtain ⟨hit, hhit, rfl⟩ := List.mem_map.mp hdocId
    obtain ⟨hit', hhit', rfl⟩ := List.mem_map.mp hother
    refine h.idxOf_lt hhit hhit' ?_
    rw [h.score hit hhit, h.score hit' hhit']
    rcases houtranks.strict with hlt | hlt
    · exact add_lt_add_of_lt_of_le (reciprocalRanks_lt hvector hlt)
        (reciprocalRanks_le hkeyword houtranks.keyword)
    · exact add_lt_add_of_le_of_lt (reciprocalRanks_le hvector houtranks.vector)
        (reciprocalRanks_lt hkeyword hlt)
  · rw [List.idxOf_eq_length hother]
    exact List.idxOf_lt_length_iff.mpr hdocId

end Order

/-- Fusion is what it says, the lists may be swapped, and what outranks a document comes before it. -/
theorem fuse_exact (ranker : ExactRanker) (order order' : MapOrder (String × ℚ))
    (vectorResults keywordResults : List SearchResult) :
    ∃ fused swapped, ranker.fuse order vectorResults keywordResults = .ok fused ∧
      Fused ranker vectorResults keywordResults fused ∧
      ranker.fuse order' keywordResults vectorResults = .ok swapped ∧
      fused.map (fun hit => (hit.docId, hit.score)) =
        swapped.map (fun hit => (hit.docId, hit.score)) ∧
      ((vectorResults.map SearchResult.docId).Nodup → (keywordResults.map SearchResult.docId).Nodup →
        ∀ docId other, Outranks vectorResults keywordResults docId other →
          (fused.map FusedHit.docId).idxOf docId < (fused.map FusedHit.docId).idxOf other) := by
  obtain ⟨fused, hfuse, hfused⟩ := exists_fuse ranker order vectorResults keywordResults
  obtain ⟨swapped, hfuse', hswapped⟩ := exists_fuse ranker order' keywordResults vectorResults
  exact ⟨fused, swapped, hfuse, hfused, hfuse', hfused.swap hswapped,
    fun hvector hkeyword _ _ houtranks => hfused.precedes hvector hkeyword houtranks⟩

/-- The constant of the router. -/
def sixty : ExactRanker := ⟨60, by decide⟩

/-- What the vector search found for an act, whose title alone is known. -/
def actByVector : SearchResult where
  docId := "law-1"
  score := F32.one
  text := "the act"
  metadata := some [("title", .str "Act")]
  source := .vector
  chunkSource := .static
  corpusType := some .legal
  citation := none

/-- What the keyword search found for it. -/
def actByKeyword : SearchResult where
  docId := "law-1"
  score := F32.two
  text := "the act, section 12"
  metadata := some [("section", .str "12"), ("title", .str "An act")]
  source := .keyword
  chunkSource := .dynamic
  corpusType := some .legal
  citation := some { resourceId := "act", sourceType := "statute", sourceRef := "s. 12", title := none,
                     url := none }

def decree : SearchResult := { actByVector with docId := "law-2", text := "the decree" }

/-- The vector search repeats the act.  Each of its three ranks counts, and its payload is that of
the first hit, completed by the keyword hit.  Where nothing is repeated it comes before the decree. -/
theorem fuse_exact_repeatedAct : ∃ fused distinct,
    sixty.fuse ⟨id, fun _ => .refl _⟩ [actByVector, decree, actByVector] [actByKeyword] = .ok fused ∧
      (∃ hit ∈ fused, hit.docId = "law-1" ∧ hit.score = 1 / 61 + 1 / 63 + 1 / 61 ∧
        hit.result.text = "the act" ∧ hit.result.field "title" = some (.str "Act") ∧
        hit.result.field "section" = some (.str "12") ∧
        hit.result.citation = actByKeyword.citation) ∧
    sixty.fuse ⟨id, fun _ => .refl _⟩ [actByVector, decree] [actByKeyword] = .ok distinct ∧
      (distinct.map FusedHit.docId).idxOf "law-1" < (distinct.map FusedHit.docId).idxOf "law-2" := by
  obtain ⟨fused, -, hfuse, hfused, -⟩ := fuse_exact sixty ⟨id, fun _ => .refl _⟩
    ⟨id, fun _ => .refl _⟩ [actByVector, decree, actByVector] [actByKeyword]
  obtain ⟨distinct, -, hdistinct, -, -, -, hprecedes⟩ := fuse_exact sixty ⟨id, fun _ => .refl _⟩
    ⟨id, fun _ => .refl _⟩ [actByVector, decree] [actByKeyword]
  refine ⟨fused, distinct, hfuse, ?_, hdistinct, hprecedes (by decide) (by decide) "law-1" "law-2"
    ⟨by decide, by decide, .inl (by decide)⟩⟩
  have hact : "law-1" ∈ fused.map FusedHit.docId :=
    (hfused.all "law-1").mpr ⟨actByVector, List.mem_cons_self, rfl⟩
  obtain ⟨hit, hmem, hid⟩ := List.mem_map.mp hact
  obtain ⟨first, hfirst, hcompleted, -⟩ := hfused.payload hit hmem
  have hscore := hfused.score hit hmem
  rw [hid] at hfirst hcompleted hscore
  obtain rfl : actByVector = first := Option.some.inj hfirst
  refine ⟨hit, hmem, hid, hscore.trans ?_, hcompleted.body.2.1, hcompleted.fields "title",
    hcompleted.fields "section", hcompleted.citation⟩
  have hvector : sixty.reciprocalRanks [actByVector, decree, actByVector] "law-1" =
      1 / (60 + (1 : Nat)) + (1 / (60 + (3 : Nat)) + 0) := rfl
  have hkeyword : sixty.reciprocalRanks [actByKeyword] "law-1" = 1 / (60 + (1 : Nat)) + 0 := rfl
  rw [hvector, hkeyword]
  norm_num

end ExactRanker

end LTSearch
