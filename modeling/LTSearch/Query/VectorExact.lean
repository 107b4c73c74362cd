/-
# LTSearch.Query.VectorExact -- the vector ranking in exact arithmetic

Each shard returns its nearest rows, their distances become scores, and the hits of all shards are
ranked together.  A score is `1 - distance`, cut to the interval from 0 to 1, so the ranking goes by
the distance cut to that interval: it follows the distance where that lies in the interval.
-/
import LTSearch.Query.RetrievalCommon
import LTSearch.Query.TurboSearcher

namespace LTSearch

open LTSearch.Foundation

namespace VectorExact

variable {K : Type} [Field K] [LinearOrder K]

/-! ## Rows and hits -/

/-- A row of a documents table. -/
structure StoredRow (K : Type) where
  docId : String
  text : String
  metadata : String
  embedding : List K

/-- A row as a query returns it. -/
structure LanceRow (K : Type) where
  docId : String
  text : String
  metadata : String
  distance : K

/-- A row at its distance. -/
def StoredRow.found (row : StoredRow K) (distance : K) : LanceRow K where
  docId := row.docId
  text := row.text
  metadata := row.metadata
  distance

/-- LanceDB: what it takes for the distance, and how it answers a nearest-neighbour query, in batches.
It returns nearest rows, as many as it is asked for or as there are. -/
structure Lance (K : Type) [LinearOrder K] where
  distance : List K → List K → K
  nearest : List K → Nat → List (StoredRow K) → List (List (LanceRow K))
  nearest_best : ∀ query limit rows, BestOf LanceRow.distance limit
    (rows.map fun row => row.found (distance query row.embedding)) (nearest query limit rows).flatten

/-- The local artifact of a shard. -/
structure Shard (K : Type) where
  path : String
  embeddingDim : Nat
  rows : List (StoredRow K)

/-- A search result with an exact score. -/
structure Hit (K : Type) where
  docId : String
  score : K
  text : String
  metadata : Option Metadata
  citation : Option Citation

/-! ## Decoding -/

/-- What a search runs on. -/
structure Env (K : Type) [LinearOrder K] where
  lance : Lance K
  /-- `serde_json::from_str` of a metadata map -/
  parseMetadata : String → Except String Metadata
  order : MapOrder (Hit K)

/-- `lancedb_distance_to_score`. -/
def lancedbDistanceToScore (distance : K) : K :=
  let score := 1 - distance
  if score < 0 then 0 else if 1 < score then 1 else score

/-- `parse_metadata_json`. -/
def parseMetadataJson (env : Env K) (metadataJson shardPath : String) :
    Except SearchError (Option Metadata) := do
  let metadata ← (env.parseMetadata metadataJson).mapError fun source => SearchError.execution
    s!"failed to parse metadata from local LanceDB documents table at {shardPath}: {source}"
  return if metadata = [] then none else some metadata

/-- One row of `decode_lancedb_batches`. -/
def decodeRow (env : Env K) (shardPath : String) (row : LanceRow K) : Except SearchError (Hit K) := do
  let score := lancedbDistanceToScore row.distance
  let metadata ← parseMetadataJson env row.metadata shardPath
  rejectIf (row.docId = "") (SearchError.validation (.required "doc_id"))
  return {
    docId := row.docId
    score
    text := row.text
    metadata
    citation := metadata.bind Citation.fromMetadata }

/-- `decode_lancedb_batches`. -/
def decodeLancedbBatches (env : Env K) (batches : List (List (LanceRow K))) (shardPath : String) :
    Except SearchError (List (Hit K)) :=
  batches.flatten.mapM (decodeRow env shardPath)

/-! ## The search -/

/-- `top_k_for_shard`. -/
def topKForShard (rowCount requestedTopK : Nat) : Nat := min rowCount requestedTopK

/-- `query_shard`. -/
def queryShard (env : Env K) (query : List K) (embeddingDim topK : Nat) (shard : Shard K) :
    Except SearchError (List (Hit K)) := do
  rejectIf (shard.embeddingDim ≠ embeddingDim) (SearchError.execution
    s!"LanceDB embedding dimension {shard.embeddingDim} does not match manifest embedding dimension {embeddingDim} at {shard.path}")
  if shard.rows.length = 0 then
    return []
  else
    decodeLancedbBatches env
      (env.lance.nearest query (topKForShard shard.rows.length topK) shard.rows) shard.path

/-- `compare_search_results`. -/
def compareHits (left right : Hit K) : Ordering :=
  (compare right.score left.score).then (compare left.docId right.docId)

/-- `search_active_manifest`, over the shards of the manifest. -/
def searchActiveManifest (env : Env K) (shards : List (Shard K)) (embeddingDim : Nat)
    (query : List K) (topK : Nat) : Except SearchError (List (Hit K)) := do
  rejectIf (query = []) (SearchError.validation (.required "query_embedding"))
  validateTopK topK
  rejectIf (query.length ≠ embeddingDim) (SearchError.validation (.invalidValue "query_embedding"))
  let allResults ← shards.mapM (queryShard env query embeddingDim topK)
  return dedupeBest Hit.docId (fun existing result => decide (result.score ≤ existing.score))
    compareHits env.order allResults.flatten topK

/-! ## Scores and distances -/

/-- The distance, cut to the interval from 0 to 1. -/
def cutDistance (row : LanceRow K) : K := max 0 (min 1 row.distance)

theorem lancedbDistanceToScore_eq [IsStrictOrderedRing K] (row : LanceRow K) :
    lancedbDistanceToScore row.distance = 1 - cutDistance row := by
  have hone : (0 : K) ≤ 1 := zero_le_one
  unfold lancedbDistanceToScore cutDistance
  dsimp only
  split
  · rename_i h
    have h1 : 1 ≤ row.distance := by linarith
    rw [min_eq_left h1, max_eq_right hone, sub_self]
  split
  · rename_i h
    have h0 : row.distance ≤ 0 := by linarith
    rw [min_eq_right (h0.trans hone), max_eq_left h0, sub_zero]
  · rename_i h h'
    rw [min_eq_right (by linarith), max_eq_right (by linarith)]

theorem cutDistance_mono (a b : LanceRow K) (h : a.distance ≤ b.distance) :
    cutDistance a ≤ cutDistance b := max_le_max_left 0 (min_le_min_left 1 h)

theorem cutDistance_eq {row : LanceRow K} (h : 0 ≤ row.distance ∧ row.distance ≤ 1) :
    cutDistance row = row.distance := by
  rw [cutDistance, min_eq_right h.2, max_eq_right h.1]

/-- The hit is that of the row. -/
structure HitOf (row : LanceRow K) (hit : Hit K) : Prop where
  docId : hit.docId = row.docId
  text : hit.text = row.text
  score : hit.score = lancedbDistanceToScore row.distance

theorem hitOf_decodeRow {env : Env K} {shardPath : String} {row : LanceRow K} {hit : Hit K}
    (h : decodeRow env shardPath row = .ok hit) : HitOf row hit := by
  obtain ⟨metadata, -, h⟩ := bind_eq_ok.mp h
  obtain ⟨-, h⟩ := check_bind_eq_ok.mp h
  obtain rfl := Except.ok.inj h
  exact ⟨rfl, rfl, rfl⟩

/-! ## The order -/

/-- What the hits are ranked by. -/
def Hit.rankKey (hit : Hit K) : Lex (OrderDual K × String) :=
  toLex (OrderDual.toDual hit.score, hit.docId)

omit [Field K] in
theorem rankKey_lt {a b : Hit K} : a.rankKey < b.rankKey ↔
    b.score < a.score ∨ b.score = a.score ∧ a.docId < b.docId := by
  rw [Hit.rankKey, Hit.rankKey, Prod.Lex.toLex_lt_toLex]
  exact or_congr_right (and_congr_left' eq_comm)

omit [Field K] in
theorem compareHits_eq (a b : Hit K) : compareHits a b = compare a.rankKey b.rankKey := by
  unfold compareHits
  rcases lt_trichotomy a.rankKey b.rankKey with h | h | h
  · rw [compare_lt_iff_lt.mpr h, Ordering.then_eq_lt, compare_lt_iff_lt, compare_eq_iff_eq,
      compare_lt_iff_lt]
    exact rankKey_lt.mp h
  · obtain ⟨hscore, hdocId⟩ := Prod.mk.inj (toLex.injective h)
    rw [compare_eq_iff_eq.mpr h, Ordering.then_eq_eq, compare_eq_iff_eq, compare_eq_iff_eq]
    exact ⟨(OrderDual.toDual.injective hscore).symm, hdocId⟩
  · rw [compare_gt_iff_gt.mpr h, Ordering.then_eq_gt, compare_gt_iff_gt, compare_eq_iff_eq,
      compare_gt_iff_gt]
    exact (rankKey_lt.mp h).imp id fun h => ⟨h.1.symm, h.2⟩

/-- Before, by a distance and then by the doc id. -/
def Before (distance : LanceRow K → K) (a b : LanceRow K) : Prop :=
  distance a < distance b ∨ distance a = distance b ∧ a.docId < b.docId

/-- The ranking of hits goes by the cut distances of their rows. -/
theorem rankKey_lt_iff_before [IsStrictOrderedRing K] {a b : LanceRow K} {hit hit' : Hit K} (h : HitOf a hit)
    (h' : HitOf b hit') : hit.rankKey < hit'.rankKey ↔ Before cutDistance a b := by
  rw [rankKey_lt, h.score, h'.score, h.docId, h'.docId, lancedbDistanceToScore_eq,
    lancedbDistanceToScore_eq]
  refine or_congr (sub_lt_sub_iff_left 1) (and_congr_left' ?_)
  rw [sub_right_inj, eq_comm]

/-- Hits are told apart by their documents. -/
def hitRanking : Ranking (Hit K) String (Lex (OrderDual K × String)) where
  id := Hit.docId
  key := Hit.rankKey
  id_eq h := (Prod.mk.inj (toLex.injective h)).2

omit [Field K] in
theorem dedupeHits_eq {ge : Hit K → Hit K → Bool} {order : MapOrder (Hit K)} {results : List (Hit K)}
    {topK : Nat} (h : (results.map Hit.docId).Nodup) :
    dedupeBest Hit.docId ge compareHits order results topK =
      (sortBy Hit.rankKey results).take topK :=
  dedupeBest_eq (R := hitRanking) compareHits_eq h

/-! ## From the shards to the ranking -/

/-- Every row of a shard, at its distance. -/
def Shard.found (env : Env K) (query : List K) (shard : Shard K) : List (LanceRow K) :=
  shard.rows.map fun row => row.found (env.lance.distance query row.embedding)

/-- What a shard returns is its nearest rows, decoded. -/
theorem exists_queryShard {env : Env K} {query : List K} {embeddingDim topK : Nat} {shard : Shard K}
    {hits : List (Hit K)} (h : queryShard env query embeddingDim topK shard = .ok hits) :
    ∃ pairs : List (LanceRow K × Hit K), pairs.map (·.2) = hits ∧
      (∀ pair ∈ pairs, HitOf pair.1 pair.2) ∧
      BestOf LanceRow.distance topK (shard.found env query) (pairs.map (·.1)) := by
  obtain ⟨-, h⟩ := check_bind_eq_ok.mp h
  split at h
  · -- an empty shard is not queried
    rename_i hempty
    obtain rfl := Except.ok.inj h
    refine ⟨[], rfl, nofun, ?_⟩
    rw [Shard.found, List.length_eq_zero_iff.mp hempty]
    exact .nil
  · -- each row that was found is decoded, in its place
    have hdecoded := mapM_eq_ok_iff.mp h
    have hlength := hdecoded.length_eq
    refine ⟨(env.lance.nearest query (topKForShard shard.rows.length topK) shard.rows).flatten.zip hits,
      List.map_snd_zip hlength.ge, fun pair hpair => ?_, ?_⟩
    · exact hitOf_decodeRow (List.forall₂_iff_zip.mp hdecoded |>.2 hpair)
    · rw [List.map_fst_zip hlength.le]
      refine BestOf.of_min ?_
      have hbest := env.lance.nearest_best query (topKForShard shard.rows.length topK) shard.rows
      rwa [Shard.found, List.length_map]

/-- All shards, one after the other. -/
theorem exists_queryShards {env : Env K} {query : List K} {embeddingDim topK : Nat}
    {shards : List (Shard K)} {results : List (List (Hit K))}
    (h : shards.mapM (queryShard env query embeddingDim topK) = .ok results) :
    ∃ parts : List (List (LanceRow K) × List (LanceRow K × Hit K)),
      parts.map (·.1) = shards.map (Shard.found env query) ∧
      parts.map (fun part => part.2.map (·.2)) = results ∧
      (∀ part ∈ parts, ∀ pair ∈ part.2, HitOf pair.1 pair.2) ∧
      ∀ part ∈ parts, BestOf LanceRow.distance topK part.1 (part.2.map (·.1)) := by
  have hall := mapM_eq_ok_iff.mp h
  clear h
  induction hall with
  | nil => exact ⟨[], rfl, rfl, nofun, nofun⟩
  | @cons shard _ _ _ hshard _ ih =>
      obtain ⟨parts, hfound, hresults, hhits, hbest⟩ := ih
      obtain ⟨pairs, hpairs, hof, hpart⟩ := exists_queryShard hshard
      refine ⟨(shard.found env query, pairs) :: parts, ?_, ?_, ?_, ?_⟩
      · rw [List.map_cons, List.map_cons, hfound]
      · rw [List.map_cons, hpairs, hresults]
      · exact List.forall_mem_cons.mpr ⟨hof, hhits⟩
      · exact List.forall_mem_cons.mpr ⟨hpart, hbest⟩

/-- The returned rows of all shards, each with its hit: no document comes twice, and what is nearest
among them is nearest among all rows. -/
structure Returned (all : List (LanceRow K)) (topK : Nat) (pairs : List (LanceRow K × Hit K)) :
    Prop where
  hitOf : ∀ pair ∈ pairs, HitOf pair.1 pair.2
  distinct : (pairs.map fun pair => pair.2.docId).Nodup
  nearest : ∀ kept, BestOf cutDistance topK (pairs.map (·.1)) kept → BestOf cutDistance topK all kept

theorem exists_returned {env : Env K} {query : List K} {embeddingDim topK : Nat}
    {shards : List (Shard K)} {results : List (List (Hit K))}
    (hdistinct : ((shards.map (Shard.found env query)).flatten.map LanceRow.docId).Nodup)
    (h : shards.mapM (queryShard env query embeddingDim topK) = .ok results) :
    ∃ pairs : List (LanceRow K × Hit K), pairs.map (·.2) = results.flatten ∧
      Returned (shards.map (Shard.found env query)).flatten topK pairs := by
  obtain ⟨parts, hfound, rfl, hof, hbest⟩ := exists_queryShards h
  rw [← hfound] at hdistinct ⊢
  let rows := parts.map fun part => (part.1, part.2.map (·.1))
  have hall : (rows.map (·.1)).flatten = (parts.map (·.1)).flatten := by
    rw [List.map_map]
    rfl
  have hpairs : (parts.map (·.2)).flatten.map (·.1) = (rows.map (·.2)).flatten := by
    rw [List.map_flatten, List.map_map, List.map_map]
    rfl
  have hrows : ∀ row ∈ rows, BestOf LanceRow.distance topK row.1 row.2 := fun row hrow => by
    obtain ⟨part, hpart, rfl⟩ := List.mem_map.mp hrow
    exact hbest part hpart
  have hpairsOf : ∀ pair ∈ (parts.map (·.2)).flatten, HitOf pair.1 pair.2 := fun pair hpair => by
    obtain ⟨l, hl, hpair⟩ := List.mem_flatten.mp hpair
    obtain ⟨part, hpart, rfl⟩ := List.mem_map.mp hl
    exact hof part hpart pair hpair
  refine ⟨(parts.map (·.2)).flatten, ?_, hpairsOf, ?_, fun kept hkept => ?_⟩
  · rw [List.map_flatten, List.map_map]
    rfl
  · -- what the shards return are some of their rows, so the ids stay distinct
    obtain ⟨sub, hperm, hsub⟩ := BestOf.subperm_flatten hrows
    rw [hall] at hsub
    have hdocIds : ((parts.map (·.2)).flatten.map fun pair => pair.2.docId) =
        (rows.map (·.2)).flatten.map LanceRow.docId := by
      rw [← hpairs, List.map_map]
      exact List.map_congr_left fun pair hpair => (hpairsOf pair hpair).docId
    rw [hdocIds, ← (hperm.map LanceRow.docId).nodup_iff]
    exact (hsub.map LanceRow.docId).nodup hdistinct
  · rw [← hall]
    rw [hpairs] at hkept
    exact BestOf.flatten (fun row hrow => (hrows row hrow).mono fun a _ b _ => cutDistance_mono a b) hkept

/-- Rows that are the nearest of all, in order, by a distance. -/
structure NearestFirst (distance : LanceRow K → K) (topK : Nat) (all chosen : List (LanceRow K)) :
    Prop where
  best : BestOf distance topK all chosen
  ordered : chosen.Pairwise (Before distance)

omit [Field K] in
/-- Where two distances agree, so do the rankings. -/
theorem NearestFirst.congr {distance distance' : LanceRow K → K} {topK : Nat}
    {all chosen : List (LanceRow K)} (h : NearestFirst distance topK all chosen)
    (hsame : ∀ row ∈ all, distance row = distance' row) : NearestFirst distance' topK all chosen := by
  have hmem : ∀ row ∈ chosen, row ∈ all := fun row hrow => by
    obtain ⟨rest, hperm, -⟩ := h.best.exists_rest
    exact hperm.mem_iff.mpr (List.mem_append_left _ hrow)
  refine ⟨h.best.mono fun a ha b hb hle => ?_, h.ordered.imp_of_mem fun ha hb hbefore => ?_⟩
  · rwa [hsame a ha, hsame b hb] at hle
  · unfold Before at hbefore ⊢
    rwa [hsame _ (hmem _ ha), hsame _ (hmem _ hb)] at hbefore

/-- To rank the hits is to rank their rows. -/
theorem Returned.nearestFirst [IsStrictOrderedRing K] {all : List (LanceRow K)} {topK : Nat}
    {pairs : List (LanceRow K × Hit K)} (h : Returned all topK pairs) :
    NearestFirst cutDistance topK all
      (((sortBy (fun pair => pair.2.rankKey) pairs).take topK).map (·.1)) := by
  constructor
  · -- a nearer row has a smaller rank key, so cutting the sorted list keeps the nearest
    refine h.nearest _ (((BestOf.take_sortBy pairs).mono fun a ha b hb hle => ?_).map)
    by_contra hlt
    rw [not_le] at hlt
    exact hle.not_gt ((rankKey_lt_iff_before (h.hitOf b hb) (h.hitOf a ha)).mpr (.inl hlt))
  · have hperm := sortBy_perm (fun pair : LanceRow K × Hit K => pair.2.rankKey) pairs
    have hdistinct := ((hperm.map fun pair => pair.2.docId).nodup_iff).mpr h.distinct
    have hstrict := ((pairwise_sortBy _ pairs).and (List.pairwise_map.mp hdistinct)).imp
      fun {a b} hboth => lt_of_le_of_ne hboth.1 fun heq => hboth.2 (hitRanking.id_eq heq)
    refine List.pairwise_map.mpr (List.Pairwise.sublist (List.take_sublist _ _) ?_)
    exact hstrict.imp_of_mem fun ha hb hlt => (rankKey_lt_iff_before
      (h.hitOf _ (hperm.mem_iff.mp ha)) (h.hitOf _ (hperm.mem_iff.mp hb))).mp hlt

/-- The result is the nearest `top_k` rows of all shards, in order, by the distance cut to the
interval from 0 to 1; and by the distance itself where that lies in the interval. -/
theorem searchActiveManifest_nearestFirst [IsStrictOrderedRing K] (env : Env K)
    (shards : List (Shard K)) (embeddingDim : Nat) (query : List K) (topK : Nat)
    (hdistinct : ((shards.map (Shard.found env query)).flatten.map LanceRow.docId).Nodup)
    {hits : List (Hit K)}
    (h : searchActiveManifest env shards embeddingDim query topK = .ok hits) :
    ∃ chosen, List.Forall₂ HitOf chosen hits ∧
      NearestFirst cutDistance topK (shards.map (Shard.found env query)).flatten chosen ∧
      ((∀ row ∈ (shards.map (Shard.found env query)).flatten,
          0 ≤ row.distance ∧ row.distance ≤ 1) →
        NearestFirst LanceRow.distance topK (shards.map (Shard.found env query)).flatten chosen) := by
  simp only [searchActiveManifest, bind_eq_ok] at h
  obtain ⟨_, -, _, -, _, -, results, hresults, h⟩ := h
  obtain ⟨pairs, hpairs, hreturned⟩ := exists_returned hdistinct hresults
  have hnearest := hreturned.nearestFirst
  refine ⟨_, ?_, hnearest, fun hunit => hnearest.congr fun row hrow => cutDistance_eq (hunit row hrow)⟩
  have hdistinct' : (results.flatten.map Hit.docId).Nodup := by
    rw [← hpairs, List.map_map]
    exact hreturned.distinct
  -- with distinct ids nothing is dropped by the deduplication
  have hhits : hits =
      ((sortBy (fun pair => pair.2.rankKey) pairs).take topK).map (·.2) := by
    rw [← Except.ok.inj h]
    rw [dedupeHits_eq hdistinct', ← hpairs, sortBy_map, List.map_take]
  rw [hhits, List.forall₂_map_left_iff, List.forall₂_map_right_iff]
  exact List.forall₂_same.mpr fun pair hpair => hreturned.hitOf pair
    ((sortBy_perm _ pairs).mem_iff.mp (List.mem_of_mem_take hpair))

/-! ## Embeddings that are longer than one -/

/-- LanceDB with its dot distance, and a metadata map that is always empty. -/
def dotEnv : Env ℚ where
  lance := {
    distance := fun query embedding => 1 - (List.zipWith (· * ·) query embedding).sum
    nearest := fun query limit rows => [(sortBy LanceRow.distance (rows.map fun row =>
      row.found (1 - (List.zipWith (· * ·) query row.embedding).sum))).take limit]
    nearest_best := fun query limit rows => by
      rw [List.flatten_singleton]
      exact .take_sortBy _ }
  parseMetadata := fun _ => .ok []
  order := ⟨id, fun _ => .refl _⟩

/-- A shard with one row, whose embedding has one component. -/
def oneRow (docId : String) (x : ℚ) : Shard ℚ where
  path := "shard"
  embeddingDim := 1
  rows := [{ docId, text := "", metadata := "", embedding := [x] }]

theorem queryShard_oneRow (docId : String) (hdocId : docId ≠ "") (x : ℚ) :
    queryShard dotEnv [1] 1 1 (oneRow docId x) = .ok [{
      docId, score := lancedbDistanceToScore (1 - x), text := "", metadata := none,
      citation := none }] := by
  have hnearest : dotEnv.lance.nearest [1] 1 (oneRow docId x).rows =
      [[{ docId, text := "", metadata := "", distance := 1 - x }]] := by
    show [(sortBy LanceRow.distance [StoredRow.found ⟨docId, "", "", [x]⟩ (1 - (1 * x + 0))]).take 1] = _
    rw [sortBy, List.mergeSort_singleton, one_mul, add_zero]
    rfl
  show (do
    if (oneRow docId x).rows.length = 0 then return []
    else decodeLancedbBatches dotEnv (dotEnv.lance.nearest [1] 1 (oneRow docId x).rows) "shard" :
      Except SearchError (List (Hit ℚ))) = _
  rw [if_neg (show (oneRow docId x).rows.length ≠ 0 from Nat.one_ne_zero), hnearest]
  show ([_].mapM (decodeRow dotEnv "shard") : Except SearchError (List (Hit ℚ))) = _
  rw [List.mapM_cons, decodeRow, rejectIf, if_neg hdocId]
  rfl

/-- Two shards of one row each. -/
theorem searchActiveManifest_two (x y : ℚ) :
    searchActiveManifest dotEnv [oneRow "b" x, oneRow "a" y] 1 [1] 1 = .ok (dedupeBest Hit.docId
      (fun existing result => decide (result.score ≤ existing.score)) compareHits ⟨id, fun _ => .refl _⟩
      [{ docId := "b", score := lancedbDistanceToScore (1 - x), text := "", metadata := none,
          citation := none },
        { docId := "a", score := lancedbDistanceToScore (1 - y), text := "", metadata := none,
          citation := none }] 1) := by
  show (do
    let allResults ← [oneRow "b" x, oneRow "a" y].mapM (queryShard dotEnv [1] 1 1)
    return dedupeBest Hit.docId (fun existing result => decide (result.score ≤ existing.score))
      compareHits dotEnv.order allResults.flatten 1 : Except SearchError (List (Hit ℚ))) = _
  rw [List.mapM_cons, List.mapM_cons, queryShard_oneRow "b" (by decide),
    queryShard_oneRow "a" (by decide)]
  rfl

/-- The document at the distance -1/2 is nearer than the one at the distance -1/4, which is returned:
both have the score 1. -/
theorem searchActiveManifest_farther :
    (searchActiveManifest dotEnv [oneRow "b" (3 / 2), oneRow "a" (5 / 4)] 1 [1] 1).map
        (fun hits => hits.map Hit.docId) = .ok ["a"] ∧
      dotEnv.lance.distance [1] [3 / 2] < dotEnv.lance.distance [1] [5 / 4] := by
  constructor
  · have hscore : lancedbDistanceToScore (1 - 3 / 2 : ℚ) = lancedbDistanceToScore (1 - 5 / 4 : ℚ) := by
      norm_num [lancedbDistanceToScore]
    have hdistinct : ∀ s t : ℚ,
        ([Hit.mk "b" s "" none none, Hit.mk "a" t "" none none].map Hit.docId).Nodup :=
      fun _ _ => show (["b", "a"] : List String).Nodup by decide
    rw [searchActiveManifest_two, dedupeHits_eq (hdistinct _ _), hscore, sortBy_pair, if_neg ?_]
    · rfl
    · refine (rankKey_lt.mpr (.inr ⟨?_, ?_⟩)).not_ge
      · rfl
      · show "a" < "b"
        decide
  · show (1 : ℚ) - (1 * (3 / 2) + 0) < 1 - (1 * (5 / 4) + 0)
    norm_num

/-- At the distances 3/4 and 1/2 the nearer one is returned. -/
theorem searchActiveManifest_nearer : ∃ hits chosen,
    searchActiveManifest dotEnv [oneRow "b" (1 / 4), oneRow "a" (1 / 2)] 1 [1] 1 = .ok hits ∧
      List.Forall₂ HitOf chosen hits ∧
      NearestFirst LanceRow.distance 1
        [⟨"b", "", "", 1 - (1 * (1 / 4) + 0)⟩, ⟨"a", "", "", 1 - (1 * (1 / 2) + 0)⟩] chosen := by
  obtain ⟨chosen, hof, -, hnearest⟩ := searchActiveManifest_nearestFirst dotEnv
    [oneRow "b" (1 / 4), oneRow "a" (1 / 2)] 1 [1] 1 (by decide) (searchActiveManifest_two _ _)
  refine ⟨_, chosen, searchActiveManifest_two _ _, hof, hnearest fun row hrow => ?_⟩
  rcases List.mem_pair.mp hrow with rfl | rfl
  · show (0 : ℚ) ≤ 1 - (1 * (1 / 4) + 0) ∧ 1 - (1 * (1 / 4) + 0) ≤ (1 : ℚ)
    norm_num
  · show (0 : ℚ) ≤ 1 - (1 * (1 / 2) + 0) ∧ 1 - (1 * (1 / 2) + 0) ≤ (1 : ℚ)
    norm_num

end VectorExact

end LTSearch
