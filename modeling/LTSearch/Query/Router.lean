/-
# LTSearch.Query.Router -- one search over all retrievers

A search loads one manifest, embeds the query, asks the retrievers, fuses, filters, truncates and
strips.  What the manifest store, the generator and the retrievers answer is open: each operation may
answer anything, at each call anew.
-/
import LTSearch.Foundation.Attempts
import LTSearch.Query.Ranker
import LTSearch.Storage.ManifestStore

namespace LTSearch

open LTSearch.Foundation

/-- `SEARCH_WINDOW_MAX`. -/
def searchWindowMax : Nat := 100

/-- `EMBEDDING_GENERATION_MAX_ATTEMPTS`. -/
def embeddingGenerationMaxAttempts : Nat := 2

/-- `saturating_mul` on `usize`. -/
def saturatingMul (a b : Nat) : Nat := min (a * b) (Checked.usizeSize - 1)

/-- `retrieval_window`. -/
def retrievalWindow (topK : Nat) : Nat := min (saturatingMul (max topK 1) 3) searchWindowMax

/-! ## Filters -/

section Filter

-- `Value::as_f64`, of the text of a number: how it parses is a parameter
variable (asF64 : String → Option F64)

/-- `matches_filter_value`. -/
def matchesFilterValue (actual : Json) : FilterValue → Bool
  | .stringEquals value => match actual with
    | .str s => s == value
    | _ => false
  | .boolEquals value => match actual with
    | .bool b => b == value
    | _ => false
  | .numberEquals value => match actual with
    | .num text => (asF64 text).any fun number => number.eq value
    | _ => false

/-- `matches_filters`. -/
def matchesFilters (result : SearchResult) (filters : Filters) : Bool :=
  match result.metadata with
  | none => false
  | some metadata => filters.all fun (field, expected) =>
      (metadata.get field).any fun actual => matchesFilterValue asF64 actual expected

/-- `apply_filters`. -/
def applyFilters (results : List SearchResult) (filters : Option Filters) : List SearchResult :=
  match filters with
  | none => results
  | some [] => results
  | some filters => results.filter fun result => matchesFilters asF64 result filters

/-- A hit that has what every requested filter asks for. -/
def Satisfies (filters : Option Filters) (result : SearchResult) : Prop :=
  ∀ field expected, (field, expected) ∈ filters.getD [] →
    ∃ actual, result.field field = some actual ∧ matchesFilterValue asF64 actual expected = true

variable {asF64}

instance (filters : Option Filters) (result : SearchResult) :
    Decidable (Satisfies asF64 filters result) :=
  decidable_of_iff (∀ entry ∈ filters.getD [], ∃ actual ∈ result.field entry.1,
    matchesFilterValue asF64 actual entry.2 = true)
    ⟨fun h field expected hmem => h (field, expected) hmem, fun h entry hmem => h entry.1 entry.2 hmem⟩

/-- With some filter, a hit without metadata has nothing that the filter could ask for. -/
theorem matchesFilters_iff {result : SearchResult} {filters : Filters} (hfilters : filters ≠ []) :
    matchesFilters asF64 result filters = true ↔ Satisfies asF64 (some filters) result := by
  unfold matchesFilters Satisfies SearchResult.field
  rw [Option.getD_some]
  cases result.metadata with
  | none =>
      obtain ⟨⟨field, expected⟩, hmem⟩ := List.exists_mem_of_ne_nil _ hfilters
      refine iff_of_false Bool.false_ne_true fun h => ?_
      obtain ⟨actual, hactual, -⟩ := h field expected hmem
      cases hactual
  | some metadata =>
      rw [List.all_eq_true]
      constructor
      · intro h field expected hmem
        exact (Option.any_eq_true _ _).mp (h (field, expected) hmem)
      · intro h entry hmem
        exact (Option.any_eq_true _ _).mpr (h entry.1 entry.2 hmem)

/-- Exactly the hits are kept that have what the filters ask for, in their order. -/
theorem applyFilters_eq (results : List SearchResult) (filters : Option Filters) :
    applyFilters asF64 results filters =
      results.filter fun result => decide (Satisfies asF64 filters result) := by
  have hall : ∀ filters : Option Filters, filters.getD [] = [] →
      (results.filter fun result => decide (Satisfies asF64 filters result)) = results := by
    intro filters hfilters
    refine List.filter_eq_self.mpr fun result _ => decide_eq_true fun field expected hmem => ?_
    rw [hfilters] at hmem
    cases hmem
  unfold applyFilters
  split
  · exact (hall none rfl).symm
  · exact (hall (some []) rfl).symm
  · rename_i filters hfilters
    refine List.filter_congr fun result _ => ?_
    rw [Bool.eq_iff_iff, decide_eq_true_iff, matchesFilters_iff fun h => hfilters (h ▸ rfl)]

theorem mem_applyFilters {results : List SearchResult} {filters : Option Filters}
    {result : SearchResult} (h : result ∈ applyFilters asF64 results filters) :
    result ∈ results ∧ Satisfies asF64 filters result := by
  rw [applyFilters_eq, List.mem_filter, decide_eq_true_iff] at h
  exact h

theorem applyFilters_sublist (results : List SearchResult) (filters : Option Filters) :
    (applyFilters asF64 results filters).Sublist results := by
  rw [applyFilters_eq]
  exact List.filter_sublist

end Filter

/-- What is left of one hit without its metadata. -/
def stripResult (result : SearchResult) : SearchResult := { result with metadata := none }

/-- `strip_metadata`. -/
def stripMetadata (results : List SearchResult) : List SearchResult := results.map stripResult

/-! ## The operations -/

/-- How a retriever ends: it returns, or its thread panics with a text or with something else. -/
inductive Retrieved where
  | returned (results : Except SearchError (List SearchResult))
  | panicked (payload : Option String)

inductive RouterOp where
  | loadActiveManifest
  | generate (query : String)
  | searchStatic (activeManifest : ActiveManifest) (queryEmbedding : List F32) (topK : Nat)
  | searchKeyword (activeManifest : ActiveManifest) (query : String) (topK : Nat)
  | searchVector (activeManifest : ActiveManifest) (queryEmbedding : List F32) (topK : Nat)
  | warn (message : String)
  | elapsedMillis

namespace RouterOp

abbrev Ans : RouterOp → Type
  | loadActiveManifest => Except ManifestStoreError ActiveManifest
  | generate _ => Except String (List F32)
  | searchStatic _ _ _ => Retrieved
  | searchKeyword _ _ _ => Retrieved
  | searchVector _ _ _ => Retrieved
  | warn _ => Unit
  | elapsedMillis => UInt64

/-- The manifest that is passed to a retriever. -/
def manifest? : RouterOp → Option ActiveManifest
  | searchStatic m _ _ | searchKeyword m _ _ | searchVector m _ _ => some m
  | _ => none

end RouterOp

namespace QueryRouter

abbrev signature : Signature where
  Op := RouterOp
  Ans := RouterOp.Ans

abbrev RouterM := Prog signature

abbrev SearchM := ExceptT (Stop SearchError) RouterM

abbrev call (op : RouterOp) : RouterM op.Ans := Prog.ask (S := signature) op

/-- The calls so far, each with its answer. -/
abbrev History := List (Σ op : RouterOp, op.Ans)

/-- Every operation answers what it likes. -/
def machine : Machine signature History ((op : RouterOp) → op.Ans) Unit where
  apply _ op answers history := (answers op, history ++ [⟨op, answers op⟩])

end QueryRouter

/-! ## The search -/

/-- What a router runs on. -/
structure RouterEnv where
  rank : RankArith
  asF64 : String → Option F64

structure GroupedSearchResults where
  staticChunks : List SearchResult
  dynamicChunks : List SearchResult

/-- A router: its parts answer the operations of a search. -/
structure QueryRouter (M E K V S : Type) where
  manifestStore : M
  embeddingGenerator : E
  keywordRetriever : K
  vectorRetriever : V
  staticRetriever : S
  staticReleaseId : Option String

namespace QueryRouter

variable (env : RouterEnv)

/-- `generate_embedding_with_retry`: the error is that of the last attempt. -/
def generateEmbeddingWithRetry (query : String) : RouterM (Except String (List F32)) := do
  match ← call (.generate query) with
  | .ok embedding => return .ok embedding
  | .error _ => call (.generate query)

/-- `panic_payload_message`. -/
def panicPayloadMessage (context : String) : Option String → String
  | some message => s!"{context} panicked: {message}"
  | none => s!"{context} panicked with non-string payload"

/-- `join` of a retriever's thread.  A panic of it is an error that ends the scope early, and the scope
panics itself if one of the threads that were not joined any more has panicked too. -/
def joined (context : String) (unjoined : List Retrieved) :
    Retrieved → Checked SearchError (Except SearchError (List SearchResult))
  | .returned results => .ok results
  | .panicked payload =>
      if unjoined.any (· matches .panicked _) then Checked.panicked "a scoped thread panicked"
      else Checked.fail (.execution (panicPayloadMessage context payload))

/-- What the three threads returned, checked and fused. -/
def groupResults (static keyword vector : Retrieved) : Checked SearchError GroupedSearchResults := do
  let staticResults ← joined "static retrieval" [keyword, vector] static
  let keywordResults ← joined "keyword retrieval" [vector] keyword
  let vectorResults ← joined "vector retrieval" [] vector
  let staticResults ← Checked.lifted staticResults
  let keywordResults ← Checked.lifted keywordResults
  let vectorResults ← Checked.lifted vectorResults
  Checked.lifted (validateResults staticResults)
  Checked.lifted (validateResults keywordResults)
  Checked.lifted (validateResults vectorResults)
  let dynamicChunks ← HybridRanker.fuse env.rank vectorResults keywordResults
  return { staticChunks := staticResults, dynamicChunks }

/-- `search_grouped`. -/
def searchGrouped (activeManifest : ActiveManifest) (query : String) (queryEmbedding : List F32)
    (topK : Nat) : SearchM GroupedSearchResults := do
  let static ← (call (.searchStatic activeManifest queryEmbedding topK) : RouterM _)
  let keyword ← (call (.searchKeyword activeManifest query topK) : RouterM _)
  let vector ← (call (.searchVector activeManifest queryEmbedding topK) : RouterM _)
  groupResults env static keyword vector

/-- What a retriever returned that runs on the caller's thread. -/
def checkedResults : Retrieved → Checked SearchError (List SearchResult)
  | .returned results => do
      let results ← Checked.lifted results
      Checked.lifted (validateResults results)
      return results
  | .panicked payload => Checked.panicked (payload.getD "Box<dyn Any>")

/-- `search_keyword_only`. -/
def searchKeywordOnly (activeManifest : ActiveManifest) (query : String) (topK : Nat) :
    SearchM (List SearchResult) := do
  let keyword ← (call (.searchKeyword activeManifest query topK) : RouterM _)
  checkedResults keyword

/-- The warning of a search that falls back to keywords. -/
def fallbackWarning (request : SearchRequest) (error : String) : String :=
  s!"embedding generation failed after {embeddingGenerationMaxAttempts} attempts; falling back to keyword-only retrieval: query={request.query}, top_k={request.topK}, error={error}"

/-- One pass over the retrievers with a window. -/
def searchPass (request : SearchRequest) (activeManifest : ActiveManifest)
    (queryEmbedding : Except String (List F32)) (warned : Bool) (topK : Nat) :
    SearchM GroupedSearchResults :=
  match queryEmbedding with
  | .ok embedding => searchGrouped env activeManifest request.query embedding (retrievalWindow topK)
  | .error error => do
      if warned then pure () else (call (.warn (fallbackWarning request error)) : RouterM Unit)
      let dynamicChunks ← searchKeywordOnly activeManifest request.query (retrievalWindow topK)
      return { staticChunks := [], dynamicChunks }

/-- `search_single_pass`. -/
def searchSinglePass (request : SearchRequest) (activeManifest : ActiveManifest)
    (queryEmbedding : Except String (List F32)) : SearchM GroupedSearchResults :=
  searchPass env request activeManifest queryEmbedding false request.topK

/-- The loop of `search_with_iterative_filtering`: the window doubles until enough hits are left. -/
def growWindow (request : SearchRequest) (activeManifest : ActiveManifest)
    (queryEmbedding : Except String (List F32)) (retrievalTopK : Nat) (warned : Bool) :
    SearchM GroupedSearchResults := do
  let results ← searchPass env request activeManifest queryEmbedding warned retrievalTopK
  let filteredDynamic := (applyFilters env.asF64 results.dynamicChunks request.filters).length
  if _hdone : filteredDynamic ≥ request.topK ∨ retrievalTopK ≥ searchWindowMax then
    return results
  else
    let nextTopK := min (saturatingMul retrievalTopK 2) searchWindowMax
    if _hsame : nextTopK = retrievalTopK then
      return results
    else
      growWindow request activeManifest queryEmbedding nextTopK true
termination_by searchWindowMax - retrievalTopK
decreasing_by
  simp only [not_or, not_le, saturatingMul, Checked.usizeSize, searchWindowMax, nextTopK]
    at _hdone _hsame ⊢
  omega

/-- `search_with_iterative_filtering`. -/
def searchWithIterativeFiltering (request : SearchRequest) (activeManifest : ActiveManifest)
    (queryEmbedding : Except String (List F32)) : SearchM GroupedSearchResults :=
  growWindow env request activeManifest queryEmbedding (max request.topK 1) false

/-- `query_requires_iterative_filtering`. -/
def queryRequiresIterativeFiltering (request : SearchRequest) : Bool :=
  request.filters.any fun filters => !filters.isEmpty

/-- The groups that a response is made of. -/
def searchResults (request : SearchRequest) (activeManifest : ActiveManifest)
    (queryEmbedding : Except String (List F32)) : SearchM GroupedSearchResults :=
  if queryRequiresIterativeFiltering request then
    searchWithIterativeFiltering env request activeManifest queryEmbedding
  else searchSinglePass env request activeManifest queryEmbedding

/-- One group of the response: filtered, truncated and, if asked for, stripped. -/
def shape (request : SearchRequest) (results : List SearchResult) : List SearchResult :=
  let kept := (applyFilters env.asF64 results request.filters).take (retrievalWindow request.topK)
  if request.includeMetadata then kept else stripMetadata kept

variable {M E K V S : Type} (router : QueryRouter M E K V S)

/-- `search`, up to the check of the response. -/
def respond (request : SearchRequest) : SearchM SearchResponse := do
  Checked.lifted (request.validate.mapError SearchError.validation)
  let activeManifest ← (call .loadActiveManifest : RouterM _)
  let activeManifest ← Checked.lifted
    (activeManifest.mapError fun source => SearchError.execution source.display)
  let queryEmbedding ← (generateEmbeddingWithRetry request.query : RouterM _)
  let results ← searchResults env request activeManifest queryEmbedding
  let staticChunks := shape env request results.staticChunks
  let dynamicChunks := shape env request results.dynamicChunks
  let latencyMs ← (call .elapsedMillis : RouterM _)
  return {
    staticChunks
    staticCount := staticChunks.length
    dynamicChunks
    dynamicCount := dynamicChunks.length
    latencyMs
    indexVersion := activeManifest.head.versionId
    staticReleaseId := router.staticReleaseId }

/-- `search`. -/
def search (request : SearchRequest) : SearchM SearchResponse := do
  let response ← respond env router request
  Checked.lifted ((response.validate (retrievalWindow request.topK)).mapError SearchError.validation)
  return response

end QueryRouter

end LTSearch
