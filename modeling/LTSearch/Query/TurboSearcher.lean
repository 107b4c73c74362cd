/-
# LTSearch.Query.TurboSearcher -- searching a loaded release

The query is prepared once, every record is scored, the best `top_k` are kept by a scan in parts and
ranked, and only then are the texts of the hits read.  How metadata JSON parses is a parameter.
-/
import LTSearch.Foundation.TopK
import LTSearch.Index.Loaded
import LTSearch.Models.Search

namespace LTSearch

open LTSearch.Foundation

/-! ## Query checks -/

/-- `validate_query_embedding`. -/
def validateQueryEmbedding (queryEmbedding : List F32) : Except SearchError Unit := do
  rejectIf (queryEmbedding = []) (.validation (.required "query_embedding"))
  rejectIf (∃ value ∈ queryEmbedding, value.isFinite = false)
    (.validation (.invalidValue "query_embedding"))

/-- `validate_embedding_dim`. -/
def validateEmbeddingDim (queryEmbedding : List F32) (expectedDim : Nat) :
    Except SearchError Unit :=
  rejectIf (queryEmbedding.length ≠ expectedDim) (.validation (.invalidValue "query_embedding"))

/-- `validate_top_k`. -/
def validateTopK (topK : Nat) : Except SearchError Unit :=
  rejectIf (topK = 0 ∨ topK > topKMax) (.validation (.rangeOutOfRange "top_k" 1 topKMax))

/-! ## Ranking -/

structure RankedResult where
  score : F32
  docId : UInt64
  recordIndex : Nat
  deriving DecidableEq

/-- `compare_ranked_results`: a higher score first, then the smaller doc id. -/
def compareRankedResults (left right : RankedResult) : Ordering :=
  (compare right.score.totalKey left.score.totalKey).then (compare left.docId right.docId)

/-- What runs the scan: the heap of the standard library and the scheduler's splits. -/
structure Scanner where
  heap : MaxPop compareRankedResults
  plan : ScanPlan

/-- `scan_top_k`. -/
def scanTopK {ε R : Type} (scanner : Scanner) (records : List R) (topK : Nat)
    (scoreRecord : R → Checked ε (UInt64 × F32)) : Checked ε (List RankedResult) := do
  let candidates ← records.zipIdx.mapM fun (record, recordIndex) => do
    let (docId, score) ← scoreRecord record
    return { score, docId, recordIndex : RankedResult }
  return scanner.heap.scan topK scanner.plan candidates

/-! ## The search -/

/-- What a searcher runs on besides its index. -/
structure SearchEnv where
  arith : FloatArith
  scanner : Scanner
  /-- `serde_json::from_str` of a metadata map. -/
  parseMetadata : String → Option Metadata

/-- A searcher of one loaded index. -/
structure TurboQuantSearcher where
  index : MmapIndex

namespace TurboQuantSearcher

/-- The message of the branch for records and codec of different versions. -/
def mismatchMessage : String := "static index records and codec are of different versions"

/-- The best `top_k` of the records, each layout scored by its own codec. -/
def scanSlice (env : SearchEnv) (queryEmbedding : List F32) (topK : Nat) :
    MmapIndex.TurboRecordSlice → IndexCodec → Checked SearchError (List RankedResult)
  | .v2Dim512 records, .legacy centroids projection => do
      let prepared ← (PreparedTurboQuery.prepare env.arith queryEmbedding centroids
        projection).mapErr fun source =>
          .execution s!"failed to prepare turbo query: {source.display}"
      scanTopK env.scanner records topK fun record =>
        .ok (record.docId, prepared.score env.arith record)
  | .v4Dim512 records, .prod codec => do
      let prepared ← (codec.prepareQuery env.arith queryEmbedding).mapErr fun source =>
        .execution s!"failed to prepare turbo query: {source.display}"
      scanTopK env.scanner records topK fun record => do
        let score ← prepared.score env.arith record
        return (record.docId, score)
  | .v2Dim512 _, .prod _ => Checked.fail (.execution mismatchMessage)
  | .v4Dim512 _, .legacy _ _ => Checked.fail (.execution mismatchMessage)

/-- The best `top_k` records of the index. -/
def candidates (env : SearchEnv) (searcher : TurboQuantSearcher) (queryEmbedding : List F32)
    (topK : Nat) : Checked SearchError (List RankedResult) := do
  let slice ← searcher.index.records
  scanSlice env queryEmbedding topK slice searcher.index.codec

/-- The doc id and the metadata of a hit. -/
def identify (env : SearchEnv) (index : MmapIndex) (candidate : RankedResult) :
    Checked SearchError (String × Option Metadata) :=
  if index.hasDocSidecars then do
    let original ← (index.originalDocId candidate.recordIndex).mapErr fun source =>
      SearchError.execution s!"failed to read static index doc_id: {source.display}"
    -- the hash stands in only where the sidecar has no entry
    let docId := original.getD (toString candidate.docId)
    let metadata ← Checked.attempt (index.metadataJson candidate.recordIndex)
    return (docId, match metadata with
      | .ok json => json.bind env.parseMetadata
      | .error _ => none)
  else return (toString candidate.docId, none)

/-- The citation of a hit: from its metadata, or else from its title. -/
def citationOf (index : MmapIndex) (candidate : RankedResult) (docId : String)
    (corpusType : CorpusType) (metadata : Option Metadata) :
    Checked SearchError (Option Citation) :=
  match metadata.bind Citation.fromMetadata with
  | some citation => return some citation
  | none => do
      let title ← Checked.attempt (index.titleAt candidate.recordIndex)
      return match title with
        | .ok (some title) => some {
            resourceId := docId
            sourceType := corpusType.label
            sourceRef := docId
            title := some title
            url := none }
        | _ => none

/-- The hit of a candidate. -/
def materialize (env : SearchEnv) (index : MmapIndex) (candidate : RankedResult) :
    Checked SearchError SearchResult := do
  let entry ← index.metaAt candidate.recordIndex
  let corpusType := CorpusType.fromId entry.corpusType
  let text ← (index.textAt candidate.recordIndex).mapErr fun source =>
    SearchError.execution s!"failed to read static index text: {source.display}"
  let (docId, metadata) ← identify env index candidate
  let citation ← citationOf index candidate docId corpusType metadata
  return {
    docId
    score := candidate.score
    text
    metadata
    source := .static
    chunkSource := .static
    corpusType := some corpusType
    citation }

/-- `search`. -/
def search (env : SearchEnv) (searcher : TurboQuantSearcher) (queryEmbedding : List F32)
    (topK : Nat) : Checked SearchError (List SearchResult) := do
  Checked.lifted (validateQueryEmbedding queryEmbedding)
  Checked.lifted (validateEmbeddingDim queryEmbedding searcher.index.dim.toNat)
  Checked.lifted (validateTopK topK)
  let heap ← searcher.candidates env queryEmbedding topK
  let ranked := heap.mergeSort fun a b => compareRankedResults a b ≠ .gt
  ranked.mapM fun candidate => materialize env searcher.index candidate

end TurboQuantSearcher

end LTSearch
