/-
# LTSearch.Models.Search -- search hits and their validation
-/
import LTSearch.Error
import LTSearch.Json
import LTSearch.Models.Index

namespace LTSearch

open LTSearch.Foundation

/-- `TOP_K_MAX`. -/
def topKMax : Nat := 100

inductive SearchError where
  | validation (source : ValidationError)
  | execution (message : String)
  deriving DecidableEq, Repr

inductive ChunkSource where
  | static
  | dynamic
  deriving DecidableEq, Repr

inductive SearchSource where
  | vector
  | keyword
  | hybrid
  | static
  deriving DecidableEq, Repr

inductive CorpusType where
  | legal
  | contract
  | rfc
  | other (id : UInt8)
  deriving DecidableEq, Repr

namespace CorpusType

/-- `CorpusType::from_id`. -/
def fromId (id : UInt8) : CorpusType :=
  if id = 0 then legal else if id = 1 then contract else if id = 2 then rfc else other id

/-- `corpus_type_id`. -/
def id : CorpusType → UInt8
  | legal => 0
  | contract => 1
  | rfc => 2
  | other id => id

/-- `corpus_type_label`. -/
def label : CorpusType → String
  | legal => "法规"
  | contract => "合同"
  | rfc => "RFC"
  | other _ => "法规/合同"

end CorpusType

/-- A metadata map, as its entries in key order. -/
abbrev Metadata := List (String × Json)

namespace Metadata

/-- `metadata.get(key)`. -/
def get (metadata : Metadata) (key : String) : Option Json := metadata.lookup key

/-- `metadata.get(key).and_then(Value::as_str)`. -/
def getStr (metadata : Metadata) (key : String) : Option String :=
  match metadata.get key with
  | some (.str s) => some s
  | _ => none

end Metadata

structure Citation where
  resourceId : String
  sourceType : String
  sourceRef : String
  title : Option String
  url : Option String
  deriving DecidableEq, Repr

/-- `Citation::from_metadata`. -/
def Citation.fromMetadata (metadata : Metadata) : Option Citation := do
  let resourceId ← metadata.getStr "resource_id"
  let sourceType ← metadata.getStr "source_type"
  let sourceRef ← metadata.getStr "source_ref"
  return {
    resourceId
    sourceType
    sourceRef
    title := metadata.getStr "title"
    url := metadata.getStr "url" }

structure SearchResult where
  docId : String
  score : F32
  text : String
  metadata : Option Metadata
  source : SearchSource
  chunkSource : ChunkSource
  corpusType : Option CorpusType
  citation : Option Citation

/-- `SearchResult::validate`. -/
def SearchResult.validate (result : SearchResult) : Except ValidationError Unit := do
  rejectIf (result.docId = "") (.required "doc_id")
  rejectIf (result.score.isFinite = false) (.invalidValue "score")

theorem SearchResult.validate_eq_ok {result : SearchResult} :
    result.validate = .ok () ↔ result.docId ≠ "" ∧ result.score.isFinite = true := by
  simp only [validate, check_bind_eq_ok, rejectIf_eq_ok, Bool.not_eq_false]

/-- `validate_results`. -/
def validateResults (results : List SearchResult) : Except SearchError Unit :=
  results.forM fun result => result.validate.mapError .validation

theorem validateResults_eq_ok {results : List SearchResult} :
    validateResults results = .ok () ↔ ∀ result ∈ results, result.validate = .ok () := by
  simp only [validateResults, forM_eq_ok, mapError_eq_ok]

end LTSearch
