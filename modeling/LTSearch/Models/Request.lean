/-
# LTSearch.Models.Request -- search requests, responses and their validation
-/
import LTSearch.Index.Arith
import LTSearch.Models.Search

namespace LTSearch

open LTSearch.Foundation

/-- `QUERY_MAX_CHARS`. -/
def queryMaxChars : Nat := 1000

/-- A double-precision float, as its bits. -/
structure F64 where
  bits : BitVec 64
  deriving DecidableEq, Repr

namespace F64

/-- `f64::is_finite`: the exponent field is not all ones. -/
def isFinite (x : F64) : Bool := x.bits.extractLsb' 52 11 != 0x7ff#11

def isNan (x : F64) : Bool := !x.isFinite && x.bits.extractLsb' 0 52 != 0#52

/-- `==`: the two zeros are equal, and no NaN is. -/
def eq (x y : F64) : Bool :=
  !x.isNan && !y.isNan &&
    (x.bits == y.bits || (x.bits.extractLsb' 0 63 == 0#63 && y.bits.extractLsb' 0 63 == 0#63))

end F64

inductive FilterValue where
  | stringEquals (value : String)
  | boolEquals (value : Bool)
  | numberEquals (value : F64)
  deriving DecidableEq, Repr

/-- `FilterValue::validate`. -/
def FilterValue.validate : FilterValue → Except ValidationError Unit
  | stringEquals value => rejectIf (value = "") (.required "filters.value")
  | boolEquals _ => .ok ()
  | numberEquals value => rejectIf (value.isFinite = false) (.invalidValue "filters.value")

/-- The filters of a request: the entries of a map, whose keys are distinct. -/
abbrev Filters := List (String × FilterValue)

/-- `validate_filter_field_name`: an identifier. -/
def validateFilterFieldName (field : String) : Except ValidationError Unit :=
  match field.toList with
  | [] => .error (.required "filters.field")
  | first :: rest => do
      rejectIf (¬(first.isAlpha ∨ first = '_')) (.invalidValue "filters.field")
      rejectIf (∃ ch ∈ rest, ¬(ch.isAlphanum ∨ ch = '_')) (.invalidValue "filters.field")

/-- A letter and then letters and digits make a field name. -/
theorem validateFilterFieldName_eq_ok {field : String} {first : Char} {rest : List Char}
    (hchars : field.toList = first :: rest) (hfirst : first.isAlpha = true)
    (hrest : rest.all Char.isAlphanum = true) : validateFilterFieldName field = .ok () := by
  simp only [validateFilterFieldName, hchars, check_bind_eq_ok, rejectIf_eq_ok]
  refine ⟨fun h => h (.inl hfirst), ?_⟩
  rintro ⟨ch, hch, hnot⟩
  exact hnot (.inl (List.all_eq_true.mp hrest ch hch))

structure CorpusWeights where
  staticBias : F32
  dynamicBias : F32
  deriving DecidableEq, Repr

/-- `(0.0..=1.0).contains(&bias)`. -/
def CorpusWeights.isShare (bias : F32) : Bool := bias.ge F32.zero && F32.one.ge bias

/-- `CorpusWeights::validate`. -/
def CorpusWeights.validate (weights : CorpusWeights) : Except ValidationError Unit := do
  rejectIf (isShare weights.staticBias = false) (.invalidValue "static_bias")
  rejectIf (isShare weights.dynamicBias = false) (.invalidValue "dynamic_bias")

structure SearchRequest where
  query : String
  topK : Nat
  filters : Option Filters
  includeMetadata : Bool
  corpusWeights : Option CorpusWeights
  deriving DecidableEq, Repr

/-- `SearchRequest::validate`. -/
def SearchRequest.validate (request : SearchRequest) : Except ValidationError Unit := do
  rejectIf (request.query.length = 0) (.required "query")
  rejectIf (request.query.length > queryMaxChars) (.lengthOutOfRange "query" 1 queryMaxChars)
  rejectIf (request.topK = 0 ∨ request.topK > topKMax) (.rangeOutOfRange "top_k" 1 topKMax)
  (request.filters.getD []).forM fun (field, value) => do
    validateFilterFieldName field
    value.validate
  match request.corpusWeights with
  | some weights => weights.validate
  | none => .ok ()

structure SearchResponse where
  staticChunks : List SearchResult
  staticCount : Nat
  dynamicChunks : List SearchResult
  dynamicCount : Nat
  latencyMs : UInt64
  indexVersion : UInt64
  staticReleaseId : Option String

/-- `SearchResponse::validate`. -/
def SearchResponse.validate (response : SearchResponse) (maxChunksPerPath : Nat) :
    Except ValidationError Unit := do
  rejectIf (response.staticChunks.length > response.staticCount)
    (.mismatch "static_chunks" "static_chunks.len() <= static_count")
  rejectIf (response.dynamicChunks.length > response.dynamicCount)
    (.mismatch "dynamic_chunks" "dynamic_chunks.len() <= dynamic_count")
  rejectIf (response.staticChunks.length > maxChunksPerPath)
    (.mismatch "static_chunks" "static_chunks.len() <= max_chunks_per_path")
  rejectIf (response.dynamicChunks.length > maxChunksPerPath)
    (.mismatch "dynamic_chunks" "dynamic_chunks.len() <= max_chunks_per_path")
  response.staticChunks.forM SearchResult.validate
  response.dynamicChunks.forM SearchResult.validate

theorem SearchResponse.validate_eq_ok {response : SearchResponse} {maxChunksPerPath : Nat} :
    response.validate maxChunksPerPath = .ok () ↔
      response.staticChunks.length ≤ response.staticCount ∧
      response.dynamicChunks.length ≤ response.dynamicCount ∧
      response.staticChunks.length ≤ maxChunksPerPath ∧
      response.dynamicChunks.length ≤ maxChunksPerPath ∧
      (∀ result ∈ response.staticChunks, result.validate = .ok ()) ∧
      ∀ result ∈ response.dynamicChunks, result.validate = .ok () := by
  simp only [validate, check_bind_eq_ok, rejectIf_eq_ok, forM_eq_ok, not_lt]

end LTSearch
