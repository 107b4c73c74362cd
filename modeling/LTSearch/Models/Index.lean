/-
# LTSearch.Models.Index -- documents, shard manifests and index manifests with their validators

The checks stand in source order: the first one that fails names the field.  `len()` on a Rust
string counts UTF-8 bytes.  An `f32` is its bit pattern, so that `is_finite` is a test on the
exponent bits; no arithmetic is done on embeddings here.
-/
import LTSearch.Error
import LTSearch.Json
import LTSearch.Foundation.Checks

namespace LTSearch

open LTSearch.Foundation

def documentTextMaxBytes : Nat := 100000
def documentMetadataMaxBytes : Nat := 10000
def minPlausibleEpochMillis : Int := 1000000000000

/-- `is_plausible_epoch_millis`, and `validate_timestamp` of the write path. -/
def isPlausibleEpochMillis (value : Int) : Bool := decide (minPlausibleEpochMillis ≤ value)

/-- A single-precision float, as its bits. -/
structure F32 where
  bits : BitVec 32
  deriving DecidableEq, Repr

/-- `f32::is_finite`: the exponent field is not all ones. -/
def F32.isFinite (x : F32) : Bool := x.bits.extractLsb' 23 8 != 0xff#8

/-- A document.  The metadata map is its entries in key order: two maps with the same entries are
the same map, and no function below observes an iteration order. -/
structure Document where
  docId : String
  text : String
  embedding : Option (List F32)
  metadata : List (String × Json)
  timestamp : Int

namespace Document

/-- `serde_json::to_vec(&self.metadata).len()`. -/
def metadataLen (d : Document) : Nat := (Json.obj d.metadata).render.utf8ByteSize

/-- `Document::validate`. -/
def validate (d : Document) : Except ValidationError Unit := do
  rejectIf (d.docId = "") (.required "doc_id")
  rejectIf (d.docId.utf8ByteSize > 256) (.lengthOutOfRange "doc_id" 1 256)
  rejectIf (d.text = "") (.required "text")
  rejectIf (d.text.utf8ByteSize > documentTextMaxBytes) (.tooLarge "text" documentTextMaxBytes)
  rejectIf (∃ embedding ∈ d.embedding, ∃ value ∈ embedding, value.isFinite = false)
    (.invalidValue "embedding")
  rejectIf (d.metadataLen > documentMetadataMaxBytes)
    (.tooLarge "metadata" documentMetadataMaxBytes)
  rejectIf (isPlausibleEpochMillis d.timestamp = false) (.invalidValue "timestamp")

/-- `Document::validate_for_embedding_dim`. -/
def validateForEmbeddingDim (d : Document) (dim : Nat) : Except ValidationError Unit := do
  d.validate
  rejectIf (∃ embedding ∈ d.embedding, embedding.length ≠ dim) (.invalidValue "embedding")

/-- What `validate` accepts, field by field. -/
structure WellFormed (d : Document) : Prop where
  docIdNonempty : d.docId ≠ ""
  docIdShort : d.docId.utf8ByteSize ≤ 256
  textNonempty : d.text ≠ ""
  textShort : d.text.utf8ByteSize ≤ documentTextMaxBytes
  embeddingFinite : ∀ embedding ∈ d.embedding, ∀ x ∈ embedding, x.isFinite = true
  metadataShort : d.metadataLen ≤ documentMetadataMaxBytes
  timestampPlausible : minPlausibleEpochMillis ≤ d.timestamp

theorem validate_eq_ok_iff {d : Document} : d.validate = .ok () ↔ d.WellFormed := by
  simp only [validate, check_bind_eq_ok, rejectIf_eq_ok, isPlausibleEpochMillis]
  constructor
  · rintro ⟨h1, h2, h3, h4, h5, h6, h7⟩
    refine ⟨h1, by omega, h3, by omega, ?_, by omega, by simpa using h7⟩
    intro embedding he x hx
    by_contra hfin
    exact h5 ⟨embedding, he, x, hx, by simpa using hfin⟩
  · rintro ⟨h1, h2, h3, h4, h5, h6, h7⟩
    refine ⟨h1, by omega, h3, by omega, ?_, by omega, by simpa using h7⟩
    rintro ⟨embedding, he, x, hx, hfin⟩
    rw [h5 embedding he x hx] at hfin
    exact Bool.noConfusion hfin

theorem validateForEmbeddingDim_eq_ok_iff {d : Document} {dim : Nat} :
    d.validateForEmbeddingDim dim = .ok () ↔
      d.WellFormed ∧ ∀ embedding ∈ d.embedding, embedding.length = dim := by
  simp only [validateForEmbeddingDim, check_bind_eq_ok, rejectIf_eq_ok, validate_eq_ok_iff]
  apply and_congr_right
  intro _
  push Not
  rfl

end Document

/-- One shard of a version: how many documents it holds and where its two indexes live. -/
structure ShardManifest where
  shardId : Nat
  documentCount : Nat
  lancePath : String
  tantivyPath : String
  deriving DecidableEq, Repr

/-- The manifest of one index version. -/
structure IndexManifest where
  versionId : UInt64
  createdAt : Int
  embeddingDim : Nat
  documentCount : Nat
  numShards : Nat
  shards : List ShardManifest
  deriving DecidableEq, Repr

/-- `strip_prefix`, on characters. -/
def stripPrefix : List Char → List Char → Option (List Char)
  | [], s => some s
  | _ :: _, [] => none
  | p :: ps, c :: cs => if p = c then stripPrefix ps cs else none

/-- `split_once(sep)`: the text before and after the first separator. -/
def splitOnce (sep : Char) : List Char → Option (List Char × List Char)
  | [] => none
  | c :: cs => if c = sep then some ([], cs) else (splitOnce sep cs).map (fun p => (c :: p.1, p.2))

/-- `validate_s3_uri`: `s3://`, a nonempty bucket, a slash and a nonempty key. -/
def validateS3Uri (value field : String) : Except ValidationError Unit :=
  match (stripPrefix "s3://".toList value.toList).bind (splitOnce '/') with
  | some (_ :: _, _ :: _) => .ok ()
  | _ => .error (.invalidValue field)

/-- `IndexManifest::validate`.  The shard counts are summed in `usize`, which wraps. -/
def IndexManifest.validate (m : IndexManifest) : Except ValidationError Unit := do
  rejectIf (m.numShards = 0) (.mustBePositive "num_shards")
  rejectIf (m.embeddingDim = 0) (.mustBePositive "embedding_dim")
  rejectIf (isPlausibleEpochMillis m.createdAt = false) (.invalidValue "created_at")
  rejectIf (m.shards.length ≠ m.numShards) (.mismatch "shards" "len(shards) == num_shards")
  rejectIf ((m.shards.map (·.documentCount)).sum % 2 ^ 64 ≠ m.documentCount)
    (.mismatch "document_count" "sum(shard.document_count)")
  m.shards.forM fun shard => do
    validateS3Uri shard.lancePath "lance_path"
    validateS3Uri shard.tantivyPath "tantivy_path"

/-- What `IndexManifest::validate` accepts. -/
structure IndexManifest.WellFormed (m : IndexManifest) : Prop where
  numShardsPositive : m.numShards ≠ 0
  embeddingDimPositive : m.embeddingDim ≠ 0
  createdAtPlausible : minPlausibleEpochMillis ≤ m.createdAt
  shardsCounted : m.shards.length = m.numShards
  documentsCounted : (m.shards.map (·.documentCount)).sum % 2 ^ 64 = m.documentCount
  pathsValid : ∀ shard ∈ m.shards, validateS3Uri shard.lancePath "lance_path" = .ok () ∧
    validateS3Uri shard.tantivyPath "tantivy_path" = .ok ()

theorem IndexManifest.validate_eq_ok_iff {m : IndexManifest} :
    m.validate = .ok () ↔ m.WellFormed := by
  simp only [validate, check_bind_eq_ok, rejectIf_eq_ok, forM_eq_ok, isPlausibleEpochMillis]
  constructor
  · rintro ⟨h1, h2, h3, h4, h5, h6⟩
    exact ⟨h1, h2, by simpa using h3, not_not.mp h4, not_not.mp h5, h6⟩
  · rintro ⟨h1, h2, h3, h4, h5, h6⟩
    exact ⟨h1, h2, by simpa using h3, not_not.mpr h4, not_not.mpr h5, h6⟩

end LTSearch
