/-
# LTSearch.Index.ReleaseManifest -- the manifest of a static release and the id of its content

The id is a digest of the content components of the manifest, each variable-length one with its
length in front; where the content came from is left out of it.  How the manifest prints as JSON is a
parameter.
-/
import LTSearch.Foundation.SortedMap
import LTSearch.Index.CodecConfig
import LTSearch.Index.Header
import LTSearch.Index.Record
import LTSearch.Models.Search

namespace LTSearch

open LTSearch.Foundation

/-- `RELEASE_MANIFEST_FILE`. -/
def releaseManifestFile : String := "release_manifest.json"

/-- Where a release came from. -/
structure ReleaseSource where
  kind : String
  datasetPath : String
  tableVersion : UInt64
  tableRowCount : UInt64
  corpusType : CorpusType
  deriving DecidableEq, Repr

structure EmbeddingProfile where
  modelId : String
  dim : UInt32
  deriving DecidableEq, Repr

structure InputFingerprint where
  docCount : UInt64
  contentDigest : String
  deriving DecidableEq, Repr

/-- The codec section, whose fields tell the version. -/
inductive ManifestCodec where
  | v4 (codec : V4CodecMetadata)
  | v3 (codec : CodecMetadata)
  deriving DecidableEq, Repr

namespace ManifestCodec

def dim : ManifestCodec → UInt32
  | v3 codec => codec.dim
  | v4 codec => codec.dim

def turboVersion : ManifestCodec → UInt32
  | v3 _ => turboVersionV3
  | v4 _ => turboVersionV4

end ManifestCodec

structure OutputFile where
  name : String
  sha256 : String
  sizeBytes : UInt64
  deriving DecidableEq, Repr

/-- The description of a file. -/
def OutputFile.describe (sha : Sha256) (name : String) (bytes : Bytes) : OutputFile where
  name
  sha256 := sha256Hex sha bytes
  sizeBytes := UInt64.ofNat bytes.length

structure ReleaseManifest where
  manifestSchemaVersion : UInt32
  turboVersion : UInt32
  releaseId : String
  source : ReleaseSource
  embeddingProfile : EmbeddingProfile
  inputFingerprint : InputFingerprint
  codec : ManifestCodec
  outputs : List OutputFile
  deriving DecidableEq, Repr

/-- A row of the content that is digested. -/
structure CanonicalRow where
  docId : String
  embedding : List F32
  text : String
  canonicalMetaJson : Bytes

/-- `serde_json::to_vec` and `from_slice` at one type. -/
structure JsonCodec (α : Type) where
  toVec : α → Except String Bytes
  fromSlice : Bytes → Except String α

/-- The text that is printed for `a` parses back as `a`. -/
def JsonCodec.RoundTrips {α : Type} (json : JsonCodec α) (a : α) : Prop :=
  ∀ bytes, json.toVec a = .ok bytes → json.fromSlice bytes = .ok a

/-- `canonical_metadata_json`: the entries go into a `BTreeMap` first. -/
def canonicalMetadataJson (metadata : Metadata) : String := (Json.obj (ofEntries metadata)).render

/-- `update_len_prefixed`. -/
def lenPrefixed (bytes : Bytes) : Bytes := leBytes 8 bytes.length ++ bytes

/-- What `content_digest` hashes of a row. -/
def CanonicalRow.bytes (row : CanonicalRow) : Bytes :=
  lenPrefixed (utf8 row.docId) ++ (leBytes 8 row.embedding.length ++ writeValues row.embedding) ++
    lenPrefixed (utf8 row.text) ++ lenPrefixed row.canonicalMetaJson

/-- `content_digest`. -/
def contentDigest (sha : Sha256) (rows : List CanonicalRow) : String :=
  sha256Hex sha (rows.flatMap CanonicalRow.bytes)

/-- What `derive_release_id` hashes of the codec section. -/
def ManifestCodec.bytes : ManifestCodec → Bytes
  | .v3 codec => u32le codec.dim ++ u32le codec.centroidsPerDim ++ u64le codec.centroidsSeed ++
      u64le codec.projectionSeed
  | .v4 codec => lenPrefixed (utf8 codec.codecId) ++ u32le codec.dim ++ [codec.mseBits] ++
      u32le codec.qjlDim ++ u64le codec.rotationSeed ++ u64le codec.qjlSeed ++
      u32le codec.generatorVersion ++ lenPrefixed (utf8 codec.normPolicy)

/-- What it hashes of one output. -/
def OutputFile.bytes (output : OutputFile) : Bytes :=
  lenPrefixed (utf8 output.name) ++ utf8 output.sha256 ++ u64le output.sizeBytes

/-- The bytes whose digest is the release id. -/
def releaseIdBytes (turboVersion : UInt32) (profile : EmbeddingProfile) (codec : ManifestCodec)
    (contentDigest : String) (outputs : List OutputFile) : Bytes :=
  u32le turboVersion ++ (lenPrefixed (utf8 profile.modelId) ++ (u32le profile.dim ++ (codec.bytes ++
    (lenPrefixed (utf8 contentDigest) ++
      (outputs.insertionSort fun a b => a.name ≤ b.name).flatMap OutputFile.bytes))))

/-- `derive_release_id`. -/
def deriveReleaseId (sha : Sha256) (turboVersion : UInt32) (profile : EmbeddingProfile)
    (codec : ManifestCodec) (contentDigest : String) (outputs : List OutputFile) : String :=
  sha256Hex sha (releaseIdBytes turboVersion profile codec contentDigest outputs)

/-- `V3_RELEASE_OUTPUT_FILES`. -/
def v3ReleaseOutputFiles : List String :=
  ["centroids.bin", "projection.bin", "turbo_static.bin", "turbo_static_docid.bin",
    "turbo_static_meta.bin", "turbo_static_meta_ext.bin", "turbo_static_meta_json.bin",
    "turbo_static_text.bin", "turbo_static_title.bin"]

/-- `V4_RELEASE_OUTPUT_FILES`. -/
def v4ReleaseOutputFiles : List String :=
  ["codebook.bin", "qjl.bin", "rotation.bin", "turbo_static.bin", "turbo_static_docid.bin",
    "turbo_static_meta.bin", "turbo_static_meta_ext.bin", "turbo_static_meta_json.bin",
    "turbo_static_text.bin", "turbo_static_title.bin"]

/-- `release_output_files`. -/
def releaseOutputFiles (turboVersion : UInt32) : Option (List String) :=
  if turboVersion = turboVersionV3 then some v3ReleaseOutputFiles
  else if turboVersion = turboVersionV4 then some v4ReleaseOutputFiles
  else none

end LTSearch
