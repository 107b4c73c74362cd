/-
# LTSearch.Index.StaticRelease -- the writer of static releases

`buildRelease` checks its input, generates the codec, lays the chunks out in one pass over them and
writes the manifest that describes the files.  A directory is its files by name; the file system does
what it is asked, so the only errors are the writer's own.  A `Vec<u8>` never holds more than
`isize::MAX` bytes: growing past it is a panic.
-/
import LTSearch.Index.Arith
import LTSearch.Index.MmapIndex
import LTSearch.Index.ReleaseManifest

namespace LTSearch

open LTSearch.Foundation
open TurboQuantConfig (AssetFile okOr)

/-! ## Chunks -/

/-- A chunk.  The metadata is a `HashMap`: its entries in the order it lists them. -/
structure StaticChunk where
  docId : String
  text : String
  metadata : Metadata
  corpusType : CorpusType

/-- `FNV_OFFSET_BASIS` and `FNV_PRIME`. -/
def fnvOffsetBasis : UInt64 := 0xcbf29ce484222325
def fnvPrime : UInt64 := 0x00000100000001b3

/-- `stable_hash_doc_id`. -/
def stableHashDocId (docId : String) : UInt64 :=
  (utf8 docId).foldl (fun hash byte => (hash ^^^ byte.toUInt64) * fnvPrime) fnvOffsetBasis

/-- The title that is stored: a nonempty string under `title`. -/
def StaticChunk.title (chunk : StaticChunk) : Option String :=
  (chunk.metadata.getStr "title").filter (· ≠ "")

/-- `detect_duplicate_doc_ids`. -/
def detectDuplicateDocIds : List String → List StaticChunk → Except IndexError Unit
  | _, [] => .ok ()
  | seen, chunk :: rest =>
      if chunk.docId ∈ seen then .error (.operation s!"duplicate static chunk doc_id {chunk.docId}")
      else detectDuplicateDocIds (chunk.docId :: seen) rest

/-- `detect_hash_collisions`. -/
def detectHashCollisions : List (UInt64 × String) → List (String × UInt64) → Except IndexError Unit
  | _, [] => .ok ()
  | byHash, (docId, hash) :: rest =>
      match byHash.lookup hash with
      | some existing =>
          if existing ≠ docId then
            .error (.operation
              s!"doc_id hash collision: {existing} and {docId} share hash {hash}")
          else detectHashCollisions ((hash, docId) :: byHash) rest
      | none => detectHashCollisions ((hash, docId) :: byHash) rest

/-! ## The codec of a release -/

/-- `StaticReleaseFormat`. -/
inductive StaticReleaseFormat where
  | v3
  | v4 (config : TurboQuantConfig)

namespace StaticReleaseFormat

/-- `StaticReleaseFormat::from_name`. -/
def fromName : String → Option StaticReleaseFormat
  | "v3" => some v3
  | "v4" => some (v4 .prodV1)
  | _ => none

def turboVersion : StaticReleaseFormat → UInt32
  | v3 => turboVersionV3
  | v4 _ => turboVersionV4

def codecConfig : StaticReleaseFormat → TurboQuantConfig
  | v3 => .legacyV1
  | v4 config => config

end StaticReleaseFormat

/-- `legacy_codec_assets`. -/
def legacyCodecAssets (gen : Generators) (config : TurboQuantConfig) :
    CentroidTable × ProjectionMatrix :=
  ({ dim := config.dim
     centroidsPerDim := config.centroidsPerDim
     values := gen.centroids config.dim config.centroidsPerDim config.mseSeed },
   { inputDim := config.dim
     outputDim := config.qjlDim
     values := gen.projection config.dim config.qjlDim config.qjlSeed })

/-- `encode_turbo_record`. -/
def encodeTurboRecord (arith : FloatArith) (docId : UInt64) (embedding : List F32)
    (centroids : CentroidTable) (projection : ProjectionMatrix) (label : String) :
    Checked IndexError TurboRecord512 := do
  let encoded ← (encodeVector arith embedding centroids projection).mapErr fun error =>
    IndexError.operation s!"failed to encode static chunk {label}: {error.display}"
  if hidx : encoded.idx.length = 128 then
    if hqjl : encoded.qjl.length = 64 then
      return {
        docId
        idx := ⟨encoded.idx, hidx⟩
        qjl := ⟨encoded.qjl, hqjl⟩
        gamma := encoded.gamma
        reserved := ⟨[0, 0, 0, 0], rfl⟩ }
    else
      Checked.fail (.operation
        s!"static chunk {label} produced qjl payload with unexpected length {encoded.qjl.length}")
  else
    Checked.fail (.operation
      s!"static chunk {label} produced idx payload with unexpected length {encoded.idx.length}")

/-- `ReleaseCodec`. -/
inductive ReleaseCodec where
  | v3 (config : TurboQuantConfig) (centroids : CentroidTable) (projection : ProjectionMatrix)
  | v4 (codec : TurboQuantProdV1)

namespace ReleaseCodec

/-- `ReleaseCodec::generate`. -/
def generate (gen : Generators) : StaticReleaseFormat → Except IndexError ReleaseCodec
  | .v3 =>
      let (centroids, projection) := legacyCodecAssets gen .legacyV1
      .ok (v3 .legacyV1 centroids projection)
  | .v4 config => do
      let codec ← (TurboQuantProdV1.generate gen config).mapError fun error =>
        IndexError.operation s!"invalid v4 codec config: {error.display}"
      rejectIf (¬TurboProdRecord512.holdsCodesOf codec) (.operation
        s!"v4 records hold 128 index bytes and 64 sign bytes, but the codec config produces {codec.idxLen} and {codec.signsLen}")
      return v4 codec

/-- `asset_files`. -/
def assetFiles : ReleaseCodec → List AssetFile
  | v3 _ centroids projection =>
      [("centroids.bin", centroids.toBytes), ("projection.bin", projection.toBytes)]
  | v4 codec =>
      [("codebook.bin", codec.codebook.toBytes), ("qjl.bin", codec.qjl.toBytes),
        ("rotation.bin", codec.rotation.toBytes)]

/-- `header`. -/
def header (sha : Sha256) (recordCount : UInt64) : ReleaseCodec → TurboHeader
  | v3 config _ _ => TurboHeader.newV3 config.dim recordCount
  | v4 codec => TurboHeader.newV4 codec.config.dim recordCount {
      codecId := codec.config.codecId
      fingerprint := ⟨codec.config.fingerprint sha (v4 codec).assetFiles,
        TurboQuantConfig.length_fingerprint _ _ _⟩ }

/-- The bytes that `append_record` appends. -/
def recordBytes (arith : FloatArith) (docHash : UInt64) (embedding : List F32) (label : String) :
    ReleaseCodec → Checked IndexError Bytes
  | v3 _ centroids projection => do
      let record ← encodeTurboRecord arith docHash embedding centroids projection label
      return record.toBytes
  | v4 codec => do
      let encoded ← (codec.encode arith embedding).mapErr fun error =>
        IndexError.operation s!"failed to encode static chunk {label}: {error.display}"
      let record ← Checked.lifted (okOr (IndexError.operation
        s!"static chunk {label} produced a code that does not fit a v4 record")
        (TurboProdRecord512.new docHash encoded))
      return record.toBytes

/-- `manifest_codec`. -/
def manifestCodec : ReleaseCodec → Except IndexError ManifestCodec
  | v3 config _ _ => do
      let codec ← config.toV3CodecMetadata.mapError fun error =>
        IndexError.operation s!"invalid v3 codec config: {error.display}"
      return .v3 codec
  | v4 codec => do
      let section' ← codec.config.toV4CodecMetadata.mapError fun error =>
        IndexError.operation s!"invalid v4 codec config: {error.display}"
      return .v4 section'

end ReleaseCodec

/-! ## One pass over the chunks -/

/-- The blobs as they grow. -/
structure ReleaseBlobs where
  turboStatic : Bytes
  metaRecords : Bytes
  text : Bytes
  title : Bytes
  metaExt : Bytes
  docid : Bytes
  metaJson : Bytes
  canonicalRows : List CanonicalRow

namespace ReleaseBlobs

/-- What the pass appends for one chunk. -/
def append (arith : FloatArith) (codec : ReleaseCodec) (blobs : ReleaseBlobs)
    (chunk : StaticChunk) (embedding : List F32) : Checked IndexError ReleaseBlobs := do
  let docHash := stableHashDocId chunk.docId
  let record ← codec.recordBytes arith docHash embedding chunk.docId
  let text := utf8 chunk.text
  let title := utf8 (chunk.title.getD "")
  let entry : MetaRecord := {
    docId := docHash
    textOffset := UInt64.ofNat blobs.text.length
    titleOffset := UInt64.ofNat blobs.title.length
    textLen := UInt32.ofNat text.length
    -- no title is a title of no bytes
    titleLen := UInt32.ofNat title.length
    corpusType := chunk.corpusType.id
    pad := ⟨List.replicate 7 0, rfl⟩ }
  let canonicalMetaJson := utf8 (canonicalMetadataJson chunk.metadata)
  let docid := utf8 chunk.docId
  let extEntry : MetaExtRecord := {
    docidOffset := UInt64.ofNat blobs.docid.length
    metaJsonOffset := UInt64.ofNat blobs.metaJson.length
    docidLen := UInt32.ofNat docid.length
    metaJsonLen := UInt32.ofNat canonicalMetaJson.length }
  return {
    turboStatic := blobs.turboStatic ++ record
    metaRecords := blobs.metaRecords ++ entry.toBytes
    text := blobs.text ++ text
    title := blobs.title ++ title
    metaExt := blobs.metaExt ++ extEntry.toBytes
    docid := blobs.docid ++ docid
    metaJson := blobs.metaJson ++ canonicalMetaJson
    canonicalRows := blobs.canonicalRows ++
      [{ docId := chunk.docId, embedding, text := chunk.text, canonicalMetaJson }] }

/-- The pass over all chunks, from the header on. -/
def ofChunks (arith : FloatArith) (codec : ReleaseCodec) (header : TurboHeader)
    (chunks : List (StaticChunk × List F32)) : Checked IndexError ReleaseBlobs :=
  chunks.foldlM (fun blobs chunk => blobs.append arith codec chunk.1 chunk.2) {
    turboStatic := header.toBytes
    metaRecords := []
    text := []
    title := []
    metaExt := []
    docid := []
    metaJson := []
    canonicalRows := [] }

/-- The record files, in the order they are written. -/
def files (blobs : ReleaseBlobs) : List AssetFile :=
  [("turbo_static.bin", blobs.turboStatic), ("turbo_static_meta.bin", blobs.metaRecords),
    ("turbo_static_text.bin", blobs.text), ("turbo_static_title.bin", blobs.title),
    ("turbo_static_meta_ext.bin", blobs.metaExt), ("turbo_static_docid.bin", blobs.docid),
    ("turbo_static_meta_json.bin", blobs.metaJson)]

end ReleaseBlobs

/-! ## The release -/

/-- `collect_outputs`: the named files of the staged directory, as they are described. -/
def collectOutputs (sha : Sha256) (staged : List AssetFile) (names : List String) :
    Except IndexError (List OutputFile) :=
  names.mapM fun name => do
    let bytes ← okOr (.operation s!"failed to read staged output {name}")
      (staged.lookup name)
    return { name, sha256 := sha256Hex sha bytes, sizeBytes := UInt64.ofNat bytes.length }

/-- What the builder runs on. -/
structure ReleaseEnv where
  sha : Sha256
  arith : FloatArith
  gen : Generators
  json : JsonCodec ReleaseManifest

/-- What `build_release` checks before it generates anything. -/
def checkChunks (format : StaticReleaseFormat) (chunks : List StaticChunk)
    (embeddings : List (List F32)) (profile : EmbeddingProfile) : Except IndexError Unit := do
  rejectIf (chunks.length ≠ embeddings.length) (.operation
    s!"static chunk count {chunks.length} does not match embedding count {embeddings.length}")
  rejectIf (chunks = []) (.operation "static release requires at least one chunk")
  rejectIf (profile.dim ≠ format.codecConfig.dim) (.operation
    s!"static release only supports typed turbo layout for {format.codecConfig.dim}-dim embeddings, profile declares {profile.dim}")
  (chunks.zip embeddings).forM fun (chunk, embedding) => do
    rejectIf (embedding.length ≠ profile.dim.toNat) (.operation
      s!"static chunk {chunk.docId} embedding dimension {embedding.length} does not match profile dim {profile.dim}")
    rejectIf (∃ value ∈ embedding, value.isFinite = false) (.operation
      s!"static chunk {chunk.docId} produced a non-finite embedding")
  detectDuplicateDocIds [] chunks
  detectHashCollisions [] (chunks.map fun chunk => (chunk.docId, stableHashDocId chunk.docId))

/-- The manifest of the staged files. -/
def releaseManifestOf (sha : Sha256) (format : StaticReleaseFormat) (codec : ManifestCodec)
    (docCount : UInt64) (rows : List CanonicalRow) (outputs : List OutputFile) (profile : EmbeddingProfile)
    (source : ReleaseSource) : ReleaseManifest :=
  let digest := contentDigest sha rows
  { manifestSchemaVersion := 1
    turboVersion := format.turboVersion
    releaseId := deriveReleaseId sha format.turboVersion profile codec digest outputs
    source
    embeddingProfile := profile
    inputFingerprint := { docCount, contentDigest := digest }
    codec
    outputs }

/-- `build_release`: the manifest, and the directory it describes. -/
def buildRelease (env : ReleaseEnv) (format : StaticReleaseFormat) (chunks : List StaticChunk)
    (embeddings : List (List F32)) (profile : EmbeddingProfile) (source : ReleaseSource) :
    Checked IndexError (ReleaseManifest × ReleaseDir) := do
  Checked.lifted (checkChunks format chunks embeddings profile)
  let codec ← Checked.lifted (ReleaseCodec.generate env.gen format)
  let header := codec.header env.sha (UInt64.ofNat chunks.length)
  let blobs ← ReleaseBlobs.ofChunks env.arith codec header (chunks.zip embeddings)
  let staged := codec.assetFiles ++ blobs.files
  staged.forM fun file => Checked.assertThat (file.2.length < 2 ^ 63) "capacity overflow"
  let names ← Checked.expect "every release format has a file list"
    (okOr () (releaseOutputFiles format.turboVersion))
  let outputs ← Checked.lifted (collectOutputs env.sha staged names)
  let manifestCodec ← Checked.lifted codec.manifestCodec
  let manifest := releaseManifestOf env.sha format manifestCodec (UInt64.ofNat chunks.length)
    blobs.canonicalRows outputs profile source
  let manifestBytes ← Checked.lifted ((env.json.toVec manifest).mapError fun error =>
    IndexError.operation s!"failed to serialize release manifest: {error}")
  return (manifest, fun name =>
    if name = releaseManifestFile then some manifestBytes else staged.lookup name)

end LTSearch
