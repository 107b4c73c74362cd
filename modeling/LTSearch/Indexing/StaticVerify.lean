/-
# LTSearch.Indexing.StaticVerify -- the checks before a static release is activated

`verify_release_dir` in its eight steps, each under its number, and what a release that passes them is:
`Verified` names every fact the steps establish, and holds exactly when verification returns.
-/
import LTSearch.Index.Loaded
import LTSearch.Index.ReleaseManifest

namespace LTSearch

open LTSearch.Foundation
open TurboQuantConfig (okOr)

/-- `StaticActivateError`. -/
inductive StaticActivateError where
  | verify (message : String)
  | lostCas (releaseId : String)
  | storage (source : PublishError)
  | io (message : String)
  deriving DecidableEq

def StaticActivateError.display : StaticActivateError → String
  | verify message => s!"release verification failed: {message}"
  | lostCas releaseId =>
      s!"static pointer CAS lost for release {releaseId} (concurrent writer won)"
  | storage source => s!"publish storage error: {source.display}"
  | io message => s!"install failed: {message}"

/-! ## `{:?}` -/

/-- `{:?}` of a list of names. -/
def debugNames (names : List String) : String :=
  "[" ++ ", ".intercalate (names.map debugText) ++ "]"

/-- `{:?}` of a v3 section. -/
def CodecMetadata.debug (codec : CodecMetadata) : String :=
  s!"CodecMetadata \x7b dim: {codec.dim}, centroids_per_dim: {codec.centroidsPerDim}, centroids_seed: {codec.centroidsSeed}, projection_seed: {codec.projectionSeed} \x7d"

/-- `{:?}` of a codec id. -/
def TurboCodecId.debug : TurboCodecId → String
  | legacy3BitV1 => "Legacy3BitV1"
  | turboQuantProdV1 => "TurboQuantProdV1"

/-- `{:?}` of a codec config. -/
def TurboQuantConfig.debug (config : TurboQuantConfig) : String :=
  s!"TurboQuantConfig \x7b codec_id: {config.codecId.debug}, dim: {config.dim}, mse_bits: {config.mseBits}, qjl_dim: {config.qjlDim}, mse_seed: {config.mseSeed}, qjl_seed: {config.qjlSeed}, generator_version: {config.generatorVersion}, norm_policy: {config.normPolicy.debug} \x7d"

/-! ## The steps -/

namespace StaticVerify

/-- `verify_err`, when `p` holds. -/
def refuse (p : Prop) [Decidable p] (message : String) : Except StaticActivateError Unit :=
  rejectIf p (.verify message)

/-- `fs::read`, for a file of the directory at `path`; the operating system's own text is left out. -/
def readFile (what path : String) (dir : ReleaseDir) (name : String) :
    Except StaticActivateError Bytes :=
  okOr (.verify s!"failed to read {what} {path}/{name}") (dir name)

/-- Step 1. -/
def parseManifest (json : JsonCodec ReleaseManifest) (path : String) (dir : ReleaseDir) :
    Except StaticActivateError ReleaseManifest := do
  let bytes ← readFile "release manifest" path dir releaseManifestFile
  (json.fromSlice bytes).mapError fun error =>
    .verify s!"failed to parse release manifest {path}/{releaseManifestFile}: {error}"

/-- The config that a codec section records, which a v3 section has none of to choose. -/
def codecOf : ManifestCodec → Except StaticActivateError (Option TurboQuantConfig)
  | .v3 codec => do
      let legacy ← TurboQuantConfig.legacyV1.toV3CodecMetadata.mapError fun error =>
        StaticActivateError.verify s!"invalid legacy codec config: {error.display}"
      refuse (codec ≠ legacy)
        s!"v3 codec section {codec.debug} is not the legacy codec {legacy.debug}"
      return none
  | .v4 codec => do
      let config ← (TurboQuantConfig.fromV4CodecMetadata codec).mapError fun error =>
        StaticActivateError.verify s!"invalid codec section: {error.display}"
      return some config

/-- Step 2: the output files of the version, and the v4 config. -/
def checkVersion (manifest : ReleaseManifest) :
    Except StaticActivateError (List String × Option TurboQuantConfig) := do
  refuse (manifest.manifestSchemaVersion ≠ 1)
    s!"manifest_schema_version {manifest.manifestSchemaVersion} != 1"
  let expectedFiles ← okOr (.verify
    s!"turbo_version {manifest.turboVersion} is not a static release version this build verifies (3 or 4)")
    (releaseOutputFiles manifest.turboVersion)
  refuse (manifest.codec.turboVersion ≠ manifest.turboVersion)
    s!"turbo_version {manifest.turboVersion} has a v{manifest.codec.turboVersion} codec section"
  let v4Config ← codecOf manifest.codec
  return (expectedFiles, v4Config)

/-- Step 3a: the outputs are the version's files, in name order. -/
def checkOutputNames (manifest : ReleaseManifest) (expectedFiles : List String) :
    Except StaticActivateError Unit :=
  let actualNames := manifest.outputs.map (·.name)
  if actualNames = expectedFiles then .ok ()
  else if actualNames.insertionSort (· ≤ ·) = expectedFiles then
    .error (.verify
      s!"outputs not name-ascending: expected {debugNames expectedFiles}, got {debugNames actualNames}")
  else
    let missing := expectedFiles.filter fun expected => expected ∉ actualNames
    let unexpected := actualNames.filter fun name => name ∉ expectedFiles
    .error (.verify
      s!"outputs must list exactly the {expectedFiles.length} v{manifest.turboVersion} artifact files; missing {debugNames missing}, unexpected {debugNames unexpected}")

/-- Step 3b, for one output. -/
def checkOutput (sha : Sha256) (path : String) (dir : ReleaseDir) (output : OutputFile) :
    Except StaticActivateError Unit := do
  let bytes ← readFile "output" path dir output.name
  refuse (UInt64.ofNat bytes.length ≠ output.sizeBytes)
    s!"output {output.name} size mismatch: manifest {output.sizeBytes}, disk {bytes.length}"
  refuse (sha256Hex sha bytes ≠ output.sha256)
    s!"output {output.name} sha256 mismatch: manifest {output.sha256}, disk {sha256Hex sha bytes}"

/-- The release id of the manifest's content. -/
def recomputedReleaseId (sha : Sha256) (manifest : ReleaseManifest) : String :=
  deriveReleaseId sha manifest.turboVersion manifest.embeddingProfile manifest.codec
    manifest.inputFingerprint.contentDigest manifest.outputs

/-- Step 4. -/
def checkReleaseId (sha : Sha256) (manifest : ReleaseManifest) : Except StaticActivateError Unit :=
  refuse (recomputedReleaseId sha manifest ≠ manifest.releaseId)
    s!"release_id mismatch: manifest {manifest.releaseId}, recomputed {recomputedReleaseId sha manifest}"

/-- Step 5. -/
def checkProvenance (source : ReleaseSource) (docCount : UInt64) :
    Except StaticActivateError Unit := do
  refuse (source.kind ≠ "lance") s!"source.kind {source.kind} != \"lance\""
  refuse (source.datasetPath = "") "source.dataset_path is empty"
  refuse (source.tableVersion = 0) "source.table_version must be > 0"
  refuse (source.tableRowCount ≠ docCount)
    s!"source.table_row_count {source.tableRowCount} != input_fingerprint.doc_count {docCount}"

/-- Step 6. -/
def checkProfile (profile : EmbeddingProfile) (codec : ManifestCodec) (expectModelId : Option String)
    (expectDim : Option UInt32) : Except StaticActivateError Unit := do
  refuse (profile.dim ≠ 512) s!"embedding_profile.dim {profile.dim} != 512"
  refuse (codec.dim ≠ 512) s!"codec.dim {codec.dim} != 512"
  refuse (profile.modelId = "") "embedding_profile.model_id is empty"
  expectModelId.toList.forM fun expected => refuse (profile.modelId ≠ expected)
    s!"embedding_profile.model_id {profile.modelId} != expected {expected}"
  expectDim.toList.forM fun expected => refuse (profile.dim ≠ expected)
    s!"embedding_profile.dim {profile.dim} != expected {expected}"

/-- The loaded codec is the one the manifest records. -/
def checkCodec (v4Config : Option TurboQuantConfig) (codec : IndexCodec) :
    Except StaticActivateError Unit :=
  match v4Config, codec with
  | none, _ => .ok ()
  | some expected, .prod codec =>
      if codec.config = expected then .ok ()
      else .error (.verify
        s!"manifest codec {expected.debug} != the loaded assets' codec {codec.config.debug}")
  | some _, .legacy _ _ =>
      .error (.verify "manifest records a v4 codec but the image loaded with the legacy codec")

/-- Step 7. -/
def checkImage (sha : Sha256) (path : String) (dir : ReleaseDir) (manifest : ReleaseManifest)
    (v4Config : Option TurboQuantConfig) : Checked StaticActivateError Unit := do
  let index ← (MmapIndex.load sha dir).mapErr fun error =>
    StaticActivateError.verify s!"MmapIndex::load({path}) failed: {error.display}"
  Checked.lifted (refuse (index.version ≠ manifest.turboVersion)
    s!"loaded image version {index.version} != manifest turbo_version {manifest.turboVersion}")
  Checked.lifted (checkCodec v4Config index.codec)
  Checked.lifted (refuse (index.header.recordCount ≠ manifest.source.tableRowCount)
    s!"loaded record_count {index.header.recordCount} != source.table_row_count {manifest.source.tableRowCount}")
  index.checkUtf8.mapErr fun error =>
    StaticActivateError.verify s!"MmapIndex::check_utf8({path}) failed: {error.display}"

end StaticVerify

open StaticVerify

/-- `verify_release_dir`. -/
def verifyReleaseDir (sha : Sha256) (json : JsonCodec ReleaseManifest) (path : String)
    (dir : ReleaseDir) (expectModelId : Option String) (expectDim : Option UInt32) :
    Checked StaticActivateError ReleaseManifest := do
  let manifest ← Checked.lifted (parseManifest json path dir)
  let (expectedFiles, v4Config) ← Checked.lifted (checkVersion manifest)
  Checked.lifted (checkOutputNames manifest expectedFiles)
  Checked.lifted (manifest.outputs.forM (checkOutput sha path dir))
  Checked.lifted (checkReleaseId sha manifest)
  Checked.lifted (checkProvenance manifest.source manifest.inputFingerprint.docCount)
  Checked.lifted (checkProfile manifest.embeddingProfile manifest.codec expectModelId expectDim)
  checkImage sha path dir manifest v4Config
  return manifest

/-! ## What the steps establish -/

/-- A directory that passed verification with this manifest. -/
structure Verified (sha : Sha256) (json : JsonCodec ReleaseManifest) (dir : ReleaseDir)
    (manifest : ReleaseManifest) : Prop where
  parsed : ∃ bytes, dir releaseManifestFile = some bytes ∧ json.fromSlice bytes = .ok manifest
  schema : manifest.manifestSchemaVersion = 1
  names : releaseOutputFiles manifest.turboVersion = some (manifest.outputs.map (·.name))
  codecVersion : manifest.codec.turboVersion = manifest.turboVersion
  outputs : ∀ output ∈ manifest.outputs, ∃ bytes, dir output.name = some bytes ∧
    output = .describe sha output.name bytes
  releaseId : recomputedReleaseId sha manifest = manifest.releaseId
  kind : manifest.source.kind = "lance"
  datasetPath : manifest.source.datasetPath ≠ ""
  tableVersion : manifest.source.tableVersion ≠ 0
  rowCount : manifest.source.tableRowCount = manifest.inputFingerprint.docCount
  dim : manifest.embeddingProfile.dim = 512
  codecDim : manifest.codec.dim = 512
  modelId : manifest.embeddingProfile.modelId ≠ ""
  image : ∃ v4Config index, codecOf manifest.codec = .ok v4Config ∧
    MmapIndex.load sha dir = .ok index ∧ index.version = manifest.turboVersion ∧
    checkCodec v4Config index.codec = .ok () ∧
    index.header.recordCount = manifest.source.tableRowCount ∧ index.checkUtf8 = .ok ()

/-- The manifest meets the caller's expectations. -/
def MeetsExpectations (expectModelId : Option String) (expectDim : Option UInt32)
    (manifest : ReleaseManifest) : Prop :=
  (∀ expected ∈ expectModelId, manifest.embeddingProfile.modelId = expected) ∧
    ∀ expected ∈ expectDim, manifest.embeddingProfile.dim = expected

section Steps

variable {sha : Sha256} {json : JsonCodec ReleaseManifest} {path : String} {dir : ReleaseDir}
  {manifest : ReleaseManifest} {expectModelId : Option String} {expectDim : Option UInt32} {u : Unit}

@[simp]
theorem refuse_eq_ok {p : Prop} [Decidable p] {message : String} :
    refuse p message = .ok u ↔ ¬p := by
  rw [refuse, rejectIf_eq_ok]

theorem readFile_eq_ok {what name : String} {bytes : Bytes} :
    readFile what path dir name = .ok bytes ↔ dir name = some bytes :=
  TurboQuantConfig.okOr_eq_ok

theorem parseManifest_eq_ok : parseManifest json path dir = .ok manifest ↔
    ∃ bytes, dir releaseManifestFile = some bytes ∧ json.fromSlice bytes = .ok manifest := by
  simp only [parseManifest, bind_eq_ok, readFile_eq_ok, mapError_eq_ok]

theorem checkVersion_eq_ok {files : List String} {v4Config : Option TurboQuantConfig} :
    checkVersion manifest = .ok (files, v4Config) ↔ manifest.manifestSchemaVersion = 1 ∧
      releaseOutputFiles manifest.turboVersion = some files ∧
      manifest.codec.turboVersion = manifest.turboVersion ∧
      codecOf manifest.codec = .ok v4Config := by
  simp only [checkVersion, bind_eq_ok, refuse_eq_ok, not_not,
    TurboQuantConfig.okOr_eq_ok, pure, Except.pure, Except.ok.injEq, Prod.mk.injEq,
    exists_const]
  constructor
  · rintro ⟨hschema, files', hfiles, hversion, config, hcodec, rfl, rfl⟩
    exact ⟨hschema, hfiles, hversion, hcodec⟩
  · rintro ⟨hschema, hfiles, hversion, hcodec⟩
    exact ⟨hschema, files, hfiles, hversion, v4Config, hcodec, rfl, rfl⟩

theorem checkOutputNames_eq_ok {files : List String} :
    checkOutputNames manifest files = .ok u ↔ manifest.outputs.map (·.name) = files := by
  unfold checkOutputNames
  dsimp only
  split
  · rename_i h
    exact iff_of_true rfl h
  · rename_i h
    split <;> exact iff_of_false nofun h

theorem checkOutput_eq_ok {output : OutputFile} : checkOutput sha path dir output = .ok u ↔
    ∃ bytes, dir output.name = some bytes ∧ output = .describe sha output.name bytes := by
  obtain ⟨name, hash, size⟩ := output
  simp only [checkOutput, bind_eq_ok, readFile_eq_ok, refuse_eq_ok, not_not, OutputFile.describe,
    OutputFile.mk.injEq, true_and, exists_const]
  constructor
  · rintro ⟨bytes, hread, rfl, rfl⟩
    exact ⟨bytes, hread, rfl, rfl⟩
  · rintro ⟨bytes, hread, rfl, rfl⟩
    exact ⟨bytes, hread, rfl, rfl⟩

theorem checkReleaseId_eq_ok : checkReleaseId sha manifest = .ok u ↔
    recomputedReleaseId sha manifest = manifest.releaseId := by
  rw [checkReleaseId, refuse_eq_ok, not_not]

theorem checkProvenance_eq_ok {source : ReleaseSource} {docCount : UInt64} :
    checkProvenance source docCount = .ok u ↔ source.kind = "lance" ∧ source.datasetPath ≠ "" ∧
      source.tableVersion ≠ 0 ∧ source.tableRowCount = docCount := by
  simp only [checkProvenance, bind_eq_ok, refuse_eq_ok, not_not, exists_const]

theorem checkProfile_eq_ok {profile : EmbeddingProfile} {codec : ManifestCodec} :
    checkProfile profile codec expectModelId expectDim = .ok u ↔ profile.dim = 512 ∧
      codec.dim = 512 ∧ profile.modelId ≠ "" ∧ (∀ expected ∈ expectModelId, profile.modelId = expected) ∧
      ∀ expected ∈ expectDim, profile.dim = expected := by
  simp only [checkProfile, bind_eq_ok, refuse_eq_ok, not_not, ne_eq, forM_eq_ok, Option.mem_toList,
    Option.mem_def, exists_const]

theorem checkImage_eq_ok {v4Config : Option TurboQuantConfig} :
    checkImage sha path dir manifest v4Config = .ok u ↔ ∃ index, MmapIndex.load sha dir = .ok index ∧
      index.version = manifest.turboVersion ∧ checkCodec v4Config index.codec = .ok () ∧
      index.header.recordCount = manifest.source.tableRowCount ∧ index.checkUtf8 = .ok () := by
  simp only [checkImage, bind_eq_ok, mapErr_eq_ok, lifted_eq_ok, refuse_eq_ok, not_not, exists_const]
  constructor
  · rintro ⟨index, hload, hversion, _, hcodec, hcount, hutf8⟩
    exact ⟨index, hload, hversion, hcodec, hcount, hutf8⟩
  · rintro ⟨index, hload, hversion, hcodec, hcount, hutf8⟩
    exact ⟨index, hload, hversion, (), hcodec, hcount, hutf8⟩

end Steps

/-- Verification returns a manifest exactly when the directory is verified with it and it meets the
caller's expectations. -/
theorem verifyReleaseDir_eq_ok {sha : Sha256} {json : JsonCodec ReleaseManifest} {path : String}
    {dir : ReleaseDir} {expectModelId : Option String} {expectDim : Option UInt32}
    {manifest : ReleaseManifest} :
    verifyReleaseDir sha json path dir expectModelId expectDim = .ok manifest ↔
      Verified sha json dir manifest ∧ MeetsExpectations expectModelId expectDim manifest := by
  simp only [verifyReleaseDir, bind_eq_ok, lifted_eq_ok, parseManifest_eq_ok,
    checkOutputNames_eq_ok, forM_eq_ok, checkOutput_eq_ok, checkReleaseId_eq_ok,
    checkProvenance_eq_ok, checkProfile_eq_ok, checkImage_eq_ok, exists_const]
  constructor
  · rintro ⟨parsed, hparsed, ⟨files, v4Config⟩, hversion, hnames, houtputs, hid,
      ⟨hkind, hpath, htable, hrows⟩, ⟨hdim, hcodecDim, hmodel, hexpect⟩, ⟨index, himage⟩, h⟩
    cases h
    obtain ⟨hschema, hfiles, hcodecVersion, hcodec⟩ := checkVersion_eq_ok.mp hversion
    subst hnames
    exact ⟨⟨hparsed, hschema, hfiles, hcodecVersion, houtputs, hid, hkind, hpath, htable, hrows, hdim,
      hcodecDim, hmodel, v4Config, index, hcodec, himage⟩, hexpect⟩
  · rintro ⟨verified, hexpect⟩
    obtain ⟨v4Config, index, hcodec, himage⟩ := verified.image
    exact ⟨manifest, verified.parsed, (_, v4Config), checkVersion_eq_ok.mpr ⟨verified.schema,
      verified.names, verified.codecVersion, hcodec⟩, rfl, verified.outputs, verified.releaseId,
      ⟨verified.kind, verified.datasetPath, verified.tableVersion, verified.rowCount⟩,
      ⟨verified.dim, verified.codecDim, verified.modelId, hexpect⟩, ⟨index, himage⟩, rfl⟩

end LTSearch
