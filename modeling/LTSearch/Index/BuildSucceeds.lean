/-
# LTSearch.Index.BuildSucceeds -- when the builder returns a release

Past the checks of its input, a build can stop in four places: the codec, a record that does not
encode, a file that no `Vec` can hold, and the printing of the manifest.  Everything else succeeds:
every output file of the format is one that was staged, and a generated codec has its manifest section.
-/
import LTSearch.Foundation.Sha256
import LTSearch.Index.RoundTrip

namespace LTSearch

open LTSearch.Foundation
open EmbeddedChunk
open TurboQuantConfig (AssetFile okOr)

/-! ## Checked input -/

section Checked

variable {format : StaticReleaseFormat} {chunks : List StaticChunk} {embeddings : List (List F32)}
  {profile : EmbeddingProfile} (h : checkChunks format chunks embeddings profile = .ok ())

include h

theorem checkChunks_eq_ok :
    chunks.length = embeddings.length ∧ chunks ≠ [] ∧ profile.dim = format.codecConfig.dim := by
  simp only [checkChunks, check_bind_eq_ok, rejectIf_eq_ok, not_not] at h
  exact ⟨h.1, h.2.1, h.2.2.1⟩

theorem length_zip_of_checked : (chunks.zip embeddings).length = chunks.length := by
  rw [List.length_zip, ← (checkChunks_eq_ok h).1, Nat.min_self]

/-- A vector of a checked chunk has the dimension of the format. -/
theorem length_of_checked {chunk : StaticChunk × List F32} (hchunk : chunk ∈ chunks.zip embeddings) :
    chunk.2.length = format.codecConfig.dim.toNat := by
  have hdim := (checkChunks_eq_ok h).2.2
  simp only [checkChunks, check_bind_eq_ok, rejectIf_eq_ok, not_not, forM_eq_ok] at h
  rw [(h.2.2.2.1 chunk hchunk).1, hdim]

end Checked

/-! ## Records -/

/-- Every vector of the legacy codec's dimension becomes a record. -/
theorem ReleaseCodec.recordBytes_v3_isOk {gen : Generators} (arith : FloatArith) (hash : UInt64)
    {embedding : List F32} (label : String) (h : embedding.length = 512) :
    ∃ bytes, recordBytes arith hash embedding label (.v3 .legacyV1
      (legacyCodecAssets gen .legacyV1).1 (legacyCodecAssets gen .legacyV1).2) = .ok bytes := by
  obtain ⟨encoded, hencoded, hidx, hqjl⟩ : ∃ encoded, encodeVector arith embedding
      (legacyCodecAssets gen .legacyV1).1 (legacyCodecAssets gen .legacyV1).2 = .ok encoded ∧
      encoded.idx.length = 128 ∧ encoded.qjl.length = 64 :=
    encodeVector_isOk arith h rfl rfl rfl rfl
  simp only [recordBytes, encodeTurboRecord, bind_eq_ok, mapErr_eq_ok]
  exact ⟨_, _, ⟨encoded, hencoded, by rw [dif_pos hidx, dif_pos hqjl]; rfl⟩, rfl⟩

/-! ## The manifest -/

/-- A generated codec has a section in the manifest of its format. -/
theorem ReleaseCodec.manifestCodec_isOk {gen : Generators} {format : StaticReleaseFormat}
    {codec : ReleaseCodec} (h : Generated gen format codec) :
    ∃ manifestCodec, codec.manifestCodec = .ok manifestCodec := by
  cases h with
  | v3 => exact ⟨_, rfl⟩
  | @v4 prod _ =>
      obtain ⟨hvalid, hcodec, -⟩ := prod.config_facts
      have hsection : ∃ codec, prod.config.toV4CodecMetadata = .ok codec := by
        simp only [TurboQuantConfig.toV4CodecMetadata, check_bind_eq_ok, rejectIf_eq_ok]
        exact ⟨_, hvalid, not_not.mpr hcodec, rfl⟩
      obtain ⟨codec, hcodec⟩ := hsection
      simp only [manifestCodec, bind_eq_ok, mapError_eq_ok]
      exact ⟨_, _, hcodec, rfl⟩

theorem collectOutputs_eq_ok {sha : Sha256} {staged : List AssetFile} {names : List String}
    {outputs : List OutputFile} : collectOutputs sha staged names = .ok outputs ↔
      List.Forall₂ (fun name output => ∃ bytes, staged.lookup name = some bytes ∧
        output = .describe sha name bytes) names outputs := by
  rw [collectOutputs, mapM_eq_ok_iff]
  refine Iff.of_eq (congrArg (fun R => List.Forall₂ R names outputs) ?_)
  funext name output
  simp only [bind_eq_ok, TurboQuantConfig.okOr_eq_ok, OutputFile.describe]
  exact propext (exists_congr fun bytes => and_congr_right' ⟨fun h => (Except.ok.inj h).symm,
    fun h => congrArg Except.ok h.symm⟩)

/-- The descriptions have the names that were asked for, in their order. -/
theorem names_of_collected {sha : Sha256} {staged : List AssetFile} {names : List String}
    {outputs : List OutputFile}
    (h : List.Forall₂ (fun name output => ∃ bytes, staged.lookup name = some bytes ∧
      output = .describe sha name bytes) names outputs) : outputs.map (·.name) = names := by
  induction h with
  | nil => rfl
  | cons hab _ ih =>
      obtain ⟨bytes, -, rfl⟩ := hab
      rw [List.map_cons, ih]
      rfl

/-- The output files of a format, each of which the builder stages. -/
theorem releaseOutputFiles_staged {gen : Generators} {format : StaticReleaseFormat}
    {codec : ReleaseCodec} (h : codec.Generated gen format) (blobs : ReleaseBlobs) :
    ∃ names, releaseOutputFiles format.turboVersion = some names ∧
      (∀ name ∈ names, name ≠ releaseManifestFile ∧
        ∃ bytes, (name, bytes) ∈ codec.assetFiles ++ blobs.files ∧
          (codec.assetFiles ++ blobs.files).lookup name = some bytes) := by
  cases h with
  | v3 =>
      refine ⟨v3ReleaseOutputFiles, rfl, ?_⟩
      simp only [v3ReleaseOutputFiles, List.forall_mem_cons, List.not_mem_nil, IsEmpty.forall_iff,
        implies_true, and_true]
      refine ⟨?_, ?_, ?_, ?_, ?_, ?_, ?_, ?_, ?_⟩ <;>
        exact ⟨by decide, _, by simp [ReleaseCodec.assetFiles, ReleaseBlobs.files], rfl⟩
  | v4 _ =>
      refine ⟨v4ReleaseOutputFiles, rfl, ?_⟩
      simp only [v4ReleaseOutputFiles, List.forall_mem_cons, List.not_mem_nil, IsEmpty.forall_iff,
        implies_true, and_true]
      refine ⟨?_, ?_, ?_, ?_, ?_, ?_, ?_, ?_, ?_, ?_⟩ <;>
        exact ⟨by decide, _, by simp [ReleaseCodec.assetFiles, ReleaseBlobs.files], rfl⟩

/-! ## The build -/

section Build

variable {env : ReleaseEnv} {format : StaticReleaseFormat} {chunks : List StaticChunk}
  {embeddings : List (List F32)} {profile : EmbeddingProfile} {codec : ReleaseCodec}

theorem ReleaseBlobs.ofChunks_isOk {header : TurboHeader} {chunks : List EmbeddedChunk}
    (h : ∀ chunk ∈ chunks, ∃ bytes, codec.recordBytes env.arith chunk.docHash chunk.2 chunk.1.docId =
      .ok bytes) : ∃ blobs, ofChunks env.arith codec header chunks = .ok blobs := by
  refine foldlM_isOk (fun chunk hchunk blobs => ?_) _
  obtain ⟨bytes, hbytes⟩ := h chunk hchunk
  exact ⟨_, bind_eq_ok.mpr ⟨bytes, hbytes, rfl⟩⟩

/-- Input that passes the checks is built, when its records encode, its files fit in memory and its
manifest prints. -/
theorem buildRelease_isOk (source : ReleaseSource)
    (hchecked : checkChunks format chunks embeddings profile = .ok ())
    (hgenerate : ReleaseCodec.generate env.gen format = .ok codec)
    (hrecords : ∀ chunk ∈ chunks.zip embeddings, ∃ bytes,
      codec.recordBytes env.arith (docHash chunk) chunk.2 chunk.1.docId = .ok bytes)
    (hsmall : ∀ blobs, ReleaseBlobs.ofChunks env.arith codec
        (codec.header env.sha (UInt64.ofNat chunks.length)) (chunks.zip embeddings) = .ok blobs →
      ∀ file ∈ codec.assetFiles ++ blobs.files, file.2.length < 2 ^ 63)
    (hjson : ∀ manifest, ∃ bytes, env.json.toVec manifest = .ok bytes) :
    ∃ manifest dir, buildRelease env format chunks embeddings profile source =
      .ok (manifest, dir) := by
  obtain ⟨blobs, hblobs⟩ : ∃ blobs, ReleaseBlobs.ofChunks env.arith codec
      (codec.header env.sha (UInt64.ofNat chunks.length)) (chunks.zip embeddings) = .ok blobs :=
    ReleaseBlobs.ofChunks_isOk hrecords
  have hgenerated := ReleaseCodec.generated hgenerate
  obtain ⟨names, hnames, hstaged⟩ := releaseOutputFiles_staged hgenerated blobs
  obtain ⟨manifestCodec, hcodec⟩ := ReleaseCodec.manifestCodec_isOk hgenerated
  have houtputs : ∃ outputs,
      collectOutputs env.sha (codec.assetFiles ++ blobs.files) names = .ok outputs := by
    refine mapM_isOk fun name hname => ?_
    obtain ⟨-, bytes, -, hlookup⟩ := hstaged name hname
    exact ⟨_, bind_eq_ok.mpr ⟨bytes, TurboQuantConfig.okOr_eq_ok.mpr hlookup, rfl⟩⟩
  obtain ⟨outputs, houtputs⟩ := houtputs
  obtain ⟨bytes, hbytes⟩ := hjson (releaseManifestOf env.sha format manifestCodec
    (UInt64.ofNat chunks.length) blobs.canonicalRows outputs profile source)
  have hfits : ((codec.assetFiles ++ blobs.files).forM fun file =>
      Checked.assertThat (ε := IndexError) (file.2.length < 2 ^ 63) "capacity overflow") = .ok () :=
    forM_eq_ok.mpr fun file hfile => assertThat_eq_ok.mpr (hsmall blobs hblobs file hfile)
  simp only [buildRelease, bind_eq_ok, lifted_eq_ok, expect_eq_ok, TurboQuantConfig.okOr_eq_ok,
    mapError_eq_ok]
  exact ⟨_, _, (), hchecked, codec, hgenerate, blobs, hblobs, (), hfits, names, hnames, outputs,
    houtputs, manifestCodec, hcodec, bytes, hbytes, rfl⟩

end Build

/-! ## Few short chunks -/

/-- The pieces of few short texts fit in memory. -/
theorem length_flatMap_lt {α : Type} (f : α → Bytes) {xs : List α} (hfew : xs.length < 2 ^ 30)
    (hshort : ∀ x ∈ xs, (f x).length < 2 ^ 32) : (xs.flatMap f).length < 2 ^ 63 := by
  have hsum : (xs.map fun x => (f x).length).sum ≤ xs.length * 2 ^ 32 := by
    have hle := List.sum_le_card_nsmul (xs.map fun x => (f x).length) (2 ^ 32) (by
      intro n hn
      obtain ⟨x, hx, rfl⟩ := List.mem_map.mp hn
      exact (hshort x hx).le)
    simpa using hle
  rw [List.length_flatMap]
  omega

/-- So do the seven blobs of few short chunks. -/
theorem ReleaseBlobs.Holds.small {arith : FloatArith} {codec : ReleaseCodec} {header : TurboHeader}
    {chunks : List EmbeddedChunk} {blobs : ReleaseBlobs}
    (holds : blobs.Holds arith codec header chunks chunks) (hfew : chunks.length < 2 ^ 30)
    (hshort : ∀ chunk ∈ chunks, chunk.1.Short) : ∀ file ∈ blobs.files, file.2.length < 2 ^ 63 := by
  obtain ⟨entries, hmeta, hmetaCount, -⟩ := holds.metaRecords
  obtain ⟨extEntries, hext, hextCount, -⟩ := holds.metaExt
  simp only [ReleaseBlobs.files, List.forall_mem_cons, List.not_mem_nil, IsEmpty.forall_iff,
    implies_true, and_true, holds.length_turboStatic, hmeta, hext, holds.text, holds.title,
    holds.docid, holds.metaJson, FixedLayout.length_encodeAll, hmetaCount, hextCount]
  refine ⟨by omega, by omega, ?_, ?_, by omega, ?_, ?_⟩
  · exact length_flatMap_lt textBytes hfew fun chunk h => (hshort chunk h).text
  · exact length_flatMap_lt titleBytes hfew fun chunk h => (hshort chunk h).title
  · exact length_flatMap_lt docidBytes hfew fun chunk h => (hshort chunk h).docid
  · exact length_flatMap_lt metaJsonBytes hfew fun chunk h => (hshort chunk h).metaJson

/-- The legacy assets are some two megabytes, whatever was drawn. -/
theorem ReleaseCodec.legacyAssets_small (gen : Generators) :
    ∀ file ∈ (ReleaseCodec.v3 .legacyV1 (legacyCodecAssets gen .legacyV1).1
      (legacyCodecAssets gen .legacyV1).2).assetFiles, file.2.length < 2 ^ 63 := by
  simp only [ReleaseCodec.assetFiles, List.forall_mem_cons, List.not_mem_nil, IsEmpty.forall_iff,
    implies_true, and_true, CentroidTable.length_toBytes, ProjectionMatrix.length_toBytes]
  exact ⟨by show 8 + 4 * (512 * 4) < _; decide, by show 8 + 4 * (512 * 512) < _; decide⟩

/-- In the legacy format few short chunks that pass the checks are built. -/
theorem buildRelease_v3_isOk {env : ReleaseEnv} {chunks : List StaticChunk}
    {embeddings : List (List F32)} {profile : EmbeddingProfile} (source : ReleaseSource)
    (hchecked : checkChunks .v3 chunks embeddings profile = .ok ())
    (hfew : chunks.length < 2 ^ 30) (hshort : ∀ chunk ∈ chunks, chunk.Short)
    (hjson : ∀ manifest, ∃ bytes, env.json.toVec manifest = .ok bytes) :
    ∃ manifest dir, buildRelease env .v3 chunks embeddings profile source =
      .ok (manifest, dir) := by
  have hzip := length_zip_of_checked hchecked
  refine buildRelease_isOk source hchecked rfl ?_ ?_ hjson
  · intro chunk hchunk
    exact ReleaseCodec.recordBytes_v3_isOk _ _ _ (length_of_checked hchecked hchunk)
  · intro blobs hblobs file hfile
    rcases List.mem_append.mp hfile with hfile | hfile
    · exact ReleaseCodec.legacyAssets_small env.gen file hfile
    · exact (ReleaseBlobs.holds_of_ofChunks hblobs).small (hzip ▸ hfew)
        (fun chunk hchunk => hshort _ (List.of_mem_zip hchunk).1) file hfile

/-- A build over the same content from another source: the source is all that changes in the manifest, and
the manifest is the only file that changes. -/
theorem buildRelease_source {env : ReleaseEnv} {format : StaticReleaseFormat}
    {chunks : List StaticChunk} {embeddings : List (List F32)} {profile : EmbeddingProfile}
    {source : ReleaseSource} {manifest : ReleaseManifest} {dir : ReleaseDir}
    (hjson : ∀ manifest, ∃ bytes, env.json.toVec manifest = .ok bytes)
    (hbuild : buildRelease env format chunks embeddings profile source = .ok (manifest, dir))
    (source' : ReleaseSource) :
    ∃ dir', buildRelease env format chunks embeddings profile source' =
      .ok ({ manifest with source := source' }, dir') ∧
        ∀ name, name ≠ releaseManifestFile → dir' name = dir name := by
  simp only [buildRelease, bind_eq_ok] at hbuild ⊢
  obtain ⟨_, hchecked, codec, hcodec, blobs, hblobs, _, hsmall, names, hnames, outputs, houtputs,
    manifestCodec, hmanifestCodec, bytes, hbytes, heq⟩ := hbuild
  cases heq
  obtain ⟨bytes', hbytes'⟩ := hjson (releaseManifestOf env.sha format manifestCodec
    (UInt64.ofNat chunks.length) blobs.canonicalRows outputs profile source')
  refine ⟨_, ⟨_, hchecked, codec, hcodec, blobs, hblobs, _, hsmall, names, hnames, outputs, houtputs,
    manifestCodec, hmanifestCodec, bytes', lifted_eq_ok.mpr (mapError_eq_ok.mpr hbytes'), rfl⟩, ?_⟩
  intro name hname
  exact (if_neg hname).trans (if_neg hname).symm

/-! ## A sample release -/

/-- The manifest as a JSON value. -/
def ReleaseManifest.toJson (manifest : ReleaseManifest) : Json :=
  .obj [("manifest_schema_version", .num (toString manifest.manifestSchemaVersion)),
    ("turbo_version", .num (toString manifest.turboVersion)),
    ("release_id", .str manifest.releaseId),
    ("source", .obj [("kind", .str manifest.source.kind),
      ("dataset_path", .str manifest.source.datasetPath),
      ("table_version", .num (toString manifest.source.tableVersion)),
      ("table_row_count", .num (toString manifest.source.tableRowCount)),
      ("corpus_type", match manifest.source.corpusType with
        | .legal => .str "legal"
        | .contract => .str "contract"
        | .rfc => .str "rfc"
        | .other id => .obj [("other", .num (toString id))])]),
    ("embedding_profile", .obj [("model_id", .str manifest.embeddingProfile.modelId),
      ("dim", .num (toString manifest.embeddingProfile.dim))]),
    ("input_fingerprint", .obj [("doc_count", .num (toString manifest.inputFingerprint.docCount)),
      ("content_digest", .str manifest.inputFingerprint.contentDigest)]),
    ("codec", match manifest.codec with
      | .v3 codec => .obj [("dim", .num (toString codec.dim)),
          ("centroids_per_dim", .num (toString codec.centroidsPerDim)),
          ("centroids_seed", .num (toString codec.centroidsSeed)),
          ("projection_seed", .num (toString codec.projectionSeed))]
      | .v4 codec => .obj [("codec_id", .str codec.codecId), ("dim", .num (toString codec.dim)),
          ("mse_bits", .num (toString codec.mseBits)), ("qjl_dim", .num (toString codec.qjlDim)),
          ("rotation_seed", .num (toString codec.rotationSeed)),
          ("qjl_seed", .num (toString codec.qjlSeed)),
          ("generator_version", .num (toString codec.generatorVersion)),
          ("norm_policy", .str codec.normPolicy)]),
    ("outputs", .arr (manifest.outputs.map fun output => .obj [("name", .str output.name),
      ("sha256", .str output.sha256), ("size_bytes", .num (toString output.sizeBytes))]))]

/-- What every operation gives on zeros. -/
def zeroArith : FloatArith where
  add _ _ := .zero
  sub _ _ := .zero
  mul _ _ := .zero
  sqrt _ := .zero
  sum _ := .zero
  nextUp _ := ⟨0x00000001#32⟩
  F64 := Unit
  ofF32 _ := ()
  toF32 _ := .zero
  add64 _ _ := ()
  mul64 _ _ := ()
  div64 _ _ := ()
  sqrt64 _ := ()
  sum64 _ := ()
  eq64 _ _ := true
  lt64 _ _ := false
  qjlScale _ := .zero

/-- What the operations give on zeros and ones, and on sums with one summand that is not zero: all
that the encoding of a unit vector along an axis asks for when the assets are zero. -/
def unitArith : FloatArith where
  add x y := if x = .zero then y else x
  sub x y := if y = .zero then x else if x = y then .zero else y.neg
  mul x y := if x = .one then y else if y = .one then x else .zero
  sqrt x := x
  sum values := values.foldl (fun x y => if x = .zero then y else x) .zero
  nextUp x := ⟨x.bits + 1⟩
  F64 := F32
  ofF32 x := x
  toF32 x := x
  add64 x y := if x = .zero then y else x
  mul64 x y := if x = .one then y else if y = .one then x else .zero
  div64 x _ := x
  sqrt64 x := x
  sum64 values := values.foldl (fun x y => if x = .zero then y else x) .zero
  eq64 x y := x = y
  lt64 x y := x.lt y
  qjlScale _ := .zero

def zeroGenerators : Generators where
  centroids _ _ _ := ⟨List.replicate _ .zero, List.length_replicate⟩
  projection _ _ _ := ⟨List.replicate _ .zero, List.length_replicate⟩
  rotation _ _ := ⟨List.replicate _ .zero, List.length_replicate⟩
  qjl _ _ _ := ⟨List.replicate _ .zero, List.length_replicate⟩

namespace SampleRelease

/-- The environment of the samples, up to its parser of manifests. -/
def env (fromSlice : Bytes → Except String ReleaseManifest) : ReleaseEnv where
  sha := { digest := Fips180.sha256, length_digest := Fips180.length_sha256 }
  arith := unitArith
  gen := zeroGenerators
  json := { toVec := fun manifest => .ok (utf8 manifest.toJson.render), fromSlice }

def profile : EmbeddingProfile where
  modelId := "model"
  dim := 512

def source (datasetPath : String) (tableRowCount : UInt64) : ReleaseSource where
  kind := "lance"
  datasetPath
  tableVersion := 1
  tableRowCount
  corpusType := .legal

/-- The unit vector along one axis. -/
def unitVector (axis : Nat) : List F32 := (List.replicate 512 F32.zero).set axis .one

def first : StaticChunk where
  docId := "doc-1"
  text := "the first text"
  metadata := [("lang", .str "en"), ("title", .str "First")]
  corpusType := .legal

def second : StaticChunk where
  docId := "doc-2"
  text := "another text"
  metadata := [("pages", .num "12"), ("title", .str "Second")]
  corpusType := .rfc

theorem length_unitVector (axis : Nat) : (unitVector axis).length = 512 := by
  rw [unitVector, List.length_set, List.length_replicate]

theorem isFinite_unitVector (axis : Nat) : ¬∃ value ∈ unitVector axis, value.isFinite = false := by
  rintro ⟨value, hvalue, h⟩
  rcases List.mem_or_eq_of_mem_set hvalue with hzero | rfl
  · rw [List.eq_of_mem_replicate hzero] at h
    cases h
  · cases h

/-- Two chunks of these ids pass the checks, whatever they hold. -/
theorem checked_of_docIds {a b : StaticChunk} (ha : a.docId = "doc-1") (hb : b.docId = "doc-2") :
    checkChunks .v3 [a, b] [unitVector 0, unitVector 1] profile = .ok () := by
  cases a
  cases b
  subst ha hb
  simp only [checkChunks, check_bind_eq_ok, rejectIf_eq_ok, not_not, List.zip_cons_cons,
    List.zip_nil_left, forM_eq_ok, List.forall_mem_cons, List.not_mem_nil, IsEmpty.forall_iff,
    implies_true, and_true]
  exact ⟨rfl, List.cons_ne_nil _ _, rfl, ⟨⟨length_unitVector 0, isFinite_unitVector 0⟩,
    length_unitVector 1, isFinite_unitVector 1⟩, rfl, rfl⟩

theorem twoChunks_checked :
    checkChunks .v3 [first, second] [unitVector 0, unitVector 1] profile = .ok () :=
  checked_of_docIds rfl rfl

theorem twoChunks_short : ∀ chunk ∈ [first, second], chunk.Short := by
  refine List.forall_mem_cons.mpr ⟨?_, List.forall_mem_singleton.mpr ?_⟩
  · exact ⟨by decide +kernel, by decide +kernel, by decide +kernel, by decide +kernel⟩
  · exact ⟨by decide +kernel, by decide +kernel, by decide +kernel, by decide +kernel⟩

/-- A parser that reads back the text of one manifest. -/
def parserOf (manifest : ReleaseManifest) (bytes : Bytes) : Except String ReleaseManifest :=
  if bytes = utf8 manifest.toJson.render then .ok manifest
  else .error "invalid type: expected struct ReleaseManifest"

theorem roundTrips_parserOf (manifest : ReleaseManifest) :
    (env (parserOf manifest)).json.RoundTrips manifest := by
  intro bytes hbytes
  cases hbytes
  exact if_pos rfl

/-- A build does not parse, so its manifest can be given a parser afterwards. -/
theorem build_fromSlice (fromSlice fromSlice' : Bytes → Except String ReleaseManifest)
    (chunks : List StaticChunk) (embeddings : List (List F32)) (source : ReleaseSource) :
    buildRelease (env fromSlice) .v3 chunks embeddings profile source =
      buildRelease (env fromSlice') .v3 chunks embeddings profile source := by
  have hindependent : ∀ (sha : Sha256) (arith : FloatArith) (gen : Generators)
      (toVec : ReleaseManifest → Except String Bytes),
      buildRelease ⟨sha, arith, gen, ⟨toVec, fromSlice⟩⟩ .v3 chunks embeddings profile source =
        buildRelease ⟨sha, arith, gen, ⟨toVec, fromSlice'⟩⟩ .v3 chunks embeddings profile
          source := fun _ _ _ _ => rfl
  exact hindependent _ _ _ _

/-- Few short chunks, built where their manifest parses. -/
theorem parses {chunks : List StaticChunk} {embeddings : List (List F32)} (source : ReleaseSource)
    (hchecked : checkChunks .v3 chunks embeddings profile = .ok ()) (hfew : chunks.length < 2 ^ 30)
    (hshort : ∀ chunk ∈ chunks, chunk.Short) : ∃ manifest dir,
    buildRelease (env (parserOf manifest)) .v3 chunks embeddings profile source =
      .ok (manifest, dir) := by
  obtain ⟨manifest, dir, hbuild⟩ : ∃ manifest dir, buildRelease (env fun _ => .error "") .v3 chunks
      embeddings profile source = .ok (manifest, dir) :=
    buildRelease_v3_isOk source hchecked hfew hshort fun _ => ⟨_, rfl⟩
  exact ⟨manifest, dir, (build_fromSlice _ _ _ _ _).trans hbuild⟩

end SampleRelease

end LTSearch
