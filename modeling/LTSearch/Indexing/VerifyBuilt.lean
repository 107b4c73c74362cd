/-
# LTSearch.Indexing.VerifyBuilt -- the builder and the verifier agree

A built release passes each step of the verification: the manifest describes the files that were
written, the codec section is the one its version writes, and the image loads with as many records as
there were chunks.
-/
import LTSearch.Index.ReadBack
import LTSearch.Indexing.StaticVerify

namespace LTSearch

open LTSearch.Foundation
open StaticVerify

/-! ## The codec section -/

/-- The section of a generated codec: its version and dimension, and the config it is read as, which
is the one the loaded codec has. -/
theorem ReleaseCodec.section_facts {gen : Generators} {format : StaticReleaseFormat}
    {codec : ReleaseCodec} {manifestCodec : ManifestCodec} (h : Generated gen format codec)
    (hsection : codec.manifestCodec = .ok manifestCodec) :
    manifestCodec.turboVersion = format.turboVersion ∧ manifestCodec.dim = 512 ∧
      format.codecConfig.dim = 512 ∧ ∃ v4Config, codecOf manifestCodec = .ok v4Config ∧
        checkCodec v4Config codec.indexCodec = .ok () := by
  cases h with
  | v3 =>
      cases hsection
      exact ⟨rfl, rfl, rfl, none, rfl, rfl⟩
  | @v4 prod _ =>
      simp only [ReleaseCodec.manifestCodec, bind_eq_ok, mapError_eq_ok] at hsection
      obtain ⟨codec, hcodec, hsection⟩ := hsection
      cases hsection
      have hread := TurboQuantConfig.fromV4_toV4 hcodec
      simp only [TurboQuantConfig.toV4CodecMetadata, check_bind_eq_ok] at hcodec
      obtain ⟨-, -, hcodec⟩ := hcodec
      cases hcodec
      refine ⟨rfl, prod.dim_eq, prod.dim_eq, some prod.config, ?_, if_pos rfl⟩
      simp only [codecOf, bind_eq_ok, mapError_eq_ok]
      exact ⟨_, hread, rfl⟩

/-! ## The files -/

namespace Built

variable {env : ReleaseEnv} {format : StaticReleaseFormat} {chunks : List StaticChunk}
  {embeddings : List (List F32)} {profile : EmbeddingProfile} {source : ReleaseSource}
  {manifest : ReleaseManifest} {dir : ReleaseDir} {codec : ReleaseCodec} {blobs : ReleaseBlobs}

/-- The outputs of the manifest are the files of the format, each described as it lies on disk. -/
theorem outputs_facts
    (built : Built env format chunks embeddings profile source manifest dir codec blobs) :
    releaseOutputFiles manifest.turboVersion = some (manifest.outputs.map (·.name)) ∧
      ∀ output ∈ manifest.outputs, ∃ bytes, dir output.name = some bytes ∧
        output = .describe env.sha output.name bytes := by
  obtain ⟨names, outputs, manifestCodec, -, hnames, houtputs, -, rfl, -⟩ := built.manifest
  obtain ⟨names', hnames', hstaged⟩ :=
    releaseOutputFiles_staged built.written.generated blobs
  obtain rfl : names = names' := Option.some.inj (hnames.symm.trans hnames')
  have hall := collectOutputs_eq_ok.mp houtputs
  have hmap := names_of_collected hall
  refine ⟨?_, fun output houtput => ?_⟩
  · show releaseOutputFiles format.turboVersion = some (outputs.map (·.name))
    rw [hnames, hmap]
  · obtain ⟨i, hi, rfl⟩ := List.mem_iff_getElem.mp houtput
    have hi' : i < outputs.length := hi
    have hname : i < names.length := by rwa [hall.length_eq]
    obtain ⟨bytes, hlookup, houtput⟩ := hall.get hname hi'
    have hoff := (hstaged _ (List.getElem_mem hname)).1
    have hdir := built.written.files _ hoff
    refine ⟨bytes, ?_, ?_⟩
    · show dir outputs[i].name = _
      rw [show outputs[i].name = names[i] from congrArg OutputFile.name houtput, hdir]
      exact hlookup
    · show outputs[i] = .describe env.sha outputs[i].name bytes
      rw [show outputs[i].name = names[i] from congrArg OutputFile.name houtput]
      exact houtput

end Built

/-- Every text of a written release is UTF-8. -/
theorem Written.checkUtf8 {env : ReleaseEnv} {format : StaticReleaseFormat}
    {chunks : List EmbeddedChunk} {codec : ReleaseCodec} {blobs : ReleaseBlobs} {dir : ReleaseDir}
    (written : Written env format chunks codec blobs dir)
    (hshort : ∀ chunk ∈ chunks, chunk.1.Short) :
    (writtenIndex env.sha (UInt64.ofNat chunks.length) codec blobs).checkUtf8 = .ok () := by
  refine forM_eq_ok.mpr fun i hi => ?_
  have hi : i < chunks.length := by
    rw [← written.recordCount_eq]
    exact List.mem_range.mp hi
  exact bind_eq_ok.mpr ⟨_, written.textAt_eq hshort hi, bind_eq_ok.mpr ⟨_,
    written.titleAt_eq hshort hi, bind_eq_ok.mpr ⟨_, written.originalDocId_eq hshort hi,
      bind_eq_ok.mpr ⟨_, written.metadataJson_eq hshort hi, rfl⟩⟩⟩⟩

/-! ## Verification -/

section Agree

variable {env : ReleaseEnv} {format : StaticReleaseFormat} {chunks : List StaticChunk}
  {embeddings : List (List F32)} {profile : EmbeddingProfile} {source : ReleaseSource}
  {manifest : ReleaseManifest} {dir : ReleaseDir}

/-- A built release is verified with its manifest. -/
theorem verified_of_buildRelease
    (hbuild : buildRelease env format chunks embeddings profile source = .ok (manifest, dir))
    (hshort : ∀ chunk ∈ chunks, chunk.Short) (hjson : env.json.RoundTrips manifest)
    (hmodel : profile.modelId ≠ "") (hkind : source.kind = "lance") (hpath : source.datasetPath ≠ "")
    (htable : source.tableVersion ≠ 0) (hrows : source.tableRowCount.toNat = chunks.length) :
    Verified env.sha env.json dir manifest := by
  obtain ⟨codec, blobs, built⟩ := built_of_buildRelease hbuild
  have written := built.written
  have hcount := length_zip_of_checked built.checked
  have hembedded : ∀ chunk ∈ chunks.zip embeddings, chunk.1.Short :=
    fun chunk h => hshort _ (List.of_mem_zip h).1
  obtain ⟨hnames, houtputs⟩ := built.outputs_facts
  obtain ⟨names, outputs, manifestCodec, bytes, -, -, hcodec, hmanifest, hbytes, hfile⟩ :=
    built.manifest
  obtain ⟨hversion, hcodecDim, hdim, v4Config, hsection, hcheck⟩ :=
    ReleaseCodec.section_facts written.generated hcodec
  have hrecords : source.tableRowCount = UInt64.ofNat chunks.length := by
    rw [← hrows, UInt64.ofNat_toNat]
  have hloaded := ReleaseCodec.config_of_generate env.sha
    (UInt64.ofNat (chunks.zip embeddings).length) built.generate
  have hheader := ReleaseCodec.header_facts env.sha
    (UInt64.ofNat (chunks.zip embeddings).length) written.generated
  subst hmanifest
  refine ⟨⟨bytes, hfile, hjson bytes hbytes⟩, rfl, hnames, hversion, houtputs, rfl, hkind, hpath,
    htable, hrecords, (checkChunks_eq_ok built.checked).2.2.trans hdim, hcodecDim, hmodel, v4Config,
    _, hsection, written.load_eq hembedded, hloaded.1, hcheck, ?_, written.checkUtf8 hembedded⟩
  show (codec.header env.sha _).recordCount = source.tableRowCount
  rw [hheader.2.1, hcount, hrecords]

end Agree

/-- The builder and the verifier agree: a release that was built with a model id and coherent lance
provenance verifies, and the manifest that verification returns is the one that was written. -/
theorem verifyReleaseDir_buildRelease {env : ReleaseEnv} {format : StaticReleaseFormat}
    {chunks : List StaticChunk} {embeddings : List (List F32)} {profile : EmbeddingProfile}
    {source : ReleaseSource} {manifest : ReleaseManifest} {dir : ReleaseDir}
    (hbuild : buildRelease env format chunks embeddings profile source = .ok (manifest, dir))
    (hshort : ∀ chunk ∈ chunks, chunk.Short) (hjson : env.json.RoundTrips manifest)
    (hmodel : profile.modelId ≠ "") (hkind : source.kind = "lance") (hpath : source.datasetPath ≠ "")
    (htable : source.tableVersion ≠ 0) (hrows : source.tableRowCount.toNat = chunks.length)
    (path : String) :
    verifyReleaseDir env.sha env.json path dir none none = .ok manifest :=
  verifyReleaseDir_eq_ok.mpr ⟨verified_of_buildRelease hbuild hshort hjson hmodel hkind hpath htable
    hrows, nofun, nofun⟩

open SampleRelease in
/-- A release of two titled chunks verifies. -/
theorem verifyReleaseDir_twoChunks : ∃ (env : ReleaseEnv) (manifest : ReleaseManifest)
    (dir : ReleaseDir), buildRelease env .v3 [first, second] [unitVector 0, unitVector 1] profile
      (source "data.lance" 2) = .ok (manifest, dir) ∧
    manifest.inputFingerprint.docCount = 2 ∧
    verifyReleaseDir env.sha env.json "release" dir none none = .ok manifest := by
  obtain ⟨manifest, dir, hbuild⟩ :=
    parses (source "data.lance" 2) twoChunks_checked (by decide) twoChunks_short
  obtain ⟨_, _, built⟩ := built_of_buildRelease hbuild
  obtain ⟨_, _, _, _, -, -, -, hmanifest, -⟩ := built.manifest
  have hcount : manifest.inputFingerprint.docCount = 2 := by
    rw [hmanifest]
    rfl
  exact ⟨_, manifest, dir, hbuild, hcount, verifyReleaseDir_buildRelease hbuild twoChunks_short
    (roundTrips_parserOf manifest) (by decide) rfl (by decide) (by decide) rfl "release"⟩

end LTSearch
