/-
# LTSearch.Index.ReadBack -- a built release reads back as it was written

What `build_release` returns is a directory whose files are those of the pass over the chunks, so it
loads, and record `i` is read back, field by field, as what was written for chunk `i`.
-/
import LTSearch.Index.BuildSucceeds

namespace LTSearch

open LTSearch.Foundation
open EmbeddedChunk

/-! ## Records -/

/-- What a record reads as: its hash id and its code, with the norm where the layout stores one. -/
structure TurboRecordRef.Reads (record : MmapIndex.TurboRecordRef) (hash : UInt64)
    (idx qjl : Bytes) (gamma : F32) (norm : Option F32) : Prop where
  docId : ∀ {ε : Type}, (record.docId : Checked ε UInt64) = .ok hash
  idx : ∀ {ε : Type}, (record.idx : Checked ε Bytes) = .ok idx
  qjl : ∀ {ε : Type}, (record.qjl : Checked ε Bytes) = .ok qjl
  gamma : ∀ {ε : Type}, (record.gamma : Checked ε F32) = .ok gamma
  norm : ∀ {ε : Type}, (record.norm : Checked ε (Option F32)) = .ok norm

/-- The quantised code of an embedding under a codec: indices, signs, and the stored floats. -/
inductive ReleaseCodec.Encodes (arith : FloatArith) (embedding : List F32) :
    ReleaseCodec → Bytes → Bytes → F32 → Option F32 → Prop where
  | v3 {config : TurboQuantConfig} {centroids : CentroidTable} {projection : ProjectionMatrix}
      {encoded : EncodedTurboVector}
      (h : encodeVector arith embedding centroids projection = .ok encoded) :
      Encodes arith embedding (.v3 config centroids projection) encoded.idx encoded.qjl
        encoded.gamma none
  | v4 {codec : TurboQuantProdV1} {encoded : EncodedTurboProd}
      (h : codec.encode arith embedding = .ok encoded) :
      Encodes arith embedding (.v4 codec) encoded.idx encoded.signs encoded.gamma
        (some encoded.norm)

section Records

variable {ε : Type} {bytes : Bytes} (hlen : bytes.length = 208)

include hlen

theorem slice_field {start stop : Nat} (h : start ≤ stop) (hstop : stop ≤ 208) {field : Bytes}
    (hfield : window start (stop - start) bytes = field) :
    (Checked.slice start stop bytes : Checked ε Bytes) = .ok field :=
  slice_eq_ok.mpr ⟨⟨h, hlen.symm ▸ hstop⟩, hfield⟩

theorem float_field {layout : KnownRecordLayout} {start : Nat} (h : start + 4 ≤ 208) {value : F32}
    (hvalue : readF32 start bytes = value) :
    (MmapIndex.TurboRecordRef.float ⟨bytes, layout⟩ start : Checked ε F32) = .ok value := by
  have hslice : (Checked.slice start (start + 4) bytes : Checked ε Bytes) =
      .ok (window start 4 bytes) :=
    slice_field hlen (Nat.le_add_right _ _) h (by rw [Nat.add_sub_cancel_left])
  exact bind_eq_ok.mpr ⟨_, hslice, congrArg Except.ok hvalue⟩

end Records

/-- A v3 record reads back. -/
theorem reads_v3 (record : TurboRecord512) :
    TurboRecordRef.Reads ⟨record.toBytes, .v3Dim512⟩ record.docId record.idx.val record.qjl.val
      record.gamma none := by
  have hlen : record.toBytes.length = 208 := TurboRecord512.layout.length_encode record
  have hdecode := TurboRecord512.layout.decode_encode record
  simp only [TurboRecord512.layout] at hdecode
  have hdocId : readU64 0 record.toBytes = record.docId := congrArg (·.docId) hdecode
  have hidx : window 8 128 record.toBytes = record.idx.val := congrArg (·.idx.val) hdecode
  have hqjl : window 136 64 record.toBytes = record.qjl.val := congrArg (·.qjl.val) hdecode
  have hgamma : readF32 200 record.toBytes = record.gamma := congrArg (·.gamma) hdecode
  constructor
  case docId => exact u64At_eq_ok.mpr ⟨hlen.symm ▸ (by decide), hdocId⟩
  case idx => exact slice_field hlen (by omega) (by omega) hidx
  case qjl => exact slice_field hlen (by omega) (by omega) hqjl
  case gamma => exact float_field hlen (by omega) hgamma
  case norm =>
    intro ε
    rfl

/-- A v4 record reads back. -/
theorem reads_v4 (record : TurboProdRecord512) :
    TurboRecordRef.Reads ⟨record.toBytes, .v4Dim512⟩ record.docId record.idx.val record.signs.val
      record.gamma (some record.norm) := by
  have hlen : record.toBytes.length = 208 := TurboProdRecord512.layout.length_encode record
  have hdecode := TurboProdRecord512.layout.decode_encode record
  simp only [TurboProdRecord512.layout] at hdecode
  have hdocId : readU64 0 record.toBytes = record.docId := congrArg (·.docId) hdecode
  have hidx : window 8 128 record.toBytes = record.idx.val := congrArg (·.idx.val) hdecode
  have hsigns : window 136 64 record.toBytes = record.signs.val := congrArg (·.signs.val) hdecode
  have hgamma : readF32 200 record.toBytes = record.gamma := congrArg (·.gamma) hdecode
  have hnorm : readF32 204 record.toBytes = record.norm := congrArg (·.norm) hdecode
  constructor
  case docId => exact u64At_eq_ok.mpr ⟨hlen.symm ▸ (by decide), hdocId⟩
  case idx => exact slice_field hlen (by omega) (by omega) hidx
  case qjl => exact slice_field hlen (by omega) (by omega) hsigns
  case gamma => exact float_field hlen (by omega) hgamma
  case norm =>
    intro ε
    have hfloat : (MmapIndex.TurboRecordRef.float ⟨record.toBytes, .v4Dim512⟩ 204 : Checked ε F32) =
        .ok record.norm :=
      float_field hlen (by omega) hnorm
    show some <$> MmapIndex.TurboRecordRef.float ⟨record.toBytes, .v4Dim512⟩ 204 = _
    rw [hfloat]
    rfl

/-- The bytes written for a record read back as its hash id and the code of its embedding. -/
theorem ReleaseCodec.reads_recordBytes {codec : ReleaseCodec} {arith : FloatArith} {hash : UInt64}
    {embedding : List F32} {label : String} {bytes : Bytes}
    (h : codec.recordBytes arith hash embedding label = .ok bytes) :
    ∃ idx qjl gamma norm, codec.Encodes arith embedding idx qjl gamma norm ∧
      TurboRecordRef.Reads ⟨bytes, codec.layout⟩ hash idx qjl gamma norm := by
  cases codec with
  | v3 config centroids projection =>
      obtain ⟨record, hrecord, h⟩ := bind_eq_ok.mp h
      cases h
      obtain ⟨encoded, hencoded, hrecord⟩ := bind_eq_ok.mp hrecord
      split at hrecord
      · split at hrecord
        · cases hrecord
          exact ⟨_, _, _, _, .v3 (mapErr_eq_ok.mp hencoded), reads_v3 _⟩
        · cases hrecord
      · cases hrecord
  | v4 prod =>
      obtain ⟨encoded, hencoded, h⟩ := bind_eq_ok.mp h
      obtain ⟨record, hrecord, h⟩ := bind_eq_ok.mp h
      cases h
      rw [lifted_eq_ok, TurboQuantConfig.okOr_eq_ok, TurboProdRecord512.new] at hrecord
      split at hrecord
      · cases hrecord
        exact ⟨_, _, _, _, .v4 (mapErr_eq_ok.mp hencoded), reads_v4 _⟩
      · cases hrecord

/-! ## Record `i` -/

/-- What the index says of record `i` is what was written for the chunk. -/
structure MmapIndex.ReadsBack (arith : FloatArith) (codec : ReleaseCodec) (index : MmapIndex)
    (i : Nat) (chunk : EmbeddedChunk) : Prop where
  text : index.textAt i = .ok chunk.1.text
  title : index.titleAt i = .ok chunk.1.title
  originalDocId : index.originalDocId i = .ok (some chunk.1.docId)
  metadataJson : index.metadataJson i = .ok (some (canonicalMetadataJson chunk.1.metadata))
  metaEntry : ∃ entry, (∀ {ε : Type}, (index.metaAt i : Checked ε MetaRecord) = .ok entry) ∧
    entry.docId = chunk.docHash
  record : ∃ record idx qjl gamma norm,
    (∀ {ε : Type}, (index.record i : Checked ε MmapIndex.TurboRecordRef) = .ok record) ∧
    codec.Encodes arith chunk.2 idx qjl gamma norm ∧
    TurboRecordRef.Reads record chunk.docHash idx qjl gamma norm

namespace Written

variable {env : ReleaseEnv} {format : StaticReleaseFormat} {chunks : List EmbeddedChunk}
  {codec : ReleaseCodec} {blobs : ReleaseBlobs} {dir : ReleaseDir}
  (written : Written env format chunks codec blobs dir)

include written

/-- Record `i` is the bytes that the codec wrote for chunk `i`. -/
theorem record_eq {i : Nat} (hi : i < chunks.length) : ∃ bytes,
    codec.recordBytes env.arith chunks[i].docHash chunks[i].2 chunks[i].1.docId = .ok bytes ∧
      ∀ {ε : Type}, ((writtenIndex env.sha (UInt64.ofNat chunks.length) codec blobs).record i :
        Checked ε MmapIndex.TurboRecordRef) = .ok ⟨bytes, codec.layout⟩ := by
  obtain ⟨records, hstatic, hcount, hlen, heach⟩ := written.holds.exists_records
  have hi' : i < records.length := hcount ▸ hi
  have hbin := written.holds.length_turboStatic
  have hsmall : blobs.turboStatic.length < 2 ^ 63 :=
    written.blob_small "turbo_static.bin" (by simp [ReleaseBlobs.files])
  have hheader := TurboHeader.length_toBytes
    (codec.header env.sha (UInt64.ofNat chunks.length))
  have hrecords : blobs.turboStatic.drop 32 = records.flatten := by
    rw [hstatic, ← hheader, List.drop_left]
  have hregion : records.flatten.length = chunks.length * 208 := by
    rw [← hrecords, List.length_drop, hbin]
    omega
  have hbound := FixedLayout.record_in_bounds hi hregion.ge
  refine ⟨records[i], heach i hi hi', ?_⟩
  intro ε
  have hrecordData : ((writtenIndex env.sha (UInt64.ofNat chunks.length) codec blobs).recordData :
      Checked ε Bytes) = .ok records.flatten := by
    rw [← hrecords]
    refine slice_eq_ok.mpr ⟨⟨?_, le_rfl⟩, List.take_of_length_le (List.length_drop ..).le⟩
    show 32 ≤ blobs.turboStatic.length
    omega
  have hslice : (Checked.slice (i * 208) (i * 208 + 208) records.flatten : Checked ε Bytes) =
      .ok records[i] := by
    refine slice_eq_ok.mpr ⟨⟨Nat.le_add_right _ _, hbound⟩, ?_⟩
    rw [Nat.add_sub_cancel_left]
    exact window_flatten hi' hlen
  have hword : i * 208 + 208 < Checked.usizeSize := by
    show _ < 2 ^ 64
    omega
  simp only [MmapIndex.record, bind_eq_ok, assertThat_eq_ok, usizeMul_eq_ok, usizeAdd_eq_ok,
    written.recordCount_eq]
  exact ⟨(), hi, _, ⟨lt_of_le_of_lt (Nat.le_add_right _ _) hword, rfl⟩, _, ⟨hword, rfl⟩, _,
    hrecordData, _, hslice, (), (hlen _ (List.getElem_mem hi')).ge, rfl⟩

/-- Every record of a written release reads back. -/
theorem readsBack (hshort : ∀ chunk ∈ chunks, chunk.1.Short) {i : Nat} (hi : i < chunks.length) :
    (writtenIndex env.sha (UInt64.ofNat chunks.length) codec blobs).ReadsBack env.arith codec i
      chunks[i] := by
  obtain ⟨bytes, hbytes, hrecord⟩ := written.record_eq hi
  obtain ⟨idx, qjl, gamma, norm, hencodes, hreads⟩ := ReleaseCodec.reads_recordBytes hbytes
  exact {
    text := written.textAt_eq hshort hi
    title := written.titleAt_eq hshort hi
    originalDocId := written.originalDocId_eq hshort hi
    metadataJson := written.metadataJson_eq hshort hi
    metaEntry := ⟨_, written.metaAt_eq hi, rfl⟩
    record := ⟨_, idx, qjl, gamma, norm, hrecord, hencodes, hreads⟩ }

end Written

/-! ## What the builder returns -/

section Built

variable {env : ReleaseEnv} {format : StaticReleaseFormat} {chunks : List StaticChunk}
  {embeddings : List (List F32)} {profile : EmbeddingProfile} {source : ReleaseSource}
  {manifest : ReleaseManifest} {dir : ReleaseDir}

/-- What a built release is made of. -/
structure Built (env : ReleaseEnv) (format : StaticReleaseFormat) (chunks : List StaticChunk)
    (embeddings : List (List F32)) (profile : EmbeddingProfile) (source : ReleaseSource)
    (manifest : ReleaseManifest) (dir : ReleaseDir) (codec : ReleaseCodec)
    (blobs : ReleaseBlobs) : Prop where
  checked : checkChunks format chunks embeddings profile = .ok ()
  generate : ReleaseCodec.generate env.gen format = .ok codec
  written : Written env format (chunks.zip embeddings) codec blobs dir
  manifest : ∃ names outputs manifestCodec bytes,
    releaseOutputFiles format.turboVersion = some names ∧
    collectOutputs env.sha (codec.assetFiles ++ blobs.files) names = .ok outputs ∧
    codec.manifestCodec = .ok manifestCodec ∧
    manifest = releaseManifestOf env.sha format manifestCodec (UInt64.ofNat chunks.length)
      blobs.canonicalRows outputs profile source ∧
    env.json.toVec manifest = .ok bytes ∧ dir releaseManifestFile = some bytes

theorem built_of_buildRelease
    (h : buildRelease env format chunks embeddings profile source = .ok (manifest, dir)) :
    ∃ codec blobs, Built env format chunks embeddings profile source manifest dir codec blobs := by
  simp only [buildRelease, bind_eq_ok, lifted_eq_ok, expect_eq_ok, TurboQuantConfig.okOr_eq_ok, mapError_eq_ok] at h
  obtain ⟨_, hchecked, codec, hgenerate, blobs, hblobs, _, hsmall, names, hnames, outputs, houtputs,
    manifestCodec, hcodec, bytes, hbytes, h⟩ := h
  cases h
  have hsmall : ∀ file ∈ codec.assetFiles ++ blobs.files, file.2.length < 2 ^ 63 :=
    fun file hfile => assertThat_eq_ok.mp (forM_eq_ok.mp hsmall file hfile)
  refine ⟨codec, blobs, hchecked, hgenerate, ?_, names, outputs, manifestCodec, bytes, hnames,
    houtputs, hcodec, rfl, hbytes, if_pos rfl⟩
  refine ⟨ReleaseCodec.generated hgenerate, ?_, hsmall, fun name hname => if_neg hname⟩
  rw [length_zip_of_checked hchecked]
  exact ReleaseBlobs.holds_of_ofChunks hblobs

end Built

/-- The configuration a codec scores under; there is one legacy configuration. -/
def IndexCodec.config : IndexCodec → TurboQuantConfig
  | legacy _ _ => .legacyV1
  | prod codec => codec.config

/-- A generated codec has the version and the configuration that were asked for. -/
theorem ReleaseCodec.config_of_generate {gen : Generators} (sha : Sha256) (count : UInt64)
    {format : StaticReleaseFormat} {codec : ReleaseCodec} (h : generate gen format = .ok codec) :
    (codec.header sha count).version = format.turboVersion ∧
      codec.indexCodec.config = format.codecConfig := by
  cases generated h with
  | v3 => exact ⟨rfl, rfl⟩
  | v4 _ => exact ⟨rfl, rfl⟩

/-- Loading undoes writing: a built release loads, under its version, codec configuration and codec
assets, with one record for each chunk, and record `i` reads back as chunk `i`. -/
theorem load_buildRelease {env : ReleaseEnv} {format : StaticReleaseFormat}
    {chunks : List StaticChunk} {embeddings : List (List F32)} {profile : EmbeddingProfile}
    {source : ReleaseSource} {manifest : ReleaseManifest} {dir : ReleaseDir}
    (hbuild : buildRelease env format chunks embeddings profile source = .ok (manifest, dir))
    (hshort : ∀ chunk ∈ chunks, chunk.Short) :
    ∃ codec index, ReleaseCodec.generate env.gen format = .ok codec ∧
      MmapIndex.load env.sha dir = .ok index ∧
      index.header = codec.header env.sha (UInt64.ofNat chunks.length) ∧
      index.version = format.turboVersion ∧ index.codec = codec.indexCodec ∧
      index.codec.config = format.codecConfig ∧ index.recordCount = chunks.length ∧
      ∀ i (hi : i < chunks.length) (hi' : i < embeddings.length),
        index.ReadsBack env.arith codec i (chunks[i], embeddings[i]) := by
  obtain ⟨codec, blobs, built⟩ := built_of_buildRelease hbuild
  have written := built.written
  have hcount := length_zip_of_checked built.checked
  have hembedded : ∀ chunk ∈ chunks.zip embeddings, chunk.1.Short :=
    fun chunk h => hshort _ (List.of_mem_zip h).1
  obtain ⟨hversion, hconfig⟩ :=
    ReleaseCodec.config_of_generate env.sha (UInt64.ofNat chunks.length)
      built.generate
  refine ⟨codec, _, built.generate, written.load_eq hembedded, ?_, ?_, rfl, hconfig, ?_, ?_⟩
  · show codec.header env.sha _ = _
    rw [hcount]
  · show (codec.header env.sha _).version = _
    rw [hcount]
    exact hversion
  · exact written.recordCount_eq.trans hcount
  · intro i hi hi'
    have hi'' : i < (chunks.zip embeddings).length := hcount ▸ hi
    have hback := written.readsBack hembedded hi''
    rwa [List.getElem_zip] at hback

open SampleRelease in
/-- A release of two titled chunks reads back. -/
theorem load_twoChunks : ∃ (env : ReleaseEnv) (manifest : ReleaseManifest) (dir : ReleaseDir),
    buildRelease env .v3 [first, second] [unitVector 0, unitVector 1] profile
      (source "data.lance" 2) = .ok (manifest, dir) ∧
    ∃ codec index, ReleaseCodec.generate env.gen .v3 = .ok codec ∧
      MmapIndex.load env.sha dir = .ok index ∧
      index.ReadsBack env.arith codec 0 (first, unitVector 0) ∧
      index.ReadsBack env.arith codec 1 (second, unitVector 1) ∧
      index.titleAt 1 = .ok (some "Second") := by
  obtain ⟨manifest, dir, hbuild⟩ :=
    parses (source "data.lance" 2) twoChunks_checked (by decide) twoChunks_short
  obtain ⟨codec, index, hcodec, hload, -, -, -, -, -, hback⟩ := load_buildRelease hbuild
    twoChunks_short
  have hsecond := hback 1 (by decide) (by decide)
  exact ⟨_, manifest, dir, hbuild, codec, index, hcodec, hload, hback 0 (by decide) (by decide),
    hsecond, hsecond.title⟩

end LTSearch
