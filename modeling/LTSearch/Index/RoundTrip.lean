/-
# LTSearch.Index.RoundTrip -- loading undoes writing

The pass over the chunks leaves seven blobs, and for each of them it is said what it holds after any
number of chunks: the text blobs are the texts one after another, the entry files hold for each chunk
the place where its texts begin.  The loader's checks pass on them, and every accessor reads back
what was written for its record.

The argument has three parts that do not know of each other.  `ReleaseBlobs.Holds` is the invariant of
the pass; the lemmas on pieces say of any list of byte strings that a window of their concatenation at
the right place is one of them; and the codec section says that the assets and the header of a generated
codec read back.  `Written` puts them together for a directory.  The sizes are assumed as the formats need
them: each text below 4 GiB, each file below 2^63 bytes.  The embeddings are followed into the records
only; what a search makes of a record is in `ReadBack`.
-/
import LTSearch.Index.Loaded
import LTSearch.Index.StaticRelease

namespace LTSearch

open LTSearch.Foundation
open TurboQuantConfig (AssetFile okOr)

/-- The texts of a chunk are each shorter than 4 GiB. -/
structure StaticChunk.Short (chunk : StaticChunk) : Prop where
  text : (utf8 chunk.text).length < 2 ^ 32
  title : (utf8 (chunk.title.getD "")).length < 2 ^ 32
  docid : (utf8 chunk.docId).length < 2 ^ 32
  metaJson : (utf8 (canonicalMetadataJson chunk.metadata)).length < 2 ^ 32

/-! ## What the pass writes -/

/-- A chunk with its embedding. -/
abbrev EmbeddedChunk := StaticChunk × List F32

namespace EmbeddedChunk

/-- What the chunk adds to each text blob. -/
def textBytes (chunk : EmbeddedChunk) : Bytes := utf8 chunk.1.text
def titleBytes (chunk : EmbeddedChunk) : Bytes := utf8 (chunk.1.title.getD "")
def docidBytes (chunk : EmbeddedChunk) : Bytes := utf8 chunk.1.docId
def metaJsonBytes (chunk : EmbeddedChunk) : Bytes := utf8 (canonicalMetadataJson chunk.1.metadata)

def docHash (chunk : EmbeddedChunk) : UInt64 := stableHashDocId chunk.1.docId

theorem length_pad : (List.replicate 7 (0 : UInt8)).length = 7 := rfl

/-- The entry of a chunk that follows the chunks `before`. -/
def metaEntry (before : List EmbeddedChunk) (chunk : EmbeddedChunk) : MetaRecord where
  docId := chunk.docHash
  textOffset := UInt64.ofNat (before.flatMap textBytes).length
  titleOffset := UInt64.ofNat (before.flatMap titleBytes).length
  textLen := UInt32.ofNat chunk.textBytes.length
  titleLen := UInt32.ofNat chunk.titleBytes.length
  corpusType := chunk.1.corpusType.id
  pad := ⟨List.replicate 7 0, length_pad⟩

/-- The sidecar entry of a chunk that follows the chunks `before`. -/
def metaExtEntry (before : List EmbeddedChunk) (chunk : EmbeddedChunk) : MetaExtRecord where
  docidOffset := UInt64.ofNat (before.flatMap docidBytes).length
  metaJsonOffset := UInt64.ofNat (before.flatMap metaJsonBytes).length
  docidLen := UInt32.ofNat chunk.docidBytes.length
  metaJsonLen := UInt32.ofNat chunk.metaJsonBytes.length

/-- The row of a chunk. -/
def row (chunk : EmbeddedChunk) : CanonicalRow where
  docId := chunk.1.docId
  embedding := chunk.2
  text := chunk.1.text
  canonicalMetaJson := chunk.metaJsonBytes

end EmbeddedChunk

open EmbeddedChunk

/-- Every item of a list stands in a relation to its index. -/
def Each {α : Type} (P : Nat → α → Prop) (items : List α) : Prop :=
  ∀ i (hi : i < items.length), P i items[i]

theorem Each.append {α : Type} {P : Nat → α → Prop} {items : List α} (h : Each P items) {item : α}
    (hitem : P items.length item) : Each P (items ++ [item]) := by
  intro i hi
  rw [List.getElem_append]
  split
  · exact h i _
  · rename_i hlast
    rw [List.length_append, List.length_singleton] at hi
    obtain rfl : i = items.length := by omega
    simpa using hitem

namespace ReleaseBlobs

/-- What the blobs hold after the first chunks of `chunks`, which are `done`. -/
structure Holds (arith : FloatArith) (codec : ReleaseCodec) (header : TurboHeader)
    (chunks done : List EmbeddedChunk) (blobs : ReleaseBlobs) : Prop where
  turboStatic : ∃ records : List Bytes, blobs.turboStatic = header.toBytes ++ records.flatten ∧
    records.length = done.length ∧
    Each (fun i record => ∀ hi : i < chunks.length,
      codec.recordBytes arith chunks[i].docHash chunks[i].2 chunks[i].1.docId = .ok record) records
  metaRecords : ∃ entries, blobs.metaRecords = MetaRecord.layout.encodeAll entries ∧
    entries.length = done.length ∧
    Each (fun i entry => ∀ hi : i < chunks.length,
      entry = metaEntry (chunks.take i) chunks[i]) entries
  text : blobs.text = done.flatMap textBytes
  title : blobs.title = done.flatMap titleBytes
  metaExt : ∃ entries, blobs.metaExt = MetaExtRecord.layout.encodeAll entries ∧
    entries.length = done.length ∧
    Each (fun i entry => ∀ hi : i < chunks.length,
      entry = metaExtEntry (chunks.take i) chunks[i]) entries
  docid : blobs.docid = done.flatMap docidBytes
  metaJson : blobs.metaJson = done.flatMap metaJsonBytes
  canonicalRows : blobs.canonicalRows = done.map row

variable {arith : FloatArith} {codec : ReleaseCodec} {header : TurboHeader}
  {chunks done rest : List EmbeddedChunk} {blobs blobs' : ReleaseBlobs}

/-- One more chunk: every blob grows by its part, and every entry points at the end before it. -/
theorem Holds.append {chunk : EmbeddedChunk} (hchunks : chunks = done ++ chunk :: rest)
    (holds : Holds arith codec header chunks done blobs)
    (h : blobs.append arith codec chunk.1 chunk.2 = .ok blobs') :
    Holds arith codec header chunks (done ++ [chunk]) blobs' := by
  have htake : chunks.take done.length = done := by rw [hchunks, List.take_left]
  have hchunk : ∀ hi : done.length < chunks.length, chunks[done.length] = chunk := by
    subst hchunks
    exact fun _ => List.getElem_append_right le_rfl |>.trans (by simp)
  obtain ⟨record, hrecord, h⟩ := bind_eq_ok.mp h
  cases h
  obtain ⟨records, hstatic, hcount, heach⟩ := holds.turboStatic
  obtain ⟨entries, hmeta, hmetaCount, hmetaEach⟩ := holds.metaRecords
  obtain ⟨extEntries, hext, hextCount, hextEach⟩ := holds.metaExt
  have htext := holds.text
  have htitle := holds.title
  have hdocid := holds.docid
  have hmetaJson := holds.metaJson
  -- the entry written now is the one of the chunk at this index
  have hentry : ∀ hi : done.length < chunks.length,
      metaEntry (chunks.take done.length) chunks[done.length] = metaEntry done chunk := by
    intro hi
    rw [htake, hchunk hi]
  have hextEntry : ∀ hi : done.length < chunks.length,
      metaExtEntry (chunks.take done.length) chunks[done.length] = metaExtEntry done chunk := by
    intro hi
    rw [htake, hchunk hi]
  constructor
  case turboStatic =>
    refine ⟨records ++ [record], ?_, by simp [hcount], heach.append ?_⟩
    · -- the record goes behind those that are there
      simp [hstatic]
    · rw [hcount]
      intro hi
      rw [hchunk hi]
      exact hrecord
  case metaRecords =>
    refine ⟨entries ++ [metaEntry done chunk], ?_, by simp [hmetaCount], hmetaEach.append ?_⟩
    · rw [FixedLayout.encodeAll_append, ← hmeta]
      simp only [metaEntry, ← htext, ← htitle]
      rfl
    · rw [hmetaCount]
      exact fun hi => (hentry hi).symm
  case metaExt =>
    refine ⟨extEntries ++ [metaExtEntry done chunk], ?_, by simp [hextCount], hextEach.append ?_⟩
    · rw [FixedLayout.encodeAll_append, ← hext]
      simp only [metaExtEntry, ← hdocid, ← hmetaJson]
      rfl
    · rw [hextCount]
      exact fun hi => (hextEntry hi).symm
  case text => simp [htext, textBytes]
  case title => simp [htitle, titleBytes]
  case docid => simp [hdocid, docidBytes]
  case metaJson => simp [hmetaJson, metaJsonBytes]
  case canonicalRows => simp [holds.canonicalRows, row, metaJsonBytes]

theorem holds_of_ofChunks (h : ofChunks arith codec header chunks = .ok blobs) :
    Holds arith codec header chunks chunks blobs := by
  refine foldlM_invariant (P := Holds arith codec header chunks) ?_ ?_ h
  · -- before the first chunk only the header is written
    exact ⟨⟨[], by simp, rfl, nofun⟩, ⟨[], rfl, rfl, nofun⟩, rfl, rfl, ⟨[], rfl, rfl, nofun⟩, rfl,
      rfl, rfl⟩
  · intro done chunk rest blobs blobs' hchunks holds h
    exact holds.append hchunks h

end ReleaseBlobs

/-! ## Pieces of a blob -/

/-- Only the empty text has no bytes. -/
theorem utf8_eq_nil {text : String} (h : utf8 text = []) : text = "" := by
  have hempty : utf8 "" = [] := rfl
  -- reading is a left inverse of writing, also of the empty text
  have hread := fromUtf8_utf8 text
  rw [h, ← hempty, fromUtf8_utf8] at hread
  exact (Option.some.inj hread).symm

/-- A stored title is nonempty. -/
theorem title_ne_empty {chunk : StaticChunk} {title : String} (h : chunk.title = some title) :
    title ≠ "" := by
  simpa using (Option.filter_eq_some_iff.mp h).2

section Pieces

variable {α : Type} (f : α → Bytes) {xs : List α} {i : Nat}

theorem toNat_ofNat64 {n : Nat} (h : n < 2 ^ 63) : (UInt64.ofNat n).toNat = n := by
  rw [UInt64.toNat_ofNat', Nat.mod_eq_of_lt]
  omega

theorem toNat_ofNat32 {n : Nat} (h : n < 2 ^ 32) : (UInt32.ofNat n).toNat = n := by
  rw [UInt32.toNat_ofNat', Nat.mod_eq_of_lt h]

/-- The stored range of a piece lies within its blob. -/
theorem rangeInBlob_piece (hi : i < xs.length) (hsmall : (xs.flatMap f).length < 2 ^ 63)
    (hshort : (f xs[i]).length < 2 ^ 32) :
    MmapIndex.rangeInBlob (xs.flatMap f).length
      (UInt64.ofNat ((xs.take i).flatMap f).length) (UInt32.ofNat (f xs[i]).length) := by
  have hbound := flatMap_piece_le f hi
  unfold MmapIndex.rangeInBlob
  rw [toNat_ofNat64 (by omega), toNat_ofNat32 hshort]
  exact ⟨by show _ < 2 ^ 64; omega, hbound⟩

/-- A piece is read back from its stored range. -/
theorem textFromBlob_piece {ε : Type} {invalid : ε} (hi : i < xs.length)
    (hsmall : (xs.flatMap f).length < 2 ^ 63) (hshort : (f xs[i]).length < 2 ^ 32) {text : String}
    (htext : f xs[i] = utf8 text) :
    MmapIndex.textFromBlob (UInt64.ofNat ((xs.take i).flatMap f).length)
      (UInt32.ofNat (f xs[i]).length) (xs.flatMap f) invalid = .ok text := by
  have hbound := flatMap_piece_le f hi
  simp only [MmapIndex.textFromBlob, bind_eq_ok, usizeAdd_eq_ok, slice_eq_ok, lifted_eq_ok,
    TurboQuantConfig.okOr_eq_ok, toNat_ofNat64 (by omega : ((xs.take i).flatMap f).length < 2 ^ 63),
    toNat_ofNat32 hshort]
  refine ⟨_, ⟨by show _ < 2 ^ 64; omega, rfl⟩, utf8 text, ⟨⟨by omega, hbound⟩, ?_⟩,
    fromUtf8_utf8 text⟩
  -- the window of the stored range is the piece itself
  rw [Nat.add_sub_cancel_left, ← htext]
  exact window_flatMap f hi

/-- A record in a region of records of one width. -/
theorem window_flatten {width : Nat} {records : List Bytes} (hi : i < records.length)
    (hwidth : ∀ record ∈ records, record.length = width) :
    window (i * width) width records.flatten = records[i] := by
  have hpre : ((records.take i).flatMap id).length = i * width := by
    rw [List.flatMap_id, List.length_flatten, List.sum_eq_card_nsmul _ width]
    · simp [List.length_take, Nat.min_eq_left hi.le]
    · intro n hn
      obtain ⟨record, hrecord, rfl⟩ := List.mem_map.mp hn
      exact hwidth record (List.mem_of_mem_take hrecord)
  -- a record is a piece of the region, and all before it are of one width
  have hpiece := window_flatMap id hi
  rw [hpre, List.flatMap_id] at hpiece
  rwa [show (id records[i]).length = width from hwidth _ (List.getElem_mem hi)] at hpiece

end Pieces

/-! ## The codec of a written release -/

namespace ReleaseCodec

def layout : ReleaseCodec → KnownRecordLayout
  | v3 _ _ _ => .v3Dim512
  | v4 _ => .v4Dim512

/-- The codec that the loader makes of the asset files. -/
def indexCodec : ReleaseCodec → IndexCodec
  | v3 _ centroids projection => .legacy centroids projection
  | v4 codec => .prod codec

/-- A generated codec: the legacy codec's assets, or a codec whose codes fit the records. -/
inductive Generated (gen : Generators) : StaticReleaseFormat → ReleaseCodec → Prop where
  | v3 : Generated gen .v3
      (.v3 .legacyV1 (legacyCodecAssets gen .legacyV1).1 (legacyCodecAssets gen .legacyV1).2)
  | v4 {codec : TurboQuantProdV1} (hcodes : TurboProdRecord512.holdsCodesOf codec) :
      Generated gen (.v4 codec.config) (.v4 codec)

theorem generated {gen : Generators} {format : StaticReleaseFormat} {codec : ReleaseCodec}
    (h : generate gen format = .ok codec) : Generated gen format codec := by
  cases format with
  | v3 =>
      cases h
      exact .v3
  | v4 config =>
      simp only [generate, bind_eq_ok, mapError_eq_ok, rejectIf_eq_ok, not_not] at h
      obtain ⟨prod, hprod, -, hcodes, h⟩ := h
      cases h
      simp only [TurboQuantProdV1.generate, bind_eq_ok] at hprod
      -- the generation ends in `from_assets`, which keeps the configuration
      obtain ⟨-, -, -, -, codebook, -, hprod⟩ := hprod
      obtain ⟨rfl, -⟩ := TurboQuantProdV1.fromAssets_eq_ok.mp hprod
      exact .v4 hcodes

variable {gen : Generators} {format : StaticReleaseFormat} {codec : ReleaseCodec}

/-- The header of a written release reads back and has a known layout. -/
theorem header_facts (sha : Sha256) (count : UInt64) (h : Generated gen format codec) :
    (codec.header sha count).Readable ∧ (codec.header sha count).recordCount = count ∧
      KnownRecordLayout.fromHeader (codec.header sha count) = .ok codec.layout := by
  cases h with
  | v3 =>
      have hdim : (512 : UInt32) ≠ 0 := by decide
      have hversion : turboVersionV3 ≠ turboVersionV4 := by decide
      exact ⟨⟨.inr (.inl rfl), hdim, iff_of_false Bool.false_ne_true hversion⟩, rfl, rfl⟩
  | @v4 prod hcodes =>
      have hdim : (header sha count (.v4 prod)).dim = 512 := prod.dim_eq
      refine ⟨⟨.inr (.inr rfl), ?_, ?_⟩, rfl, ?_⟩
      · rw [hdim]
        decide
      · exact iff_of_true rfl rfl
      · unfold KnownRecordLayout.fromHeader
        rw [hdim]
        simp [header, TurboHeader.newV4, turboVersionV2, turboVersionV3, turboVersionV4,
          prod.config_facts.2.1, layout]

open MmapIndex in
/-- The legacy codec's assets load back. -/
theorem loadLegacyCodec_isOk {dir : ReleaseDir} {header : TurboHeader} (hdim : header.dim = 512)
    (hfiles : ∀ file ∈ (v3 .legacyV1 (legacyCodecAssets gen .legacyV1).1
        (legacyCodecAssets gen .legacyV1).2).assetFiles, mmapFile dir file.1 = .ok file.2) :
    loadLegacyCodec dir header = .ok (.legacy (legacyCodecAssets gen .legacyV1).1
      (legacyCodecAssets gen .legacyV1).2) := by
  simp only [assetFiles, List.forall_mem_cons] at hfiles
  obtain ⟨hcentroids, hprojection, -⟩ := hfiles
  have hdim0 : (512 : UInt32) ≠ 0 := by decide
  have hper0 : TurboQuantConfig.legacyV1.centroidsPerDim ≠ 0 := by decide
  simp only [loadLegacyCodec, bind_eq_ok, failIf_eq_ok, not_not, mapErr_eq_ok, hdim]
  exact ⟨_, hcentroids, _, hprojection, _, CentroidTable.fromBytes_toBytes hdim0 hper0, (), rfl, (),
    rfl, _, ProjectionMatrix.fromBytes_toBytes hdim0 hdim0, (), rfl, (), rfl, rfl⟩

/-- The fingerprint does not depend on the order of the asset files. -/
theorem fingerprint_order (sha : Sha256) (config : TurboQuantConfig) (rotation codebook qjl : Bytes) :
    config.fingerprint sha
        [("rotation.bin", rotation), ("codebook.bin", codebook), ("qjl.bin", qjl)] =
      config.fingerprint sha
        [("codebook.bin", codebook), ("qjl.bin", qjl), ("rotation.bin", rotation)] := by
  have h1 : "codebook.bin" ≤ "qjl.bin" := by decide
  have h2 : ¬"rotation.bin" ≤ "codebook.bin" := by decide
  have h3 : ¬"rotation.bin" ≤ "qjl.bin" := by decide
  have h4 : "qjl.bin" ≤ "rotation.bin" := by decide
  simp only [TurboQuantConfig.fingerprint, List.insertionSort, List.foldr, List.orderedInsert, h1, h2,
    h3, h4, if_true, if_false]

open MmapIndex in
/-- A v4 codec's assets load back under the header written for it. -/
theorem loadProdCodec_isOk {sha : Sha256} {dir : ReleaseDir} {prod : TurboQuantProdV1}
    {count : UInt64} (hcodes : TurboProdRecord512.holdsCodesOf prod)
    (hfiles : ∀ file ∈ (v4 prod).assetFiles, mmapFile dir file.1 = .ok file.2) :
    loadProdCodec sha dir ((v4 prod).header sha count) = .ok (.prod prod) := by
  simp only [assetFiles, List.forall_mem_cons] at hfiles
  obtain ⟨hcodebook, hqjl, hrotation, -⟩ := hfiles
  have agree := prod.agree
  have hdim0 : prod.config.dim ≠ 0 := by
    rw [prod.dim_eq]
    decide
  -- what the loader reads from the assets is the configuration they were generated from
  have hconfig : ({
      codecId := .turboQuantProdV1
      dim := prod.config.dim
      mseBits := prod.codebook.bits
      qjlDim := prod.qjl.qjlDim
      mseSeed := prod.rotation.seed
      qjlSeed := prod.qjl.seed
      generatorVersion := prod.rotation.generatorVersion
      normPolicy := .normalizeAndStore } : TurboQuantConfig) = prod.config := by
    have hpolicy := (TurboQuantConfig.validate_eq_ok.mp prod.config_facts.1).2.2.2.2.1
    rw [prod.config_facts.2.1] at hpolicy
    rw [agree.codebookBits, agree.qjlDim, agree.rotationSeed, agree.qjlSeed, agree.rotationVersion,
      ← prod.config_facts.2.1]
    have hnorm : NormPolicy.normalizeAndStore = prod.config.normPolicy := hpolicy.symm
    rw [hnorm]
  simp only [loadProdCodec, bind_eq_ok, failIf_eq_ok, not_not, mapErr_eq_ok, lifted_eq_ok]
  refine ⟨_, hrotation, _, hcodebook, _, hqjl, _, Rotation.fromBytes_toBytes ?_, _,
    LloydMaxCodebook.fromBytes_toBytes ?_, _, QjlMatrix.fromBytes_toBytes ?_ ?_, prod, ?_, (),
    hcodes, ?_⟩
  · rwa [agree.rotationDim]
  · rwa [agree.codebookDim]
  · rwa [agree.qjlInput]
  · rw [agree.qjlDim]
    exact prod.qjlDim_ne_zero
  · exact TurboQuantProdV1.fromAssets_eq_ok.mpr ⟨hconfig.symm, rfl, rfl, rfl⟩
  · show (if _ then _ else _) = _
    rw [show (header sha count (v4 prod)).dim = prod.config.dim from rfl, hconfig,
      fingerprint_order]
    exact if_pos rfl

open MmapIndex in
theorem loadCodec_isOk {sha : Sha256} {dir : ReleaseDir} {count : UInt64}
    (h : Generated gen format codec)
    (hfiles : ∀ file ∈ codec.assetFiles, mmapFile dir file.1 = .ok file.2) :
    loadCodec sha dir (codec.header sha count) codec.layout = .ok codec.indexCodec := by
  cases h with
  | v3 => exact loadLegacyCodec_isOk rfl hfiles
  | v4 hcodes => exact loadProdCodec_isOk hcodes hfiles

end ReleaseCodec

/-! ## The checks of the loader pass -/

namespace MmapIndex

/-- A file of entries whose ranges all lie within their blobs passes. -/
theorem checkEntries_isOk {α : Type} {width : Nat} {layout : FixedLayout α width} {file : String}
    {count : UInt64} {data : Bytes} {mismatch : Nat → MmapIndexError}
    {outOfBounds : Nat → String → MmapIndexError}
    {ranges : α → List (String × Nat × UInt64 × UInt32)} (hwidth : 0 < width) {entries : List α}
    (hdata : data = layout.encodeAll entries) (hcount : entries.length = count.toNat)
    (hsmall : data.length < 2 ^ 63)
    (h : ∀ entry ∈ entries, ∀ range ∈ ranges entry,
      rangeInBlob range.2.1 range.2.2.1 range.2.2.2) :
    checkEntries layout file count data mismatch outOfBounds ranges = .ok () := by
  have hlen : data.length = count.toNat * width := by
    rw [hdata, layout.length_encodeAll, hcount]
  have hmod : data.length % width = 0 := by rw [hlen, Nat.mul_mod_left]
  have hdiv : data.length / width = count.toNat := by rw [hlen, Nat.mul_div_cancel _ hwidth]
  simp only [checkEntries, check_bind_eq_ok, failIf_eq_ok, not_not, forM_eq_ok, hmod, hdiv,
    ensureAligned_zero, true_and]
  intro i hi
  have hi : i < entries.length := by rw [hcount]; exact List.mem_range.mp hi
  have hword : i * width < Checked.usizeSize := by
    have hbound := FixedLayout.record_in_bounds hi (hcount ▸ hlen.ge)
    show _ < 2 ^ 64
    omega
  refine bind_eq_ok.mpr ⟨_, usizeMul_eq_ok.mpr ⟨hword, rfl⟩, bind_eq_ok.mpr ⟨entries[i], ?_, ?_⟩⟩
  · rw [hdata]
    exact layout.castAt_eq_ok.mpr (layout.at_encodeAll hi)
  · exact forM_eq_ok.mpr fun range hrange => failIf_eq_ok.mpr
      (not_not.mpr (h _ (List.getElem_mem hi) range hrange))

end MmapIndex

/-! ## The records -/

/-- Every record is 208 bytes long. -/
theorem ReleaseCodec.length_recordBytes {codec : ReleaseCodec} {arith : FloatArith} {hash : UInt64}
    {embedding : List F32} {label : String} {bytes : Bytes}
    (h : codec.recordBytes arith hash embedding label = .ok bytes) : bytes.length = 208 := by
  cases codec with
  | v3 config centroids projection =>
      obtain ⟨record, -, h⟩ := bind_eq_ok.mp h
      cases h
      exact TurboRecord512.layout.length_encode record
  | v4 prod =>
      obtain ⟨encoded, -, h⟩ := bind_eq_ok.mp h
      obtain ⟨record, -, h⟩ := bind_eq_ok.mp h
      cases h
      exact TurboProdRecord512.layout.length_encode record

namespace ReleaseBlobs.Holds

variable {arith : FloatArith} {codec : ReleaseCodec} {header : TurboHeader}
  {chunks : List EmbeddedChunk} {blobs : ReleaseBlobs}
  (holds : Holds arith codec header chunks chunks blobs)

include holds

/-- The records, one for each chunk. -/
theorem exists_records : ∃ records : List Bytes,
    blobs.turboStatic = header.toBytes ++ records.flatten ∧ records.length = chunks.length ∧
    (∀ record ∈ records, record.length = 208) ∧
    ∀ i (hi : i < chunks.length) (hi' : i < records.length),
      codec.recordBytes arith chunks[i].docHash chunks[i].2 chunks[i].1.docId = .ok records[i] := by
  obtain ⟨records, hstatic, hcount, heach⟩ := holds.turboStatic
  refine ⟨records, hstatic, hcount, fun record hrecord => ?_, fun i hi hi' => heach i hi' hi⟩
  obtain ⟨i, hi, rfl⟩ := List.mem_iff_getElem.mp hrecord
  exact ReleaseCodec.length_recordBytes (heach i hi (hcount ▸ hi))

theorem length_turboStatic : blobs.turboStatic.length = chunks.length * 208 + 32 := by
  obtain ⟨records, hstatic, hcount, hlen, -⟩ := holds.exists_records
  rw [hstatic, List.length_append, TurboHeader.length_toBytes, List.length_flatten,
    List.sum_eq_card_nsmul _ 208]
  · simp [hcount, Nat.add_comm]
  · intro n hn
    obtain ⟨record, hrecord, rfl⟩ := List.mem_map.mp hn
    exact hlen record hrecord

end ReleaseBlobs.Holds

/-! ## A written release -/

/-- A directory that the builder wrote for these chunks. -/
structure Written (env : ReleaseEnv) (format : StaticReleaseFormat) (chunks : List EmbeddedChunk)
    (codec : ReleaseCodec) (blobs : ReleaseBlobs) (dir : ReleaseDir) : Prop where
  generated : codec.Generated env.gen format
  holds : ReleaseBlobs.Holds env.arith codec
    (codec.header env.sha (UInt64.ofNat chunks.length)) chunks chunks blobs
  small : ∀ file ∈ codec.assetFiles ++ blobs.files, file.2.length < 2 ^ 63
  files : ∀ name, name ≠ releaseManifestFile →
    dir name = (codec.assetFiles ++ blobs.files).lookup name

namespace Written

variable {env : ReleaseEnv} {format : StaticReleaseFormat} {chunks : List EmbeddedChunk}
  {codec : ReleaseCodec} {blobs : ReleaseBlobs} {dir : ReleaseDir}
  (written : Written env format chunks codec blobs dir)

include written

/-- Every file of the release is there with its bytes. -/
theorem mmapFile_eq {file : AssetFile} (h : file ∈ codec.assetFiles ++ blobs.files)
    (hlookup : (codec.assetFiles ++ blobs.files).lookup file.1 = some file.2)
    (hname : file.1 ≠ releaseManifestFile) :
    MmapIndex.mmapFile dir file.1 = .ok file.2 :=
  MmapIndex.mmapFile_eq_ok.mpr ⟨(written.files _ hname).trans hlookup, written.small _ h⟩

theorem mmap_blob {file : AssetFile} (h : file ∈ blobs.files) :
    MmapIndex.mmapFile dir file.1 = .ok file.2 := by
  refine written.mmapFile_eq (List.mem_append_right _ h) ?_ ?_
  · have hgenerated := written.generated
    simp only [ReleaseBlobs.files, List.mem_cons, List.not_mem_nil, or_false] at h
    -- no asset file has the name of a blob
    cases hgenerated <;>
      rcases h with rfl | rfl | rfl | rfl | rfl | rfl | rfl <;> rfl
  · simp only [ReleaseBlobs.files, List.mem_cons, List.not_mem_nil, or_false] at h
    rcases h with rfl | rfl | rfl | rfl | rfl | rfl | rfl <;> simp [releaseManifestFile]

theorem mmap_asset {file : AssetFile} (h : file ∈ codec.assetFiles) :
    MmapIndex.mmapFile dir file.1 = .ok file.2 := by
  refine written.mmapFile_eq (List.mem_append_left _ h) ?_ ?_
  · cases written.generated with
    | v3 =>
        simp only [ReleaseCodec.assetFiles, List.mem_cons, List.not_mem_nil, or_false] at h
        rcases h with rfl | rfl <;> rfl
    | v4 _ =>
        simp only [ReleaseCodec.assetFiles, List.mem_cons, List.not_mem_nil, or_false] at h
        rcases h with rfl | rfl | rfl <;> rfl
  · cases written.generated with
    | v3 =>
        simp only [ReleaseCodec.assetFiles, List.mem_cons, List.not_mem_nil, or_false] at h
        rcases h with rfl | rfl <;> simp [releaseManifestFile]
    | v4 _ =>
        simp only [ReleaseCodec.assetFiles, List.mem_cons, List.not_mem_nil, or_false] at h
        rcases h with rfl | rfl | rfl <;> simp [releaseManifestFile]

theorem blob_small (name : String) {bytes : Bytes} (h : (name, bytes) ∈ blobs.files) :
    bytes.length < 2 ^ 63 :=
  written.small _ (List.mem_append_right _ h)

theorem count_toNat : (UInt64.ofNat chunks.length).toNat = chunks.length := by
  have hlen := written.holds.length_turboStatic
  have hsmall : blobs.turboStatic.length < 2 ^ 63 :=
    written.blob_small "turbo_static.bin" (by simp [ReleaseBlobs.files])
  exact toNat_ofNat64 (by omega)

/-- The sidecars as they were written. -/
def sidecars (blobs : ReleaseBlobs) : Sidecars where
  metaExt := blobs.metaExt
  docid := blobs.docid
  metaJson := blobs.metaJson

end Written

/-- The index of a written release. -/
def writtenIndex (sha : Sha256) (count : UInt64) (codec : ReleaseCodec) (blobs : ReleaseBlobs) :
    MmapIndex where
  header := codec.header sha count
  layout := codec.layout
  bin := blobs.turboStatic
  metaRecords := blobs.metaRecords
  text := blobs.text
  title := blobs.title
  sidecars := some (Written.sidecars blobs)
  codec := codec.indexCodec

namespace Written

variable {env : ReleaseEnv} {format : StaticReleaseFormat} {chunks : List EmbeddedChunk}
  {codec : ReleaseCodec} {blobs : ReleaseBlobs} {dir : ReleaseDir}
  (written : Written env format chunks codec blobs dir)

include written

theorem text_small : (chunks.flatMap textBytes).length < 2 ^ 63 := by
  rw [← written.holds.text]
  exact written.blob_small "turbo_static_text.bin" (by simp [ReleaseBlobs.files])

theorem title_small : (chunks.flatMap titleBytes).length < 2 ^ 63 := by
  rw [← written.holds.title]
  exact written.blob_small "turbo_static_title.bin" (by simp [ReleaseBlobs.files])

theorem docid_small : (chunks.flatMap docidBytes).length < 2 ^ 63 := by
  rw [← written.holds.docid]
  exact written.blob_small "turbo_static_docid.bin" (by simp [ReleaseBlobs.files])

theorem metaJson_small : (chunks.flatMap metaJsonBytes).length < 2 ^ 63 := by
  rw [← written.holds.metaJson]
  exact written.blob_small "turbo_static_meta_json.bin" (by simp [ReleaseBlobs.files])

variable (hshort : ∀ chunk ∈ chunks, chunk.1.Short)

include hshort

theorem checkMeta : MmapIndex.checkEntries MetaRecord.layout "turbo_static_meta.bin"
    (UInt64.ofNat chunks.length) blobs.metaRecords
    (.metaCountMismatch (UInt64.ofNat chunks.length)) .metaBlobOutOfBounds
    (MmapIndex.metaRanges blobs.text.length blobs.title.length) = .ok () := by
  obtain ⟨entries, hmeta, hcount, heach⟩ := written.holds.metaRecords
  have hsmall : blobs.metaRecords.length < 2 ^ 63 :=
    written.blob_small "turbo_static_meta.bin" (by simp [ReleaseBlobs.files])
  refine MmapIndex.checkEntries_isOk (by decide) hmeta (hcount.trans written.count_toNat.symm)
    hsmall fun entry hentry => ?_
  obtain ⟨i, hi, rfl⟩ := List.mem_iff_getElem.mp hentry
  have hi' : i < chunks.length := hcount ▸ hi
  have hchunk := hshort _ (List.getElem_mem hi')
  -- both ranges of an entry are those of a piece
  have htext := rangeInBlob_piece textBytes hi' written.text_small hchunk.text
  have htitle := rangeInBlob_piece titleBytes hi' written.title_small hchunk.title
  rw [heach i hi hi']
  simp only [MmapIndex.metaRanges, metaEntry, List.forall_mem_cons, List.not_mem_nil,
    IsEmpty.forall_iff, implies_true, and_true, written.holds.text, written.holds.title]
  exact ⟨htext, htitle⟩

theorem checkMetaExt : MmapIndex.checkEntries MetaExtRecord.layout "turbo_static_meta_ext.bin"
    (UInt64.ofNat chunks.length) blobs.metaExt
    (.metaExtCountMismatch (UInt64.ofNat chunks.length)) .metaExtBlobOutOfBounds
    (MmapIndex.metaExtRanges blobs.docid.length blobs.metaJson.length) = .ok () := by
  obtain ⟨entries, hext, hcount, heach⟩ := written.holds.metaExt
  have hsmall : blobs.metaExt.length < 2 ^ 63 :=
    written.blob_small "turbo_static_meta_ext.bin" (by simp [ReleaseBlobs.files])
  refine MmapIndex.checkEntries_isOk (by decide) hext (hcount.trans written.count_toNat.symm)
    hsmall fun entry hentry => ?_
  obtain ⟨i, hi, rfl⟩ := List.mem_iff_getElem.mp hentry
  have hi' : i < chunks.length := hcount ▸ hi
  have hchunk := hshort _ (List.getElem_mem hi')
  have hdocid := rangeInBlob_piece docidBytes hi' written.docid_small hchunk.docid
  have hmetaJson := rangeInBlob_piece metaJsonBytes hi' written.metaJson_small hchunk.metaJson
  rw [heach i hi hi']
  simp only [MmapIndex.metaExtRanges, metaExtEntry, List.forall_mem_cons, List.not_mem_nil,
    IsEmpty.forall_iff, implies_true, and_true, written.holds.docid, written.holds.metaJson]
  exact ⟨hdocid, hmetaJson⟩

/-- A written release loads. -/
theorem load_eq : MmapIndex.load env.sha dir =
    .ok (writtenIndex env.sha (UInt64.ofNat chunks.length) codec blobs) := by
  obtain ⟨hreadable, hcount, hlayout⟩ :=
    ReleaseCodec.header_facts env.sha (UInt64.ofNat chunks.length) written.generated
  obtain ⟨records, hstatic, -⟩ := written.holds.exists_records
  have hlen := written.holds.length_turboStatic
  have hsmall : blobs.turboStatic.length < 2 ^ 63 :=
    written.blob_small "turbo_static.bin" (by simp [ReleaseBlobs.files])
  have hblob : ∀ file ∈ blobs.files, MmapIndex.mmapFile dir file.1 = .ok file.2 :=
    fun _ h => written.mmap_blob h
  simp only [ReleaseBlobs.files, List.forall_mem_cons] at hblob
  obtain ⟨hbin, hmeta, htext, htitle, hext, hdocid, hjson, -⟩ := hblob
  have hheader : TurboHeader.fromBytes (blobs.turboStatic.take 32) =
      .ok (codec.header env.sha (UInt64.ofNat chunks.length)) := by
    rw [hstatic, List.take_left' (TurboHeader.length_toBytes _)]
    exact TurboHeader.fromBytes_toBytes hreadable
  -- the size that the header announces is the size of the file
  have hsize : (codec.header env.sha (UInt64.ofNat chunks.length)).expectedFileSize =
      .ok (chunks.length * 208 + 32) := by
    simp only [TurboHeader.expectedFileSize, bind_eq_ok, rejectIf_eq_ok, hlayout, hcount,
      written.count_toNat, KnownRecordLayout.recordSize, TurboHeader.size, not_le]
    exact ⟨_, rfl, (), by omega, (), by omega, rfl⟩
  have hsidecars : MmapIndex.loadSidecars dir
      (codec.header env.sha (UInt64.ofNat chunks.length)) codec.layout =
        .ok (some (sidecars blobs)) := by
    have hcheck := written.checkMetaExt hshort
    rw [← hcount] at hcheck
    cases codec <;>
      exact bind_eq_ok.mpr ⟨_, hext, bind_eq_ok.mpr ⟨_, hdocid, bind_eq_ok.mpr ⟨_, hjson,
        bind_eq_ok.mpr ⟨(), hcheck, rfl⟩⟩⟩⟩
  have hcheck := written.checkMeta hshort
  rw [← hcount] at hcheck
  -- one step of the loader after another
  simp only [MmapIndex.load, bind_eq_ok, failIf_eq_ok, not_not, slice_eq_ok, mapErr_eq_ok,
    lifted_eq_ok]
  refine ⟨_, hbin, (), ?_, _, ⟨⟨Nat.zero_le _, ?_⟩, rfl⟩, _, hheader, _, hlayout, _, hmeta, _, htext,
    _, htitle, _, hsize, (), hlen, (), rfl, (), hcheck, _, hsidecars, _,
    ReleaseCodec.loadCodec_isOk written.generated fun _ h => written.mmap_asset h, rfl⟩
  · show ¬blobs.turboStatic.length < 32
    omega
  · show 32 ≤ blobs.turboStatic.length
    omega

/-! ## What the accessors read -/

omit written hshort in
@[simp]
theorem writtenIndex_metaRecords {sha : Sha256} {count : UInt64} :
    (writtenIndex sha count codec blobs).metaRecords = blobs.metaRecords := rfl

omit hshort in
theorem recordCount_eq :
    (writtenIndex env.sha (UInt64.ofNat chunks.length) codec blobs).recordCount = chunks.length := by
  have hcount := (ReleaseCodec.header_facts env.sha (UInt64.ofNat chunks.length)
    written.generated).2.1
  show (codec.header env.sha (UInt64.ofNat chunks.length)).recordCount.toNat = _
  rw [hcount, written.count_toNat]

variable {i : Nat} (hi : i < chunks.length)

include hi

omit written hshort in
theorem offset_lt {width : Nat} {data : Bytes} (hlen : data.length = chunks.length * width)
    (hsmall : data.length < 2 ^ 63) : i * width < Checked.usizeSize :=
  lt_of_le_of_lt (Nat.le_add_right _ _) (MmapIndex.offset_lt hi hlen hsmall)

omit hshort in
theorem metaAt_eq {ε : Type} :
    ((writtenIndex env.sha (UInt64.ofNat chunks.length) codec blobs).metaAt i : Checked ε _) =
      .ok (metaEntry (chunks.take i) chunks[i]) := by
  obtain ⟨entries, hmeta, hcount, heach⟩ := written.holds.metaRecords
  have hi' : i < entries.length := hcount ▸ hi
  have hsmall : blobs.metaRecords.length < 2 ^ 63 :=
    written.blob_small "turbo_static_meta.bin" (by simp [ReleaseBlobs.files])
  have hlen : blobs.metaRecords.length = chunks.length * 40 := by
    rw [hmeta, FixedLayout.length_encodeAll, hcount]
  simp only [MmapIndex.metaAt, bind_eq_ok, assertThat_eq_ok, usizeMul_eq_ok,
    written.recordCount_eq, FixedLayout.castAt_eq_ok, writtenIndex_metaRecords]
  refine ⟨(), hi, _, ⟨offset_lt hi hlen hsmall, rfl⟩, ?_⟩
  rw [hmeta, ← heach i hi' hi]
  exact MetaRecord.layout.at_encodeAll hi'

omit hshort in
theorem metaExtRecord_eq {ε : Type} :
    ((writtenIndex env.sha (UInt64.ofNat chunks.length) codec blobs).metaExtRecord i :
      Checked ε _) = .ok (some (sidecars blobs, metaExtEntry (chunks.take i) chunks[i])) := by
  obtain ⟨entries, hext, hcount, heach⟩ := written.holds.metaExt
  have hi' : i < entries.length := hcount ▸ hi
  have hsmall : blobs.metaExt.length < 2 ^ 63 :=
    written.blob_small "turbo_static_meta_ext.bin" (by simp [ReleaseBlobs.files])
  have hlen : blobs.metaExt.length = chunks.length * 24 := by
    rw [hext, FixedLayout.length_encodeAll, hcount]
  have hcast : (MetaExtRecord.layout.castAt (i * 24) blobs.metaExt : Checked ε _) =
      .ok (metaExtEntry (chunks.take i) chunks[i]) := by
    rw [FixedLayout.castAt_eq_ok, hext, ← heach i hi' hi]
    exact MetaExtRecord.layout.at_encodeAll hi'
  show (if (writtenIndex env.sha (UInt64.ofNat chunks.length) codec blobs).recordCount ≤ i
    then _ else _) = _
  rw [written.recordCount_eq, if_neg (not_le.mpr hi)]
  exact bind_eq_ok.mpr ⟨_, usizeMul_eq_ok.mpr ⟨offset_lt hi hlen hsmall, rfl⟩,
    bind_eq_ok.mpr ⟨_, hcast, rfl⟩⟩

theorem textAt_eq :
    (writtenIndex env.sha (UInt64.ofNat chunks.length) codec blobs).textAt i =
      .ok chunks[i].1.text := by
  refine bind_eq_ok.mpr ⟨_, written.metaAt_eq hi, ?_⟩
  show MmapIndex.textFromBlob _ _ blobs.text _ = _
  rw [written.holds.text]
  exact textFromBlob_piece textBytes hi written.text_small (hshort _ (List.getElem_mem hi)).text rfl

theorem originalDocId_eq :
    (writtenIndex env.sha (UInt64.ofNat chunks.length) codec blobs).originalDocId i =
      .ok (some chunks[i].1.docId) := by
  have hpiece : MmapIndex.textFromBlob (metaExtEntry (chunks.take i) chunks[i]).docidOffset
      (metaExtEntry (chunks.take i) chunks[i]).docidLen blobs.docid
      (MmapIndexError.metaExtBlobInvalidUtf8 i "docid") = .ok chunks[i].1.docId := by
    rw [written.holds.docid]
    exact textFromBlob_piece docidBytes hi written.docid_small
      (hshort _ (List.getElem_mem hi)).docid rfl
  refine bind_eq_ok.mpr ⟨_, written.metaExtRecord_eq hi, ?_⟩
  show some <$> MmapIndex.textFromBlob _ _ blobs.docid _ = _
  rw [hpiece]
  rfl

theorem metadataJson_eq :
    (writtenIndex env.sha (UInt64.ofNat chunks.length) codec blobs).metadataJson i =
      .ok (some (canonicalMetadataJson chunks[i].1.metadata)) := by
  have hpiece : MmapIndex.textFromBlob (metaExtEntry (chunks.take i) chunks[i]).metaJsonOffset
      (metaExtEntry (chunks.take i) chunks[i]).metaJsonLen blobs.metaJson
      (MmapIndexError.metaExtBlobInvalidUtf8 i "meta_json") =
        .ok (canonicalMetadataJson chunks[i].1.metadata) := by
    rw [written.holds.metaJson]
    exact textFromBlob_piece metaJsonBytes hi written.metaJson_small
      (hshort _ (List.getElem_mem hi)).metaJson rfl
  refine bind_eq_ok.mpr ⟨_, written.metaExtRecord_eq hi, ?_⟩
  show some <$> MmapIndex.textFromBlob _ _ blobs.metaJson _ = _
  rw [hpiece]
  rfl

theorem titleAt_eq :
    (writtenIndex env.sha (UInt64.ofNat chunks.length) codec blobs).titleAt i =
      .ok chunks[i].1.title := by
  have hpiece : MmapIndex.textFromBlob (metaEntry (chunks.take i) chunks[i]).titleOffset
      (metaEntry (chunks.take i) chunks[i]).titleLen blobs.title
      (MmapIndexError.metaBlobInvalidUtf8 i "title") = .ok (chunks[i].1.title.getD "") := by
    rw [written.holds.title]
    exact textFromBlob_piece titleBytes hi written.title_small
      (hshort _ (List.getElem_mem hi)).title rfl
  have hlen := toNat_ofNat32 (hshort _ (List.getElem_mem hi)).title
  refine bind_eq_ok.mpr ⟨_, written.metaAt_eq hi, ?_⟩
  show (if UInt32.ofNat (titleBytes chunks[i]).length = 0 then _
    else some <$> MmapIndex.textFromBlob _ _ blobs.title _) = _
  -- a stored title is not empty, so the length tells whether there is one
  cases htitle : chunks[i].1.title with
  | none =>
      rw [if_pos]
      · rfl
      · rw [titleBytes, htitle]
        rfl
  | some title =>
      have hne : title ≠ "" := title_ne_empty htitle
      have hbytes : titleBytes chunks[i] = utf8 title := by
        rw [titleBytes, htitle, Option.getD_some]
      rw [htitle, Option.getD_some] at hpiece hlen
      rw [if_neg, hpiece]
      · rfl
      · intro hzero
        rw [hbytes] at hzero
        rw [hzero] at hlen
        exact hne (utf8_eq_nil (List.length_eq_zero_iff.mp hlen.symm))

end Written

end LTSearch
