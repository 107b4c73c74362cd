/-
# LTSearch.Index.MmapIndex -- the loader of a release directory and its accessors

`load` maps the files of a directory, checks them against the header and against each other, and
returns an index whose accessors trust those checks.  What the checks establish is `Loaded`; every
accessor is in bounds because of it.  The machine has 64-bit words and maps files at page boundaries.
-/
import LTSearch.Index.Header
import LTSearch.Index.Record
import LTSearch.Index.TurboCodec
import LTSearch.Index.TurboProd

namespace LTSearch

open LTSearch.Foundation

/-- The files of a release directory: what each name holds, if it is there. -/
abbrev ReleaseDir := String → Option Bytes

/-- `IndexCodec`. -/
inductive IndexCodec where
  | legacy (centroids : CentroidTable) (projection : ProjectionMatrix)
  | prod (codec : TurboQuantProdV1)

inductive MmapIndexError where
  | io (path : String)
  | header (error : TurboHeaderError)
  | asset (file : String) (source : AssetError)
  | fileSizeMismatch (file : String) (expected actual : Nat)
  | metaCountMismatch (expected : UInt64) (actual : Nat)
  | metaBlobOutOfBounds (index : Nat) (blob : String)
  | metaBlobInvalidUtf8 (index : Nat) (blob : String)
  | metaExtCountMismatch (expected : UInt64) (actual : Nat)
  | metaExtBlobOutOfBounds (index : Nat) (blob : String)
  | metaExtBlobInvalidUtf8 (index : Nat) (blob : String)
  | assetDimensionMismatch (file : String) (expected actual : UInt32)
  | unsupportedLegacyAsset (file field : String) (expected actual : UInt32)
  | misalignedRecords (file : String) (align : Nat)
  | codec (error : TurboProdError)
  | unsupportedCodeLayout (idxLen signsLen : Nat)
  | codecFingerprintMismatch (expected actual : Bytes)
  deriving DecidableEq

/-- The text of an error; the operating system's own text ends the first one. -/
def MmapIndexError.display : MmapIndexError → String
  | io path => s!"failed to open {path}"
  | header error => s!"invalid header: {error.display}"
  | asset file source => s!"invalid {file}: {source.display}"
  | fileSizeMismatch file expected actual =>
      s!"{file} size mismatch: expected {expected} bytes, got {actual}"
  | metaCountMismatch expected actual =>
      s!"meta record count mismatch: expected {expected}, got {actual}"
  | metaBlobOutOfBounds index blob => s!"meta {blob} blob out of bounds at record {index}"
  | metaBlobInvalidUtf8 index blob =>
      s!"meta {blob} blob contains invalid UTF-8 at record {index}"
  | metaExtCountMismatch expected actual =>
      s!"meta ext record count mismatch: expected {expected}, got {actual}"
  | metaExtBlobOutOfBounds index blob => s!"meta ext {blob} blob out of bounds at record {index}"
  | metaExtBlobInvalidUtf8 index blob =>
      s!"meta ext {blob} blob contains invalid UTF-8 at record {index}"
  | assetDimensionMismatch file expected actual =>
      s!"{file} dimension mismatch: expected {expected}, got {actual}"
  | unsupportedLegacyAsset file field expected actual =>
      s!"{file} has {field}={actual}, but the legacy codec only scores {field}={expected}"
  | misalignedRecords file align =>
      s!"{file} records are not mapped at a {align}-byte aligned address"
  | codec error => s!"invalid codec assets: {error.display}"
  | unsupportedCodeLayout idxLen signsLen =>
      s!"the codec's codes ({idxLen} index bytes, {signsLen} sign bytes) are not the 128 and 64 bytes a v4 record holds"
  | codecFingerprintMismatch expected actual =>
      s!"codec fingerprint mismatch: turbo_static.bin was encoded with {hexEncode expected}, the asset files are {hexEncode actual}; the records and the assets are not from the same build"

/-- The sidecars of v3 and v4. -/
structure Sidecars where
  metaExt : Bytes
  docid : Bytes
  metaJson : Bytes

structure MmapIndex where
  header : TurboHeader
  layout : KnownRecordLayout
  bin : Bytes
  metaRecords : Bytes
  text : Bytes
  title : Bytes
  sidecars : Option Sidecars
  codec : IndexCodec

namespace MmapIndex

/-! ## Loading -/

/-- `mmap_file`: a slice is never longer than `isize::MAX`. -/
def mmapFile (dir : ReleaseDir) (name : String) : Checked MmapIndexError Bytes :=
  match dir name with
  | none => Checked.fail (.io name)
  | some bytes => if bytes.length < 2 ^ 63 then .ok bytes else Checked.fail (.io name)

/-- `ensure_aligned`, of a region that starts `offset` bytes into a page-aligned mapping; the typed
records are all aligned to eight bytes. -/
def ensureAligned (file : String) (offset : Nat) : Checked MmapIndexError Unit :=
  Checked.failIf (offset % 8 ≠ 0) (.misalignedRecords file 8)

/-- `range_in_blob`. -/
def rangeInBlob (blobLen : Nat) (offset : UInt64) (len : UInt32) : Prop :=
  offset.toNat + len.toNat < Checked.usizeSize ∧ offset.toNat + len.toNat ≤ blobLen

instance (blobLen : Nat) (offset : UInt64) (len : UInt32) :
    Decidable (rangeInBlob blobLen offset len) :=
  inferInstanceAs (Decidable (_ ∧ _))

/-- A file of fixed-width entries, each with its two ranges: the number of entries is the header's,
and every range lies within its blob. -/
def checkEntries {α : Type} {width : Nat} (layout : FixedLayout α width) (file : String)
    (count : UInt64) (data : Bytes) (mismatch : Nat → MmapIndexError)
    (outOfBounds : Nat → String → MmapIndexError)
    (ranges : α → List (String × Nat × UInt64 × UInt32)) : Checked MmapIndexError Unit := do
  Checked.failIf (data.length % width ≠ 0) (mismatch (data.length / width))
  Checked.failIf (data.length / width ≠ count.toNat) (mismatch (data.length / width))
  ensureAligned file 0
  (List.range count.toNat).forM fun i => do
    let offset ← Checked.usizeMul i width
    let entry ← layout.castAt offset data
    (ranges entry).forM fun (blob, blobLen, offset, len) =>
      Checked.failIf (¬rangeInBlob blobLen offset len) (outOfBounds i blob)

/-- The text and title ranges of an entry. -/
def metaRanges (textLen titleLen : Nat) (entry : MetaRecord) :
    List (String × Nat × UInt64 × UInt32) :=
  [("text", textLen, entry.textOffset, entry.textLen),
    ("title", titleLen, entry.titleOffset, entry.titleLen)]

/-- The doc id and metadata ranges of a sidecar entry. -/
def metaExtRanges (docidLen metaJsonLen : Nat) (entry : MetaExtRecord) :
    List (String × Nat × UInt64 × UInt32) :=
  [("docid", docidLen, entry.docidOffset, entry.docidLen),
    ("meta_json", metaJsonLen, entry.metaJsonOffset, entry.metaJsonLen)]

/-- The sidecars, which v2 images do not have. -/
def loadSidecars (dir : ReleaseDir) (header : TurboHeader) :
    KnownRecordLayout → Checked MmapIndexError (Option Sidecars)
  | .v2Dim512 => .ok none
  | .v3Dim512 | .v4Dim512 => do
      let metaExt ← mmapFile dir "turbo_static_meta_ext.bin"
      let docid ← mmapFile dir "turbo_static_docid.bin"
      let metaJson ← mmapFile dir "turbo_static_meta_json.bin"
      checkEntries MetaExtRecord.layout "turbo_static_meta_ext.bin" header.recordCount metaExt
        (.metaExtCountMismatch header.recordCount) .metaExtBlobOutOfBounds
        (metaExtRanges docid.length metaJson.length)
      return some { metaExt, docid, metaJson }

/-- `load_legacy_codec`. -/
def loadLegacyCodec (dir : ReleaseDir) (header : TurboHeader) :
    Checked MmapIndexError IndexCodec := do
  let centroidsBytes ← mmapFile dir "centroids.bin"
  let projectionBytes ← mmapFile dir "projection.bin"
  let centroids ← (CentroidTable.fromBytes centroidsBytes).mapErr (.asset "centroids.bin")
  Checked.failIf (centroids.dim ≠ header.dim)
    (.assetDimensionMismatch "centroids.bin" header.dim centroids.dim)
  Checked.failIf (centroids.centroidsPerDim ≠ TurboQuantConfig.legacyV1.centroidsPerDim)
    (.unsupportedLegacyAsset "centroids.bin" "centroids_per_dim"
      TurboQuantConfig.legacyV1.centroidsPerDim centroids.centroidsPerDim)
  let projection ← (ProjectionMatrix.fromBytes projectionBytes).mapErr (.asset "projection.bin")
  Checked.failIf (projection.inputDim ≠ header.dim)
    (.assetDimensionMismatch "projection.bin" header.dim projection.inputDim)
  Checked.failIf (projection.outputDim ≠ header.dim)
    (.assetDimensionMismatch "projection.bin" header.dim projection.outputDim)
  return .legacy centroids projection

/-- `load_prod_codec`: the config is read back from the assets' own headers. -/
def loadProdCodec (sha : Sha256) (dir : ReleaseDir) (header : TurboHeader) :
    Checked MmapIndexError IndexCodec := do
  let rotationBytes ← mmapFile dir "rotation.bin"
  let codebookBytes ← mmapFile dir "codebook.bin"
  let qjlBytes ← mmapFile dir "qjl.bin"
  let rotation ← (Rotation.fromBytes rotationBytes).mapErr (.asset "rotation.bin")
  let codebook ← (LloydMaxCodebook.fromBytes codebookBytes).mapErr (.asset "codebook.bin")
  let qjl ← (QjlMatrix.fromBytes qjlBytes).mapErr (.asset "qjl.bin")
  let config : TurboQuantConfig := {
    codecId := .turboQuantProdV1
    dim := header.dim
    mseBits := codebook.bits
    qjlDim := qjl.qjlDim
    mseSeed := rotation.seed
    qjlSeed := qjl.seed
    generatorVersion := rotation.generatorVersion
    normPolicy := .normalizeAndStore }
  let codec ← (Checked.lifted (TurboQuantProdV1.fromAssets config rotation codebook qjl)).mapErr
    MmapIndexError.codec
  Checked.failIf (¬TurboProdRecord512.holdsCodesOf codec)
    (.unsupportedCodeLayout codec.idxLen codec.signsLen)
  let actual := config.fingerprint sha
    [("rotation.bin", rotationBytes), ("codebook.bin", codebookBytes), ("qjl.bin", qjlBytes)]
  match header.codec with
  | some expected =>
      if expected.fingerprint.val = actual then return .prod codec
      else Checked.fail (.codecFingerprintMismatch expected.fingerprint.val actual)
  | none => Checked.fail (.codecFingerprintMismatch (List.replicate 8 0) actual)

/-- The codec of a layout. -/
def loadCodec (sha : Sha256) (dir : ReleaseDir) (header : TurboHeader) :
    KnownRecordLayout → Checked MmapIndexError IndexCodec
  | .v2Dim512 | .v3Dim512 => loadLegacyCodec dir header
  | .v4Dim512 => loadProdCodec sha dir header

/-- `MmapIndex::load`. -/
def load (sha : Sha256) (dir : ReleaseDir) : Checked MmapIndexError MmapIndex := do
  let bin ← mmapFile dir "turbo_static.bin"
  Checked.failIf (bin.length < TurboHeader.size)
    (.fileSizeMismatch "turbo_static.bin" TurboHeader.size bin.length)
  let headerBytes ← Checked.slice 0 TurboHeader.size bin
  let header ← (TurboHeader.fromBytes headerBytes).mapErr MmapIndexError.header
  let layout ← (Checked.lifted (KnownRecordLayout.fromHeader header)).mapErr MmapIndexError.header
  let metaRecords ← mmapFile dir "turbo_static_meta.bin"
  let text ← mmapFile dir "turbo_static_text.bin"
  let title ← mmapFile dir "turbo_static_title.bin"
  let expected ← (Checked.lifted header.expectedFileSize).mapErr MmapIndexError.header
  Checked.failIf (bin.length ≠ expected)
    (.fileSizeMismatch "turbo_static.bin" expected bin.length)
  ensureAligned "turbo_static.bin" TurboHeader.size
  checkEntries MetaRecord.layout "turbo_static_meta.bin" header.recordCount metaRecords
    (.metaCountMismatch header.recordCount) .metaBlobOutOfBounds
    (metaRanges text.length title.length)
  let sidecars ← loadSidecars dir header layout
  let codec ← loadCodec sha dir header layout
  return { header, layout, bin, metaRecords, text, title, sidecars, codec }

/-! ## Accessors -/

/-- `TurboRecordRef`. -/
structure TurboRecordRef where
  data : Bytes
  layout : KnownRecordLayout

namespace TurboRecordRef

variable {ε : Type} (record : TurboRecordRef)

/-- `doc_id`: both layouts keep it at the front. -/
def docId : Checked ε UInt64 := u64At 0 record.data

/-- `idx`. -/
def idx : Checked ε Bytes := Checked.slice 8 (8 + 128) record.data

/-- `qjl`. -/
def qjl : Checked ε Bytes := Checked.slice 136 (136 + 64) record.data

/-- `f32::from_le_bytes(data[start..start + 4].try_into().unwrap())`. -/
def float (start : Nat) : Checked ε F32 := do
  let bytes ← Checked.slice start (start + 4) record.data
  return f32OfBytes bytes

/-- `gamma`. -/
def gamma : Checked ε F32 := record.float 200

/-- `norm`: v2 and v3 store none. -/
def norm : Checked ε (Option F32) :=
  match record.layout with
  | .v2Dim512 | .v3Dim512 => .ok none
  | .v4Dim512 => some <$> record.float 204

end TurboRecordRef

/-- `TurboRecordSlice`. -/
inductive TurboRecordSlice where
  | v2Dim512 (records : List TurboRecord512)
  | v4Dim512 (records : List TurboProdRecord512)

variable (index : MmapIndex)

def recordCount : Nat := index.header.recordCount.toNat

def dim : UInt32 := index.header.dim

def version : UInt32 := index.header.version

/-- `has_doc_sidecars`. -/
def hasDocSidecars : Bool := index.sidecars.isSome

variable {ε : Type}

/-- `record_data`. -/
def recordData : Checked ε Bytes := Checked.slice TurboHeader.size index.bin.length index.bin

/-- `record`. -/
def record (i : Nat) : Checked ε TurboRecordRef := do
  Checked.assertThat (i < index.recordCount) "record index out of bounds"
  let start ← Checked.usizeMul i index.layout.recordSize
  let stop ← Checked.usizeAdd start index.layout.recordSize
  let data ← index.recordData
  let bytes ← Checked.slice start stop data
  Checked.assertThat (index.layout.recordSize ≤ bytes.length) "record buffer too small"
  return { data := bytes, layout := index.layout }

/-- `records`. -/
def records : Checked ε TurboRecordSlice := do
  let bytes ← index.recordData
  match index.layout with
  | .v2Dim512 | .v3Dim512 =>
      return .v2Dim512 (← TurboRecord512.layout.castAll index.recordCount bytes)
  | .v4Dim512 => return .v4Dim512 (← TurboProdRecord512.layout.castAll index.recordCount bytes)

/-- `meta`. -/
def metaAt (i : Nat) : Checked ε MetaRecord := do
  Checked.assertThat (i < index.recordCount) "meta index out of bounds"
  let offset ← Checked.usizeMul i 40
  MetaRecord.layout.castAt offset index.metaRecords

/-- The UTF-8 text of a range of a blob. -/
def textFromBlob (offset : UInt64) (len : UInt32) (blob : Bytes) (invalid : ε) :
    Checked ε String := do
  let stop ← Checked.usizeAdd offset.toNat len.toNat
  let bytes ← Checked.slice offset.toNat stop blob
  Checked.lifted (TurboQuantConfig.okOr invalid (fromUtf8 bytes))

/-- `text`. -/
def textAt (i : Nat) : Checked MmapIndexError String := do
  let entry ← index.metaAt i
  textFromBlob entry.textOffset entry.textLen index.text (.metaBlobInvalidUtf8 i "text")

/-- `title`. -/
def titleAt (i : Nat) : Checked MmapIndexError (Option String) := do
  let entry ← index.metaAt i
  if entry.titleLen = 0 then return none
  else
    some <$> textFromBlob entry.titleOffset entry.titleLen index.title
      (.metaBlobInvalidUtf8 i "title")

/-- `meta_ext_record`. -/
def metaExtRecord (i : Nat) : Checked ε (Option (Sidecars × MetaExtRecord)) :=
  match index.sidecars with
  | none => .ok none
  | some sidecars =>
      if index.recordCount ≤ i then .ok none
      else do
        let offset ← Checked.usizeMul i 24
        let entry ← MetaExtRecord.layout.castAt offset sidecars.metaExt
        return some (sidecars, entry)

/-- `original_doc_id`. -/
def originalDocId (i : Nat) : Checked MmapIndexError (Option String) := do
  match ← index.metaExtRecord i with
  | none => return none
  | some (sidecars, entry) =>
      some <$> textFromBlob entry.docidOffset entry.docidLen sidecars.docid
        (.metaExtBlobInvalidUtf8 i "docid")

/-- `metadata_json`. -/
def metadataJson (i : Nat) : Checked MmapIndexError (Option String) := do
  match ← index.metaExtRecord i with
  | none => return none
  | some (sidecars, entry) =>
      some <$> textFromBlob entry.metaJsonOffset entry.metaJsonLen sidecars.metaJson
        (.metaExtBlobInvalidUtf8 i "meta_json")

/-- `check_utf8`. -/
def checkUtf8 : Checked MmapIndexError Unit :=
  (List.range index.recordCount).forM fun i => do
    let _ ← index.textAt i
    let _ ← index.titleAt i
    let _ ← index.originalDocId i
    let _ ← index.metadataJson i

end MmapIndex

end LTSearch
