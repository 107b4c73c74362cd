/-
# LTSearch.Index.Header -- the 32 bytes in front of the records

The header says which version wrote the file, how many records follow and, from v4 on, which codec
they were encoded with.  A `KnownRecordLayout` is a version and dimension that this build has a
record type for.
-/
import LTSearch.Foundation.Bytes
import LTSearch.Foundation.Checked
import LTSearch.Foundation.Layout
import LTSearch.Index.CodecConfig
import LTSearch.Index.Assets

namespace LTSearch

open LTSearch.Foundation

/-! ## The header -/

/-- `TURBO_MAGIC`. -/
def turboMagic : Bytes := [0x54, 0x51, 0x4E, 0x54]

def turboVersionV2 : UInt32 := 2
def turboVersionV3 : UInt32 := 3
def turboVersionV4 : UInt32 := 4

/-- What a v4 header says about the codec of its records. -/
structure HeaderCodec where
  codecId : TurboCodecId
  fingerprint : FixedBytes 8
  deriving DecidableEq

structure TurboHeader where
  version : UInt32
  dim : UInt32
  recordCount : UInt64
  codec : Option HeaderCodec
  deriving DecidableEq

inductive TurboHeaderError where
  | invalidSize (expected actual : Nat)
  | invalidMagic (actual : Bytes)
  | invalidDim
  | unsupportedVersion (version : UInt32)
  | unsupportedLayout (version dim : UInt32)
  | recordCountOverflow (recordCount : UInt64)
  | unknownCodec (code : UInt32)
  | unsupportedCodec (version : UInt32) (codecId : TurboCodecId)
  deriving DecidableEq

def TurboHeaderError.display : TurboHeaderError → String
  | invalidSize expected actual => s!"header size mismatch: expected {expected}, got {actual}"
  | invalidMagic actual => s!"invalid magic bytes: {debugBytes actual}"
  | invalidDim => "dim must be positive"
  | unsupportedVersion version =>
      s!"unsupported version: {version} (this build reads versions 2 to 4" ++
        (if turboVersionV4 < version then
          s!"; deploy a build that reads version {version} before activating this release"
        else "") ++ ")"
  | unsupportedLayout version dim =>
      s!"unsupported turbo record layout: version={version}, dim={dim}"
  | recordCountOverflow recordCount => s!"record count {recordCount} overflows the file size"
  | unknownCodec code => s!"unknown codec code: {code}"
  | unsupportedCodec version codecId => s!"version {version} does not hold {codecId.name} records"

inductive KnownRecordLayout where
  | v2Dim512
  | v3Dim512
  | v4Dim512
  deriving DecidableEq, Repr

namespace KnownRecordLayout

/-- `KnownRecordLayout::from_header`. -/
def fromHeader (header : TurboHeader) : Except TurboHeaderError KnownRecordLayout :=
  if header.version = turboVersionV2 ∧ header.dim = 512 then .ok v2Dim512
  else if header.version = turboVersionV3 ∧ header.dim = 512 then .ok v3Dim512
  else if header.version = turboVersionV4 ∧ header.dim = 512 then
    match header.codec with
    | some codec =>
        if codec.codecId = .turboQuantProdV1 then .ok v4Dim512
        else .error (.unsupportedCodec turboVersionV4 codec.codecId)
    | none => .error (.unknownCodec 0)
  else .error (.unsupportedLayout header.version header.dim)

/-- The version whose records have this layout. -/
def version : KnownRecordLayout → UInt32
  | v2Dim512 => turboVersionV2
  | v3Dim512 => turboVersionV3
  | v4Dim512 => turboVersionV4

/-- `record_size`: both record types have 208 bytes. -/
def recordSize (_ : KnownRecordLayout) : Nat := 208

end KnownRecordLayout

namespace TurboHeader

/-- `TurboHeader::SIZE`. -/
def size : Nat := 32

/-- `new_v3`. -/
def newV3 (dim : UInt32) (recordCount : UInt64) : TurboHeader where
  version := turboVersionV3
  dim := dim
  recordCount := recordCount
  codec := none

/-- `new_v4`. -/
def newV4 (dim : UInt32) (recordCount : UInt64) (codec : HeaderCodec) : TurboHeader where
  version := turboVersionV4
  dim := dim
  recordCount := recordCount
  codec := some codec

/-- `expected_file_size`, in `u64`. -/
def expectedFileSize (header : TurboHeader) : Except TurboHeaderError Nat := do
  let layout ← KnownRecordLayout.fromHeader header
  rejectIf (2 ^ 64 ≤ header.recordCount.toNat * layout.recordSize)
    (.recordCountOverflow header.recordCount)
  rejectIf (2 ^ 64 ≤ header.recordCount.toNat * layout.recordSize + size)
    (.recordCountOverflow header.recordCount)
  return header.recordCount.toNat * layout.recordSize + size

/-- The twelve bytes after the record count. -/
def codecBytes : Option HeaderCodec → Bytes
  | some codec => u32le codec.codecId.code ++ codec.fingerprint.val
  | none => List.replicate 12 0

def toBytes (header : TurboHeader) : Bytes :=
  turboMagic ++ (u32le header.version ++ (u32le header.dim ++ (u64le header.recordCount ++
    codecBytes header.codec)))

/-- The codec of a v4 header. -/
def readCodec (buf : Bytes) : Checked TurboHeaderError HeaderCodec := do
  let code ← u32At 20 buf
  let codecId ← Checked.lifted (TurboQuantConfig.okOr (TurboHeaderError.unknownCodec code)
    (TurboCodecId.fromCode code))
  let fingerprint ← fixedAt 8 24 buf
  return { codecId, fingerprint }

/-- Only a v4 header has one. -/
def readCodecOf (version : UInt32) (buf : Bytes) :
    Checked TurboHeaderError (Option HeaderCodec) :=
  if version = turboVersionV4 then some <$> readCodec buf else .ok none

def fromBytes (buf : Bytes) : Checked TurboHeaderError TurboHeader := do
  Checked.failIf (buf.length < size) (.invalidSize size buf.length)
  let magic ← Checked.slice 0 4 buf
  Checked.failIf (magic ≠ turboMagic) (.invalidMagic magic)
  let version ← u32At 4 buf
  Checked.failIf (¬(version = turboVersionV2 ∨ version = turboVersionV3 ∨
    version = turboVersionV4)) (.unsupportedVersion version)
  let dim ← u32At 8 buf
  Checked.failIf (dim = 0) .invalidDim
  let recordCount ← u64At 12 buf
  let codec ← readCodecOf version buf
  return { version, dim, recordCount, codec }

theorem length_codecBytes (codec : Option HeaderCodec) : (codecBytes codec).length = 12 := by
  cases codec with
  | none => rfl
  | some codec => rw [codecBytes, List.length_append, codec.fingerprint.property, length_u32le]

@[simp]
theorem length_toBytes (header : TurboHeader) : header.toBytes.length = 32 := by
  have hmagic : turboMagic.length = 4 := rfl
  simp only [toBytes, List.length_append, hmagic, length_u32le, length_u64le, length_codecBytes]

theorem total_readCodec {buf : Bytes} (h : size ≤ buf.length) : Total (readCodec buf) := by
  have hlen : 32 ≤ buf.length := h
  refine (total_u32At (by omega)).bind fun _ _ => ?_
  refine (Total.lifted _).bind fun _ _ => ?_
  exact (total_fixedAt (by omega)).bind fun _ _ => .ok _

theorem total_fromBytes (buf : Bytes) : Total (fromBytes buf) := by
  refine (Total.failIf _ _).bind fun _ hlong => ?_
  have hlen : 32 ≤ buf.length := not_lt.mp (failIf_eq_ok.mp hlong)
  refine (Total.slice (by omega) (by omega)).bind fun _ _ => ?_
  refine (Total.failIf _ _).bind fun _ _ => ?_
  refine (total_u32At (by omega)).bind fun _ _ => ?_
  refine (Total.failIf _ _).bind fun _ _ => ?_
  refine (total_u32At (by omega)).bind fun _ _ => ?_
  refine (Total.failIf _ _).bind fun _ _ => ?_
  refine (total_u64At (by omega)).bind fun _ _ => ?_
  refine Total.bind ?_ fun _ _ => .ok _
  exact Total.ite (fun _ => (total_readCodec hlen).map) fun _ => .ok _

/-- A header that the reader can return: the codec is there exactly from v4 on. -/
structure Readable (header : TurboHeader) : Prop where
  version : header.version = turboVersionV2 ∨ header.version = turboVersionV3 ∨
    header.version = turboVersionV4
  dim : header.dim ≠ 0
  codec : header.codec.isSome ↔ header.version = turboVersionV4

/-- A header reads back from its bytes. -/
theorem fromBytes_toBytes {header : TurboHeader} (h : header.Readable) :
    fromBytes header.toBytes = .ok header := by
  have hmagic : turboMagic.length = 4 := rfl
  have hfields : readU32 4 header.toBytes = header.version ∧
      readU32 8 header.toBytes = header.dim ∧ readU64 12 header.toBytes = header.recordCount := by
    refine ⟨?_, ?_, ?_⟩ <;>
      simp [toBytes, readU32_skip, readU64_skip, hmagic, readU32_u32le, readU64_u64le]
  simp only [fromBytes, bind_eq_ok, failIf_eq_ok, slice_eq_ok, u32At_eq_ok, u64At_eq_ok,
    length_toBytes, not_not]
  refine ⟨(), by simp only [size]; omega, turboMagic, ⟨⟨by omega, by omega⟩, ?_⟩, (), rfl, _,
    ⟨by omega, hfields.1⟩, (), h.version, _, ⟨by omega, hfields.2.1⟩, (), h.dim, _,
    ⟨by omega, hfields.2.2⟩, header.codec, ?_, rfl⟩
  · exact window_append_self hmagic
  · unfold readCodecOf
    cases hcodec : header.codec with
    | none =>
        have hv : header.version ≠ turboVersionV4 := fun hv => by
          have := h.codec.mpr hv
          rw [hcodec] at this
          cases this
        rw [if_neg hv]
    | some codec =>
        have hv : header.version = turboVersionV4 := h.codec.mp (by rw [hcodec]; rfl)
        have hcode : readU32 20 header.toBytes = codec.codecId.code := by
          simp [toBytes, codecBytes, hcodec, readU32_skip, hmagic, readU32_u32le]
        have hprint : window 24 8 header.toBytes = codec.fingerprint.val := by
          simp [toBytes, codecBytes, hcodec, window_skip, hmagic,
            window_self codec.fingerprint.property]
        have hread : readCodec header.toBytes = .ok codec := by
          simp only [readCodec, bind_eq_ok, u32At_eq_ok, lifted_eq_ok, TurboQuantConfig.okOr_eq_ok,
            fixedAt_eq_ok, length_toBytes]
          exact ⟨_, ⟨by omega, hcode⟩, _, TurboCodecId.fromCode_code _, codec.fingerprint,
            ⟨by omega, hprint⟩, rfl⟩
        rw [if_pos hv, hread]
        rfl

end TurboHeader

/-- What a layout says of its header. -/
theorem KnownRecordLayout.fromHeader_eq_ok {header : TurboHeader} {layout : KnownRecordLayout}
    (h : fromHeader header = .ok layout) : header.dim = 512 ∧ header.version = layout.version := by
  unfold fromHeader at h
  split at h
  · rename_i h2
    cases h
    exact ⟨h2.2, h2.1⟩
  split at h
  · rename_i h3
    cases h
    exact ⟨h3.2, h3.1⟩
  split at h
  · rename_i h4
    split at h
    · split at h
      · cases h
        exact ⟨h4.2, h4.1⟩
      · cases h
    · cases h
  · cases h

end LTSearch
