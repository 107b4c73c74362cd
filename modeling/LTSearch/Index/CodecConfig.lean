/-
# LTSearch.Index.CodecConfig -- which codec, and every parameter that determines its bytes

A `TurboQuantConfig` names a codec and the parameters of its assets.  It has three representations
outside memory: the codec section of a release manifest, one for each of the two release versions,
and the fingerprint that a v4 header carries.  SHA-256 is code outside the repository and stays a
parameter.
-/
import LTSearch.Foundation.Bytes
import LTSearch.Foundation.Checks

namespace LTSearch

open LTSearch.Foundation

/-! ## Digests -/

/-- SHA-256. -/
structure Sha256 where
  digest : Bytes → Bytes
  length_digest : ∀ bytes, (digest bytes).length = 32

/-- The two hexadecimal digits of a byte. -/
def hexByte (b : UInt8) : List Char := [Nat.digitChar (b.toNat / 16), Nat.digitChar (b.toNat % 16)]

/-- `hex::encode`. -/
def hexEncode (bytes : Bytes) : String := String.ofList (bytes.flatMap hexByte)

/-- `sha256_hex`. -/
def sha256Hex (sha : Sha256) (bytes : Bytes) : String := hexEncode (sha.digest bytes)

/-- The bytes of a text. -/
def utf8 (s : String) : Bytes := s.toUTF8.data.toList

/-! ## Codec ids and norm policies -/

inductive TurboCodecId where
  | legacy3BitV1
  | turboQuantProdV1
  deriving DecidableEq, Repr

inductive NormPolicy where
  | asIs
  | normalizeAndStore
  deriving DecidableEq, Repr

namespace TurboCodecId

def all : List TurboCodecId := [legacy3BitV1, turboQuantProdV1]

def code : TurboCodecId → UInt32
  | legacy3BitV1 => 1
  | turboQuantProdV1 => 2

def fromCode (code : UInt32) : Option TurboCodecId :=
  if code = 1 then some legacy3BitV1 else if code = 2 then some turboQuantProdV1 else none

def name : TurboCodecId → String
  | legacy3BitV1 => "legacy_3bit_v1"
  | turboQuantProdV1 => "turbo_quant_prod_v1"

def fromName (name : String) : Option TurboCodecId := all.find? fun codec => codec.name = name

/-- Both codecs have one record layout, 512 dimensions wide. -/
def supportsDim (_ : TurboCodecId) (dim : UInt32) : Bool := dim = 512

/-- The one norm policy each codec implements. -/
def normPolicy : TurboCodecId → NormPolicy
  | legacy3BitV1 => .asIs
  | turboQuantProdV1 => .normalizeAndStore

theorem fromCode_code (codec : TurboCodecId) : fromCode codec.code = some codec := by
  cases codec <;> rfl

theorem fromName_name (codec : TurboCodecId) : fromName codec.name = some codec := by
  cases codec <;> rfl

end TurboCodecId

namespace NormPolicy

def all : List NormPolicy := [asIs, normalizeAndStore]

def code : NormPolicy → UInt8
  | asIs => 0
  | normalizeAndStore => 1

def name : NormPolicy → String
  | asIs => "as_is"
  | normalizeAndStore => "normalize_and_store"

def fromName (name : String) : Option NormPolicy := all.find? fun policy => policy.name = name

/-- `{:?}`. -/
def debug : NormPolicy → String
  | asIs => "AsIs"
  | normalizeAndStore => "NormalizeAndStore"

theorem fromName_name (policy : NormPolicy) : fromName policy.name = some policy := by
  cases policy <;> rfl

end NormPolicy

/-! ## `{:?}` of a text -/

/-- A character of a text in `{:?}`, escaped where it cannot be printed.  Beyond Latin-1 the tables of
what can be printed are not in the source; such a character stands for itself. -/
def escapeDebug (c : Char) : String :=
  if c = '"' then "\\\""
  else if c = '\\' then "\\\\"
  else if c.toNat = 0 then "\\0"
  else if c = '\t' then "\\t"
  else if c = '\n' then "\\n"
  else if c = '\r' then "\\r"
  else if c.toNat < 32 ∨ 127 ≤ c.toNat ∧ c.toNat ≤ 160 ∨ c.toNat = 173 then
    "\\u\x7b" ++ String.ofList (Nat.toDigits 16 c.toNat) ++ "\x7d"
  else String.singleton c

/-- `{:?}` of a text. -/
def debugText (text : String) : String :=
  "\"" ++ text.toList.foldr (fun c rest => escapeDebug c ++ rest) "\""

example : debugText "a\x7f\t\"" = "\"a\\u\x7b7f\x7d\\t\\\"\"" := by decide

/-! ## The config -/

inductive TurboQuantConfigError where
  | zeroDim
  | unsupportedMseBits (mseBits : UInt8)
  | zeroQjlDim
  | unsupportedDim (codecId : TurboCodecId) (dim : UInt32)
  | unsupportedNormPolicy (codecId : TurboCodecId) (normPolicy : NormPolicy)
  | unsupportedLegacyLayout (mseBits : UInt8) (qjlDim : UInt32)
  | notAV3Codec (codecId : TurboCodecId)
  | notAV4Codec (codecId : TurboCodecId)
  | unknownCodecName (name : String)
  | unknownNormPolicyName (name : String)
  deriving DecidableEq

def TurboQuantConfigError.display : TurboQuantConfigError → String
  | zeroDim => "dim must be positive"
  | unsupportedMseBits mseBits => s!"mse_bits must be in 1..=4, got {mseBits}"
  | zeroQjlDim => "qjl_dim must be positive"
  | unsupportedDim codecId dim => s!"codec {codecId.name} does not support dim {dim}"
  | unsupportedNormPolicy codecId normPolicy =>
      s!"codec {codecId.name} requires norm policy {codecId.normPolicy.debug}, got {normPolicy.debug}"
  | unsupportedLegacyLayout mseBits qjlDim =>
      s!"codec {TurboCodecId.legacy3BitV1.name} requires mse_bits 2 and qjl_dim == dim, got mse_bits {mseBits} and qjl_dim {qjlDim}"
  | notAV3Codec codecId => s!"codec {codecId.name} has no v3 manifest representation"
  | notAV4Codec codecId => s!"codec {codecId.name} has no v4 manifest representation"
  | unknownCodecName name => "unknown codec_id " ++ debugText name
  | unknownNormPolicyName name => "unknown norm_policy " ++ debugText name

/-- The codec section of a v3 manifest. -/
structure CodecMetadata where
  dim : UInt32
  centroidsPerDim : UInt32
  centroidsSeed : UInt64
  projectionSeed : UInt64
  deriving DecidableEq, Repr

/-- The codec section of a v4 manifest. -/
structure V4CodecMetadata where
  codecId : String
  dim : UInt32
  mseBits : UInt8
  qjlDim : UInt32
  rotationSeed : UInt64
  qjlSeed : UInt64
  generatorVersion : UInt32
  normPolicy : String
  deriving DecidableEq, Repr

structure TurboQuantConfig where
  codecId : TurboCodecId
  dim : UInt32
  mseBits : UInt8
  qjlDim : UInt32
  mseSeed : UInt64
  qjlSeed : UInt64
  generatorVersion : UInt32
  normPolicy : NormPolicy
  deriving DecidableEq, Repr

/-- `GAUSSIAN_GENERATOR_VERSION`. -/
def gaussianGeneratorVersion : UInt32 := 1

namespace TurboQuantConfig

/-- `TurboQuantConfig::legacy_v1`. -/
def legacyV1 : TurboQuantConfig where
  codecId := .legacy3BitV1
  dim := 512
  mseBits := 2
  qjlDim := 512
  mseSeed := 7
  qjlSeed := 11
  generatorVersion := 0
  normPolicy := .asIs

/-- `TurboQuantConfig::prod_v1`. -/
def prodV1 : TurboQuantConfig where
  codecId := .turboQuantProdV1
  dim := 512
  mseBits := 2
  qjlDim := 512
  mseSeed := 163
  qjlSeed := 165
  generatorVersion := gaussianGeneratorVersion
  normPolicy := .normalizeAndStore

/-- `centroids_per_dim`, of a config whose `mse_bits` is below 32. -/
def centroidsPerDim (config : TurboQuantConfig) : UInt32 := 1 <<< config.mseBits.toUInt32

def validate (config : TurboQuantConfig) : Except TurboQuantConfigError Unit := do
  rejectIf (config.dim = 0) .zeroDim
  rejectIf (¬(1 ≤ config.mseBits ∧ config.mseBits ≤ 4)) (.unsupportedMseBits config.mseBits)
  rejectIf (config.qjlDim = 0) .zeroQjlDim
  rejectIf (config.codecId.supportsDim config.dim = false)
    (.unsupportedDim config.codecId config.dim)
  rejectIf (config.normPolicy ≠ config.codecId.normPolicy)
    (.unsupportedNormPolicy config.codecId config.normPolicy)
  rejectIf (config.codecId = .legacy3BitV1 ∧ (config.mseBits ≠ 2 ∨ config.qjlDim ≠ config.dim))
    (.unsupportedLegacyLayout config.mseBits config.qjlDim)

/-- `to_v3_codec_metadata`. -/
def toV3CodecMetadata (config : TurboQuantConfig) :
    Except TurboQuantConfigError CodecMetadata := do
  config.validate
  rejectIf (config.codecId ≠ .legacy3BitV1) (.notAV3Codec config.codecId)
  return {
    dim := config.dim
    centroidsPerDim := config.centroidsPerDim
    centroidsSeed := config.mseSeed
    projectionSeed := config.qjlSeed }

/-- `to_v4_codec_metadata`. -/
def toV4CodecMetadata (config : TurboQuantConfig) :
    Except TurboQuantConfigError V4CodecMetadata := do
  config.validate
  rejectIf (config.codecId ≠ .turboQuantProdV1) (.notAV4Codec config.codecId)
  return {
    codecId := config.codecId.name
    dim := config.dim
    mseBits := config.mseBits
    qjlDim := config.qjlDim
    rotationSeed := config.mseSeed
    qjlSeed := config.qjlSeed
    generatorVersion := config.generatorVersion
    normPolicy := config.normPolicy.name }

/-- `ok_or_else`. -/
def okOr {ε α : Type} (e : ε) : Option α → Except ε α
  | some a => .ok a
  | none => .error e

/-- `from_v4_codec_metadata`. -/
def fromV4CodecMetadata (codec : V4CodecMetadata) :
    Except TurboQuantConfigError TurboQuantConfig := do
  let codecId ← okOr (.unknownCodecName codec.codecId) (TurboCodecId.fromName codec.codecId)
  let normPolicy ← okOr (.unknownNormPolicyName codec.normPolicy)
    (NormPolicy.fromName codec.normPolicy)
  rejectIf (codecId ≠ .turboQuantProdV1) (.notAV4Codec codecId)
  let config : TurboQuantConfig := {
    codecId
    dim := codec.dim
    mseBits := codec.mseBits
    qjlDim := codec.qjlDim
    mseSeed := codec.rotationSeed
    qjlSeed := codec.qjlSeed
    generatorVersion := codec.generatorVersion
    normPolicy }
  config.validate
  return config

/-- `canonical_bytes`. -/
def canonicalBytes (config : TurboQuantConfig) : Bytes :=
  u32le config.codecId.code ++ u32le config.dim ++ [config.mseBits] ++ u32le config.qjlDim ++
    u64le config.mseSeed ++ u64le config.qjlSeed ++ u32le config.generatorVersion ++
    [config.normPolicy.code]

/-- An asset file: its name and its bytes. -/
abbrev AssetFile := String × Bytes

/-- What the fingerprint hashes of one asset file. -/
def fingerprintEntry (sha : Sha256) (file : AssetFile) : Bytes :=
  leBytes 8 (utf8 file.1).length ++ utf8 file.1 ++ sha.digest file.2

/-- `TurboQuantConfig::fingerprint`. -/
def fingerprint (sha : Sha256) (config : TurboQuantConfig) (assetFiles : List AssetFile) : Bytes :=
  let sorted := assetFiles.insertionSort fun a b => a.1 ≤ b.1
  (sha.digest (utf8 "ltsearch/turbo-codec-fingerprint/v1" ++ config.canonicalBytes ++
    sorted.flatMap (fingerprintEntry sha))).take 8

theorem length_fingerprint (sha : Sha256) (config : TurboQuantConfig) (files : List AssetFile) :
    (config.fingerprint sha files).length = 8 := by
  rw [fingerprint, List.length_take, sha.length_digest]
  rfl

/-! ## Valid configs -/

theorem okOr_eq_ok {ε α : Type} {e : ε} {x : Option α} {a : α} : okOr e x = .ok a ↔ x = some a := by
  cases x <;> simp [okOr]

/-- What `validate` establishes. -/
theorem validate_eq_ok {config : TurboQuantConfig} :
    config.validate = .ok () ↔ 1 ≤ config.mseBits ∧ config.mseBits ≤ 4 ∧ config.qjlDim ≠ 0 ∧
      config.dim = 512 ∧ config.normPolicy = config.codecId.normPolicy ∧
      (config.codecId = .legacy3BitV1 → config.mseBits = 2 ∧ config.qjlDim = config.dim) := by
  simp only [validate, check_bind_eq_ok, rejectIf_eq_ok, TurboCodecId.supportsDim, not_not,
    decide_eq_false_iff_not]
  constructor
  · rintro ⟨-, ⟨hlow, hhigh⟩, hqjl, hdim, hpolicy, hlegacy⟩
    refine ⟨hlow, hhigh, hqjl, hdim, hpolicy, fun hcodec => ?_⟩
    by_contra hlayout
    exact hlegacy ⟨hcodec, not_and_or.mp hlayout⟩
  · rintro ⟨hlow, hhigh, hqjl, hdim, hpolicy, hlegacy⟩
    refine ⟨?_, ⟨hlow, hhigh⟩, hqjl, hdim, hpolicy, ?_⟩
    · rw [hdim]
      decide
    · rintro ⟨hcodec, hlayout⟩
      exact not_and_or.mpr hlayout (hlegacy hcodec)

/-- The v4 section of a config reads back as the config. -/
theorem fromV4_toV4 {config : TurboQuantConfig} {codec : V4CodecMetadata}
    (h : config.toV4CodecMetadata = .ok codec) : fromV4CodecMetadata codec = .ok config := by
  simp only [toV4CodecMetadata, check_bind_eq_ok, rejectIf_eq_ok, not_not] at h
  obtain ⟨hvalid, hcodec, h⟩ := h
  cases h
  simp only [fromV4CodecMetadata, bind_eq_ok, okOr_eq_ok, rejectIf_eq_ok, not_not]
  exact ⟨config.codecId, TurboCodecId.fromName_name _, config.normPolicy,
    NormPolicy.fromName_name _, (), hcodec, (), hvalid, rfl⟩

end TurboQuantConfig

end LTSearch
