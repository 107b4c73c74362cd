/-
# LTSearch.Index.TurboProd -- the codec of v4 records

A vector is normalized, rotated and quantized coordinate by coordinate, and what quantization leaves
over is kept as one sign bit for each row of a random matrix.  A codec is a config with the three
assets it names; the checks that tie them together are fields of the type, so a codec in hand needs
no length or dimension checked again.
-/
import LTSearch.Index.Arith
import LTSearch.Index.CodecConfig
import LTSearch.Index.Record

namespace LTSearch

open LTSearch.Foundation

/-! ## Codes packed into bytes -/

/-- Code `j` of `bits` bits goes to byte `j / perByte`, above the codes before it in that byte. -/
def packCodes (perByte bits : Nat) (codes : List Nat) : Bytes :=
  codes.zipIdx.foldl
    (fun out code => out.modify (code.2 / perByte) fun byte =>
      byte ||| UInt8.ofNat (code.1 <<< (bits * (code.2 % perByte))))
    (List.replicate ((codes.length + (perByte - 1)) / perByte) 0)

/-- The code of `bits` bits in the place `slot` of a byte. -/
def unpackCode (bits : Nat) (byte : UInt8) (slot : Nat) : Fin (2 ^ bits) :=
  ⟨(byte.toNat >>> (bits * slot)) % 2 ^ bits, Nat.mod_lt _ (Nat.two_pow_pos bits)⟩

/-- A code of one bit may be compared with `1`. -/
instance neZero_codes : NeZero (2 ^ 1 : Nat) := ⟨by decide⟩

theorem length_packCodes (perByte bits : Nat) (codes : List Nat) :
    (packCodes perByte bits codes).length = (codes.length + (perByte - 1)) / perByte := by
  have hfold : ∀ (indexed : List (Nat × Nat)) (out : Bytes),
      (indexed.foldl (fun out code => out.modify (code.2 / perByte) fun byte =>
        byte ||| UInt8.ofNat (code.1 <<< (bits * (code.2 % perByte)))) out).length = out.length := by
    intro indexed
    induction indexed with
    | nil => exact fun _ => rfl
    | cons code rest ih => exact fun out => (ih _).trans (List.length_modify _ _ _)
  rw [packCodes, hfold, List.length_replicate]

/-! ## Multiplying by the matrices -/

/-- `check_len`. -/
def checkLen (expected actual : Nat) : Except AssetError Unit :=
  rejectIf (actual ≠ expected) (.dimensionMismatch expected actual)

/-- `Rotation::rotate`. -/
def Rotation.rotate (arith : FloatArith) (rotation : Rotation) (x : List F32) :
    Except AssetError (List F32) := do
  checkLen rotation.dim.toNat x.length
  return (rows rotation.dim.toNat x.length rotation.matrix.val).map fun row => arith.dot row x

/-- `QjlMatrix::encode`: the signs of the products with the rows. -/
def QjlMatrix.encode (arith : FloatArith) (qjl : QjlMatrix) (residual : List F32) :
    Except AssetError Bytes := do
  checkLen qjl.dim.toNat residual.length
  return packCodes 8 1 ((rows qjl.qjlDim.toNat residual.length qjl.values.val).map fun row =>
    if (arith.dot row residual).ge F32.zero then 1 else 0)

/-- `PreparedQjlQuery`. -/
structure PreparedQjlQuery where
  projected : List F32
  scale : F32

/-- `QjlMatrix::prepare_query`. -/
def QjlMatrix.prepareQuery (arith : FloatArith) (qjl : QjlMatrix) (query : List F32) :
    Except AssetError PreparedQjlQuery := do
  checkLen qjl.dim.toNat query.length
  return {
    projected := (rows qjl.qjlDim.toNat query.length qjl.values.val).map fun row =>
      arith.dot row query
    scale := arith.qjlScale qjl.qjlDim }

namespace PreparedQjlQuery

variable {ε : Type} (arith : FloatArith)

/-- `signed_sum`. -/
def signedSum (query : PreparedQjlQuery) (signs : Bytes) : Checked ε F32 := do
  Checked.assertThat (signs.length = (query.projected.length + 7) / 8)
    "sign code length doesn't match qjl_dim"
  return ((query.projected.toChunks 8).zip signs).foldl
    (fun sum chunk => chunk.1.zipIdx.foldl
      (fun sum value => arith.add sum
        (if unpackCode 1 chunk.2 value.2 = 1 then value.1 else value.1.neg)) sum)
    F32.zero

/-- `estimate`. -/
def estimate (query : PreparedQjlQuery) (signs : Bytes) (gamma : F32) : Checked ε F32 := do
  let sum ← query.signedSum arith signs
  return arith.mul (arith.mul gamma query.scale) sum

end PreparedQjlQuery

/-! ## The codec -/

inductive TurboProdError where
  | config (error : TurboQuantConfigError)
  | notTurboQuantProd (codecId : TurboCodecId)
  | unsupportedMseBits (mseBits : UInt8)
  | noCommittedCodebook (dim : UInt32) (mseBits : UInt8)
  | unsupportedGeneratorVersion (generatorVersion : UInt32)
  | assetMismatch (asset field : String) (expected actual : UInt64)
  | notTheCommittedCodebook
  | dimensionMismatch (expected actual : Nat)
  | nonFiniteInput
  | normOverflow
  deriving DecidableEq

def TurboProdError.display : TurboProdError → String
  | config error => s!"invalid codec config: {error.display}"
  | notTurboQuantProd codecId =>
      s!"codec {codecId.name} is not {TurboCodecId.turboQuantProdV1.name}"
  | unsupportedMseBits mseBits =>
      s!"{TurboCodecId.turboQuantProdV1.name} packs 2-bit indices, got mse_bits {mseBits}"
  | noCommittedCodebook dim mseBits =>
      s!"no committed codebook for dim {dim} and mse_bits {mseBits}"
  | unsupportedGeneratorVersion generatorVersion =>
      s!"cannot generate generator_version {generatorVersion} assets: this build's generators are version {gaussianGeneratorVersion}"
  | assetMismatch asset field expected actual =>
      s!"{asset} asset {field} mismatch: config expects {expected}, asset has {actual}"
  | notTheCommittedCodebook =>
      s!"codebook asset is not the committed codebook {TurboCodecId.turboQuantProdV1.name} is defined with"
  | dimensionMismatch expected actual => s!"dimension mismatch: expected {expected}, got {actual}"
  | nonFiniteInput => "vector contains a non-finite value"
  | normOverflow => "vector norm overflows f32"

namespace TurboQuantProdV1

def checkConfig (config : TurboQuantConfig) : Except TurboProdError Unit := do
  config.validate.mapError .config
  rejectIf (config.codecId ≠ .turboQuantProdV1) (.notTurboQuantProd config.codecId)
  rejectIf (config.mseBits ≠ 2) (.unsupportedMseBits config.mseBits)

/-- `committed_codebook`. -/
def committedCodebook (config : TurboQuantConfig) : Except TurboProdError LloydMaxCodebook :=
  TurboQuantConfig.okOr (.noCommittedCodebook config.dim config.mseBits)
    (LloydMaxCodebook.committed config.dim config.mseBits)

/-- The assets are the ones the config names, by shape, seed and generator version. -/
def checkAssets (config : TurboQuantConfig) (rotation : Rotation) (codebook : LloydMaxCodebook)
    (qjl : QjlMatrix) : Except TurboProdError Unit :=
  [("rotation", "dim", config.dim.toUInt64, rotation.dim.toUInt64),
    ("rotation", "seed", config.mseSeed, rotation.seed),
    ("rotation", "generator_version", config.generatorVersion.toUInt64,
      rotation.generatorVersion.toUInt64),
    ("codebook", "dim", config.dim.toUInt64, codebook.dim.toUInt64),
    ("codebook", "bits", config.mseBits.toUInt64, codebook.bits.toUInt64),
    ("qjl", "dim", config.dim.toUInt64, qjl.dim.toUInt64),
    ("qjl", "qjl_dim", config.qjlDim.toUInt64, qjl.qjlDim.toUInt64),
    ("qjl", "seed", config.qjlSeed, qjl.seed),
    ("qjl", "generator_version", config.generatorVersion.toUInt64,
      qjl.generatorVersion.toUInt64)].forM
    fun (asset, field, expected, actual) =>
      rejectIf (expected ≠ actual) (.assetMismatch asset field expected actual)

end TurboQuantProdV1

open TurboQuantProdV1 in
/-- A config and the assets that passed the checks against it. -/
structure TurboQuantProdV1 where
  config : TurboQuantConfig
  rotation : Rotation
  codebook : LloydMaxCodebook
  qjl : QjlMatrix
  config_ok : checkConfig config = .ok ()
  assets_ok : checkAssets config rotation codebook qjl = .ok ()
  committed : committedCodebook config = .ok codebook

/-- `EncodedTurboProd`. -/
structure EncodedTurboProd where
  idx : Bytes
  signs : Bytes
  gamma : F32
  norm : F32
  deriving DecidableEq

/-- `PreparedTurboProdQuery`. -/
structure PreparedTurboProdQuery where
  lut : List (Vector F32 4)
  qjl : PreparedQjlQuery

namespace TurboQuantProdV1

/-- `from_assets`.  Two codebooks with the committed bits are equal numbers and the other way round:
no committed centroid is a zero. -/
def fromAssets (config : TurboQuantConfig) (rotation : Rotation) (codebook : LloydMaxCodebook)
    (qjl : QjlMatrix) : Except TurboProdError TurboQuantProdV1 :=
  match hconfig : checkConfig config with
  | .error e => .error e
  | .ok () =>
    match hassets : checkAssets config rotation codebook qjl with
    | .error e => .error e
    | .ok () =>
      match hcommitted : committedCodebook config with
      | .error e => .error e
      | .ok committed =>
        if hsame : codebook = committed then .ok {
          config
          rotation
          codebook
          qjl
          config_ok := hconfig
          assets_ok := hassets
          committed := hsame ▸ hcommitted }
        else .error .notTheCommittedCodebook

/-- `generate`. -/
def generate (gen : Generators) (config : TurboQuantConfig) :
    Except TurboProdError TurboQuantProdV1 := do
  checkConfig config
  rejectIf (config.generatorVersion ≠ gaussianGeneratorVersion)
    (.unsupportedGeneratorVersion config.generatorVersion)
  let codebook ← committedCodebook config
  fromAssets config
    { dim := config.dim
      seed := config.mseSeed
      generatorVersion := gaussianGeneratorVersion
      matrix := gen.rotation config.dim config.mseSeed }
    codebook
    { dim := config.dim
      qjlDim := config.qjlDim
      seed := config.qjlSeed
      generatorVersion := gaussianGeneratorVersion
      values := gen.qjl config.dim config.qjlDim config.qjlSeed }

/-- `idx_len`. -/
def idxLen (codec : TurboQuantProdV1) : Nat := (codec.config.dim.toNat + 3) / 4

/-- `signs_len`. -/
def signsLen (codec : TurboQuantProdV1) : Nat := codec.qjl.signsLen

/-! ## What the checks establish -/

theorem checkConfig_eq_ok {config : TurboQuantConfig} : checkConfig config = .ok () ↔
    config.validate = .ok () ∧ config.codecId = .turboQuantProdV1 ∧ config.mseBits = 2 := by
  simp only [checkConfig, check_bind_eq_ok, mapError_eq_ok, rejectIf_eq_ok, not_not]

/-- What the asset checks say, field by field. -/
structure Agree (config : TurboQuantConfig) (rotation : Rotation) (codebook : LloydMaxCodebook)
    (qjl : QjlMatrix) : Prop where
  rotationDim : rotation.dim = config.dim
  rotationSeed : rotation.seed = config.mseSeed
  rotationVersion : rotation.generatorVersion = config.generatorVersion
  codebookDim : codebook.dim = config.dim
  codebookBits : codebook.bits = config.mseBits
  qjlInput : qjl.dim = config.dim
  qjlDim : qjl.qjlDim = config.qjlDim
  qjlSeed : qjl.seed = config.qjlSeed
  qjlVersion : qjl.generatorVersion = config.generatorVersion

theorem checkAssets_eq_ok {config : TurboQuantConfig} {rotation : Rotation}
    {codebook : LloydMaxCodebook} {qjl : QjlMatrix} :
    checkAssets config rotation codebook qjl = .ok () ↔ Agree config rotation codebook qjl := by
  have hword : ∀ x y : UInt32, x.toUInt64 = y.toUInt64 ↔ y = x := fun x y => by
    rw [UInt32.toUInt64_inj, eq_comm]
  have hbyte : ∀ x y : UInt8, x.toUInt64 = y.toUInt64 ↔ y = x := fun x y => by
    rw [UInt8.toUInt64_inj, eq_comm]
  simp only [checkAssets, forM_eq_ok, rejectIf_eq_ok, List.forall_mem_cons, ne_eq, not_not, hword,
    hbyte, List.not_mem_nil, IsEmpty.forall_iff, implies_true, and_true]
  constructor
  · rintro ⟨h1, h2, h3, h4, h5, h6, h7, h8, h9⟩
    exact ⟨h1, h2.symm, h3, h4, h5, h6, h7, h8.symm, h9⟩
  · rintro ⟨h1, h2, h3, h4, h5, h6, h7, h8, h9⟩
    exact ⟨h1, h2.symm, h3, h4, h5, h6, h7, h8.symm, h9⟩

/-- The assets of a codec, as `from_assets` was given them. -/
theorem fromAssets_eq_ok {config : TurboQuantConfig} {rotation : Rotation}
    {codebook : LloydMaxCodebook} {qjl : QjlMatrix} {codec : TurboQuantProdV1} :
    fromAssets config rotation codebook qjl = .ok codec ↔ codec.config = config ∧
      codec.rotation = rotation ∧ codec.codebook = codebook ∧ codec.qjl = qjl := by
  constructor
  · intro h
    unfold fromAssets at h
    split at h
    · cases h
    split at h
    · cases h
    split at h
    · cases h
    split at h
    · cases h
      exact ⟨rfl, rfl, rfl, rfl⟩
    · cases h
  · rintro ⟨rfl, rfl, rfl, rfl⟩
    obtain ⟨config, rotation, codebook, qjl, hconfig, hassets, hcommitted⟩ := codec
    dsimp only
    unfold fromAssets
    split
    · rename_i h
      rw [hconfig] at h
      cases h
    split
    · rename_i h
      rw [hassets] at h
      cases h
    split
    · rename_i h
      rw [hcommitted] at h
      cases h
    · rename_i h
      rw [hcommitted] at h
      cases h
      rw [dif_pos rfl]

variable (codec : TurboQuantProdV1)

theorem config_facts : codec.config.validate = .ok () ∧
    codec.config.codecId = .turboQuantProdV1 ∧ codec.config.mseBits = 2 :=
  checkConfig_eq_ok.mp codec.config_ok

theorem agree : Agree codec.config codec.rotation codec.codebook codec.qjl :=
  checkAssets_eq_ok.mp codec.assets_ok

theorem dim_eq : codec.config.dim = 512 :=
  (TurboQuantConfig.validate_eq_ok.mp codec.config_facts.1).2.2.2.1

theorem qjlDim_ne_zero : codec.config.qjlDim ≠ 0 :=
  (TurboQuantConfig.validate_eq_ok.mp codec.config_facts.1).2.2.1

theorem length_centroids : codec.codebook.centroids.length = 4 := by
  rw [codec.codebook.length_centroids, codec.agree.codebookBits, codec.config_facts.2.2]
  rfl

/-! ## Encoding and scoring -/

/-- `check_len` of a codec. -/
def checkLen (len : Nat) : Except TurboProdError Unit :=
  rejectIf (len ≠ codec.config.dim.toNat) (.dimensionMismatch codec.config.dim.toNat len)

variable (arith : FloatArith)

/-- `encode`. -/
def encode (vector : List F32) : Checked TurboProdError EncodedTurboProd := do
  Checked.lifted (codec.checkLen vector.length)
  Checked.failIf (∃ value ∈ vector, value.isFinite = false) .nonFiniteInput
  let norm := arith.sqrt64 (arith.squares64 vector)
  Checked.failIf ((arith.toF32 norm).isFinite = false) .normOverflow
  let unit := vector.map fun value =>
    if arith.eq64 norm (arith.ofF32 F32.zero) then F32.zero
    else arith.toF32 (arith.div64 (arith.ofF32 value) norm)
  let rotated ← Checked.expect "the vector's length was checked against dim"
    (codec.rotation.rotate arith unit)
  let residual := rotated.map fun value => arith.sub value (codec.codebook.decode arith value)
  let signs ← Checked.expect "the residual has length dim" (codec.qjl.encode arith residual)
  return {
    idx := packCodes 4 2 (rotated.map (codec.codebook.encode arith))
    signs
    gamma := arith.toF32 (arith.sqrt64 (arith.squares64 residual))
    norm := arith.toF32 norm }

/-- `prepare_query`. -/
def prepareQuery (query : List F32) : Checked TurboProdError PreparedTurboProdQuery := do
  Checked.lifted (codec.checkLen query.length)
  let rotated ← Checked.expect "the query's length was checked against dim"
    (codec.rotation.rotate arith query)
  let centroids : Vector F32 4 := ⟨codec.codebook.centroids.toArray, codec.length_centroids⟩
  let qjl ← Checked.expect "the rotated query has length dim"
    (codec.qjl.prepareQuery arith rotated)
  return { lut := rotated.map fun value => centroids.map (arith.mul value), qjl }

end TurboQuantProdV1

/-- `TurboProdScoreBreakdown::total`. -/
def turboProdTotal (arith : FloatArith) (mseTerm qjlTerm norm : F32) : F32 :=
  arith.mul norm (arith.add mseTerm qjlTerm)

namespace PreparedTurboProdQuery

variable {ε : Type} (arith : FloatArith)

/-- `⟨y′, c[idx]⟩`. -/
def mseTerm (query : PreparedTurboProdQuery) (idx : Bytes) : F32 :=
  ((query.lut.toChunks 4).zip idx).foldl
    (fun sum chunk => chunk.1.zipIdx.foldl
      (fun sum products => arith.add sum (products.1[unpackCode 2 chunk.2 products.2])) sum)
    F32.zero

/-- `score`. -/
def score (query : PreparedTurboProdQuery) (record : TurboProdRecord512) : Checked ε F32 := do
  Checked.assertThat (record.idx.val.length = (query.lut.length + 3) / 4)
    "index code length doesn't match dim"
  let qjlTerm ← query.qjl.estimate arith record.signs.val record.gamma
  return turboProdTotal arith (query.mseTerm arith record.idx.val) qjlTerm record.norm

end PreparedTurboProdQuery

namespace TurboProdRecord512

/-- `holds_codes_of`. -/
def holdsCodesOf (codec : TurboQuantProdV1) : Prop := codec.idxLen = 128 ∧ codec.signsLen = 64

instance (codec : TurboQuantProdV1) : Decidable (holdsCodesOf codec) :=
  inferInstanceAs (Decidable (_ ∧ _))

/-- `TurboProdRecord512::new`. -/
def new (docId : UInt64) (encoded : EncodedTurboProd) : Option TurboProdRecord512 :=
  if h : encoded.idx.length = 128 ∧ encoded.signs.length = 64 then some {
    docId
    idx := ⟨encoded.idx, h.1⟩
    signs := ⟨encoded.signs, h.2⟩
    gamma := encoded.gamma
    norm := encoded.norm }
  else none

end TurboProdRecord512

/-! ## No assertion fails -/

theorem Rotation.rotate_eq_ok {arith : FloatArith} {rotation : Rotation} {x out : List F32} :
    rotation.rotate arith x = .ok out ↔ x.length = rotation.dim.toNat ∧
      (rows rotation.dim.toNat x.length rotation.matrix.val).map (fun row => arith.dot row x)
        = out := by
  simp only [rotate, LTSearch.checkLen, check_bind_eq_ok, rejectIf_eq_ok, not_not, pure, Except.pure,
    Except.ok.injEq]

namespace TurboQuantProdV1

variable {codec : TurboQuantProdV1} {arith : FloatArith}

theorem checkLen_eq_ok {len : Nat} : codec.checkLen len = .ok () ↔ len = 512 := by
  simp [checkLen, codec.dim_eq]

theorem rotate_isOk (codec : TurboQuantProdV1) (arith : FloatArith) {x : List F32} (h : x.length = 512) :
    ∃ out, codec.rotation.rotate arith x = .ok out := by
  refine ⟨_, Rotation.rotate_eq_ok.mpr ⟨?_, rfl⟩⟩
  rw [codec.agree.rotationDim, codec.dim_eq, h]
  rfl

theorem length_of_rotate {x out : List F32} (h : codec.rotation.rotate arith x = .ok out) :
    out.length = 512 := by
  obtain ⟨-, rfl⟩ := Rotation.rotate_eq_ok.mp h
  rw [List.length_map, length_rows, codec.agree.rotationDim, codec.dim_eq]
  rfl

/-- The lengths of a prepared query are those of the codec's codes. -/
structure Prepared (codec : TurboQuantProdV1) (query : PreparedTurboProdQuery) : Prop where
  lut : query.lut.length = 512
  projected : query.qjl.projected.length = codec.config.qjlDim.toNat

theorem qjl_checkLen (codec : TurboQuantProdV1) {x : List F32} (h : x.length = 512) :
    LTSearch.checkLen codec.qjl.dim.toNat x.length = .ok () := by
  rw [LTSearch.checkLen, rejectIf_eq_ok, not_not, codec.agree.qjlInput, codec.dim_eq, h]
  rfl

theorem prepared_of_prepareQuery {query : List F32} {prepared : PreparedTurboProdQuery}
    (h : codec.prepareQuery arith query = .ok prepared) : Prepared codec prepared := by
  simp only [prepareQuery, QjlMatrix.prepareQuery, bind_eq_ok, expect_eq_ok] at h
  obtain ⟨-, -, rotated, hrotated, qjl, ⟨-, -, hqjl⟩, h⟩ := h
  cases hqjl
  cases h
  refine ⟨?_, ?_⟩
  · rw [List.length_map, length_of_rotate hrotated]
  · rw [List.length_map, length_rows, codec.agree.qjlDim]

/-- A query of the codec's dimension is prepared. -/
theorem prepareQuery_isOk (codec : TurboQuantProdV1) (arith : FloatArith) {query : List F32} (h : query.length = 512) :
    ∃ prepared, codec.prepareQuery arith query = .ok prepared := by
  obtain ⟨rotated, hrotated⟩ := rotate_isOk codec arith h
  have hqjl := qjl_checkLen codec (length_of_rotate hrotated)
  simp only [prepareQuery, QjlMatrix.prepareQuery, bind_eq_ok, expect_eq_ok, lifted_eq_ok]
  exact ⟨_, (), checkLen_eq_ok.mpr h, rotated, hrotated, _, ⟨(), hqjl, rfl⟩, rfl⟩

theorem score_isOk {ε : Type} (arith : FloatArith) {query : PreparedTurboProdQuery} (hquery : Prepared codec query)
    (hcodes : TurboProdRecord512.holdsCodesOf codec) (record : TurboProdRecord512) :
    ∃ score, (query.score arith record : Checked ε F32) = .ok score := by
  have hidx : record.idx.val.length = (query.lut.length + 3) / 4 := by
    rw [record.idx.property, hquery.lut]
  have hsigns : record.signs.val.length = (query.qjl.projected.length + 7) / 8 := by
    rw [record.signs.property, hquery.projected, ← codec.agree.qjlDim]
    exact hcodes.2.symm
  simp only [PreparedTurboProdQuery.score, PreparedQjlQuery.estimate, PreparedQjlQuery.signedSum,
    bind_eq_ok, assertThat_eq_ok]
  exact ⟨_, (), hidx, _, ⟨_, ⟨(), hsigns, rfl⟩, rfl⟩, rfl⟩

end TurboQuantProdV1

end LTSearch
