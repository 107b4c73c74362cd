/-
# LTSearch.Index.Assets -- the matrices stored next to the records

Five asset files: the centroid table and the projection of the legacy codec, and the rotation, the
codebook and the sign matrix of the v4 codec.  Each is a small header followed by little-endian
floats, and each reader checks that the number of floats is the one its header announces; that
number is a field of the type, so nothing later has to ask for it again.

What the generators draw is code outside the repository and float arithmetic, and stays a parameter.
-/
import LTSearch.Foundation.Bytes
import LTSearch.Foundation.Checked
import LTSearch.Index.CodecConfig
import LTSearch.Models.Index

namespace LTSearch

open LTSearch.Foundation

/-! ## Floats as bytes -/

/-- `f32::to_le_bytes`. -/
def f32le (x : F32) : Bytes := leBytes 4 x.bits.toNat

/-- `f32::from_le_bytes`. -/
def f32OfBytes (bytes : Bytes) : F32 := ⟨BitVec.ofNat 32 (leNat bytes)⟩

@[simp]
theorem length_f32le (x : F32) : (f32le x).length = 4 := length_leBytes _ _

theorem f32OfBytes_f32le (x : F32) : f32OfBytes (f32le x) = x := by
  have hx : x.bits.toNat < 256 ^ 4 := x.bits.isLt
  rw [f32OfBytes, f32le, leNat_leBytes, Nat.mod_eq_of_lt hx, BitVec.ofNat_toNat, BitVec.setWidth_eq]

namespace F32

def isNan (x : F32) : Bool := x.bits.extractLsb' 23 8 = 0xff#8 && x.bits.extractLsb' 0 23 ≠ 0#23

/-- The magnitude, as a number that orders like it. -/
def magnitude (x : F32) : Int := (x.bits.extractLsb' 0 31).toNat

/-- `<`. -/
def lt (x y : F32) : Bool :=
  let value := fun z : F32 => if z.bits.msb then -z.magnitude else z.magnitude
  !x.isNan && !y.isNan && decide (value x < value y)

/-- The place of a float in the order of `total_cmp`. -/
def totalKey (x : F32) : Int := if x.bits.msb then -x.magnitude - 1 else x.magnitude

end F32

/-- The floats in a list of bytes, four bytes each. -/
def readF32s : Bytes → List F32
  | a :: b :: c :: d :: rest => f32OfBytes [a, b, c, d] :: readF32s rest
  | _ => []

/-- `write_values`. -/
def writeValues (values : List F32) : Bytes := values.flatMap f32le

theorem readF32s_append (x : F32) (rest : Bytes) :
    readF32s (f32le x ++ rest) = x :: readF32s rest := by
  have h : ∀ bytes : Bytes, bytes.length = 4 →
      readF32s (bytes ++ rest) = f32OfBytes bytes :: readF32s rest := by
    intro bytes hlen
    match bytes, hlen with
    | [a, b, c, d], _ => rfl
  rw [h _ (length_f32le x), f32OfBytes_f32le]

theorem readF32s_writeValues (values : List F32) : readF32s (writeValues values) = values := by
  induction values with
  | nil => rfl
  | cons x rest ih =>
      show readF32s (f32le x ++ writeValues rest) = x :: rest
      rw [readF32s_append, ih]

theorem length_writeValues (values : List F32) :
    (writeValues values).length = 4 * values.length := by
  induction values with
  | nil => rfl
  | cons x rest ih =>
      show (f32le x ++ writeValues rest).length = 4 * (rest.length + 1)
      rw [List.length_append, ih, length_f32le]
      omega

theorem length_readF32s {bytes : Bytes} {n : Nat} (h : bytes.length = 4 * n) :
    (readF32s bytes).length = n := by
  induction n generalizing bytes with
  | zero => rw [List.length_eq_zero_iff.mp (by omega : bytes.length = 0)]; rfl
  | succ n ih =>
      match bytes, h with
      | a :: b :: c :: d :: rest, h =>
          have hrest : rest.length = 4 * n := by
            simp only [List.length_cons] at h
            omega
          exact congrArg (· + 1) (ih hrest)

/-! ## Reading -/

inductive AssetError where
  | invalidSize (minimum actual : Nat)
  | invalidLayout (expectedValues actualValues : Nat)
  | dimensionMismatch (expected actual : Nat)
  | invalidDim
  | invalidMagic (expected actual : Bytes)
  | unsupportedCodebookBits (bits : UInt32)
  | centroidsNotAscending
  deriving DecidableEq

/-- `{:?}` of a byte array. -/
def debugBytes (bytes : Bytes) : String :=
  "[" ++ String.intercalate ", " (bytes.map fun b => toString b.toNat) ++ "]"

def AssetError.display : AssetError → String
  | invalidSize minimum actual =>
      s!"asset size mismatch: expected at least {minimum} bytes, got {actual}"
  | invalidLayout expectedValues actualValues =>
      s!"asset value count mismatch: expected {expectedValues}, got {actualValues}"
  | dimensionMismatch expected actual => s!"dimension mismatch: expected {expected}, got {actual}"
  | invalidDim => "dimensions must be positive"
  | invalidMagic expected actual =>
      s!"invalid magic bytes: expected {debugBytes expected}, got {debugBytes actual}"
  | unsupportedCodebookBits bits => s!"codebook bits must be in 1..=4, got {bits}"
  | centroidsNotAscending => "codebook centroids must be finite and strictly ascending"

/-- `u32::from_le_bytes(bytes[offset..offset + 4].try_into().unwrap())`. -/
def u32At {ε : Type} (offset : Nat) (bytes : Bytes) : Checked ε UInt32 := do
  let word ← Checked.slice offset (offset + 4) bytes
  return UInt32.ofNat (leNat word)

/-- `u64::from_le_bytes(bytes[offset..offset + 8].try_into().unwrap())`. -/
def u64At {ε : Type} (offset : Nat) (bytes : Bytes) : Checked ε UInt64 := do
  let word ← Checked.slice offset (offset + 8) bytes
  return UInt64.ofNat (leNat word)

/-- The number of values of an asset with these dimensions. -/
abbrev Values (first second : UInt32) :=
  { values : List F32 // values.length = first.toNat * second.toNat }

/-- `parse_values`. -/
def parseValues (data : Bytes) (first second : UInt32) : Checked AssetError (Values first second) := do
  Checked.failIf (first = 0 ∨ second = 0) .invalidDim
  let expected ← Checked.usizeMul first.toNat second.toNat
  if h : data.length = 4 * (first.toNat * second.toNat) then
    return ⟨readF32s data, length_readF32s h⟩
  else
    -- a length that is no multiple of four, or not the one expected
    Checked.fail (.invalidLayout expected (data.length / 4))

theorem u32At_eq_ok {ε : Type} {offset : Nat} {bytes : Bytes} {x : UInt32} :
    (u32At offset bytes : Checked ε UInt32) = .ok x ↔
      offset + 4 ≤ bytes.length ∧ readU32 offset bytes = x := by
  simp only [u32At, bind_eq_ok, slice_eq_ok, pure, Except.pure, Except.ok.injEq, Nat.le_add_right,
    true_and, Nat.add_sub_cancel_left]
  constructor
  · rintro ⟨word, ⟨hlen, rfl⟩, rfl⟩
    exact ⟨hlen, rfl⟩
  · rintro ⟨hlen, rfl⟩
    exact ⟨_, ⟨hlen, rfl⟩, rfl⟩

theorem u64At_eq_ok {ε : Type} {offset : Nat} {bytes : Bytes} {x : UInt64} :
    (u64At offset bytes : Checked ε UInt64) = .ok x ↔
      offset + 8 ≤ bytes.length ∧ readU64 offset bytes = x := by
  simp only [u64At, bind_eq_ok, slice_eq_ok, pure, Except.pure, Except.ok.injEq, Nat.le_add_right,
    true_and, Nat.add_sub_cancel_left]
  constructor
  · rintro ⟨word, ⟨hlen, rfl⟩, rfl⟩
    exact ⟨hlen, rfl⟩
  · rintro ⟨hlen, rfl⟩
    exact ⟨_, ⟨hlen, rfl⟩, rfl⟩

theorem total_u32At {ε : Type} {offset : Nat} {bytes : Bytes} (h : offset + 4 ≤ bytes.length) :
    Total (u32At offset bytes : Checked ε UInt32) :=
  (Total.slice (Nat.le_add_right _ _) h).bind fun _ _ => .ok _

theorem total_u64At {ε : Type} {offset : Nat} {bytes : Bytes} (h : offset + 8 ≤ bytes.length) :
    Total (u64At offset bytes : Checked ε UInt64) :=
  (Total.slice (Nat.le_add_right _ _) h).bind fun _ _ => .ok _

/-- Two `u32` multiply within a 64-bit word. -/
theorem mul_toNat_lt (a b : UInt32) : a.toNat * b.toNat < Checked.usizeSize := by
  have ha : a.toNat < 2 ^ 32 := a.toNat_lt
  have hb : b.toNat < 2 ^ 32 := b.toNat_lt
  calc a.toNat * b.toNat < 2 ^ 32 * 2 ^ 32 := Nat.mul_lt_mul'' ha hb
    _ = Checked.usizeSize := rfl

theorem total_parseValues (data : Bytes) (first second : UInt32) :
    Total (parseValues data first second) := by
  refine (Total.failIf _ _).bind fun _ _ => ?_
  refine (Total.usizeMul (mul_toNat_lt first second)).bind fun _ _ => ?_
  split
  · exact Total.ok _
  · exact Total.fail _

/-- Values that were written parse back. -/
theorem parseValues_writeValues {first second : UInt32} (hfirst : first ≠ 0) (hsecond : second ≠ 0)
    (values : Values first second) :
    parseValues (writeValues values.val) first second = .ok values := by
  have hlen : (writeValues values.val).length = 4 * (first.toNat * second.toNat) := by
    rw [length_writeValues, values.property]
  simp only [parseValues, bind_eq_ok, failIf_eq_ok, usizeMul_eq_ok]
  refine ⟨(), not_or.mpr ⟨hfirst, hsecond⟩, _, ⟨mul_toNat_lt first second, rfl⟩, ?_⟩
  rw [dif_pos hlen]
  exact congrArg Except.ok (Subtype.ext (readF32s_writeValues values.val))

/-! ## The legacy codec's assets -/

/-- `ASSET_HEADER_SIZE`. -/
def assetHeaderSize : Nat := 8

structure CentroidTable where
  dim : UInt32
  centroidsPerDim : UInt32
  values : Values dim centroidsPerDim

structure ProjectionMatrix where
  inputDim : UInt32
  outputDim : UInt32
  values : Values outputDim inputDim

/-- The two numbers in front of a legacy asset, which both readers check alike. -/
def legacyAssetHeader (bytes : Bytes) : Checked AssetError (UInt32 × UInt32) := do
  Checked.failIf (bytes.length < assetHeaderSize) (.invalidSize assetHeaderSize bytes.length)
  Checked.failIf (bytes.length = assetHeaderSize) (.invalidSize (assetHeaderSize + 4) bytes.length)
  let first ← u32At 0 bytes
  let second ← u32At 4 bytes
  return (first, second)

namespace CentroidTable

def fromBytes (bytes : Bytes) : Checked AssetError CentroidTable := do
  let (dim, centroidsPerDim) ← legacyAssetHeader bytes
  let values ← parseValues (bytes.drop assetHeaderSize) dim centroidsPerDim
  return { dim, centroidsPerDim, values }

def toBytes (table : CentroidTable) : Bytes :=
  u32le table.dim ++ u32le table.centroidsPerDim ++ writeValues table.values.val

end CentroidTable

namespace ProjectionMatrix

def fromBytes (bytes : Bytes) : Checked AssetError ProjectionMatrix := do
  let (inputDim, outputDim) ← legacyAssetHeader bytes
  let values ← parseValues (bytes.drop assetHeaderSize) outputDim inputDim
  return { inputDim, outputDim, values }

def toBytes (matrix : ProjectionMatrix) : Bytes :=
  u32le matrix.inputDim ++ u32le matrix.outputDim ++ writeValues matrix.values.val

end ProjectionMatrix

theorem total_legacyAssetHeader (bytes : Bytes) : Total (legacyAssetHeader bytes) := by
  refine (Total.failIf _ _).bind fun _ hlong => ?_
  have hlen : 8 ≤ bytes.length := not_lt.mp (failIf_eq_ok.mp hlong)
  refine (Total.failIf _ _).bind fun _ _ => ?_
  refine (total_u32At (by omega)).bind fun _ _ => ?_
  exact (total_u32At (by omega)).bind fun _ _ => .ok _

theorem CentroidTable.total_fromBytes (bytes : Bytes) : Total (fromBytes bytes) :=
  (total_legacyAssetHeader bytes).bind fun _ _ =>
    (total_parseValues _ _ _).bind fun _ _ => .ok _

theorem ProjectionMatrix.total_fromBytes (bytes : Bytes) : Total (fromBytes bytes) :=
  (total_legacyAssetHeader bytes).bind fun _ _ =>
    (total_parseValues _ _ _).bind fun _ _ => .ok _

/-- An asset with a nonzero number of values has its two numbers in front. -/
theorem legacyAssetHeader_append (first second : UInt32) {data : Bytes} (h : data ≠ []) :
    legacyAssetHeader (u32le first ++ u32le second ++ data) = .ok (first, second) := by
  have hdata : 0 < data.length := List.length_pos_iff.mpr h
  have hlen : (u32le first ++ u32le second ++ data).length = 8 + data.length := by
    simp only [List.length_append, length_u32le]
  simp only [legacyAssetHeader, bind_eq_ok, failIf_eq_ok, u32At_eq_ok, hlen, assetHeaderSize]
  refine ⟨(), by omega, (), by omega, first, ⟨by omega, ?_⟩, second, ⟨by omega, ?_⟩, rfl⟩
  · rw [List.append_assoc]
    exact readU32_u32le first _
  · rw [List.append_assoc]
    exact (readU32_append_right (length_u32le first) 0).trans (readU32_u32le second _)

theorem writeValues_ne_nil {first second : UInt32} (hfirst : first ≠ 0) (hsecond : second ≠ 0)
    (values : Values first second) : writeValues values.val ≠ [] := by
  apply List.ne_nil_of_length_pos
  rw [length_writeValues, values.property]
  have hpos : ∀ x : UInt32, x ≠ 0 → 0 < x.toNat := fun x hx =>
    Nat.pos_of_ne_zero fun hzero => hx (UInt32.toNat.inj hzero)
  exact Nat.mul_pos (by decide) (Nat.mul_pos (hpos _ hfirst) (hpos _ hsecond))

theorem drop_assetHeader (first second : UInt32) (data : Bytes) :
    (u32le first ++ u32le second ++ data).drop assetHeaderSize = data :=
  List.drop_left' (by simp only [List.length_append, length_u32le, assetHeaderSize])

theorem CentroidTable.length_toBytes (table : CentroidTable) :
    table.toBytes.length = 8 + 4 * (table.dim.toNat * table.centroidsPerDim.toNat) := by
  simp only [toBytes, List.length_append, length_u32le, length_writeValues, table.values.property]

theorem ProjectionMatrix.length_toBytes (matrix : ProjectionMatrix) :
    matrix.toBytes.length = 8 + 4 * (matrix.outputDim.toNat * matrix.inputDim.toNat) := by
  simp only [toBytes, List.length_append, length_u32le, length_writeValues, matrix.values.property]

theorem CentroidTable.fromBytes_toBytes {table : CentroidTable} (hdim : table.dim ≠ 0)
    (hper : table.centroidsPerDim ≠ 0) : fromBytes table.toBytes = .ok table := by
  simp only [fromBytes, bind_eq_ok]
  refine ⟨_, legacyAssetHeader_append _ _ (writeValues_ne_nil hdim hper table.values), ?_⟩
  simp only [toBytes, drop_assetHeader]
  exact ⟨_, parseValues_writeValues hdim hper table.values, rfl⟩

theorem ProjectionMatrix.fromBytes_toBytes {matrix : ProjectionMatrix} (hin : matrix.inputDim ≠ 0)
    (hout : matrix.outputDim ≠ 0) : fromBytes matrix.toBytes = .ok matrix := by
  simp only [fromBytes, bind_eq_ok]
  refine ⟨_, legacyAssetHeader_append _ _ (writeValues_ne_nil hout hin matrix.values), ?_⟩
  simp only [toBytes, drop_assetHeader]
  exact ⟨_, parseValues_writeValues hout hin matrix.values, rfl⟩

/-! ## The v4 codec's assets -/

def rotationMagic : Bytes := [0x54, 0x51, 0x52, 0x54]
def codebookMagic : Bytes := [0x54, 0x51, 0x43, 0x42]
def qjlMagic : Bytes := [0x54, 0x51, 0x4A, 0x4C]

/-- `bytes[..4]` is the magic of the asset. -/
def checkMagic (expected bytes : Bytes) : Checked AssetError Unit := do
  let magic ← Checked.slice 0 4 bytes
  Checked.failIf (magic ≠ expected) (.invalidMagic expected magic)

theorem total_checkMagic (expected : Bytes) {bytes : Bytes} (h : 4 ≤ bytes.length) :
    Total (checkMagic expected bytes) :=
  (Total.slice (Nat.zero_le _) h).bind fun _ _ => .failIf _ _

theorem checkMagic_append {magic rest : Bytes} (h : magic.length = 4) :
    checkMagic magic (magic ++ rest) = .ok () := by
  simp only [checkMagic, bind_eq_ok, slice_eq_ok, failIf_eq_ok, List.length_append]
  exact ⟨_, ⟨⟨Nat.zero_le _, by omega⟩, rfl⟩, not_not.mpr (window_append_self h)⟩

structure Rotation where
  dim : UInt32
  seed : UInt64
  generatorVersion : UInt32
  matrix : Values dim dim

namespace Rotation

/-- `ROTATION_HEADER_SIZE`. -/
def headerSize : Nat := 20

def fromBytes (bytes : Bytes) : Checked AssetError Rotation := do
  Checked.failIf (bytes.length < headerSize) (.invalidSize headerSize bytes.length)
  checkMagic rotationMagic bytes
  let dim ← u32At 4 bytes
  let seed ← u64At 8 bytes
  let generatorVersion ← u32At 16 bytes
  let matrix ← parseValues (bytes.drop headerSize) dim dim
  return { dim, seed, generatorVersion, matrix }

def toBytes (rotation : Rotation) : Bytes :=
  rotationMagic ++ (u32le rotation.dim ++ (u64le rotation.seed ++
    (u32le rotation.generatorVersion ++ writeValues rotation.matrix.val)))

theorem total_fromBytes (bytes : Bytes) : Total (fromBytes bytes) := by
  refine (Total.failIf _ _).bind fun _ hlong => ?_
  have hlen : 20 ≤ bytes.length := not_lt.mp (failIf_eq_ok.mp hlong)
  refine (total_checkMagic _ (by omega)).bind fun _ _ => ?_
  refine (total_u32At (by omega)).bind fun _ _ => ?_
  refine (total_u64At (by omega)).bind fun _ _ => ?_
  refine (total_u32At (by omega)).bind fun _ _ => ?_
  exact (total_parseValues _ _ _).bind fun _ _ => .ok _

theorem fromBytes_toBytes {rotation : Rotation} (hdim : rotation.dim ≠ 0) :
    fromBytes rotation.toBytes = .ok rotation := by
  have hmagic : rotationMagic.length = 4 := rfl
  have hlen : rotation.toBytes.length = 20 + (writeValues rotation.matrix.val).length := by
    simp only [toBytes, List.length_append, hmagic, length_u32le, length_u64le]
    omega
  have hdata : rotation.toBytes.drop headerSize = writeValues rotation.matrix.val := by
    simp [toBytes, headerSize, List.drop_append, hmagic, List.drop_eq_nil_of_le]
  have hfields : readU32 4 rotation.toBytes = rotation.dim ∧
      readU64 8 rotation.toBytes = rotation.seed ∧
      readU32 16 rotation.toBytes = rotation.generatorVersion := by
    refine ⟨?_, ?_, ?_⟩ <;>
      simp [toBytes, readU32_skip, readU64_skip, hmagic, readU32_u32le, readU64_u64le]
  simp only [fromBytes, bind_eq_ok, failIf_eq_ok, u32At_eq_ok, u64At_eq_ok, hlen, headerSize]
  refine ⟨(), by omega, (), checkMagic_append hmagic, _, ⟨by omega, hfields.1⟩, _,
    ⟨by omega, hfields.2.1⟩, _, ⟨by omega, hfields.2.2⟩, _, ?_, rfl⟩
  rw [show (20 : Nat) = headerSize from rfl, hdata]
  exact parseValues_writeValues hdim hdim rotation.matrix

end Rotation

structure QjlMatrix where
  dim : UInt32
  qjlDim : UInt32
  seed : UInt64
  generatorVersion : UInt32
  values : Values qjlDim dim

namespace QjlMatrix

/-- `QJL_HEADER_SIZE`. -/
def headerSize : Nat := 24

def fromBytes (bytes : Bytes) : Checked AssetError QjlMatrix := do
  Checked.failIf (bytes.length < headerSize) (.invalidSize headerSize bytes.length)
  checkMagic qjlMagic bytes
  let dim ← u32At 4 bytes
  let qjlDim ← u32At 8 bytes
  let seed ← u64At 12 bytes
  let generatorVersion ← u32At 20 bytes
  let values ← parseValues (bytes.drop headerSize) qjlDim dim
  return { dim, qjlDim, seed, generatorVersion, values }

def toBytes (qjl : QjlMatrix) : Bytes :=
  qjlMagic ++ (u32le qjl.dim ++ (u32le qjl.qjlDim ++ (u64le qjl.seed ++
    (u32le qjl.generatorVersion ++ writeValues qjl.values.val))))

/-- `signs_len`: bytes per sign code. -/
def signsLen (qjl : QjlMatrix) : Nat := (qjl.qjlDim.toNat + 7) / 8

theorem total_fromBytes (bytes : Bytes) : Total (fromBytes bytes) := by
  refine (Total.failIf _ _).bind fun _ hlong => ?_
  have hlen : 24 ≤ bytes.length := not_lt.mp (failIf_eq_ok.mp hlong)
  refine (total_checkMagic _ (by omega)).bind fun _ _ => ?_
  refine (total_u32At (by omega)).bind fun _ _ => ?_
  refine (total_u32At (by omega)).bind fun _ _ => ?_
  refine (total_u64At (by omega)).bind fun _ _ => ?_
  refine (total_u32At (by omega)).bind fun _ _ => ?_
  exact (total_parseValues _ _ _).bind fun _ _ => .ok _

theorem fromBytes_toBytes {qjl : QjlMatrix} (hdim : qjl.dim ≠ 0) (hqjlDim : qjl.qjlDim ≠ 0) :
    fromBytes qjl.toBytes = .ok qjl := by
  have hmagic : qjlMagic.length = 4 := rfl
  have hlen : qjl.toBytes.length = 24 + (writeValues qjl.values.val).length := by
    simp only [toBytes, List.length_append, hmagic, length_u32le, length_u64le]
    omega
  have hdata : qjl.toBytes.drop headerSize = writeValues qjl.values.val := by
    simp [toBytes, headerSize, List.drop_append, hmagic, List.drop_eq_nil_of_le]
  have hfields : readU32 4 qjl.toBytes = qjl.dim ∧ readU32 8 qjl.toBytes = qjl.qjlDim ∧
      readU64 12 qjl.toBytes = qjl.seed ∧ readU32 20 qjl.toBytes = qjl.generatorVersion := by
    refine ⟨?_, ?_, ?_, ?_⟩ <;>
      simp [toBytes, readU32_skip, readU64_skip, hmagic, readU32_u32le, readU64_u64le]
  simp only [fromBytes, bind_eq_ok, failIf_eq_ok, u32At_eq_ok, u64At_eq_ok, hlen, headerSize]
  refine ⟨(), by omega, (), checkMagic_append hmagic, _, ⟨by omega, hfields.1⟩, _,
    ⟨by omega, hfields.2.1⟩, _, ⟨by omega, hfields.2.2.1⟩, _, ⟨by omega, hfields.2.2.2⟩, _, ?_, rfl⟩
  rw [show (24 : Nat) = headerSize from rfl, hdata]
  exact parseValues_writeValues hqjlDim hdim qjl.values

end QjlMatrix

/-! ## The codebook -/

/-- `is_sorted_by(|lower, upper| lower < upper)`. -/
def isAscending (values : List F32) : Bool :=
  (values.zip values.tail).all fun pair => pair.1.lt pair.2

/-- `2^bits` ascending finite centroids.  The thresholds between them are a function of them, and
are computed where they are used. -/
structure LloydMaxCodebook where
  dim : UInt32
  bits : UInt8
  centroids : List F32
  length_centroids : centroids.length = 2 ^ bits.toNat
  bits_range : 1 ≤ bits.toNat ∧ bits.toNat ≤ 4
  ascending : isAscending centroids = true
  finite : ∀ centroid ∈ centroids, centroid.isFinite = true
  deriving DecidableEq

namespace LloydMaxCodebook

/-- `CODEBOOK_HEADER_SIZE`. -/
def headerSize : Nat := 12

/-- `D512_B2_CENTROIDS`. -/
def d512B2Centroids : List F32 :=
  [⟨0xbd8896d1#32⟩, ⟨0xbca3e502#32⟩, ⟨0x3ca3e502#32⟩, ⟨0x3d8896d1#32⟩]

/-- `LloydMaxCodebook::committed`. -/
def committed (dim : UInt32) (bits : UInt8) : Option LloydMaxCodebook :=
  if dim = 512 ∧ bits = 2 then
    some {
      dim := 512
      bits := 2
      centroids := d512B2Centroids
      length_centroids := rfl
      bits_range := by decide
      ascending := by decide
      finite := by decide }
  else none

def fromBytes (bytes : Bytes) : Checked AssetError LloydMaxCodebook := do
  Checked.failIf (bytes.length < headerSize) (.invalidSize headerSize bytes.length)
  checkMagic codebookMagic bytes
  let dim ← u32At 4 bytes
  Checked.failIf (dim = 0) .invalidDim
  let bits ← u32At 8 bytes
  if hbits : 1 ≤ bits.toNat ∧ bits.toNat ≤ 4 then
    let centroids ← parseValues (bytes.drop headerSize) (UInt32.ofNat (2 ^ bits.toNat)) 1
    if hgood : isAscending centroids.val = true ∧ ∀ c ∈ centroids.val, c.isFinite = true then
      return {
        dim
        bits := UInt8.ofNat bits.toNat
        centroids := centroids.val
        length_centroids := by
          obtain ⟨hlow, hhigh⟩ := hbits
          have hlen := centroids.property
          interval_cases bits.toNat <;> simpa using hlen
        bits_range := by
          obtain ⟨hlow, hhigh⟩ := hbits
          interval_cases bits.toNat <;> decide
        ascending := hgood.1
        finite := hgood.2 }
    else Checked.fail .centroidsNotAscending
  else Checked.fail (.unsupportedCodebookBits bits)

def toBytes (codebook : LloydMaxCodebook) : Bytes :=
  codebookMagic ++ (u32le codebook.dim ++ (u32le codebook.bits.toUInt32 ++
    writeValues codebook.centroids))

theorem total_fromBytes (bytes : Bytes) : Total (fromBytes bytes) := by
  refine (Total.failIf _ _).bind fun _ hlong => ?_
  have hlen : 12 ≤ bytes.length := not_lt.mp (failIf_eq_ok.mp hlong)
  refine (total_checkMagic _ (by omega)).bind fun _ _ => ?_
  refine (total_u32At (by omega)).bind fun _ _ => ?_
  refine (Total.failIf _ _).bind fun _ _ => ?_
  refine (total_u32At (by omega)).bind fun _ _ => ?_
  split
  · refine (total_parseValues _ _ _).bind fun _ _ => ?_
    split
    · exact .ok _
    · exact .fail _
  · exact .fail _

theorem fromBytes_toBytes {codebook : LloydMaxCodebook} (hdim : codebook.dim ≠ 0) :
    fromBytes codebook.toBytes = .ok codebook := by
  have hmagic : codebookMagic.length = 4 := rfl
  have hlen : codebook.toBytes.length = 12 + (writeValues codebook.centroids).length := by
    simp only [toBytes, List.length_append, hmagic, length_u32le]
    omega
  have hdata : codebook.toBytes.drop headerSize = writeValues codebook.centroids := by
    simp [toBytes, headerSize, List.drop_append, hmagic, List.drop_eq_nil_of_le]
  have hfields : readU32 4 codebook.toBytes = codebook.dim ∧
      readU32 8 codebook.toBytes = codebook.bits.toUInt32 := by
    refine ⟨?_, ?_⟩ <;> simp [toBytes, readU32_skip, hmagic, readU32_u32le]
  have hbits : codebook.bits.toUInt32.toNat = codebook.bits.toNat := UInt8.toNat_toUInt32 _
  have hcount : codebook.centroids.length =
      (UInt32.ofNat (2 ^ codebook.bits.toUInt32.toNat)).toNat * (1 : UInt32).toNat := by
    obtain ⟨hlow, hhigh⟩ := codebook.bits_range
    rw [codebook.length_centroids, hbits]
    interval_cases codebook.bits.toNat <;> rfl
  have hcountPos : UInt32.ofNat (2 ^ codebook.bits.toUInt32.toNat) ≠ 0 := by
    obtain ⟨hlow, hhigh⟩ := codebook.bits_range
    rw [hbits]
    interval_cases codebook.bits.toNat <;> decide
  simp only [fromBytes, bind_eq_ok, failIf_eq_ok, u32At_eq_ok, hlen]
  refine ⟨(), by simp only [headerSize]; omega, (), checkMagic_append hmagic, _,
    ⟨by omega, hfields.1⟩, (), hdim, _, ⟨by omega, hfields.2⟩, ?_⟩
  rw [dif_pos (by rw [hbits]; exact codebook.bits_range), bind_eq_ok, hdata]
  refine ⟨_, parseValues_writeValues hcountPos (by decide) ⟨codebook.centroids, hcount⟩, ?_⟩
  rw [dif_pos ⟨codebook.ascending, codebook.finite⟩]
  congr 2
  rw [hbits, UInt8.ofNat_toNat]

end LloydMaxCodebook

end LTSearch
