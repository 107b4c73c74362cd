/-
# LTSearch.Index.Arith -- the float arithmetic the codecs run on

Rounding is the machine's: the arithmetic of `f32` and `f64` is a parameter, and only what can be
read off the bits of an `f32` (its sign, whether two of them compare) is defined here.  So are the
generators, whose draws come from a random number crate.
-/
import LTSearch.Index.Assets

namespace LTSearch

open LTSearch.Foundation

/-- IEEE 754 arithmetic, and the sums of the standard library, which run in index order. -/
structure FloatArith where
  add : F32 → F32 → F32
  sub : F32 → F32 → F32
  mul : F32 → F32 → F32
  sqrt : F32 → F32
  sum : List F32 → F32
  nextUp : F32 → F32
  F64 : Type
  ofF32 : F32 → F64
  toF32 : F64 → F32
  add64 : F64 → F64 → F64
  mul64 : F64 → F64 → F64
  div64 : F64 → F64 → F64
  sqrt64 : F64 → F64
  sum64 : List F64 → F64
  eq64 : F64 → F64 → Bool
  lt64 : F64 → F64 → Bool
  /-- `√(π/2)/m`, rounded to `f32`. -/
  qjlScale : UInt32 → F32

namespace F32

def zero : F32 := ⟨0x00000000#32⟩
def one : F32 := ⟨0x3f800000#32⟩
def two : F32 := ⟨0x40000000#32⟩

/-- Unary minus. -/
def neg (x : F32) : F32 := ⟨x.bits ^^^ 0x80000000#32⟩

def abs (x : F32) : F32 := ⟨x.bits &&& 0x7fffffff#32⟩

/-- `>=`. -/
def ge (x y : F32) : Bool := !x.isNan && !y.isNan && !x.lt y

end F32

namespace FloatArith

variable (arith : FloatArith)

/-- `Σ aᵢ·bᵢ` over the common indices, in index order. -/
def dot (a b : List F32) : F32 := arith.sum (List.zipWith arith.mul a b)

/-- `Σ aᵢ²` in `f64`. -/
def squares64 (values : List F32) : arith.F64 :=
  arith.sum64 (values.map fun value => arith.mul64 (arith.ofF32 value) (arith.ofF32 value))

/-- `threshold_between`: the smallest `f32` at or above the midpoint. -/
def thresholdBetween (lower upper : F32) : F32 :=
  let midpoint := arith.div64 (arith.add64 (arith.ofF32 lower) (arith.ofF32 upper))
    (arith.ofF32 F32.two)
  let nearest := arith.toF32 midpoint
  if arith.lt64 (arith.ofF32 nearest) midpoint then arith.nextUp nearest else nearest

end FloatArith

/-- What the seeded generators draw. -/
structure Generators where
  centroids : (dim centroidsPerDim : UInt32) → UInt64 → Values dim centroidsPerDim
  projection : (inputDim outputDim : UInt32) → UInt64 → Values outputDim inputDim
  rotation : (dim : UInt32) → UInt64 → Values dim dim
  qjl : (dim qjlDim : UInt32) → UInt64 → Values qjlDim dim

namespace LloydMaxCodebook

/-- The `2^bits − 1` thresholds, ascending. -/
def thresholds (arith : FloatArith) (codebook : LloydMaxCodebook) : List F32 :=
  List.zipWith arith.thresholdBetween codebook.centroids codebook.centroids.tail

/-- `encode`: the number of thresholds at or below `x`. -/
def encode (arith : FloatArith) (codebook : LloydMaxCodebook) (x : F32) : Nat :=
  ((codebook.thresholds arith).filter fun threshold => x.ge threshold).length

theorem encode_lt (arith : FloatArith) (codebook : LloydMaxCodebook) (x : F32) :
    codebook.encode arith x < codebook.centroids.length := by
  have hpos : 0 < codebook.centroids.length := by
    rw [codebook.length_centroids]
    exact Nat.two_pow_pos _
  have hle := List.length_filter_le (fun threshold => x.ge threshold) (codebook.thresholds arith)
  have hlen : (codebook.thresholds arith).length = codebook.centroids.length - 1 := by
    simp [thresholds]
  show ((codebook.thresholds arith).filter fun threshold => x.ge threshold).length < _
  omega

/-- `decode` of an index that `encode` returned. -/
def decode (arith : FloatArith) (codebook : LloydMaxCodebook) (x : F32) : F32 :=
  codebook.centroids.get ⟨codebook.encode arith x, codebook.encode_lt arith x⟩

end LloydMaxCodebook

/-! ## Rows of a matrix -/

/-- `chunks_exact(n)` of the values of a matrix with `count` rows. -/
def rows (count n : Nat) (values : List F32) : List (List F32) :=
  (List.range count).map fun i => (values.drop (n * i)).take n

@[simp]
theorem length_rows (count n : Nat) (values : List F32) : (rows count n values).length = count := by
  simp [rows]

end LTSearch
