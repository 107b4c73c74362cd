/-
# LTSearch.Index.Gaussian -- the normal values that generated matrices are made of

A seed and a stream id select a keystream of words.  Each pair of words makes two normal values, and
the second one stays pending until it is asked for.  So a value depends on its own pair only, and a
matrix that is drawn row by row is one long draw.
-/
import LTSearch.Foundation.Stream
import LTSearch.Index.Arith

namespace LTSearch

open LTSearch.Foundation

/-! ## The stream -/

/-- What the crates of the generator do: the ChaCha8 generator and the functions of `libm`. -/
structure GaussianCrates (arith : FloatArith) where
  ChaCha8Rng : Type
  fromSeed : Bytes → ChaCha8Rng
  setStream : ChaCha8Rng → UInt64 → ChaCha8Rng
  nextU64 : ChaCha8Rng → UInt64 × ChaCha8Rng
  log : arith.F64 → arith.F64
  /-- the sine, then the cosine -/
  sincos : arith.F64 → arith.F64 × arith.F64
  /-- `as f64` -/
  ofU64 : UInt64 → arith.F64
  half : arith.F64
  one : arith.F64
  minusTwo : arith.F64
  tau : arith.F64

/-- `QJL_STREAM_ID` -/
def qjlStreamId : UInt64 := readU64 0 (utf8 "qjl_sign")

section Stream

variable {arith : FloatArith} (crates : GaussianCrates arith)

/-- `unit_open` -/
def unitOpen (word : UInt64) : arith.F64 :=
  arith.mul64 (arith.add64 (crates.ofU64 (word >>> 12)) crates.half)
    (arith.div64 crates.one (crates.ofU64 ((1 : UInt64) <<< 52)))

/-- `StandardNormalStream` -/
structure StandardNormalStream where
  rng : crates.ChaCha8Rng
  /-- the sine half of the last pair, if not yet returned -/
  pending : Option arith.F64

namespace StandardNormalStream

/-- `new` -/
def new (seed streamId : UInt64) : StandardNormalStream crates where
  rng := crates.setStream (crates.fromSeed (u64le seed ++ List.replicate 24 0)) streamId
  pending := none

variable {crates}

/-- `next_value` -/
def nextValue (stream : StandardNormalStream crates) : arith.F64 × StandardNormalStream crates :=
  match stream.pending with
  | some value => (value, { stream with pending := none })
  | none =>
      let (word0, rng) := crates.nextU64 stream.rng
      let u0 := unitOpen crates word0
      let (word1, rng) := crates.nextU64 rng
      let u1 := unitOpen crates word1
      let radius := arith.sqrt64 (arith.mul64 crates.minusTwo (crates.log u0))
      let (sin, cos) := crates.sincos (arith.mul64 crates.tau u1)
      (arith.mul64 radius cos, { rng, pending := some (arith.mul64 radius sin) })

/-- `fill_standard_normal` -/
def fillStandardNormal (crates : GaussianCrates arith) (seed streamId : UInt64)
    (out : List arith.F64) : List arith.F64 :=
  (fill nextValue out (new crates seed streamId)).1

/-- Word `n` of the keystream. -/
def word (crates : GaussianCrates arith) (seed streamId : UInt64) (n : Nat) : UInt64 :=
  nth crates.nextU64 (new crates seed streamId).rng n

/-- The two values that are made of two words. -/
def boxMuller (crates : GaussianCrates arith) (word0 word1 : UInt64) : arith.F64 × arith.F64 :=
  let radius := arith.sqrt64 (arith.mul64 crates.minusTwo (crates.log (unitOpen crates word0)))
  let (sin, cos) := crates.sincos (arith.mul64 crates.tau (unitOpen crates word1))
  (arith.mul64 radius cos, arith.mul64 radius sin)

/-- The stream draws its words in pairs. -/
theorem pairs : Pairs nextValue crates.nextU64 (boxMuller crates) rng pending where
  of_pending stream value h := by
    simp only [nextValue, h]
    trivial
  of_none stream h := by
    simp only [nextValue, h]
    exact ⟨rfl, rfl, rfl⟩

/-- Value `n` of a seed and a stream id, from its two words. -/
theorem nth_new (seed streamId : UInt64) (n : Nat) :
    nth nextValue (new crates seed streamId) n =
      let both := boxMuller crates (word crates seed streamId (2 * (n / 2)))
        (word crates seed streamId (2 * (n / 2) + 1))
      if n % 2 = 0 then both.1 else both.2 :=
  pairs.nth_eq rfl n

end StandardNormalStream

end Stream

/-! ## The matrix -/

namespace QjlMatrix

section Generate

variable {arith : FloatArith} (crates : GaussianCrates arith)

variable {crates} in
/-- The rows of `generate`, each filled from where the last one left the stream. -/
def generateRows : (rows : Nat) → StandardNormalStream crates → List arith.F64 → List F32
  | 0, _, _ => []
  | rows + 1, stream, row =>
      let (row, stream) := fill StandardNormalStream.nextValue row stream
      row.map arith.toF32 ++ generateRows rows stream row

/-- `vec![0.0; n]` -/
def zeros64 (arith : FloatArith) (n : Nat) : List arith.F64 :=
  List.replicate n (arith.ofF32 F32.zero)

/-- Rows that are filled one by one are one long fill. -/
theorem generateRows_eq (rows : Nat) (stream : StandardNormalStream crates) (row : List arith.F64) :
    generateRows rows stream row =
      (fill StandardNormalStream.nextValue (zeros64 arith (rows * row.length)) stream).1.map
        arith.toF32 := by
  induction rows generalizing stream row with
  | zero => simp [generateRows, zeros64, fill]
  | succ rows ih =>
      have hlength : (fill StandardNormalStream.nextValue row stream).1.length = row.length := by
        simp [fill_eq]
      -- the first row and all later ones are two buffers
      have hbuffers : ((fills StandardNormalStream.nextValue
          [row, zeros64 arith (rows * row.length)] stream).1.flatten, _) = _ := fills_eq _ stream
      have hfills := congrArg Prod.fst hbuffers
      simp only [fills, List.flatten_cons, List.flatten_nil, List.append_nil] at hfills
      simp only [generateRows, ih, hlength]
      rw [← List.map_append, hfills, fill_congr]
      simp [zeros64, Nat.succ_mul, Nat.add_comm]

/-- `generate` -/
def generate {ε : Type} (dim qjlDim : UInt32) (seed : UInt64) : Checked ε QjlMatrix := do
  Checked.assertThat (0 < dim ∧ 0 < qjlDim) "dimensions must be positive"
  let stream := StandardNormalStream.new crates seed qjlStreamId
  let row := zeros64 arith dim.toNat
  .ok {
    dim, qjlDim, seed
    generatorVersion := gaussianGeneratorVersion
    values := ⟨generateRows qjlDim.toNat stream row, by
      simp [generateRows_eq, fill_eq, zeros64, row]⟩ }

theorem generate_eq_ok {ε : Type} {dim qjlDim : UInt32} {seed : UInt64} {matrix : QjlMatrix}
    (h : generate (ε := ε) crates dim qjlDim seed = .ok matrix) :
    (matrix.dim, matrix.qjlDim, matrix.seed, matrix.generatorVersion) =
        (dim, qjlDim, seed, gaussianGeneratorVersion) ∧
      matrix.values.val = (StandardNormalStream.fillStandardNormal crates seed qjlStreamId
        (zeros64 arith (qjlDim.toNat * dim.toNat))).map arith.toF32 := by
  obtain ⟨_, -, hmatrix⟩ := bind_eq_ok.mp h
  injection hmatrix with hmatrix
  subst hmatrix
  refine ⟨rfl, ?_⟩
  show generateRows _ _ _ = _
  rw [generateRows_eq]
  simp [StandardNormalStream.fillStandardNormal, zeros64]

end Generate

end QjlMatrix

/-- The values of a stream do not depend on how it is consumed: each is made of its own two words, any
buffers one after another get what one long buffer gets, and a matrix is one long fill, of which a
matrix with fewer rows has the first part. -/
theorem StandardNormalStream.consumed {arith : FloatArith} (crates : GaussianCrates arith) :
    (∀ seed streamId n, nth nextValue (new crates seed streamId) n =
      let both := boxMuller crates (word crates seed streamId (2 * (n / 2)))
        (word crates seed streamId (2 * (n / 2) + 1))
      if n % 2 = 0 then both.1 else both.2) ∧
    (∀ (stream : StandardNormalStream crates) (outs : List (List arith.F64)),
      ((fills nextValue outs stream).1.flatten, (fills nextValue outs stream).2) =
        fill nextValue outs.flatten stream) ∧
    (∀ (dim qjlDim : UInt32) (seed : UInt64), 0 < dim → 0 < qjlDim → ∃ matrix : QjlMatrix,
      QjlMatrix.generate crates dim qjlDim seed = (.ok matrix : Checked Unit QjlMatrix) ∧
      matrix.dim = dim ∧ matrix.qjlDim = qjlDim ∧
      matrix.values.val = (fillStandardNormal crates seed qjlStreamId
        (QjlMatrix.zeros64 arith (qjlDim.toNat * dim.toNat))).map arith.toF32) ∧
    ∀ (dim rows rows' : UInt32) (seed : UInt64) (matrix matrix' : QjlMatrix), rows ≤ rows' →
      QjlMatrix.generate crates dim rows seed = (.ok matrix : Checked Unit QjlMatrix) →
      QjlMatrix.generate crates dim rows' seed = (.ok matrix' : Checked Unit QjlMatrix) →
      matrix.values.val <+: matrix'.values.val := by
  refine ⟨nth_new, fun stream outs => fills_eq outs stream, ?_, ?_⟩
  · intro dim qjlDim seed hdim hqjlDim
    obtain ⟨matrix, hmatrix⟩ : ∃ matrix,
        QjlMatrix.generate crates dim qjlDim seed = (.ok matrix : Checked Unit QjlMatrix) :=
      ⟨_, bind_eq_ok.mpr ⟨(), if_pos ⟨hdim, hqjlDim⟩, rfl⟩⟩
    obtain ⟨hfields, hvalues⟩ := QjlMatrix.generate_eq_ok crates hmatrix
    simp only [Prod.mk.injEq] at hfields
    exact ⟨matrix, hmatrix, hfields.1, hfields.2.1, hvalues⟩
  · intro dim rows rows' seed matrix matrix' hrows hmatrix hmatrix'
    rw [(QjlMatrix.generate_eq_ok crates hmatrix).2, (QjlMatrix.generate_eq_ok crates hmatrix').2]
    apply List.IsPrefix.map
    apply fill_isPrefix
    have hle := Nat.mul_le_mul_right dim.toNat (UInt32.le_iff_toNat_le.mp hrows)
    simpa [QjlMatrix.zeros64] using hle

end LTSearch
