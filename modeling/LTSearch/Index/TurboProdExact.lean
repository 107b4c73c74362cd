/-
# LTSearch.Index.TurboProdExact -- the codec of v4 records in exact arithmetic

The codec over any ordered field with square roots, for any dimension and any number of sign rows.
Scoring a packed code is the formula on the indices and signs that were packed, and but for the sketch
of the residual the score is the inner product.
-/
import LTSearch.Foundation.Chunks
import LTSearch.Index.PackedCodes

namespace LTSearch

open LTSearch.Foundation

/-! ## The codec -/

/-- Arithmetic without rounding. -/
structure ExactArith (K : Type) [Field K] [LinearOrder K] where
  sqrt : K → K
  sqrt_nonneg (x : K) : 0 ≤ sqrt x
  mul_self_sqrt {x : K} : 0 ≤ x → sqrt x * sqrt x = x
  /-- `√(π/2)/m` -/
  qjlScale : Nat → K

/-- `Rotation`: row-major, `Π[i][j]` at `i·dim + j`. -/
structure ExactRotation (K : Type) (d : Nat) where
  matrix : Fin (d * d) → K

/-- `QjlMatrix`: row-major, `S[j][i]` at `j·dim + i`. -/
structure ExactQjl (K : Type) (m d : Nat) where
  values : Fin (m * d) → K

/-- A codebook for the two bits that an index has. -/
structure TwoBitCodebook (K : Type) where
  centroids : Fin 4 → K
  thresholds : Fin 3 → K

/-- `TurboQuantProdV1`. -/
structure ExactProd (K : Type) (d m : Nat) where
  rotation : ExactRotation K d
  codebook : TwoBitCodebook K
  qjl : ExactQjl K m d

/-- `EncodedTurboProd`, and `TurboProdCode`. -/
@[ext]
structure ExactCode (K : Type) where
  idx : Bytes
  signs : Bytes
  gamma : K
  norm : K

/-- The indices, two bits each. -/
def packIndices {d : Nat} (indices : Fin d → Fin 4) : Bytes :=
  packCodes 4 2 (List.ofFn fun i => (indices i).val)

/-- The signs, one bit each. -/
def packSigns {m : Nat} (signs : Fin m → Bool) : Bytes :=
  packCodes 8 1 (List.ofFn fun j => (signs j).toNat)

section Encode

variable {K : Type} [Field K] [LinearOrder K] {d m : Nat}

/-- The products of the rows of a row-major matrix with a vector. -/
def mulRows (values : Fin (m * d) → K) (x : Fin d → K) (j : Fin m) : K :=
  ∑ i, values (finProdFinEquiv (j, i)) * x i

/-- `rotate`. -/
def ExactRotation.rotate (rotation : ExactRotation K d) (x : Fin d → K) : Fin d → K :=
  mulRows rotation.matrix x

/-- `inverse_rotate`. -/
def ExactRotation.inverseRotate (rotation : ExactRotation K d) (y : Fin d → K) (j : Fin d) : K :=
  ∑ i, y i * rotation.matrix (finProdFinEquiv (i, j))

/-- The products of the rows with a vector. -/
def ExactQjl.project (qjl : ExactQjl K m d) (x : Fin d → K) : Fin m → K := mulRows qjl.values x

/-- `QjlMatrix::encode`. -/
def ExactQjl.encode (qjl : ExactQjl K m d) (residual : Fin d → K) : Bytes :=
  packSigns fun j => decide (qjl.project residual j ≥ 0)

/-- `LloydMaxCodebook::encode`: the number of thresholds at or below. -/
def TwoBitCodebook.encode (codebook : TwoBitCodebook K) (x : K) : Fin 4 :=
  ⟨(List.ofFn codebook.thresholds).countP (x ≥ ·), Nat.lt_succ_of_le
    (List.countP_le_length.trans (List.length_ofFn).le)⟩

/-- `LloydMaxCodebook::decode`. -/
def TwoBitCodebook.decode (codebook : TwoBitCodebook K) (index : Fin 4) : K := codebook.centroids index

namespace ExactProd

variable (arith : ExactArith K) (codec : ExactProd K d m)

/-- `‖x‖`. -/
def norm (x : Fin d → K) : K := arith.sqrt (∑ i, x i * x i)

/-- The vector over its norm. -/
def unit (x : Fin d → K) (i : Fin d) : K := if norm arith x = 0 then 0 else x i / norm arith x

/-- The rotated unit vector. -/
def rotated (x : Fin d → K) : Fin d → K := codec.rotation.rotate (unit arith x)

/-- The index of each rotated coordinate. -/
def indices (x : Fin d → K) (i : Fin d) : Fin 4 := codec.codebook.encode (codec.rotated arith x i)

/-- What the centroids leave over. -/
def residual (x : Fin d → K) (i : Fin d) : K :=
  codec.rotated arith x i - codec.codebook.decode (codec.indices arith x i)

/-- `encode`. -/
def encode (x : Fin d → K) : ExactCode K where
  idx := packIndices (codec.indices arith x)
  signs := codec.qjl.encode (codec.residual arith x)
  gamma := norm arith (codec.residual arith x)
  norm := norm arith x

end ExactProd

end Encode

/-! ## Scoring -/

/-- `PreparedTurboProdQuery`, with its `PreparedQjlQuery`. -/
structure PreparedExact (K : Type) (d m : Nat) where
  /-- `lut[i][k] = y′_i·c_k` -/
  lut : Fin d → Fin 4 → K
  /-- `S·y′` -/
  projected : Fin m → K
  scale : K

/-- `TurboProdScoreBreakdown`. -/
structure ExactBreakdown (K : Type) where
  mseTerm : K
  qjlTerm : K
  norm : K

section Score

variable {K : Type} [Field K] {d m : Nat} {ε : Type}

/-- `prepare_query`. -/
def ExactProd.prepareQuery [LinearOrder K] (arith : ExactArith K) (codec : ExactProd K d m) (query : Fin d → K) :
    PreparedExact K d m where
  lut i k := codec.rotation.rotate query i * codec.codebook.centroids k
  projected := codec.qjl.project (codec.rotation.rotate query)
  scale := arith.qjlScale m

/-- `total`. -/
def ExactBreakdown.total (breakdown : ExactBreakdown K) : K :=
  breakdown.norm * (breakdown.mseTerm + breakdown.qjlTerm)

namespace PreparedExact

variable (query : PreparedExact K d m)

/-- `signed_sum`. -/
def signedSum (signs : Bytes) : Checked ε K := do
  Checked.assertThat (signs.length = chunkCount 8 m) "sign code length doesn't match qjl_dim"
  return ((chunks 8 (List.ofFn query.projected)).zip signs).foldl
    (fun sum chunk => chunk.1.zipIdx.foldl
      (fun sum value => sum + (if unpackCode 1 chunk.2 value.2 = 1 then value.1 else -value.1)) sum) 0

/-- `estimate`. -/
def estimate (signs : Bytes) (gamma : K) : Checked ε K := do
  let sum ← query.signedSum signs
  return gamma * query.scale * sum

/-- `score_breakdown`. -/
def scoreBreakdown (code : ExactCode K) : Checked ε (ExactBreakdown K) := do
  Checked.assertThat (code.idx.length = chunkCount 4 d) "index code length doesn't match dim"
  let mseTerm := ((chunks 4 (List.ofFn query.lut)).zip code.idx).foldl
    (fun sum chunk => chunk.1.zipIdx.foldl
      (fun sum products => sum + products.1 (unpackCode 2 chunk.2 products.2)) sum) 0
  let qjlTerm ← query.estimate code.signs code.gamma
  return { mseTerm, qjlTerm, norm := code.norm }

/-- `score`. -/
def score (code : ExactCode K) : Checked ε K := do
  let breakdown ← query.scoreBreakdown code
  return breakdown.total

end PreparedExact

end Score

/-! ## What a scorer reads -/

theorem places_idx : Places 4 2 := ⟨rfl, by decide⟩
theorem places_sign : Places 8 1 := ⟨rfl, by decide⟩

theorem codeAt_lt {perByte bits : Nat} (bytes : Bytes) (j : Nat) :
    codeAt perByte bits bytes j < 2 ^ bits := by
  unfold codeAt
  cases bytes[j / perByte]? with
  | none => exact Nat.two_pow_pos bits
  | some byte => exact (unpackCode bits byte (j % perByte)).isLt

/-- The index in place `i`. -/
def indexAt (idx : Bytes) (i : Nat) : Fin 4 := ⟨codeAt 4 2 idx i, codeAt_lt idx i⟩

/-- The sign in place `j`. -/
def signAt (signs : Bytes) (j : Nat) : Bool := codeAt 8 1 signs j = 1

theorem sum_zipIdx_ofFn {α M : Type} [AddCommMonoid M] {n : Nat} (g : Fin n → α) (f : α × Nat → M) :
    ((List.ofFn g).zipIdx.map f).sum = ∑ i, f (g i, i.val) := by
  have hmap : (List.ofFn g).zipIdx.map f = List.ofFn fun i => f (g i, i.val) := by
    refine List.ext_getElem (by simp) fun i hi hi' => ?_
    simp
  rw [hmap, List.sum_ofFn]

section Reads

variable {K : Type} [Field K] {d m : Nat} {ε : Type} (query : PreparedExact K d m)

/-- Of the sign bytes, one bit for each row is read. -/
theorem signedSum_eq {signs : Bytes} (hsigns : signs.length = chunkCount 8 m) :
    query.signedSum signs = (.ok (∑ j : Fin m,
      if signAt signs j then query.projected j else -query.projected j) : Checked ε K) := by
  refine bind_eq_ok.mpr ⟨(), assertThat_eq_ok.mpr hsigns, congrArg Except.ok ?_⟩
  refine (foldl_zip_chunks (by decide) (fun value byte slot =>
    if unpackCode 1 byte slot = 1 then value else -value) (List.ofFn query.projected) signs
    (by rw [hsigns, List.length_ofFn]) 0).trans ?_
  rw [zero_add, sum_zipIdx_ofFn]
  refine Finset.sum_congr rfl fun j _ => ?_
  have hbyte : j.val / 8 < signs.length := hsigns ▸ div_lt_chunkCount (by decide) j.isLt
  simp only [signAt, codeAt, List.getElem?_eq_getElem hbyte, Option.elim_some, decide_eq_true_eq]
  refine if_congr ?_ rfl rfl
  exact Fin.ext_iff

/-- Of the index bytes, two bits for each coordinate are read. -/
theorem scoreBreakdown_eq (code : ExactCode K) (hidx : code.idx.length = chunkCount 4 d)
    (hsigns : code.signs.length = chunkCount 8 m) :
    query.scoreBreakdown code = (.ok {
      mseTerm := ∑ i : Fin d, query.lut i (indexAt code.idx i)
      qjlTerm := code.gamma * query.scale * ∑ j : Fin m,
        if signAt code.signs j then query.projected j else -query.projected j
      norm := code.norm } : Checked ε (ExactBreakdown K)) := by
  have hqjl : (query.estimate code.signs code.gamma : Checked ε K) = _ :=
    bind_eq_ok.mpr ⟨_, signedSum_eq query hsigns, rfl⟩
  refine bind_eq_ok.mpr ⟨(), assertThat_eq_ok.mpr hidx, bind_eq_ok.mpr ⟨_, hqjl, ?_⟩⟩
  refine congrArg (fun mseTerm => Except.ok (ExactBreakdown.mk mseTerm _ code.norm)) ?_
  refine (foldl_zip_chunks (by decide) (fun (products : Fin 4 → K) byte slot =>
    products (unpackCode 2 byte slot)) (List.ofFn query.lut) code.idx
    (by rw [hidx, List.length_ofFn]) 0).trans ?_
  rw [zero_add, sum_zipIdx_ofFn]
  refine Finset.sum_congr rfl fun i _ => ?_
  have hbyte : i.val / 4 < code.idx.length := hidx ▸ div_lt_chunkCount (by decide) i.isLt
  simp only [indexAt, codeAt, List.getElem?_eq_getElem hbyte, Option.elim_some]
  rfl

end Reads

/-! ## What the encoders packed -/

theorem length_packIndices {d : Nat} (indices : Fin d → Fin 4) :
    (packIndices indices).length = chunkCount 4 d := by
  rw [packIndices, length_packCodes, List.length_ofFn, chunkCount]

theorem length_packSigns {m : Nat} (signs : Fin m → Bool) :
    (packSigns signs).length = chunkCount 8 m := by
  rw [packSigns, length_packCodes, List.length_ofFn, chunkCount]

/-- The indices are where they were put, and after them there are zeros. -/
theorem codeAt_packIndices {d : Nat} (indices : Fin d → Fin 4) (j : Nat) :
    codeAt 4 2 (packIndices indices) j = if h : j < d then (indices ⟨j, h⟩).val else 0 := by
  have hcodes : ∀ code ∈ List.ofFn fun i => (indices i).val, code < 2 ^ 2 := by
    intro code hcode
    obtain ⟨i, rfl⟩ := List.mem_ofFn.mp hcode
    exact (indices i).isLt
  rw [packIndices, codeAt_packCodes places_idx hcodes]
  split
  · rename_i h
    rw [List.getElem?_ofFn, dif_pos h]
    rfl
  · rename_i h
    rw [List.getElem?_ofFn, dif_neg h]
    rfl

/-- The signs are where they were put, and after them there are zeros. -/
theorem codeAt_packSigns {m : Nat} (signs : Fin m → Bool) (j : Nat) :
    codeAt 8 1 (packSigns signs) j = if h : j < m then (signs ⟨j, h⟩).toNat else 0 := by
  have hcodes : ∀ code ∈ List.ofFn fun j => (signs j).toNat, code < 2 ^ 1 := by
    intro code hcode
    obtain ⟨j, rfl⟩ := List.mem_ofFn.mp hcode
    exact Bool.toNat_lt (signs j)
  rw [packSigns, codeAt_packCodes places_sign hcodes]
  split
  · rename_i h
    rw [List.getElem?_ofFn, dif_pos h]
    rfl
  · rename_i h
    rw [List.getElem?_ofFn, dif_neg h]
    rfl

theorem indexAt_packIndices {d : Nat} (indices : Fin d → Fin 4) (i : Fin d) :
    indexAt (packIndices indices) i = indices i :=
  Fin.ext ((codeAt_packIndices indices i).trans (dif_pos i.isLt))

theorem signAt_packSigns {m : Nat} (signs : Fin m → Bool) (j : Fin m) :
    signAt (packSigns signs) j = signs j := by
  rw [signAt, codeAt_packSigns, dif_pos j.isLt]
  cases signs j <;> rfl

/-! ## The inner product -/

section Orthogonal

variable {K : Type} [Field K] {d : Nat}

/-- The matrix that the rotation stores. -/
def ExactRotation.toMatrix (rotation : ExactRotation K d) : Matrix (Fin d) (Fin d) K :=
  Matrix.of fun i j => rotation.matrix (finProdFinEquiv (i, j))

theorem ExactRotation.rotate_eq (rotation : ExactRotation K d) (x : Fin d → K) :
    rotation.rotate x = rotation.toMatrix.mulVec x := rfl

theorem ExactRotation.inverseRotate_eq (rotation : ExactRotation K d) (y : Fin d → K) :
    rotation.inverseRotate y = rotation.toMatrix.transpose.mulVec y := by
  funext j
  exact Finset.sum_congr rfl fun i _ => mul_comm _ _

/-- Rows of length one, each at a right angle to the others. -/
def ExactRotation.Orthogonal (rotation : ExactRotation K d) : Prop :=
  rotation.toMatrix ∈ Matrix.orthogonalGroup (Fin d) K

variable {rotation : ExactRotation K d}

theorem ExactRotation.inverseRotate_rotate (h : rotation.Orthogonal) (x : Fin d → K) :
    rotation.inverseRotate (rotation.rotate x) = x := by
  rw [inverseRotate_eq, rotate_eq, Matrix.mulVec_mulVec]
  have hone : rotation.toMatrix.transpose * rotation.toMatrix = 1 :=
    (Matrix.mem_orthogonalGroup_iff' (Fin d) K).mp h
  rw [hone, Matrix.one_mulVec]

/-- A rotation keeps inner products. -/
theorem ExactRotation.sum_rotate (h : rotation.Orthogonal) (x y : Fin d → K) :
    ∑ i, rotation.rotate y i * rotation.rotate x i = ∑ i, y i * x i := by
  have hback := inverseRotate_rotate h x
  calc ∑ i, rotation.rotate y i * rotation.rotate x i
      = ∑ i, ∑ j, rotation.matrix (finProdFinEquiv (i, j)) * y j * rotation.rotate x i := by
        refine Finset.sum_congr rfl fun i _ => ?_
        rw [rotate, mulRows, Finset.sum_mul]
    _ = ∑ j, y j * rotation.inverseRotate (rotation.rotate x) j := by
        rw [Finset.sum_comm]
        refine Finset.sum_congr rfl fun j _ => ?_
        rw [inverseRotate, Finset.mul_sum]
        exact Finset.sum_congr rfl fun i _ => by ring
    _ = ∑ j, y j * x j := by rw [hback]

end Orthogonal

namespace ExactProd

variable {K : Type} [Field K] [LinearOrder K] [IsStrictOrderedRing K] {d m : Nat}
  (arith : ExactArith K) (codec : ExactProd K d m)

theorem mul_self_norm (x : Fin d → K) : norm arith x * norm arith x = ∑ i, x i * x i :=
  arith.mul_self_sqrt (Finset.sum_nonneg fun i _ => mul_self_nonneg (x i))

theorem eq_zero_of_norm {x : Fin d → K} (h : norm arith x = 0) (i : Fin d) : x i = 0 := by
  have hsum := mul_self_norm arith x
  rw [h, mul_zero] at hsum
  have hzero := (Finset.sum_eq_zero_iff_of_nonneg fun i _ => mul_self_nonneg (x i)).mp hsum.symm
  exact mul_self_eq_zero.mp (hzero i (Finset.mem_univ i))

/-- The norm times the unit vector is the vector, also for the zero vector. -/
theorem norm_mul_unit (x : Fin d → K) (i : Fin d) : norm arith x * unit arith x i = x i := by
  unfold unit
  split
  · rename_i hzero
    rw [mul_zero, eq_zero_of_norm arith hzero i]
  · rename_i hne
    exact mul_div_cancel₀ (x i) hne

/-- A vector that is scaled up or down has its norm scaled. -/
theorem norm_smul {scale : K} (hscale : 0 < scale) (x : Fin d → K) :
    norm arith (fun i => scale * x i) = scale * norm arith x := by
  refine (mul_self_inj (arith.sqrt_nonneg _) (mul_nonneg hscale.le (arith.sqrt_nonneg _))).mp ?_
  show norm arith _ * norm arith _ = scale * norm arith x * (scale * norm arith x)
  rw [mul_self_norm, mul_mul_mul_comm, mul_self_norm, Finset.mul_sum]
  exact Finset.sum_congr rfl fun i _ => by ring

/-- … and the same direction. -/
theorem unit_smul {scale : K} (hscale : 0 < scale) (x : Fin d → K) :
    unit arith (fun i => scale * x i) = unit arith x := by
  funext i
  unfold unit
  simp only [norm_smul arith hscale, mul_eq_zero, or_iff_right hscale.ne']
  split
  · rfl
  · exact mul_div_mul_left _ _ hscale.ne'

/-- The score's first term and what the sketch estimates make up the inner product; the code of a
scaled vector differs in its norm only; and the code of the zero vector scores zero. -/
theorem decomposition (horthogonal : codec.rotation.Orthogonal) :
    (∀ x y : Fin d → K, ∃ breakdown, (codec.prepareQuery arith y).scoreBreakdown (codec.encode arith x) =
        (.ok breakdown : Checked Unit (ExactBreakdown K)) ∧
      breakdown.norm * (breakdown.mseTerm +
        ∑ i, codec.rotation.rotate y i * codec.residual arith x i) = ∑ i, y i * x i) ∧
    (∀ (x : Fin d → K) (scale : K), 0 < scale → codec.encode arith (fun i => scale * x i) =
      { codec.encode arith x with norm := scale * (codec.encode arith x).norm }) ∧
    ∀ y : Fin d → K, (codec.prepareQuery arith y).score (codec.encode arith fun _ => 0) =
      (.ok 0 : Checked Unit K) := by
  have hbreakdown := fun x y : Fin d → K => scoreBreakdown_eq (ε := Unit) (codec.prepareQuery arith y)
    (codec.encode arith x) (length_packIndices _) (length_packSigns _)
  refine ⟨fun x y => ⟨_, hbreakdown x y, ?_⟩, fun x scale hscale => ?_, fun y => ?_⟩
  · have hmse : ∀ i, (codec.prepareQuery arith y).lut i (indexAt (codec.encode arith x).idx i) =
        codec.rotation.rotate y i * codec.codebook.decode (codec.indices arith x i) := by
      intro i
      show _ * codec.codebook.centroids (indexAt (packIndices (codec.indices arith x)) i) = _
      rw [indexAt_packIndices]
      rfl
    -- looked up term and residual add up to the rotated vector, and the rotation keeps inner products
    have hsum : ∑ i, (codec.prepareQuery arith y).lut i (indexAt (codec.encode arith x).idx i) +
        ∑ i, codec.rotation.rotate y i * codec.residual arith x i =
        ∑ i, y i * unit arith x i := by
      rw [← Finset.sum_add_distrib]
      refine Eq.trans (Finset.sum_congr rfl fun i _ => ?_)
        (ExactRotation.sum_rotate horthogonal (unit arith x) y)
      rw [hmse, residual, rotated]
      ring
    show norm arith x * (_ + _) = _
    rw [hsum, Finset.mul_sum]
    refine Finset.sum_congr rfl fun i _ => ?_
    rw [mul_left_comm, norm_mul_unit]
  · -- scaling leaves the unit vector, hence all codes
    have hrotated : codec.rotated arith (fun i => scale * x i) = codec.rotated arith x := by
      rw [rotated, unit_smul arith hscale]
      rfl
    have hindices : codec.indices arith (fun i => scale * x i) = codec.indices arith x := by
      funext i
      rw [indices, hrotated]
      rfl
    have hresidual : codec.residual arith (fun i => scale * x i) = codec.residual arith x := by
      funext i
      rw [residual, hrotated, hindices]
      rfl
    rw [encode, hindices, hresidual, norm_smul arith hscale]
    rfl
  · -- the zero vector has norm zero
    have hnorm : norm arith (fun _ : Fin d => (0 : K)) = 0 := by
      have hsum := mul_self_norm arith fun _ : Fin d => (0 : K)
      rw [Finset.sum_congr rfl fun _ _ => mul_zero (0 : K), Finset.sum_const_zero] at hsum
      exact mul_self_eq_zero.mp hsum
    refine bind_eq_ok.mpr ⟨_, hbreakdown _ y, congrArg Except.ok ?_⟩
    show norm arith (fun _ => 0) * _ = 0
    rw [hnorm, zero_mul]

/-- Arithmetic on the reals. -/
noncomputable def realArith : ExactArith ℝ where
  sqrt := Real.sqrt
  sqrt_nonneg := Real.sqrt_nonneg
  mul_self_sqrt := Real.mul_self_sqrt
  qjlScale m := Real.sqrt (Real.pi / (2 : ℕ)) / m

/-- A rotation of the plane by a 3-4-5 triangle, four centroids and two sign rows. -/
noncomputable def planeCodec : ExactProd ℝ 2 2 where
  rotation := ⟨![(3 / 5 : ℚ), (4 / 5 : ℚ), (-4 / 5 : ℚ), (3 / 5 : ℚ)]⟩
  codebook := {
    centroids := ![(-3 / 4 : ℚ), (-1 / 4 : ℚ), (1 / 4 : ℚ), (3 / 4 : ℚ)]
    thresholds := ![(-1 / 2 : ℚ), 0, (1 / 2 : ℚ)] }
  qjl := ⟨![1, -1, 1, (2 : ℚ)]⟩

theorem planeCodec_orthogonal : planeCodec.rotation.Orthogonal := by
  refine (Matrix.mem_orthogonalGroup_iff (Fin 2) ℝ).mpr ?_
  ext i j
  fin_cases i <;> fin_cases j <;>
    simp [ExactRotation.toMatrix, planeCodec, Matrix.mul_apply, Fin.sum_univ_two, finProdFinEquiv] <;>
    norm_num

theorem planeCodec_norm : norm realArith ![4, 3] = 5 := by
  have hsum : ∑ i, (![4, 3] : Fin 2 → ℝ) i * (![4, 3] : Fin 2 → ℝ) i = 5 ^ 2 := by
    rw [Fin.sum_univ_two]
    norm_num
  show Real.sqrt (∑ i, _) = 5
  rw [hsum, Real.sqrt_sq (by norm_num)]

theorem planeCodec_rotated : planeCodec.rotated realArith ![4, 3] = ![24 / 25, -7 / 25] := by
  funext i
  fin_cases i <;>
    simp [rotated, ExactRotation.rotate, mulRows, unit, planeCodec_norm, Fin.sum_univ_two, finProdFinEquiv,
      planeCodec] <;>
    norm_num

/-- The coordinates get different centroids, and something is left over of both. -/
theorem planeCodec_residual : planeCodec.indices realArith ![4, 3] = ![3, 1] ∧
    planeCodec.residual realArith ![4, 3] = ![21 / 100, -3 / 100] := by
  have hindices : planeCodec.indices realArith ![4, 3] = ![3, 1] := by
    funext i
    rw [indices, planeCodec_rotated]
    fin_cases i
    · simp [TwoBitCodebook.encode, planeCodec, List.ofFn_succ, List.countP_cons]
      norm_num
      rfl
    · simp [TwoBitCodebook.encode, planeCodec, List.ofFn_succ, List.countP_cons]
      norm_num
  refine ⟨hindices, ?_⟩
  funext i
  rw [residual, hindices, planeCodec_rotated]
  fin_cases i <;> simp [TwoBitCodebook.decode, planeCodec] <;> norm_num

/-- The score of `(4, 3)` for `(1, 2)`, with the residual itself in place of its sketch, is `10`; twice the
vector has the same code but for its norm. -/
theorem decomposition_plane :
    (planeCodec.residual realArith ![4, 3] = ![21 / 100, -3 / 100] ∧
      (planeCodec.encode realArith ![4, 3]).norm = 5) ∧
    (∃ breakdown, (planeCodec.prepareQuery realArith ![1, 2]).scoreBreakdown
        (planeCodec.encode realArith ![4, 3]) = (.ok breakdown : Checked Unit (ExactBreakdown ℝ)) ∧
      breakdown.norm * (breakdown.mseTerm + ∑ i, planeCodec.rotation.rotate ![1, 2] i *
        planeCodec.residual realArith ![4, 3] i) = 10) ∧
    planeCodec.encode realArith (fun i => 2 * ![4, 3] i) =
      { planeCodec.encode realArith ![4, 3] with norm := 2 * 5 } ∧
    (planeCodec.prepareQuery realArith ![1, 2]).score (planeCodec.encode realArith fun _ => 0) =
      (.ok 0 : Checked Unit ℝ) := by
  have hnorm : (planeCodec.encode realArith ![4, 3]).norm = 5 := planeCodec_norm
  obtain ⟨hinner, hscale, hzero⟩ := decomposition realArith planeCodec planeCodec_orthogonal
  refine ⟨⟨planeCodec_residual.2, hnorm⟩, ?_, ?_, hzero ![1, 2]⟩
  · obtain ⟨breakdown, hbreakdown, hproduct⟩ := hinner ![4, 3] ![1, 2]
    refine ⟨breakdown, hbreakdown, hproduct.trans ?_⟩
    rw [Fin.sum_univ_two]
    norm_num
  · rw [hscale ![4, 3] 2 (by norm_num), hnorm]

end ExactProd

end LTSearch
