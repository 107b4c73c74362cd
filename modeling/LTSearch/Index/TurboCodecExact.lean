/-
# LTSearch.Index.TurboCodecExact -- the codec of v2 and v3 records in exact arithmetic

Its encoder writes indices and signs one place at a time, at the bit offset of the place; what comes
out are the bytes of the v4 packing, so both scorers read back what their encoder packed.
-/
import LTSearch.Index.TurboCodec
import LTSearch.Index.TurboProdExact

namespace LTSearch

open LTSearch.Foundation

/-! ## The codec -/

/-- `CentroidTable`, with the four centroids that the codec asks for: centroid `k` of a coordinate is
at `dim·4 + k`. -/
structure ExactCentroids (K : Type) (d : Nat) where
  values : Fin (d * 4) → K

/-- `ProjectionMatrix`, row-major. -/
structure ExactProjection (K : Type) (outputDim inputDim : Nat) where
  values : Fin (outputDim * inputDim) → K

/-- `EncodedTurboVector`. -/
structure ExactVector (K : Type) where
  idx : Bytes
  qjl : Bytes
  gamma : K

/-- `TurboRecord512`, but for the document. -/
structure ExactRecord (K : Type) where
  idx : FixedBytes 128
  qjl : FixedBytes 64
  gamma : K

/-- `write_idx`. -/
def writeIdx (out : Bytes) (dim index : Nat) : Bytes :=
  let bitOffset := dim * 2
  let byteOffset := bitOffset / 8
  let shift := bitOffset % 8
  out.modify byteOffset fun byte => byte ||| UInt8.ofNat (index <<< shift)

/-- `write_sign_bit`. -/
def writeSignBit (out : Bytes) (dim : Nat) (isNonNegative : Bool) : Bytes :=
  if isNonNegative then out.modify (dim / 8) fun byte => byte ||| UInt8.ofNat (1 <<< (dim % 8)) else out

section Encode

variable {K : Type} [Field K] [LinearOrder K] {d : Nat}

/-- `centroid_value`. -/
def ExactCentroids.value (centroids : ExactCentroids K d) (dim : Fin d) (index : Fin 4) : K :=
  centroids.values (finProdFinEquiv (dim, index))

/-- `nearest_centroid`: the first of the nearest ones. -/
def ExactCentroids.nearest (centroids : ExactCentroids K d) (value : K) (dim : Fin d) : Fin 4 :=
  ([1, 2, 3] : List (Fin 4)).foldl (fun best index =>
    if |value - centroids.value dim index| < |value - centroids.value dim best| then index else best) 0

/-- What the nearest centroids leave over. -/
def ExactCentroids.residual (centroids : ExactCentroids K d) (vector : Fin d → K) (dim : Fin d) : K :=
  vector dim - centroids.value dim (centroids.nearest (vector dim) dim)

/-- `encode_vector`. -/
def encodeExact (arith : ExactArith K) (vector : Fin d → K) (centroids : ExactCentroids K d)
    (projection : ExactProjection K d d) : ExactVector K where
  idx := (List.finRange d).foldl (fun out (dim : Fin d) =>
    writeIdx out dim (centroids.nearest (vector dim) dim)) (List.replicate ((d * 2 + 7) / 8) 0)
  qjl := (List.finRange d).foldl (fun out (dim : Fin d) =>
    writeSignBit out dim (mulRows projection.values (centroids.residual vector) dim ≥ 0))
    (List.replicate ((d + 7) / 8) 0)
  gamma := arith.sqrt (∑ dim, centroids.residual vector dim * centroids.residual vector dim)

end Encode

section Score

variable {K : Type} [Field K]

/-- `PreparedTurboQuery`. -/
structure PreparedLegacy (K : Type) where
  /-- `centroid_lut[d][k] = q_d · c_d[k]` -/
  centroidLut : Fin 512 → Fin 4 → K
  /-- `S·q` -/
  projectedQuery : Fin 512 → K

/-- `prepare`. -/
def PreparedLegacy.prepare (query : Fin 512 → K) (centroids : ExactCentroids K 512)
    (projection : ExactProjection K 512 512) : PreparedLegacy K where
  centroidLut dim index := query dim * centroids.value dim index
  projectedQuery := mulRows projection.values query

/-- `score`, with the terms of `score_breakdown`. -/
def PreparedLegacy.score (query : PreparedLegacy K) (record : ExactRecord K) : K :=
  let centroidTerm := ∑ dim, query.centroidLut dim (PreparedTurboQuery.readIdx record.idx dim)
  let qjlTerm := ∑ dim, query.projectedQuery dim *
    if PreparedTurboQuery.readSignBit record.qjl dim then 1 else -1
  centroidTerm + record.gamma * qjlTerm

end Score

/-! ## The bytes -/

theorem writeIdx_eq (out : Bytes) (dim index : Nat) :
    writeIdx out dim index = writeCode 4 2 out (index, dim) := by
  have hbyte : dim * 2 / 8 = dim / 4 := by omega
  have hshift : dim * 2 % 8 = 2 * (dim % 4) := by omega
  simp only [writeIdx, writeCode, hbyte, hshift]

theorem writeSignBit_eq (out : Bytes) (dim : Nat) (isNonNegative : Bool) :
    writeSignBit out dim isNonNegative = writeCode 8 1 out (isNonNegative.toNat, dim) := by
  cases isNonNegative with
  | true =>
      simp only [writeSignBit, if_true, writeCode, Bool.toNat_true, Nat.one_mul]
  | false =>
      have hnone : (fun byte : UInt8 => byte ||| UInt8.ofNat (0 <<< (1 * (dim % 8)))) = id := by
        funext byte
        rw [Nat.zero_shiftLeft]
        exact UInt8.or_zero
      simp only [writeSignBit, Bool.false_eq_true, if_false, writeCode, Bool.toNat_false, hnone,
        List.modify_id]

/-- Writing place by place is packing. -/
theorem foldl_finRange_eq {perByte bits n size : Nat} (code : Fin n → Nat)
    (hsize : size = (n + (perByte - 1)) / perByte) {write : Bytes → Fin n → Bytes}
    (hwrite : ∀ out dim, write out dim = writeCode perByte bits out (code dim, dim)) :
    (List.finRange n).foldl write (List.replicate size 0) = packCodes perByte bits (List.ofFn code) := by
  have hcodes : (List.ofFn code).zipIdx = (List.finRange n).map fun dim => (code dim, dim.val) := by
    refine List.ext_getElem (by simp) fun i hi hi' => ?_
    simp
  rw [packCodes_eq, hcodes, List.foldl_map, List.length_ofFn, hsize, ← funext₂ hwrite]

section Bytes

variable {K : Type} [Field K] [LinearOrder K] {d : Nat} (arith : ExactArith K) (vector : Fin d → K)
  (centroids : ExactCentroids K d) (projection : ExactProjection K d d)

theorem idx_encodeExact : (encodeExact arith vector centroids projection).idx =
    packIndices fun dim => centroids.nearest (vector dim) dim :=
  foldl_finRange_eq _ (by omega) fun out dim => writeIdx_eq out dim _

theorem qjl_encodeExact : (encodeExact arith vector centroids projection).qjl =
    packSigns fun dim => decide (mulRows projection.values (centroids.residual vector) dim ≥ 0) :=
  foldl_finRange_eq
    (fun dim => (decide (mulRows projection.values (centroids.residual vector) dim ≥ 0)).toNat)
    rfl fun out dim => writeSignBit_eq out dim _

end Bytes

/-! ## The scorer -/

/-- `read_idx` reads the place of the coordinate. -/
theorem readIdx_eq (idx : FixedBytes 128) (dim : Fin 512) :
    PreparedTurboQuery.readIdx idx dim = indexAt idx.val dim := by
  have hbyte : dim.val / 4 < idx.val.length := by
    rw [idx.property]
    omega
  refine Fin.ext ?_
  simp only [indexAt, codeAt, List.getElem?_eq_getElem hbyte, Option.elim_some]
  rfl

/-- `read_sign_bit` reads the place of the row. -/
theorem readSignBit_eq (qjl : FixedBytes 64) (dim : Fin 512) :
    PreparedTurboQuery.readSignBit qjl dim = signAt qjl.val dim := by
  have hbyte : dim.val / 8 < qjl.val.length := by
    rw [qjl.property]
    omega
  simp only [signAt, codeAt, List.getElem?_eq_getElem hbyte, Option.elim_some]
  exact decide_eq_decide.mpr Fin.ext_iff

/-- `z_j`. -/
def signValue {K : Type} [Field K] (sign : Bool) : K := if sign then 1 else -1

section Packed

variable {K : Type} [Field K] {d m : Nat}

/-- The v4 score of packed indices and signs. -/
theorem score_packed (query : PreparedExact K d m) (indices : Fin d → Fin 4) (signs : Fin m → Bool)
    (gamma norm : K) :
    query.score { idx := packIndices indices, signs := packSigns signs, gamma, norm } =
      (.ok (norm * (∑ i, query.lut i (indices i) +
        gamma * query.scale * ∑ j, signValue (signs j) * query.projected j)) : Checked Unit K) := by
  have hbreakdown := scoreBreakdown_eq (ε := Unit) query
    { idx := packIndices indices, signs := packSigns signs, gamma, norm }
    (length_packIndices indices) (length_packSigns signs)
  refine bind_eq_ok.mpr ⟨_, hbreakdown, congrArg Except.ok ?_⟩
  simp only [ExactBreakdown.total, indexAt_packIndices, signAt_packSigns]
  refine congrArg (fun sum => norm * (_ + gamma * query.scale * sum)) ?_
  refine Finset.sum_congr rfl fun j _ => ?_
  cases signs j with
  | true => exact (one_mul _).symm
  | false => exact (neg_one_mul _).symm

/-- Two codes that agree in the places of the coordinates and rows have one score. -/
theorem score_congr (query : PreparedExact K d m) {code code' : ExactCode K}
    (hidx : code.idx.length = chunkCount 4 d) (hidx' : code'.idx.length = chunkCount 4 d)
    (hsigns : code.signs.length = chunkCount 8 m) (hsigns' : code'.signs.length = chunkCount 8 m)
    (hindices : ∀ i < d, codeAt 4 2 code.idx i = codeAt 4 2 code'.idx i)
    (hsame : ∀ j < m, codeAt 8 1 code.signs j = codeAt 8 1 code'.signs j)
    (hgamma : code.gamma = code'.gamma) (hnorm : code.norm = code'.norm) :
    (query.score code : Checked Unit K) = query.score code' := by
  have hindexAt : ∀ i : Fin d, indexAt code.idx i = indexAt code'.idx i := fun i =>
    Fin.ext (hindices i i.isLt)
  have hsignAt : ∀ j : Fin m, signAt code.signs j = signAt code'.signs j := fun j => by
    rw [signAt, signAt, hsame j j.isLt]
  rw [PreparedExact.score, PreparedExact.score, scoreBreakdown_eq query code hidx hsigns,
    scoreBreakdown_eq query code' hidx' hsigns', hgamma, hnorm]
  simp only [hindexAt, hsignAt]

/-- The legacy score of packed indices and signs. -/
theorem score_packedLegacy (query : PreparedLegacy K) (indices : Fin 512 → Fin 4)
    (signs : Fin 512 → Bool) (gamma : K) :
    query.score {
      idx := ⟨packIndices indices, length_packIndices indices⟩
      qjl := ⟨packSigns signs, length_packSigns signs⟩
      gamma } =
      ∑ i, query.centroidLut i (indices i) +
        gamma * ∑ j, signValue (signs j) * query.projectedQuery j := by
  simp only [PreparedLegacy.score, readIdx_eq, readSignBit_eq, indexAt_packIndices, signAt_packSigns]
  refine congrArg (fun sum => _ + gamma * sum) (Finset.sum_congr rfl fun j _ => mul_comm _ _)

end Packed

/-- What an encoder packs is in its places, and there are zeros after it; both encoders pack the
indices and signs they found; and both scores are the formula on what was packed, and on nothing
else. -/
theorem packedScores_exact {K : Type} [Field K] [LinearOrder K] (arith : ExactArith K) (d m : Nat) :
    (∀ (indices : Fin d → Fin 4) (j : Nat), codeAt 4 2 (packIndices indices) j =
      if h : j < d then (indices ⟨j, h⟩).val else 0) ∧
    (∀ (signs : Fin m → Bool) (j : Nat), codeAt 8 1 (packSigns signs) j =
      if h : j < m then (signs ⟨j, h⟩).toNat else 0) ∧
    (∀ (codec : ExactProd K d m) (x : Fin d → K),
      (codec.encode arith x).idx = packIndices (codec.indices arith x) ∧
      (codec.encode arith x).signs =
        packSigns fun j => decide (codec.qjl.project (codec.residual arith x) j ≥ 0)) ∧
    (∀ (vector : Fin d → K) (centroids : ExactCentroids K d) (projection : ExactProjection K d d),
      (encodeExact arith vector centroids projection).idx =
        packIndices (fun dim => centroids.nearest (vector dim) dim) ∧
      (encodeExact arith vector centroids projection).qjl = packSigns fun dim =>
        decide (mulRows projection.values (centroids.residual vector) dim ≥ 0)) ∧
    (∀ (codec : ExactProd K d m) (y : Fin d → K) (indices : Fin d → Fin 4) (signs : Fin m → Bool)
      (gamma norm : K), (codec.prepareQuery arith y).score
        { idx := packIndices indices, signs := packSigns signs, gamma, norm } =
      (.ok (norm * (∑ i, codec.rotation.rotate y i * codec.codebook.centroids (indices i) +
        gamma * arith.qjlScale m * ∑ j, signValue (signs j) *
          codec.qjl.project (codec.rotation.rotate y) j)) : Checked Unit K)) ∧
    (∀ (query : PreparedExact K d m) (code code' : ExactCode K), code.idx.length = chunkCount 4 d →
      code'.idx.length = chunkCount 4 d → code.signs.length = chunkCount 8 m →
      code'.signs.length = chunkCount 8 m →
      (∀ i < d, codeAt 4 2 code.idx i = codeAt 4 2 code'.idx i) →
      (∀ j < m, codeAt 8 1 code.signs j = codeAt 8 1 code'.signs j) →
      code.gamma = code'.gamma → code.norm = code'.norm →
      (query.score code : Checked Unit K) = query.score code') ∧
    ∀ (query : Fin 512 → K) (centroids : ExactCentroids K 512) (projection : ExactProjection K 512 512)
      (indices : Fin 512 → Fin 4) (signs : Fin 512 → Bool) (gamma : K),
      (PreparedLegacy.prepare query centroids projection).score {
        idx := ⟨packIndices indices, length_packIndices indices⟩
        qjl := ⟨packSigns signs, length_packSigns signs⟩
        gamma } =
      ∑ i, query i * centroids.value i (indices i) +
        gamma * ∑ j, signValue (signs j) * mulRows projection.values query j :=
  ⟨codeAt_packIndices, codeAt_packSigns, fun _ _ => ⟨rfl, rfl⟩,
    fun vector centroids projection => ⟨idx_encodeExact arith vector centroids projection,
      qjl_encodeExact arith vector centroids projection⟩,
    fun codec y indices signs gamma norm =>
      score_packed (codec.prepareQuery arith y) indices signs gamma norm,
    fun query _ _ => score_congr query,
    fun query centroids projection indices signs gamma => by
      rw [score_packedLegacy]
      simp only [PreparedLegacy.prepare]⟩

end LTSearch
