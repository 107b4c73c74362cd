/-
# LTSearch.Index.TurboCodec -- the codec of v2 and v3 records

Each coordinate is stored as the index of the nearest of its own four centroids, and the residual as
one sign bit for each row of the projection.
-/
import LTSearch.Index.Arith
import LTSearch.Index.CodecConfig
import LTSearch.Index.TurboProd

namespace LTSearch

open LTSearch.Foundation

/-- `EncodedTurboVector`. -/
structure EncodedTurboVector where
  idx : Bytes
  qjl : Bytes
  gamma : F32
  deriving DecidableEq

/-- `PreparedTurboQuery`. -/
structure PreparedTurboQuery where
  centroidLut : Vector (Vector F32 4) 512
  projectedQuery : Vector F32 512

/-- `validate_codec_inputs`. -/
def validateCodecInputs (vectorDim : Nat) (centroids : CentroidTable)
    (projection : ProjectionMatrix) : Except AssetError Unit := do
  rejectIf (centroids.dim.toNat ≠ vectorDim) (.dimensionMismatch vectorDim centroids.dim.toNat)
  rejectIf (centroids.centroidsPerDim.toNat ≠ 4)
    (.invalidLayout 4 centroids.centroidsPerDim.toNat)
  rejectIf (projection.inputDim.toNat ≠ vectorDim)
    (.dimensionMismatch vectorDim projection.inputDim.toNat)
  rejectIf (projection.outputDim.toNat ≠ vectorDim)
    (.dimensionMismatch vectorDim projection.outputDim.toNat)

/-- `ProjectionMatrix::project_checked`. -/
def ProjectionMatrix.project (arith : FloatArith) (projection : ProjectionMatrix)
    (input : List F32) : Except AssetError (List F32) := do
  checkLen projection.inputDim.toNat input.length
  return (rows projection.outputDim.toNat projection.inputDim.toNat projection.values.val).map
    fun row => arith.dot row input

/-- The place in `candidates` of the value nearest to `value`, the first of equally near ones, after
`best`, which is at `bestIndex`. -/
def nearestFrom (arith : FloatArith) (value : F32) (bestIndex : Nat) (best : F32) :
    List (F32 × Nat) → Nat × F32
  | [] => (bestIndex, best)
  | (candidate, index) :: rest =>
      if (arith.sub value candidate).abs.lt (arith.sub value best).abs then
        nearestFrom arith value index candidate rest
      else nearestFrom arith value bestIndex best rest

/-- `nearest_centroid`. -/
def nearestCentroid (arith : FloatArith) (value : F32) (centroids : CentroidTable) (dim : Nat) :
    Checked AssetError (Nat × F32) := do
  let values ← Checked.slice (4 * dim) (4 * dim + 4) centroids.values.val
  let first ← Checked.at' 0 values
  return nearestFrom arith value 0 first (values.zipIdx.drop 1)

/-- `encode_vector`. -/
def encodeVector (arith : FloatArith) (vector : List F32) (centroids : CentroidTable)
    (projection : ProjectionMatrix) : Checked AssetError EncodedTurboVector := do
  Checked.lifted (validateCodecInputs vector.length centroids projection)
  let nearest ← vector.zipIdx.mapM fun (value, dim) => nearestCentroid arith value centroids dim
  let residual := List.zipWith (fun value centroid => arith.sub value centroid.2) vector nearest
  let projected ← Checked.lifted (projection.project arith residual)
  return {
    idx := packCodes 4 2 (nearest.map (·.1))
    qjl := packCodes 8 1 (projected.map fun value => if value.ge F32.zero then 1 else 0)
    gamma := arith.sqrt (arith.sum (residual.map fun value => arith.mul value value)) }

namespace PreparedTurboQuery

variable (arith : FloatArith)

/-- `prepare`. -/
def prepare (query : List F32) (centroids : CentroidTable) (projection : ProjectionMatrix) :
    Checked AssetError PreparedTurboQuery := do
  Checked.failIf (query.length ≠ 512) (.dimensionMismatch 512 query.length)
  Checked.lifted (validateCodecInputs query.length centroids projection)
  let centroidLut ← Checked.tabulate 512 fun dim => Checked.tabulate 4 fun index => do
    let value ← Checked.at' dim query
    let centroid ← Checked.at' (4 * dim + index) centroids.values.val
    return arith.mul value centroid
  let projected ← Checked.lifted (projection.project arith query)
  if h : projected.length = 512 then
    return { centroidLut, projectedQuery := ⟨projected.toArray, h⟩ }
  else Checked.fail (.dimensionMismatch 512 projected.length)

/-- The byte `i` of an array. -/
def byteAt {n : Nat} (bytes : FixedBytes n) (i : Fin n) : UInt8 :=
  bytes.val.get (i.cast bytes.property.symm)

/-- The stored index of a coordinate: `read_idx`. -/
def readIdx (idx : FixedBytes 128) (dim : Fin 512) : Fin 4 :=
  unpackCode 2 (byteAt idx ⟨dim.val / 4, by omega⟩) (dim.val % 4)

/-- The stored sign of a row: `read_sign_bit`. -/
def readSignBit (qjl : FixedBytes 64) (dim : Fin 512) : Bool :=
  unpackCode 1 (byteAt qjl ⟨dim.val / 8, by omega⟩) (dim.val % 8) = 1

/-- `score`: no step of it can fail. -/
def score (query : PreparedTurboQuery) (record : TurboRecord512) : F32 :=
  let centroidTerm := arith.sum (List.ofFn fun dim : Fin 512 =>
    query.centroidLut[dim][readIdx record.idx dim])
  let qjlTerm := arith.sum (List.ofFn fun dim : Fin 512 =>
    arith.mul query.projectedQuery[dim]
      (if readSignBit record.qjl dim then F32.one else F32.one.neg))
  arith.add centroidTerm (arith.mul record.gamma qjlTerm)

end PreparedTurboQuery

/-! ## Nothing is out of bounds -/

theorem validateCodecInputs_eq_ok {vectorDim : Nat} {centroids : CentroidTable}
    {projection : ProjectionMatrix} :
    validateCodecInputs vectorDim centroids projection = .ok () ↔
      centroids.dim.toNat = vectorDim ∧ centroids.centroidsPerDim.toNat = 4 ∧
        projection.inputDim.toNat = vectorDim ∧ projection.outputDim.toNat = vectorDim := by
  simp only [validateCodecInputs, check_bind_eq_ok, rejectIf_eq_ok, not_not]

theorem length_rows_map {β : Type} (f : List F32 → β) (count n : Nat) (values : List F32) :
    ((rows count n values).map f).length = count := by
  rw [List.length_map, length_rows]

/-- A vector of the assets' dimension is encoded, and its codes have the lengths of a record's. -/
theorem encodeVector_isOk (arith : FloatArith) {vector : List F32} {centroids : CentroidTable}
    {projection : ProjectionMatrix} (hvector : vector.length = 512)
    (hcentroids : centroids.dim = 512) (hper : centroids.centroidsPerDim = 4)
    (hin : projection.inputDim = 512) (hout : projection.outputDim = 512) :
    ∃ encoded, encodeVector arith vector centroids projection = .ok encoded ∧
      encoded.idx.length = 128 ∧ encoded.qjl.length = 64 := by
  have hvalid : validateCodecInputs vector.length centroids projection = .ok () := by
    rw [validateCodecInputs_eq_ok, hvector, hcentroids, hper, hin, hout]
    exact ⟨rfl, rfl, rfl, rfl⟩
  have hcount : centroids.values.val.length = 512 * 4 := by
    rw [centroids.values.property, hcentroids, hper]
    rfl
  have hnearest : ∀ item ∈ vector.zipIdx, ∃ found,
      nearestCentroid arith item.1 centroids item.2 = .ok found := by
    intro item hitem
    have hdim : item.2 < 512 := by
      have := List.snd_lt_of_mem_zipIdx hitem
      omega
    have hslice : ((centroids.values.val.drop (4 * item.2)).take
        (4 * item.2 + 4 - 4 * item.2)).length = 4 := by
      rw [List.length_take, List.length_drop]
      omega
    simp only [nearestCentroid, bind_eq_ok, slice_eq_ok, at'_eq_ok]
    exact ⟨_, _, ⟨⟨Nat.le_add_right _ _, by omega⟩, rfl⟩, _,
      List.getElem?_eq_getElem (hslice.symm ▸ (by decide : 0 < 4)), rfl⟩
  obtain ⟨nearest, hmap⟩ := mapM_isOk hnearest
  have hlen : nearest.length = 512 := by
    rw [← (mapM_eq_ok_iff.mp hmap).length_eq, List.length_zipIdx, hvector]
  simp only [encodeVector, ProjectionMatrix.project, checkLen, bind_eq_ok, lifted_eq_ok,
    rejectIf_eq_ok, not_not]
  refine ⟨_, ⟨(), hvalid, nearest, hmap, _, ⟨(), ?_, rfl⟩, rfl⟩, ?_, ?_⟩
  · rw [List.length_zipWith, hvector, hlen, hin]
    rfl
  · rw [length_packCodes, List.length_map, hlen]
  · rw [length_packCodes, List.length_map, length_rows_map, hout]
    rfl

/-- A query of the assets' dimension is prepared. -/
theorem PreparedTurboQuery.prepare_isOk (arith : FloatArith) {query : List F32}
    {centroids : CentroidTable} {projection : ProjectionMatrix} (hquery : query.length = 512)
    (hcentroids : centroids.dim = 512) (hper : centroids.centroidsPerDim = 4)
    (hin : projection.inputDim = 512) (hout : projection.outputDim = 512) :
    ∃ prepared, prepare arith query centroids projection = .ok prepared := by
  have hvalid : validateCodecInputs query.length centroids projection = .ok () := by
    rw [validateCodecInputs_eq_ok, hquery, hcentroids, hper, hin, hout]
    exact ⟨rfl, rfl, rfl, rfl⟩
  have hcount : centroids.values.val.length = 512 * 4 := by
    rw [centroids.values.property, hcentroids, hper]
    rfl
  have hlut : ∃ lut, Checked.tabulate 512 (fun dim => Checked.tabulate 4 fun index => do
      let value ← Checked.at' dim query
      let centroid ← Checked.at' (4 * dim + index) centroids.values.val
      (return arith.mul value centroid : Checked AssetError F32)) = .ok lut := by
    refine tabulate_isOk fun dim hdim => tabulate_isOk fun index hindex => ?_
    have hvalue : dim < query.length := by omega
    have hcentroid : 4 * dim + index < centroids.values.val.length := by omega
    exact ⟨_, bind_eq_ok.mpr ⟨_, at'_eq_ok.mpr (List.getElem?_eq_getElem hvalue),
      bind_eq_ok.mpr ⟨_, at'_eq_ok.mpr (List.getElem?_eq_getElem hcentroid), rfl⟩⟩⟩
  obtain ⟨lut, hlut⟩ := hlut
  have hproject : projection.project arith query = .ok
      ((rows projection.outputDim.toNat projection.inputDim.toNat projection.values.val).map
        fun row => arith.dot row query) := by
    simp only [ProjectionMatrix.project, checkLen, check_bind_eq_ok, rejectIf_eq_ok, not_not]
    refine ⟨?_, rfl⟩
    rw [hquery, hin]
    rfl
  have hlen : ((rows projection.outputDim.toNat projection.inputDim.toNat
      projection.values.val).map fun row => arith.dot row query).length = 512 := by
    rw [List.length_map, length_rows, hout]
    rfl
  simp only [prepare, bind_eq_ok, failIf_eq_ok, lifted_eq_ok]
  exact ⟨_, (), not_not.mpr hquery, (), hvalid, lut, hlut, _, hproject, dif_pos hlen⟩

end LTSearch
