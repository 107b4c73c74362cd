/-
# LTSearch.Index.AssetsCanonical -- asset files and headers are canonical

Each of the six readers returns what its writer wrote, accepts nothing else, and refuses the rest with
an error; and a file with a magic number is read as one kind only.  The one value that does not read
back is a projection whose rows or columns are too many for the 32 bits of its header.
-/
import LTSearch.Foundation.Canonical
import LTSearch.Index.Header

namespace LTSearch

open LTSearch.Foundation

/-! ## Values -/

theorem f32le_f32OfBytes {bytes : Bytes} (h : bytes.length = 4) : f32le (f32OfBytes bytes) = bytes := by
  have hlt := leNat_lt bytes
  have hback := leBytes_leNat bytes
  rw [h] at hlt hback
  replace hlt : leNat bytes < 2 ^ 32 := hlt
  rw [f32le, f32OfBytes, BitVec.toNat_ofNat, Nat.mod_eq_of_lt hlt, hback]

theorem writeValues_readF32s {bytes : Bytes} {n : Nat} (h : bytes.length = 4 * n) :
    writeValues (readF32s bytes) = bytes := by
  induction n generalizing bytes with
  | zero =>
      rw [List.length_eq_zero_iff.mp (by omega : bytes.length = 0)]
      rfl
  | succ n ih =>
      match bytes, h with
      | a :: b :: c :: d :: rest, h =>
          have hrest : rest.length = 4 * n := by
            simp only [List.length_cons] at h
            omega
          show f32le (f32OfBytes [a, b, c, d]) ++ writeValues (readF32s rest) = _
          rw [f32le_f32OfBytes rfl, ih hrest]
          rfl

/-- Accepted values are the ones in the bytes, and their dimensions are positive. -/
theorem parseValues_eq_ok {data : Bytes} {first second : UInt32} {values : Values first second}
    (h : parseValues data first second = .ok values) :
    first ≠ 0 ∧ second ≠ 0 ∧ writeValues values.val = data := by
  simp only [parseValues, bind_eq_ok, failIf_eq_ok] at h
  obtain ⟨_, hpositive, _, -, h⟩ := h
  rw [not_or] at hpositive
  split at h
  · rename_i hlen
    cases h
    exact ⟨hpositive.1, hpositive.2, writeValues_readF32s hlen⟩
  · cases h

/-! ## The legacy codec's assets -/

/-- The two numbers in front of the data. -/
theorem legacyAssetHeader_eq_ok {bytes : Bytes} {first second : UInt32}
    (h : legacyAssetHeader bytes = .ok (first, second)) :
    u32le first ++ u32le second ++ bytes.drop assetHeaderSize = bytes := by
  simp only [legacyAssetHeader, bind_eq_ok, u32At_eq_ok, assetHeaderSize] at h
  obtain ⟨-, -, -, -, _, ⟨hfirst, rfl⟩, _, ⟨hsecond, rfl⟩, h⟩ := h
  cases h
  rw [u32le_readU32 hfirst, u32le_readU32 hsecond, List.append_assoc, assetHeaderSize,
    window_append_drop rfl, window_append_drop rfl, List.drop_zero]

/-- What `generate` asserts. -/
def CentroidTable.Positive (table : CentroidTable) : Prop :=
  table.dim ≠ 0 ∧ table.centroidsPerDim ≠ 0

theorem CentroidTable.canonical :
    Canonical Positive (fun _ => True) toBytes fromBytes := by
  refine .of_total (fun table htable => ⟨trivial, fromBytes_toBytes htable.1 htable.2⟩)
    (fun bytes table _ h => ?_) total_fromBytes
  simp only [fromBytes, bind_eq_ok] at h
  obtain ⟨⟨first, second⟩, hheader, values, hvalues, h⟩ := h
  cases h
  obtain ⟨hfirst, hsecond, hdata⟩ := parseValues_eq_ok hvalues
  refine ⟨⟨hfirst, hsecond⟩, ?_⟩
  rw [toBytes, hdata]
  exact legacyAssetHeader_eq_ok hheader

/-- What `generate` asserts. -/
def ProjectionMatrix.Positive (matrix : ProjectionMatrix) : Prop :=
  matrix.inputDim ≠ 0 ∧ matrix.outputDim ≠ 0

theorem ProjectionMatrix.canonical :
    Canonical Positive (fun _ => True) toBytes fromBytes := by
  refine .of_total (fun matrix hmatrix => ⟨trivial, fromBytes_toBytes hmatrix.1 hmatrix.2⟩)
    (fun bytes matrix _ h => ?_) total_fromBytes
  simp only [fromBytes, bind_eq_ok] at h
  obtain ⟨⟨first, second⟩, hheader, values, hvalues, h⟩ := h
  cases h
  obtain ⟨hsecond, hfirst, hdata⟩ := parseValues_eq_ok hvalues
  refine ⟨⟨hfirst, hsecond⟩, ?_⟩
  rw [toBytes, hdata]
  exact legacyAssetHeader_eq_ok hheader

/-! ## The v4 codec's assets -/

theorem checkMagic_eq_ok {expected bytes : Bytes} (h : checkMagic expected bytes = .ok ()) :
    window 0 4 bytes = expected := by
  simp only [checkMagic, bind_eq_ok, slice_eq_ok, failIf_eq_ok, not_not] at h
  obtain ⟨magic, ⟨-, rfl⟩, hmagic⟩ := h
  exact hmagic

/-- What `generate` asserts. -/
def Rotation.Positive (rotation : Rotation) : Prop := rotation.dim ≠ 0

theorem Rotation.canonical : Canonical Positive (fun _ => True) toBytes fromBytes := by
  refine .of_total (fun rotation hdim => ⟨trivial, fromBytes_toBytes hdim⟩)
    (fun bytes rotation _ h => ?_) total_fromBytes
  simp only [fromBytes, bind_eq_ok, failIf_eq_ok, u32At_eq_ok, u64At_eq_ok] at h
  obtain ⟨_, -, _, hmagic, _, ⟨hdim, rfl⟩, _, ⟨hseed, rfl⟩, _, ⟨hversion, rfl⟩, matrix, hmatrix, h⟩ := h
  cases h
  obtain ⟨hpositive, -, hdata⟩ := parseValues_eq_ok hmatrix
  refine ⟨hpositive, ?_⟩
  rw [toBytes, hdata, u32le_readU32 hdim, u64le_readU64 hseed, u32le_readU32 hversion,
    ← checkMagic_eq_ok hmagic, headerSize, window_append_drop rfl, window_append_drop rfl,
    window_append_drop rfl, window_append_drop rfl, List.drop_zero]

/-- What `generate` asserts. -/
def QjlMatrix.Positive (qjl : QjlMatrix) : Prop := qjl.dim ≠ 0 ∧ qjl.qjlDim ≠ 0

theorem QjlMatrix.canonical : Canonical Positive (fun _ => True) toBytes fromBytes := by
  refine .of_total (fun qjl hqjl => ⟨trivial, fromBytes_toBytes hqjl.1 hqjl.2⟩)
    (fun bytes qjl _ h => ?_) total_fromBytes
  simp only [fromBytes, bind_eq_ok, failIf_eq_ok, u32At_eq_ok, u64At_eq_ok] at h
  obtain ⟨_, -, _, hmagic, _, ⟨hdim, rfl⟩, _, ⟨hqjlDim, rfl⟩, _, ⟨hseed, rfl⟩, _, ⟨hversion, rfl⟩,
    values, hvalues, h⟩ := h
  cases h
  obtain ⟨hm, hd, hdata⟩ := parseValues_eq_ok hvalues
  refine ⟨⟨hd, hm⟩, ?_⟩
  rw [toBytes, hdata, u32le_readU32 hdim, u32le_readU32 hqjlDim, u64le_readU64 hseed,
    u32le_readU32 hversion, ← checkMagic_eq_ok hmagic, headerSize, window_append_drop rfl,
    window_append_drop rfl, window_append_drop rfl, window_append_drop rfl, window_append_drop rfl,
    List.drop_zero]

/-- No codebook is made for dimension zero. -/
def LloydMaxCodebook.Positive (codebook : LloydMaxCodebook) : Prop := codebook.dim ≠ 0

theorem LloydMaxCodebook.canonical : Canonical Positive (fun _ => True) toBytes fromBytes := by
  refine .of_total (fun codebook hdim => ⟨trivial, fromBytes_toBytes hdim⟩)
    (fun bytes codebook _ h => ?_) total_fromBytes
  simp only [fromBytes, bind_eq_ok, failIf_eq_ok, u32At_eq_ok] at h
  obtain ⟨_, -, _, hmagic, _, ⟨hdim, rfl⟩, _, hpositive, _, ⟨hbits, rfl⟩, h⟩ := h
  split at h
  · rename_i hrange
    obtain ⟨centroids, hcentroids, h⟩ := bind_eq_ok.mp h
    split at h
    · cases h
      obtain ⟨-, -, hdata⟩ := parseValues_eq_ok hcentroids
      refine ⟨hpositive, ?_⟩
      have hsame : (UInt8.ofNat (readU32 8 bytes).toNat).toUInt32 = readU32 8 bytes := by
        apply UInt32.toNat.inj
        rw [UInt8.toNat_toUInt32, UInt8.toNat_ofNat', Nat.mod_eq_of_lt (by omega)]
      rw [toBytes]
      dsimp only
      rw [hdata, hsame, u32le_readU32 hdim, u32le_readU32 hbits, ← checkMagic_eq_ok hmagic, headerSize,
        window_append_drop rfl, window_append_drop rfl, window_append_drop rfl, List.drop_zero]
    · cases h
  · cases h

/-! ## The header -/

theorem TurboCodecId.code_of_fromCode {code : UInt32} {codec : TurboCodecId}
    (h : fromCode code = some codec) : codec.code = code := by
  unfold fromCode at h
  split_ifs at h with hlegacy hprod
  · cases h
    exact hlegacy.symm
  · cases h
    exact hprod.symm

/-- A header as `new_v4` makes it. -/
def TurboHeader.V4 (header : TurboHeader) : Prop :=
  header.dim ≠ 0 ∧ ∃ codec, header = newV4 header.dim header.recordCount codec

/-- The header of a file of version 4, and nothing after it. -/
def TurboHeader.BufferV4 (bytes : Bytes) : Prop :=
  bytes.length = size ∧ readU32 4 bytes = turboVersionV4

theorem TurboHeader.canonical : Canonical V4 BufferV4 toBytes fromBytes := by
  refine .of_total (fun header hheader => ?_) (fun bytes header hbuffer h => ?_) total_fromBytes
  · obtain ⟨hdim, codec, hcodec⟩ := hheader
    refine ⟨⟨length_toBytes header, ?_⟩, fromBytes_toBytes ⟨?_, hdim, ?_⟩⟩
    · have hmagic : turboMagic.length = 4 := rfl
      have hversion : readU32 4 header.toBytes = header.version := by
        simp [toBytes, readU32_skip, hmagic, readU32_u32le]
      rw [hversion, hcodec]
      rfl
    · exact .inr (.inr (congrArg TurboHeader.version hcodec))
    · rw [hcodec]
      exact ⟨fun _ => rfl, fun _ => rfl⟩
  · obtain ⟨hlength, hversion⟩ := hbuffer
    simp only [fromBytes, bind_eq_ok, failIf_eq_ok, slice_eq_ok, u32At_eq_ok, u64At_eq_ok, not_not] at h
    obtain ⟨-, -, _, ⟨-, rfl⟩, -, hmagic, _, ⟨hversionAt, rfl⟩, -, -, _, ⟨hdim, rfl⟩, -, hpositive, _,
      ⟨hcount, rfl⟩, codec, hcodec, h⟩ := h
    cases h
    rw [readCodecOf, if_pos hversion] at hcodec
    obtain ⟨headerCodec, hread, rfl⟩ := map_eq_ok.mp hcodec
    refine ⟨⟨hpositive, headerCodec, ?_⟩, ?_⟩
    · rw [newV4, hversion]
    · simp only [readCodec, bind_eq_ok, u32At_eq_ok, lifted_eq_ok, TurboQuantConfig.okOr_eq_ok,
        fixedAt_eq_ok] at hread
      obtain ⟨_, ⟨hcode, rfl⟩, codecId, hcodecId, fingerprint, ⟨hfingerprint, hprint⟩, hread⟩ := hread
      cases hread
      have hend : bytes.drop 32 = [] := List.drop_eq_nil_of_le hlength.le
      have htail : window 24 8 bytes = bytes.drop 24 := by
        rw [← window_append_drop (show 24 + 8 = 32 from rfl), hend, List.append_nil]
      rw [toBytes, codecBytes]
      dsimp only
      rw [TurboCodecId.code_of_fromCode hcodecId, ← hprint, htail, ← hmagic, u32le_readU32 hversionAt,
        u32le_readU32 hdim, u64le_readU64 hcount, u32le_readU32 hcode, window_append_drop rfl,
        window_append_drop rfl, window_append_drop rfl, window_append_drop rfl]
      exact @window_append_drop bytes 0 _ _ rfl

/-! ## Magic numbers -/

/-- The kinds of files that begin with a magic number. -/
inductive MagicKind where
  | rotation
  | qjl
  | codebook
  | turbo
  deriving DecidableEq

namespace MagicKind

def magic : MagicKind → Bytes
  | rotation => rotationMagic
  | qjl => qjlMagic
  | codebook => codebookMagic
  | turbo => turboMagic

/-- The reader of the kind accepts the file. -/
def Accepts (bytes : Bytes) : MagicKind → Prop
  | rotation => ∃ value, Rotation.fromBytes bytes = .ok value
  | qjl => ∃ value, QjlMatrix.fromBytes bytes = .ok value
  | codebook => ∃ value, LloydMaxCodebook.fromBytes bytes = .ok value
  | turbo => ∃ value, TurboHeader.fromBytes bytes = .ok value

theorem window_of_accepts {bytes : Bytes} {kind : MagicKind} (h : kind.Accepts bytes) :
    window 0 4 bytes = kind.magic := by
  cases kind with
  | rotation =>
      obtain ⟨value, h⟩ := h
      simp only [Rotation.fromBytes, bind_eq_ok] at h
      obtain ⟨_, -, _, hmagic, -⟩ := h
      exact checkMagic_eq_ok hmagic
  | qjl =>
      obtain ⟨value, h⟩ := h
      simp only [QjlMatrix.fromBytes, bind_eq_ok] at h
      obtain ⟨_, -, _, hmagic, -⟩ := h
      exact checkMagic_eq_ok hmagic
  | codebook =>
      obtain ⟨value, h⟩ := h
      simp only [LloydMaxCodebook.fromBytes, bind_eq_ok] at h
      obtain ⟨_, -, _, hmagic, -⟩ := h
      exact checkMagic_eq_ok hmagic
  | turbo =>
      obtain ⟨value, h⟩ := h
      simp only [TurboHeader.fromBytes, bind_eq_ok, failIf_eq_ok, slice_eq_ok, not_not] at h
      obtain ⟨_, -, _, ⟨-, rfl⟩, _, hmagic, -⟩ := h
      exact hmagic

theorem magic_injective {kind kind' : MagicKind} (h : kind.magic = kind'.magic) : kind = kind' := by
  revert h
  cases kind <;> cases kind' <;> decide

/-- A file is of one kind. -/
theorem eq_of_accepts {bytes : Bytes} {kind kind' : MagicKind} (h : kind.Accepts bytes)
    (h' : kind'.Accepts bytes) : kind = kind' :=
  magic_injective ((window_of_accepts h).symm.trans (window_of_accepts h'))

end MagicKind

/-! ## A projection made of rows -/

/-- What `from_rows` makes: its dimensions are cut to 32 bits. -/
structure RowMatrix where
  inputDim : UInt32
  outputDim : UInt32
  values : List F32

/-- `ProjectionMatrix::from_rows`. -/
def ProjectionMatrix.fromRows : List (List F32) → Checked AssetError RowMatrix
  | [] => Checked.panicked "dimensions must be positive"
  | first :: rest => do
      let rows := first :: rest
      let inputDim := first.length
      Checked.assertThat (inputDim > 0) "dimensions must be positive"
      Checked.assertThat (∀ row ∈ rows, row.length = inputDim) "rows must have equal length"
      return {
        inputDim := UInt32.ofNat inputDim
        outputDim := UInt32.ofNat rows.length
        values := rows.flatten }

namespace RowMatrix

def toBytes (matrix : RowMatrix) : Bytes :=
  u32le matrix.inputDim ++ u32le matrix.outputDim ++ writeValues matrix.values

/-- The reader returns the matrix that was written. -/
def ReadsBack (matrix : RowMatrix) : Prop :=
  ∃ read : ProjectionMatrix, ProjectionMatrix.fromBytes matrix.toBytes = .ok read ∧
    read.inputDim = matrix.inputDim ∧ read.outputDim = matrix.outputDim ∧
    read.values.val = matrix.values

end RowMatrix

theorem fromRows_eq_ok {rows : List (List F32)} {matrix : RowMatrix} :
    ProjectionMatrix.fromRows rows = .ok matrix ↔
      ∃ columns, 0 < columns ∧ 0 < rows.length ∧ (∀ row ∈ rows, row.length = columns) ∧
        matrix = {
          inputDim := UInt32.ofNat columns
          outputDim := UInt32.ofNat rows.length
          values := rows.flatten } := by
  cases rows with
  | nil =>
      constructor
      · exact nofun
      · rintro ⟨columns, -, hempty, -⟩
        exact absurd hempty (lt_irrefl 0)
  | cons first rest =>
      simp only [ProjectionMatrix.fromRows, bind_eq_ok, assertThat_eq_ok]
      constructor
      · rintro ⟨_, hpositive, _, hlength, h⟩
        cases h
        exact ⟨first.length, hpositive, Nat.zero_lt_succ _, hlength, rfl⟩
      · rintro ⟨columns, hpositive, -, hlength, rfl⟩
        obtain rfl := hlength first List.mem_cons_self
        exact ⟨(), hpositive, (), hlength, rfl⟩

/-- Rows of one length have as many values as there are places. -/
theorem length_flatten_rows {rows : List (List F32)} {columns : Nat}
    (h : ∀ row ∈ rows, row.length = columns) : rows.flatten.length = rows.length * columns := by
  rw [List.length_flatten, List.sum_eq_card_nsmul _ columns, List.length_map, smul_eq_mul]
  intro length hlength
  obtain ⟨row, hrow, rfl⟩ := List.mem_map.mp hlength
  exact h row hrow

/-- Dimensions that are cut leave fewer places. -/
theorem lt_of_mod_mul_mod {rows columns size : Nat} (hrows : 0 < rows) (hcolumns : 0 < columns)
    (hsize : 0 < size) (h : rows * columns = rows % size * (columns % size)) :
    rows < size ∧ columns < size := by
  have hrows' := Nat.mod_le rows size
  have hcolumns' := Nat.mod_le columns size
  constructor
  · by_contra hlarge
    have hcut : rows % size < rows := (Nat.mod_lt rows hsize).trans_le (not_lt.mp hlarge)
    exact h.not_gt (Nat.mul_lt_mul_of_lt_of_le hcut hcolumns' hcolumns)
  · by_contra hlarge
    have hcut : columns % size < columns := (Nat.mod_lt columns hsize).trans_le (not_lt.mp hlarge)
    exact h.not_gt (Nat.mul_lt_mul_of_le_of_lt hrows' hcut hrows)

/-- Exactly the rows and columns that can be counted in 32 bits read back. -/
theorem readsBack_iff {rows : List (List F32)} {matrix : RowMatrix}
    (h : ProjectionMatrix.fromRows rows = .ok matrix) :
    matrix.ReadsBack ↔ rows.length < 2 ^ 32 ∧ ∀ row ∈ rows, row.length < 2 ^ 32 := by
  obtain ⟨columns, hcolumns, hrows, hlength, rfl⟩ := fromRows_eq_ok.mp h
  have hvalues := length_flatten_rows hlength
  constructor
  · rintro ⟨read, -, hinput, houtput, hread⟩
    have hplaces := read.values.property
    rw [hread, hvalues, hinput, houtput, UInt32.toNat_ofNat', UInt32.toNat_ofNat'] at hplaces
    obtain ⟨hr, hc⟩ := lt_of_mod_mul_mod hrows hcolumns (by decide) hplaces
    exact ⟨hr, fun row hrow => hlength row hrow ▸ hc⟩
  · rintro ⟨hr, hc⟩
    obtain ⟨row, hrow⟩ := List.exists_mem_of_length_pos hrows
    have hc := hc row hrow
    rw [hlength row hrow] at hc
    have hnat : ∀ n : Nat, n < 2 ^ 32 → (UInt32.ofNat n).toNat = n := fun n hn => by
      rw [UInt32.toNat_ofNat', Nat.mod_eq_of_lt hn]
    have hne : ∀ n : Nat, 0 < n → n < 2 ^ 32 → UInt32.ofNat n ≠ 0 := fun n hpos hn heq => by
      have hzero := congrArg UInt32.toNat heq
      rw [hnat n hn] at hzero
      exact hpos.ne' hzero
    let read : ProjectionMatrix := {
      inputDim := UInt32.ofNat columns
      outputDim := UInt32.ofNat rows.length
      values := ⟨rows.flatten, by rw [hvalues, hnat _ hr, hnat _ hc]⟩ }
    have hread : ProjectionMatrix.fromBytes read.toBytes = .ok read :=
      ProjectionMatrix.fromBytes_toBytes (hne _ hcolumns hc) (hne _ hrows hr)
    exact ⟨read, hread, rfl, rfl, rfl⟩

/-- Six formats, each canonical, and the magic numbers tell four of them apart; a projection that was
made of rows reads back exactly when its dimensions fit the header. -/
theorem assets_canonical {rows : List (List F32)} {matrix : RowMatrix}
    (h : ProjectionMatrix.fromRows rows = .ok matrix) :
    Canonical CentroidTable.Positive (fun _ => True) CentroidTable.toBytes CentroidTable.fromBytes ∧
    Canonical ProjectionMatrix.Positive (fun _ => True) ProjectionMatrix.toBytes
      ProjectionMatrix.fromBytes ∧
    Canonical Rotation.Positive (fun _ => True) Rotation.toBytes Rotation.fromBytes ∧
    Canonical QjlMatrix.Positive (fun _ => True) QjlMatrix.toBytes QjlMatrix.fromBytes ∧
    Canonical LloydMaxCodebook.Positive (fun _ => True) LloydMaxCodebook.toBytes
      LloydMaxCodebook.fromBytes ∧
    Canonical TurboHeader.V4 TurboHeader.BufferV4 TurboHeader.toBytes TurboHeader.fromBytes ∧
    (∀ (bytes : Bytes) (kind kind' : MagicKind), kind.Accepts bytes → kind'.Accepts bytes →
      kind = kind') ∧
    (matrix.ReadsBack ↔ rows.length < 2 ^ 32 ∧ ∀ row ∈ rows, row.length < 2 ^ 32) :=
  ⟨CentroidTable.canonical, ProjectionMatrix.canonical, Rotation.canonical, QjlMatrix.canonical,
    LloydMaxCodebook.canonical, TurboHeader.canonical, fun _ _ _ => MagicKind.eq_of_accepts,
    readsBack_iff h⟩

/-- Two rows of one value read back. -/
theorem assets_canonical_twoRows : ∃ matrix,
    ProjectionMatrix.fromRows [[⟨0#32⟩], [⟨0#32⟩]] = .ok matrix ∧ matrix.ReadsBack := by
  have hmatrix := (@fromRows_eq_ok [[⟨0#32⟩], [⟨0#32⟩]] _).mpr
    ⟨1, Nat.one_pos, by decide, by decide, rfl⟩
  obtain ⟨-, -, -, -, -, -, -, hreads⟩ := assets_canonical hmatrix
  exact ⟨_, hmatrix, hreads.mpr ⟨by decide, by decide⟩⟩

/-- `2^32` rows of one value: the header says that there are none. -/
theorem fromRows_tooMany : ∃ matrix,
    ProjectionMatrix.fromRows (List.replicate (2 ^ 32) [⟨0#32⟩]) = .ok matrix ∧
      ¬matrix.ReadsBack := by
  have hlength : ∀ row ∈ List.replicate (2 ^ 32) [(⟨0#32⟩ : F32)], row.length = 1 := by
    intro row hrow
    rw [List.eq_of_mem_replicate hrow]
    rfl
  have hmatrix := fromRows_eq_ok.mpr
    ⟨1, Nat.one_pos, by rw [List.length_replicate]; exact Nat.two_pow_pos 32, hlength, rfl⟩
  refine ⟨_, hmatrix, fun hreads => ?_⟩
  have hfits := ((readsBack_iff hmatrix).mp hreads).1
  rw [List.length_replicate] at hfits
  exact lt_irrefl _ hfits

end LTSearch
