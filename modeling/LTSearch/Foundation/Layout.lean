/-
# LTSearch.Foundation.Layout -- arrays of records of one width

A record type with a fixed layout is written by a function of constant width and read by a cast of
that many bytes.  A file of records is their bytes one after another, and record `i` is the window
at `i` times the width.
-/
import LTSearch.Foundation.Bytes
import LTSearch.Foundation.Checked

namespace LTSearch.Foundation

/-- `[u8; N]`. -/
abbrev FixedBytes (n : Nat) := { bytes : Bytes // bytes.length = n }

/-- `bytes[offset..offset + N].try_into().unwrap()`. -/
def fixedAt {ε : Type} (n offset : Nat) (bytes : Bytes) : Checked ε (FixedBytes n) :=
  if h : offset + n ≤ bytes.length then .ok ⟨window offset n bytes, length_window h⟩
  else Checked.panicked "range out of bounds of slice"

theorem fixedAt_eq_ok {ε : Type} {n offset : Nat} {bytes : Bytes} {field : FixedBytes n} :
    (fixedAt n offset bytes : Checked ε (FixedBytes n)) = .ok field ↔
      offset + n ≤ bytes.length ∧ window offset n bytes = field.val := by
  by_cases h : offset + n ≤ bytes.length
  · simp [fixedAt, h, Subtype.ext_iff]
  · simp [fixedAt, h]

theorem total_fixedAt {ε : Type} {n offset : Nat} {bytes : Bytes} (h : offset + n ≤ bytes.length) :
    Total (fixedAt n offset bytes : Checked ε (FixedBytes n)) := by
  rw [fixedAt, dif_pos h]
  exact .ok _

/-! ## Record types -/

/-- A type that is stored in `width` bytes. -/
structure FixedLayout (α : Type) (width : Nat) where
  encode : α → Bytes
  decode : FixedBytes width → α
  length_encode : ∀ a, (encode a).length = width
  decode_encode : ∀ a, decode ⟨encode a, length_encode a⟩ = a

namespace FixedLayout

variable {ε α : Type} {width : Nat} (layout : FixedLayout α width)

/-- The record at `offset`, by a cast of the bytes there. -/
def castAt (offset : Nat) (data : Bytes) : Checked ε α := do
  let bytes ← fixedAt width offset data
  return layout.decode bytes

/-- The first `count` records, by a cast of the region. -/
def castAll (count : Nat) (data : Bytes) : Checked ε (List α) :=
  (List.range count).mapM fun i => layout.castAt (i * width) data

/-- A file of records. -/
def encodeAll (records : List α) : Bytes := records.flatMap layout.encode

theorem length_encodeAll (records : List α) :
    (layout.encodeAll records).length = records.length * width := by
  induction records with
  | nil => exact (Nat.zero_mul _).symm
  | cons record rest ih =>
      show (layout.encode record ++ layout.encodeAll rest).length = (rest.length + 1) * width
      rw [List.length_append, ih, layout.length_encode, Nat.succ_mul, Nat.add_comm]

theorem encodeAll_append (records : List α) (record : α) :
    layout.encodeAll (records ++ [record]) = layout.encodeAll records ++ layout.encode record := by
  simp [encodeAll]

/-- The bytes at `offset` are those of the record `a`. -/
def At (offset : Nat) (data : Bytes) (a : α) : Prop :=
  ∃ h : offset + width ≤ data.length, layout.decode ⟨window offset width data, length_window h⟩ = a

theorem castAt_eq_ok {offset : Nat} {data : Bytes} {a : α} :
    (layout.castAt offset data : Checked ε α) = .ok a ↔ layout.At offset data a := by
  simp only [castAt, bind_eq_ok, fixedAt_eq_ok, At]
  constructor
  · rintro ⟨⟨_, _⟩, ⟨hlen, rfl⟩, h⟩
    cases h
    exact ⟨hlen, rfl⟩
  · rintro ⟨hlen, rfl⟩
    exact ⟨⟨_, length_window hlen⟩, ⟨hlen, rfl⟩, rfl⟩

/-- In bounds, the cast is defined. -/
theorem castAt_isOk {offset : Nat} {data : Bytes} (h : offset + width ≤ data.length) :
    ∃ a, (layout.castAt offset data : Checked ε α) = .ok a :=
  ⟨_, bind_eq_ok.mpr ⟨⟨_, length_window h⟩, fixedAt_eq_ok.mpr ⟨h, rfl⟩, rfl⟩⟩

theorem total_castAt {offset : Nat} {data : Bytes} (h : offset + width ≤ data.length) :
    Total (layout.castAt offset data : Checked ε α) :=
  (total_fixedAt h).bind fun _ _ => .ok _

/-- Record `i` of a region of `count` records ends within the region. -/
theorem record_in_bounds {i count length : Nat} (hi : i < count) (h : count * width ≤ length) :
    i * width + width ≤ length := by
  rw [← Nat.succ_mul]
  exact le_trans (Nat.mul_le_mul_right _ hi) h

theorem castAll_isOk {count : Nat} {data : Bytes} (h : count * width ≤ data.length) :
    ∃ records, (layout.castAll count data : Checked ε (List α)) = .ok records :=
  mapM_isOk fun _ hi => layout.castAt_isOk (record_in_bounds (List.mem_range.mp hi) h)

/-- A whole region is cast record by record. -/
theorem castAll_eq_ok {count : Nat} {data : Bytes} {records : List α} :
    (layout.castAll count data : Checked ε (List α)) = .ok records ↔ records.length = count ∧
      ∀ i (hi : i < records.length), layout.At (i * width) data records[i] := by
  have hrange : (List.range count).length = count := List.length_range
  simp only [castAll, mapM_eq_ok_iff, List.forall₂_iff_get, castAt_eq_ok]
  constructor
  · rintro ⟨hlen, hget⟩
    refine ⟨hlen.symm.trans hrange, fun i hi => ?_⟩
    simpa using hget i (by omega) hi
  · rintro ⟨hlen, hget⟩
    refine ⟨hrange.trans hlen.symm, fun i _ hi => ?_⟩
    simpa using hget i hi

/-- The window of record `i` in a file of records. -/
theorem window_encodeAll {records : List α} {i : Nat} (h : i < records.length) :
    window (i * width) width (layout.encodeAll records) = layout.encode records[i] := by
  induction records generalizing i with
  | nil => exact absurd h (Nat.not_lt_zero _)
  | cons record rest ih =>
      have hrecord := layout.length_encode record
      show window (i * width) width (layout.encode record ++ layout.encodeAll rest) = _
      cases i with
      | zero =>
          rw [Nat.zero_mul]
          exact window_append_self hrecord
      | succ i =>
          rw [Nat.succ_mul, Nat.add_comm, window_append_right hrecord]
          exact ih (Nat.lt_of_succ_lt_succ h)

/-- Record `i` of a file of records reads back. -/
theorem at_encodeAll {records : List α} {i : Nat} (h : i < records.length) :
    layout.At (i * width) (layout.encodeAll records) records[i] := by
  have hbound : i * width + width ≤ (layout.encodeAll records).length :=
    record_in_bounds h (layout.length_encodeAll records).ge
  refine ⟨hbound, ?_⟩
  simp only [layout.window_encodeAll h]
  exact layout.decode_encode _

end FixedLayout

end LTSearch.Foundation
