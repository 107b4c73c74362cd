/-
# LTSearch.Index.Record -- the typed records and the entries that describe them

Four `repr(C)` types, each a fixed layout: the two record types, the meta entry with the text and
title ranges, and the sidecar entry with the doc id and metadata ranges.  A field sits at the offset
the compiler gives it, so the field order here is the order of the bytes.
-/
import LTSearch.Foundation.Layout
import LTSearch.Index.Assets
import LTSearch.Index.Header

namespace LTSearch

open LTSearch.Foundation

/-! ## UTF-8 -/

/-- `str::from_utf8`. -/
def fromUtf8 (bytes : Bytes) : Option String := String.fromUTF8? ⟨bytes.toArray⟩

theorem fromUtf8_utf8 (s : String) : fromUtf8 (utf8 s) = some s := by
  simp [fromUtf8, utf8, String.fromUTF8?, s.isValidUTF8, String.fromUTF8]

/-! ## Records -/

/-- A v2 or v3 record. -/
structure TurboRecord512 where
  docId : UInt64
  idx : FixedBytes 128
  qjl : FixedBytes 64
  gamma : F32
  reserved : FixedBytes 4
  deriving DecidableEq

/-- A v4 record. -/
structure TurboProdRecord512 where
  docId : UInt64
  idx : FixedBytes 128
  signs : FixedBytes 64
  gamma : F32
  norm : F32
  deriving DecidableEq

/-- Where the text and the title of a record are. -/
structure MetaRecord where
  docId : UInt64
  textOffset : UInt64
  titleOffset : UInt64
  textLen : UInt32
  titleLen : UInt32
  corpusType : UInt8
  pad : FixedBytes 7
  deriving DecidableEq

/-- Where the original doc id and the metadata of a record are. -/
structure MetaExtRecord where
  docidOffset : UInt64
  metaJsonOffset : UInt64
  docidLen : UInt32
  metaJsonLen : UInt32
  deriving DecidableEq

/-- A field of `n` bytes within a record. -/
def fieldAt {width : Nat} (n offset : Nat) (h : offset + n ≤ width) (bytes : FixedBytes width) :
    FixedBytes n :=
  ⟨window offset n bytes.val, length_window (by rwa [bytes.property])⟩

/-- `f32::from_le_bytes` of the four bytes at `offset`. -/
def readF32 (offset : Nat) (bytes : Bytes) : F32 := f32OfBytes (window offset 4 bytes)

theorem readF32_f32le (x : F32) (rest : Bytes) : readF32 0 (f32le x ++ rest) = x := by
  rw [readF32, window_append_self (length_f32le x), f32OfBytes_f32le]

theorem readF32_skip {first rest : Bytes} {offset : Nat} (h : first.length ≤ offset) :
    readF32 offset (first ++ rest) = readF32 (offset - first.length) rest :=
  congrArg f32OfBytes (window_skip h)

def TurboRecord512.toBytes (record : TurboRecord512) : Bytes :=
  u64le record.docId ++ (record.idx.val ++ (record.qjl.val ++ (f32le record.gamma ++
    record.reserved.val)))

def TurboProdRecord512.toBytes (record : TurboProdRecord512) : Bytes :=
  u64le record.docId ++ (record.idx.val ++ (record.signs.val ++ (f32le record.gamma ++
    f32le record.norm)))

def MetaRecord.toBytes (record : MetaRecord) : Bytes :=
  u64le record.docId ++ (u64le record.textOffset ++ (u64le record.titleOffset ++
    (u32le record.textLen ++ (u32le record.titleLen ++ (record.corpusType :: record.pad.val)))))

def MetaExtRecord.toBytes (record : MetaExtRecord) : Bytes :=
  u64le record.docidOffset ++ (u64le record.metaJsonOffset ++ (u32le record.docidLen ++
    u32le record.metaJsonLen))

/-- The layout of `TurboRecord512`. -/
def TurboRecord512.layout : FixedLayout TurboRecord512 208 where
  encode := toBytes
  decode bytes := {
    docId := readU64 0 bytes.val
    idx := fieldAt 128 8 (by decide) bytes
    qjl := fieldAt 64 136 (by decide) bytes
    gamma := readF32 200 bytes.val
    reserved := fieldAt 4 204 (by decide) bytes }
  length_encode record := by
    simp [toBytes, record.idx.property, record.qjl.property, record.reserved.property]
  decode_encode record := by
    have hidx := record.idx.property
    have hqjl := record.qjl.property
    have hreserved := record.reserved.property
    simp [toBytes, fieldAt, readU64_u64le, readF32_skip, readF32_f32le, window_skip, hidx, hqjl,
      window_append_self, window_self hreserved]

/-- The layout of `TurboProdRecord512`. -/
def TurboProdRecord512.layout : FixedLayout TurboProdRecord512 208 where
  encode := toBytes
  decode bytes := {
    docId := readU64 0 bytes.val
    idx := fieldAt 128 8 (by decide) bytes
    signs := fieldAt 64 136 (by decide) bytes
    gamma := readF32 200 bytes.val
    norm := readF32 204 bytes.val }
  length_encode record := by
    simp [toBytes, record.idx.property, record.signs.property]
  decode_encode record := by
    have hidx := record.idx.property
    have hsigns := record.signs.property
    have hnorm := readF32_f32le record.norm []
    rw [List.append_nil] at hnorm
    simp [toBytes, fieldAt, readU64_u64le, readF32_skip, readF32_f32le, window_skip, hidx, hsigns,
      window_append_self, hnorm]

/-- The layout of `MetaRecord`. -/
def MetaRecord.layout : FixedLayout MetaRecord 40 where
  encode := toBytes
  decode bytes := {
    docId := readU64 0 bytes.val
    textOffset := readU64 8 bytes.val
    titleOffset := readU64 16 bytes.val
    textLen := readU32 24 bytes.val
    titleLen := readU32 28 bytes.val
    corpusType := UInt8.ofNat (leNat (window 32 1 bytes.val))
    pad := fieldAt 7 33 (by decide) bytes }
  length_encode record := by simp [toBytes, record.pad.property]
  decode_encode record := by
    have hcorpus : leNat (window 0 1 (record.corpusType :: record.pad.val)) =
        record.corpusType.toNat := rfl
    have hpad : window 1 7 (record.corpusType :: record.pad.val) = record.pad.val :=
      window_self record.pad.property
    simp [toBytes, fieldAt, readU64_u64le, readU32_u32le, readU64_skip, readU32_skip, window_skip,
      hcorpus, hpad]

/-- The layout of `MetaExtRecord`. -/
def MetaExtRecord.layout : FixedLayout MetaExtRecord 24 where
  encode := toBytes
  decode bytes := {
    docidOffset := readU64 0 bytes.val
    metaJsonOffset := readU64 8 bytes.val
    docidLen := readU32 16 bytes.val
    metaJsonLen := readU32 20 bytes.val }
  length_encode record := by simp [toBytes]
  decode_encode record := by
    have hlen := readU32_u32le record.metaJsonLen []
    rw [List.append_nil] at hlen
    simp [toBytes, readU64_u64le, readU32_u32le, readU64_skip, readU32_skip, hlen]

end LTSearch
