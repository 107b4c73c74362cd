/-
# LTSearch.Foundation.Bytes -- little-endian fields in byte strings

A file format is laid out by appending fields of fixed width and read back at fixed offsets.  Here
are the two directions for one number, the window that a read looks through, and the rules that move
a window past what was written before it.  Nothing is said about any particular format.
-/
import Mathlib

namespace LTSearch.Foundation

abbrev Bytes := List UInt8

/-! ## Numbers -/

/-- The `width` low bytes of `n`, the lowest first. -/
def leBytes : Nat → Nat → Bytes
  | 0, _ => []
  | width + 1, n => UInt8.ofNat n :: leBytes width (n / 256)

/-- The number whose bytes these are, the lowest first. -/
def leNat : Bytes → Nat
  | [] => 0
  | b :: rest => b.toNat + 256 * leNat rest

@[simp]
theorem length_leBytes (width n : Nat) : (leBytes width n).length = width := by
  induction width generalizing n with
  | zero => rfl
  | succ width ih => exact congrArg (· + 1) (ih (n / 256))

theorem leNat_leBytes (width n : Nat) : leNat (leBytes width n) = n % 256 ^ width := by
  induction width generalizing n with
  | zero => exact (Nat.mod_one n).symm
  | succ width ih =>
      show (UInt8.ofNat n).toNat + 256 * leNat (leBytes width (n / 256)) = _
      rw [ih, Nat.pow_succ', Nat.mod_mul]
      rfl

theorem leNat_lt (bytes : Bytes) : leNat bytes < 256 ^ bytes.length := by
  induction bytes with
  | nil => exact Nat.one_pos
  | cons b rest ih =>
      have hb : b.toNat < 256 := b.toNat_lt
      show b.toNat + 256 * leNat rest < 256 ^ (rest.length + 1)
      rw [Nat.pow_succ']
      omega

theorem leBytes_leNat (bytes : Bytes) : leBytes bytes.length (leNat bytes) = bytes := by
  induction bytes with
  | nil => rfl
  | cons b rest ih =>
      have hb : b.toNat < 256 := b.toNat_lt
      have hhead : UInt8.ofNat (b.toNat + 256 * leNat rest) = b := by
        apply UInt8.toNat.inj
        rw [UInt8.toNat_ofNat']
        omega
      have htail : (b.toNat + 256 * leNat rest) / 256 = leNat rest := by omega
      show UInt8.ofNat (b.toNat + 256 * leNat rest)
        :: leBytes rest.length ((b.toNat + 256 * leNat rest) / 256) = _
      rw [hhead, htail, ih]

/-- Numbers that fit are told apart by their bytes. -/
theorem leBytes_inj {width n m : Nat} (hn : n < 256 ^ width) (hm : m < 256 ^ width)
    (h : leBytes width n = leBytes width m) : n = m := by
  have heq := congrArg leNat h
  rwa [leNat_leBytes, leNat_leBytes, Nat.mod_eq_of_lt hn, Nat.mod_eq_of_lt hm] at heq

/-! ## Windows -/

/-- The `width` bytes from `offset` on. -/
def window (offset width : Nat) (bytes : Bytes) : Bytes := (bytes.drop offset).take width

theorem length_window {offset width : Nat} {bytes : Bytes} (h : offset + width ≤ bytes.length) :
    (window offset width bytes).length = width := by
  rw [window, List.length_take, List.length_drop]
  omega

/-- A window past a first part is a window of the rest. -/
theorem window_append_right {first rest : Bytes} {n : Nat} (h : first.length = n)
    (offset width : Nat) : window (n + offset) width (first ++ rest) = window offset width rest := by
  subst h
  rw [window, List.drop_append, List.drop_eq_nil_of_le (Nat.le_add_right _ _), List.nil_append,
    Nat.add_sub_cancel_left]
  rfl

theorem window_skip {first rest : Bytes} {offset width : Nat} (h : first.length ≤ offset) :
    window offset width (first ++ rest) = window (offset - first.length) width rest := by
  have hsplit : window (first.length + (offset - first.length)) width (first ++ rest) = _ :=
    window_append_right rfl _ _
  rwa [Nat.add_sub_cancel' h] at hsplit

/-- The window of exactly the first part. -/
theorem window_append_self {first rest : Bytes} {n : Nat} (h : first.length = n) :
    window 0 n (first ++ rest) = first := by
  subst h
  exact List.take_left

theorem window_self {bytes : Bytes} {n : Nat} (h : bytes.length = n) : window 0 n bytes = bytes := by
  subst h
  exact List.take_length

/-- A window and what comes after it. -/
theorem window_append_drop {bytes : Bytes} {offset width next : Nat} (h : offset + width = next) :
    window offset width bytes ++ bytes.drop next = bytes.drop offset := by
  rw [window, ← h, ← List.drop_drop, List.take_append_drop]

/-- In the concatenation of the pieces of a list, piece `i` is where the pieces before it end. -/
theorem window_flatMap {α : Type} (f : α → Bytes) {xs : List α} {i : Nat} (hi : i < xs.length) :
    window ((xs.take i).flatMap f).length (f xs[i]).length (xs.flatMap f) = f xs[i] := by
  have hsplit : xs.flatMap f =
      (xs.take i).flatMap f ++ (f xs[i] ++ (xs.drop (i + 1)).flatMap f) := by
    calc xs.flatMap f = (xs.take i ++ xs.drop i).flatMap f := by rw [List.take_append_drop]
      _ = _ := by rw [List.drop_eq_getElem_cons hi, List.flatMap_append, List.flatMap_cons]
  rw [hsplit]
  exact (window_append_right rfl 0 _).trans (window_append_self rfl)

/-- Piece `i` ends within the concatenation. -/
theorem flatMap_piece_le {α : Type} (f : α → Bytes) {xs : List α} {i : Nat} (hi : i < xs.length) :
    ((xs.take i).flatMap f).length + (f xs[i]).length ≤ (xs.flatMap f).length := by
  calc ((xs.take i).flatMap f).length + (f xs[i]).length
      ≤ ((xs.take i).flatMap f).length + ((xs.drop i).flatMap f).length := by
        rw [List.drop_eq_getElem_cons hi, List.flatMap_cons, List.length_append]
        omega
    _ = (xs.flatMap f).length := by
        rw [← List.length_append, ← List.flatMap_append, List.take_append_drop]

/-! ## Fields of fixed width -/

def u32le (x : UInt32) : Bytes := leBytes 4 x.toNat

def u64le (x : UInt64) : Bytes := leBytes 8 x.toNat

/-- `u32::from_le_bytes` of the four bytes at `offset`. -/
def readU32 (offset : Nat) (bytes : Bytes) : UInt32 := UInt32.ofNat (leNat (window offset 4 bytes))

/-- `u64::from_le_bytes` of the eight bytes at `offset`. -/
def readU64 (offset : Nat) (bytes : Bytes) : UInt64 := UInt64.ofNat (leNat (window offset 8 bytes))

@[simp]
theorem length_u32le (x : UInt32) : (u32le x).length = 4 := length_leBytes _ _

@[simp]
theorem length_u64le (x : UInt64) : (u64le x).length = 8 := length_leBytes _ _

theorem readU32_u32le (x : UInt32) (rest : Bytes) : readU32 0 (u32le x ++ rest) = x := by
  have hx : x.toNat < 256 ^ 4 := x.toNat_lt
  rw [readU32, window_append_self (length_u32le x), u32le, leNat_leBytes, Nat.mod_eq_of_lt hx,
    UInt32.ofNat_toNat]

theorem readU64_u64le (x : UInt64) (rest : Bytes) : readU64 0 (u64le x ++ rest) = x := by
  have hx : x.toNat < 256 ^ 8 := x.toNat_lt
  rw [readU64, window_append_self (length_u64le x), u64le, leNat_leBytes, Nat.mod_eq_of_lt hx,
    UInt64.ofNat_toNat]

theorem readU32_append_right {first rest : Bytes} {n : Nat} (h : first.length = n) (offset : Nat) :
    readU32 (n + offset) (first ++ rest) = readU32 offset rest :=
  congrArg (fun w => UInt32.ofNat (leNat w)) (window_append_right h offset 4)

theorem readU32_skip {first rest : Bytes} {offset : Nat} (h : first.length ≤ offset) :
    readU32 offset (first ++ rest) = readU32 (offset - first.length) rest :=
  congrArg (fun w => UInt32.ofNat (leNat w)) (window_skip h)

theorem readU64_skip {first rest : Bytes} {offset : Nat} (h : first.length ≤ offset) :
    readU64 offset (first ++ rest) = readU64 (offset - first.length) rest :=
  congrArg (fun w => UInt64.ofNat (leNat w)) (window_skip h)

/-- What was read is what a writer puts there. -/
theorem u32le_readU32 {offset : Nat} {bytes : Bytes} (h : offset + 4 ≤ bytes.length) :
    u32le (readU32 offset bytes) = window offset 4 bytes := by
  have hlen := length_window h
  have hlt := leNat_lt (window offset 4 bytes)
  have hback := leBytes_leNat (window offset 4 bytes)
  rw [hlen] at hlt hback
  replace hlt : leNat (window offset 4 bytes) < 2 ^ 32 := hlt
  rw [readU32, u32le, UInt32.toNat_ofNat', Nat.mod_eq_of_lt hlt, hback]

theorem u64le_readU64 {offset : Nat} {bytes : Bytes} (h : offset + 8 ≤ bytes.length) :
    u64le (readU64 offset bytes) = window offset 8 bytes := by
  have hlen := length_window h
  have hlt := leNat_lt (window offset 8 bytes)
  have hback := leBytes_leNat (window offset 8 bytes)
  rw [hlen] at hlt hback
  replace hlt : leNat (window offset 8 bytes) < 2 ^ 64 := hlt
  rw [readU64, u64le, UInt64.toNat_ofNat', Nat.mod_eq_of_lt hlt, hback]

theorem u32le_inj {x y : UInt32} (h : u32le x = u32le y) : x = y :=
  UInt32.toNat.inj (leBytes_inj x.toNat_lt y.toNat_lt h)

theorem u64le_inj {x y : UInt64} (h : u64le x = u64le y) : x = y :=
  UInt64.toNat.inj (leBytes_inj x.toNat_lt y.toNat_lt h)

end LTSearch.Foundation
