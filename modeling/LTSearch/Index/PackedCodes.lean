/-
# LTSearch.Index.PackedCodes -- codes read back from the bytes they were packed into

Packing ors each code into its place of a byte, and a place that no code was put into stays zero; so
unpacking any place gives its code, or zero past the last one.
-/
import LTSearch.Index.TurboProd

namespace LTSearch

open LTSearch.Foundation

/-- `out[j / per_byte] |= code << (bits · (j % per_byte))`. -/
def writeCode (perByte bits : Nat) (out : Bytes) (code : Nat × Nat) : Bytes :=
  out.modify (code.2 / perByte) fun byte =>
    byte ||| UInt8.ofNat (code.1 <<< (bits * (code.2 % perByte)))

theorem packCodes_eq (perByte bits : Nat) (codes : List Nat) : packCodes perByte bits codes =
    codes.zipIdx.foldl (writeCode perByte bits)
      (List.replicate ((codes.length + (perByte - 1)) / perByte) 0) := rfl

variable {perByte bits : Nat}

/-- Places of `bits` bits that fill a byte. -/
structure Places (perByte bits : Nat) : Prop where
  fill : bits * perByte = 8
  perByte_pos : 0 < perByte

theorem Places.end_le (h : Places perByte bits) {slot : Nat} (hslot : slot < perByte) :
    bits * slot + bits ≤ 8 := by
  have hfill := h.fill
  calc bits * slot + bits = bits * (slot + 1) := (Nat.mul_succ bits slot).symm
    _ ≤ bits * perByte := Nat.mul_le_mul_left bits hslot
    _ = 8 := hfill

theorem testBit_unpackCode (byte : UInt8) (slot i : Nat) : (unpackCode bits byte slot).val.testBit i =
    (decide (i < bits) && byte.toNat.testBit (bits * slot + i)) := by
  rw [unpackCode, Nat.testBit_mod_two_pow, Nat.testBit_shiftRight]

/-- Oring a code into an empty place sets that place, and no other. -/
theorem unpackCode_or (h : Places perByte bits) {byte : UInt8} {code slot slot' : Nat}
    (hcode : code < 2 ^ bits) (hslot : slot < perByte)
    (hempty : (unpackCode bits byte slot).val = 0) :
    (unpackCode bits (byte ||| UInt8.ofNat (code <<< (bits * slot))) slot').val =
      if slot' = slot then code else (unpackCode bits byte slot').val := by
  have hend := h.end_le hslot
  have hfits : code <<< (bits * slot) < 2 ^ 8 := by
    rw [Nat.shiftLeft_eq]
    calc code * 2 ^ (bits * slot) < 2 ^ bits * 2 ^ (bits * slot) :=
          Nat.mul_lt_mul_of_pos_right hcode (Nat.two_pow_pos _)
      _ = 2 ^ (bits * slot + bits) := by rw [← Nat.pow_add, Nat.add_comm]
      _ ≤ 2 ^ 8 := Nat.pow_le_pow_right (by decide) hend
  have hor : (byte ||| UInt8.ofNat (code <<< (bits * slot))).toNat =
      byte.toNat ||| code <<< (bits * slot) := by
    rw [UInt8.toNat_or, UInt8.toNat_ofNat', Nat.mod_eq_of_lt hfits]
  have hhigh : ∀ i, bits ≤ i → code.testBit i = false := fun i hi =>
    Nat.testBit_lt_two_pow (hcode.trans_le (Nat.pow_le_pow_right (by decide) hi))
  refine Nat.eq_of_testBit_eq fun i => ?_
  rw [testBit_unpackCode, hor, Nat.testBit_or, Nat.testBit_shiftLeft]
  by_cases hi : i < bits
  · by_cases hsame : slot' = slot
    · subst hsame
      have hclear := congrArg (fun n => Nat.testBit n i) hempty
      simp only [testBit_unpackCode, hi, decide_true, Bool.true_and, Nat.zero_testBit] at hclear
      simp [hi, hclear]
    · -- the bits of the code are not in this place
      have hother : (decide (bits * slot' + i ≥ bits * slot) &&
          code.testBit (bits * slot' + i - bits * slot)) = false := by
        rcases Nat.lt_or_gt_of_ne hsame with hlt | hgt
        · have hle : bits * slot' + bits ≤ bits * slot := by
            calc bits * slot' + bits = bits * (slot' + 1) := (Nat.mul_succ bits slot').symm
              _ ≤ bits * slot := Nat.mul_le_mul_left bits hlt
          simp only [decide_eq_false (show ¬bits * slot' + i ≥ bits * slot by omega), Bool.false_and]
        · have hle : bits * slot + bits ≤ bits * slot' := by
            calc bits * slot + bits = bits * (slot + 1) := (Nat.mul_succ bits slot).symm
              _ ≤ bits * slot' := Nat.mul_le_mul_left bits hgt
          rw [hhigh _ (by omega), Bool.and_false]
      rw [hother, Bool.or_false, if_neg hsame, testBit_unpackCode]
  · simp only [decide_eq_false hi, Bool.false_and]
    split
    · exact (hhigh i (not_lt.mp hi)).symm
    · rw [testBit_unpackCode, decide_eq_false hi, Bool.false_and]

/-- The code in place `j` of the bytes. -/
def codeAt (perByte bits : Nat) (bytes : Bytes) (j : Nat) : Nat :=
  (bytes[j / perByte]?).elim 0 fun byte => (unpackCode bits byte (j % perByte)).val

/-- One code more: it is in its place, and the other places are as before. -/
theorem codeAt_writeCode (h : Places perByte bits) {out : Bytes} {code j : Nat} (hcode : code < 2 ^ bits)
    (hroom : j / perByte < out.length) (hempty : codeAt perByte bits out j = 0) (i : Nat) :
    codeAt perByte bits (writeCode perByte bits out (code, j)) i =
      if i = j then code else codeAt perByte bits out i := by
  have hslot := Nat.mod_lt j h.perByte_pos
  unfold codeAt writeCode
  rw [List.getElem?_modify]
  by_cases hbyte : j / perByte = i / perByte
  · simp only [codeAt, List.getElem?_eq_getElem hroom, Option.elim_some] at hempty
    simp only [← hbyte, List.getElem?_eq_getElem hroom, if_true, Option.map_eq_map, Option.map_some,
      Option.elim_some]
    rw [unpackCode_or h hcode hslot hempty]
    have hsame : i % perByte = j % perByte ↔ i = j := by
      constructor
      · intro hmod
        rw [← Nat.div_add_mod i perByte, ← Nat.div_add_mod j perByte, hmod, hbyte]
      · exact fun heq => heq ▸ rfl
    simp only [hsame]
  · have hne : i ≠ j := fun heq => hbyte (heq ▸ rfl)
    simp only [if_neg hbyte, if_neg hne, Option.map_eq_map, Option.map_id_fun', id_eq]

theorem codeAt_replicate (n j : Nat) : codeAt perByte bits (List.replicate n 0) j = 0 := by
  unfold codeAt
  rw [List.getElem?_replicate]
  split
  · show (0 >>> _) % _ = 0
    rw [Nat.zero_shiftRight, Nat.zero_mod]
  · rfl

/-- Place `j` holds code `j`, and nothing was put past the last code. -/
theorem codeAt_packCodes (h : Places perByte bits) {codes : List Nat} (hcodes : ∀ code ∈ codes, code < 2 ^ bits)
    (j : Nat) : codeAt perByte bits (packCodes perByte bits codes) j = codes[j]?.getD 0 := by
  rw [packCodes_eq]
  -- after the first `n` codes the places from `n` on are empty
  have hfold : ∀ (codes : List Nat) (n : Nat) (out : Bytes), (∀ code ∈ codes, code < 2 ^ bits) →
      n + codes.length ≤ perByte * out.length → (∀ j, n ≤ j → codeAt perByte bits out j = 0) →
      ∀ j, codeAt perByte bits ((codes.zipIdx n).foldl (writeCode perByte bits) out) j =
        if j < n then codeAt perByte bits out j else codes[j - n]?.getD 0 := by
    intro codes
    induction codes with
    | nil =>
        intro n out _ _ hempty j
        split
        · rfl
        · exact hempty j (by omega)
    | cons code rest ih =>
        intro n out hcodes hroom hempty j
        rw [List.length_cons] at hroom
        rw [List.forall_mem_cons] at hcodes
        have hbyte : n / perByte < out.length := by
          rw [Nat.div_lt_iff_lt_mul h.perByte_pos, Nat.mul_comm]
          omega
        have hwrite := codeAt_writeCode h hcodes.1 hbyte (hempty n le_rfl)
        rw [List.zipIdx_cons, List.foldl_cons, ih (n + 1) _ hcodes.2 ?_ ?_, hwrite]
        · rcases Nat.lt_trichotomy j n with hlt | rfl | hgt
          · rw [if_pos (by omega), if_neg hlt.ne, if_pos hlt]
          · rw [if_pos (by omega), if_pos rfl, if_neg (lt_irrefl _), Nat.sub_self]
            rfl
          · rw [if_neg (by omega), if_neg (by omega), show j - n = j - (n + 1) + 1 by omega,
              List.getElem?_cons_succ]
        · rw [writeCode, List.length_modify]
          omega
        · intro i hi
          rw [hwrite, if_neg (by omega)]
          exact hempty i (by omega)
  have hroom : 0 + codes.length ≤ perByte *
      (List.replicate ((codes.length + (perByte - 1)) / perByte) (0 : UInt8)).length := by
    have hdiv := Nat.div_add_mod (codes.length + (perByte - 1)) perByte
    have hmod := Nat.mod_lt (codes.length + (perByte - 1)) h.perByte_pos
    rw [List.length_replicate]
    omega
  refine (hfold codes 0 _ hcodes hroom (fun j _ => codeAt_replicate _ j) j).trans ?_
  rw [if_neg (Nat.not_lt_zero j), Nat.sub_zero]

end LTSearch
