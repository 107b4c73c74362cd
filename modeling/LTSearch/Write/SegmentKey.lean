/-
# LTSearch.Write.SegmentKey -- the date in the key of a segment

The day count of a timestamp is turned into a date by quotients of eras, years and months.  It is the
date of the calendar, no operation on the way leaves 64 bits, and segments of a later day have a
greater key.
-/
import LTSearch.Foundation.Calendar
import LTSearch.Foundation.Checked
import LTSearch.Foundation.Digits
import LTSearch.Write.Wal

namespace LTSearch

open LTSearch.Foundation

/-! ## The arithmetic of the code -/

/-- The result of an operation on `i64`. -/
def i64 {ε : Type} (x : Int) : Checked ε Int :=
  if -2 ^ 63 ≤ x ∧ x < 2 ^ 63 then .ok x else Checked.panicked "arithmetic overflow"

/-- `as i32` -/
def asI32 (x : Int) : Int := x.bmod (2 ^ 32)

/-- `as u32` -/
def asU32 (x : Int) : Int := x % 2 ^ 32

/-- `civil_from_days` on 64-bit integers, every operation checked, and its casts. -/
def civilFromDaysI64 {ε : Type} (daysSinceEpoch : Int) : Checked ε (Int × Int × Int) := do
  let z ← i64 (daysSinceEpoch + 719468)
  let shifted ← (if z ≥ 0 then .ok z else i64 (z - 146096) : Checked ε Int)
  let era := shifted.tdiv 146097
  let eraDays ← i64 (era * 146097)
  let doe ← i64 (z - eraDays)
  let withoutLeapDays ← i64 (doe - doe.tdiv 1460)
  let withCenturies ← i64 (withoutLeapDays + doe.tdiv 36524)
  let years ← i64 (withCenturies - doe.tdiv 146096)
  let yoe := years.tdiv 365
  let eraYears ← i64 (era * 400)
  let y ← i64 (yoe + eraYears)
  let yearDays ← i64 (365 * yoe)
  let withLeapDays ← i64 (yearDays + yoe.tdiv 4)
  let before ← i64 (withLeapDays - yoe.tdiv 100)
  let doy ← i64 (doe - before)
  let fiveDays ← i64 (5 * doy)
  let shiftedDays ← i64 (fiveDays + 2)
  let mp := shiftedDays.tdiv 153
  let monthDays ← i64 (153 * mp)
  let shiftedMonths ← i64 (monthDays + 2)
  let dayOfMonth ← i64 (doy - shiftedMonths.tdiv 5)
  let day ← i64 (dayOfMonth + 1)
  let month ← i64 (mp + if mp < 10 then 3 else -9)
  let year ← i64 (y + if month ≤ 2 then 1 else 0)
  .ok (asI32 year, asU32 month, asU32 day)

theorem i64_eq_ok {ε : Type} {x : Int} (hlow : -2 ^ 63 ≤ x) (hhigh : x < 2 ^ 63) :
    (i64 x : Checked ε Int) = .ok x := if_pos ⟨hlow, hhigh⟩

theorem asI32_eq {x : Int} (hlow : -2 ^ 31 ≤ x) (hhigh : x < 2 ^ 31) : asI32 x = x := by
  apply Int.bmod_eq_of_le_mul_two <;> omega

theorem asU32_eq {x : Int} (hlow : 0 ≤ x) (hhigh : x < 2 ^ 32) : asU32 x = x :=
  Int.emod_eq_of_lt hlow hhigh

/-! ## The date of a day count -/

/-- The days of a month and a day in a year that begins in March, which has at most one day more than
365, the leap day. -/
theorem marchDay_bounds (date : Date) : 0 ≤ date.marchMonth ∧ date.marchMonth ≤ 11 ∧
    0 ≤ date.marchDay ∧ date.marchDay ≤ 365 ∧ (date.marchDay = 365 → IsLeap (date.marchYear + 1)) ∧
    (5 * date.marchDay + 2) / 153 = date.marchMonth := by
  obtain ⟨year, month, day, hmonth, hmonth', hday, hday'⟩ := date
  have hcases : month = 1 ∨ month = 2 ∨ month = 3 ∨ month = 4 ∨ month = 5 ∨ month = 6 ∨ month = 7 ∨
      month = 8 ∨ month = 9 ∨ month = 10 ∨ month = 11 ∨ month = 12 := by omega
  by_cases hleap : IsLeap year <;>
    rcases hcases with rfl | rfl | rfl | rfl | rfl | rfl | rfl | rfl | rfl | rfl | rfl | rfl <;>
    simp [daysInMonth, hleap, Date.marchDay, Date.marchMonth, Date.marchYear] at hday' ⊢ <;> omega

/-- The year of an era is found from the day of the era. -/
theorem yearOfEra_eq {yoe doy : Int} (hyoe : 0 ≤ yoe) (hyoe' : yoe < 400) (hdoy : 0 ≤ doy)
    (hdoy' : doy ≤ 365) (hleap : doy = 365 → IsLeap (yoe + 1)) {doe : Int}
    (hdoe : doe = 365 * yoe + yoe / 4 - yoe / 100 + doy) :
    (doe - doe / 1460 + doe / 36524 - doe / 146096) / 365 = yoe := by
  -- centuries, groups of four years, and years
  obtain ⟨c, q, s, hsplit, hc, hc', hq, hq', hs, hs'⟩ : ∃ c q s : Int, yoe = 100 * c + 4 * q + s ∧
      0 ≤ c ∧ c < 4 ∧ 0 ≤ q ∧ q < 25 ∧ 0 ≤ s ∧ s < 4 :=
    ⟨yoe / 100, yoe % 100 / 4, yoe % 4, by omega⟩
  have hdoe' : doe = 36524 * c + 1461 * q + 365 * s + doy := by
    have h4 : yoe / 4 = 25 * c + q := by omega
    have h100 : yoe / 100 = c := by omega
    omega
  have hlast : doy = 365 → s = 3 ∧ (q = 24 → c = 3) := by
    intro h
    have := hleap h
    unfold IsLeap at this
    omega
  have hcentury : doe / 36524 - doe / 146096 = c := by
    rcases eq_or_ne doy 365 with h | h
    · obtain ⟨hs3, hq24⟩ := hlast h
      rcases eq_or_ne q 24 with hq | hq
      · have := hq24 hq
        omega
      · have h1 : doe / 36524 = c := by omega
        have h2 : doe / 146096 = 0 := by omega
        omega
    · have h1 : doe / 36524 = c := by omega
      have h2 : doe / 146096 = 0 := by omega
      omega
  -- the leap days so far, or one more at the end of a group
  have hfour : ∃ late : Int, doe / 1460 = 25 * c + q + late ∧
      (late = 0 ∧ doy ≤ 364 ∨ late = 1 ∧ 1 ≤ doy) := by
    rcases Int.lt_or_le (24 * c + q + 365 * s + doy) 1460 with h | h
    · refine ⟨0, by omega, .inl ⟨rfl, ?_⟩⟩
      by_contra hlong
      have := hlast (by omega)
      omega
    · exact ⟨1, by omega, .inr ⟨rfl, by omega⟩⟩
  obtain ⟨late, h1460, hlate⟩ := hfour
  have hyears : doe - doe / 1460 + doe / 36524 - doe / 146096 = 365 * yoe + (doy - late) := by omega
  rw [hyears]
  omega

theorem era_eq (z : Int) : (if z ≥ 0 then z else z - 146096).tdiv 146097 = z / 146097 := by
  split_ifs with h
  · exact Int.tdiv_eq_ediv_of_nonneg h
  · rw [Int.tdiv_eq_ediv, show Int.sign 146097 = 1 from rfl]
    split_ifs with hexact <;> omega

/-- Era, year of the era and day of the year of a date, as the arithmetic finds them. -/
structure Civil (date : Date) (z era doe yoe : Int) : Prop where
  number : z = date.dayNumber + 719468
  era_eq : (if z ≥ 0 then z else z - 146096).tdiv 146097 = era
  doe_eq : z - era * 146097 = doe
  doe_nonneg : 0 ≤ doe
  doe_lt : doe < 146097
  yoe_eq : (doe - doe.tdiv 1460 + doe.tdiv 36524 - doe.tdiv 146096).tdiv 365 = yoe
  yoe_nonneg : 0 ≤ yoe
  yoe_lt : yoe < 400
  year_eq : yoe + era * 400 = date.marchYear
  day_eq : doe - (365 * yoe + yoe.tdiv 4 - yoe.tdiv 100) = date.marchDay
  month_eq : (5 * date.marchDay + 2).tdiv 153 = date.marchMonth

theorem Civil.of_date (date : Date) : ∃ z era doe yoe, Civil date z era doe yoe := by
  obtain ⟨hmonth, hmonth', hday, hday', hleap, hmonths⟩ := marchDay_bounds date
  have hyoe : 0 ≤ date.marchYear % 400 := by omega
  have hyoe' : date.marchYear % 400 < 400 := by omega
  generalize hyoeEq : date.marchYear % 400 = yoe at hyoe hyoe'
  generalize heraEq : date.marchYear / 400 = era
  have hleap' : date.marchDay = 365 → IsLeap (yoe + 1) := by
    intro h
    have := hleap h
    unfold IsLeap at this ⊢
    omega
  -- the year is its era and its year in it
  have hnumber : date.dayNumber + 719468 =
      era * 146097 + (365 * yoe + yoe / 4 - yoe / 100 + date.marchDay) := by
    unfold Date.dayNumber
    omega
  have hlow : 0 ≤ 365 * yoe + yoe / 4 - yoe / 100 + date.marchDay := by omega
  have hhigh : 365 * yoe + yoe / 4 - yoe / 100 + date.marchDay < 146097 := by
    rcases eq_or_ne date.marchDay 365 with h | h
    · have := hleap' h
      unfold IsLeap at this
      omega
    · omega
  generalize hdoeEq : 365 * yoe + yoe / 4 - yoe / 100 + date.marchDay = doe at hnumber hlow hhigh
  have htdiv : ∀ {a : Int} (b : Int), 0 ≤ a → a.tdiv b = a / b := fun _ h =>
    Int.tdiv_eq_ediv_of_nonneg h
  refine ⟨_, era, doe, yoe, rfl, ?_, ?_, hlow, hhigh, ?_, hyoe, hyoe', ?_, ?_, ?_⟩
  · rw [LTSearch.era_eq]
    omega
  · omega
  · rw [htdiv _ hlow, htdiv _ hlow, htdiv _ hlow, htdiv _ (by omega)]
    exact yearOfEra_eq hyoe hyoe' hday hday' hleap' hdoeEq.symm
  · omega
  · rw [htdiv _ hyoe, htdiv _ hyoe]
    omega
  · rw [htdiv _ (by omega)]
    exact hmonths

/-- Month, day and year from those counted from March. -/
theorem of_march (date : Date) :
    date.marchDay - (153 * date.marchMonth + 2).tdiv 5 + 1 = date.day ∧
      date.marchMonth + (if date.marchMonth < 10 then 3 else -9) = date.month ∧
      date.marchYear + (if date.month ≤ 2 then 1 else 0) = date.year := by
  have hmonth := (marchDay_bounds date).1
  have hpos := date.month_pos
  have hle := date.month_le
  rw [Int.tdiv_eq_ediv_of_nonneg (by omega)]
  refine ⟨?_, ?_, ?_⟩
  · unfold Date.marchDay
    omega
  · unfold Date.marchMonth
    split_ifs <;> omega
  · unfold Date.marchYear
    split_ifs <;> omega

/-- A day count has the date of the calendar. -/
theorem civilFromDays_ofDay (n : Int) :
    civilFromDays n = ((Date.ofDay n).year, (Date.ofDay n).month, (Date.ofDay n).day) := by
  obtain ⟨z, era, doe, yoe, h⟩ := Civil.of_date (Date.ofDay n)
  obtain ⟨hday, hmonth, hyear⟩ := of_march (Date.ofDay n)
  have hz : n + 719468 = z := by rw [h.number, Date.dayNumber_ofDay]
  simp only [civilFromDays, hz, h.era_eq, h.doe_eq, h.yoe_eq, h.day_eq, h.month_eq, h.year_eq, hday,
    hmonth, hyear]

theorem tdiv_bounds {a b : Int} (ha : 0 ≤ a) (hb : 0 ≤ b) : 0 ≤ a.tdiv b ∧ a.tdiv b ≤ a := by
  rw [Int.tdiv_eq_ediv_of_nonneg ha]
  exact ⟨Int.ediv_nonneg ha hb, Int.ediv_le_self b ha⟩

/-- For the days of 64-bit timestamps no operation overflows, and the casts keep the values. -/
theorem civilFromDaysI64_eq {ε : Type} {n : Int} (hlow : -2 ^ 63 ≤ (n + 1) * 86400000)
    (hhigh : n * 86400000 < 2 ^ 63) :
    (civilFromDaysI64 n : Checked ε (Int × Int × Int)) = .ok (civilFromDays n) := by
  obtain ⟨z, era, doe, yoe, h⟩ := Civil.of_date (Date.ofDay n)
  obtain ⟨hday, hmonth, hyear⟩ := of_march (Date.ofDay n)
  obtain ⟨hmarch, hmarch', hdoy, hdoy', -, -⟩ := marchDay_bounds (Date.ofDay n)
  have hdoe := h.doe_nonneg
  have hdoe' := h.doe_lt
  have hyoe := h.yoe_nonneg
  have hyoe' := h.yoe_lt
  have hera := h.doe_eq
  have hmarchYear := h.year_eq
  have hbefore := h.day_eq
  have hz : n + 719468 = z := by rw [h.number, Date.dayNumber_ofDay]
  -- what the quotients are at most
  obtain ⟨hd1, hd1'⟩ := tdiv_bounds hdoe (show (0 : Int) ≤ 1460 by decide)
  obtain ⟨hd2, hd2'⟩ := tdiv_bounds hdoe (show (0 : Int) ≤ 36524 by decide)
  obtain ⟨hd3, hd3'⟩ := tdiv_bounds hdoe (show (0 : Int) ≤ 146096 by decide)
  obtain ⟨hy1, hy1'⟩ := tdiv_bounds hyoe (show (0 : Int) ≤ 4 by decide)
  obtain ⟨hy2, hy2'⟩ := tdiv_bounds hyoe (show (0 : Int) ≤ 100 by decide)
  obtain ⟨hm, hm'⟩ := tdiv_bounds (show (0 : Int) ≤ 153 * (Date.ofDay n).marchMonth + 2 by omega)
    (show (0 : Int) ≤ 5 by decide)
  have hmonthPos := (Date.ofDay n).month_pos
  have hmonthLe := (Date.ofDay n).month_le
  have hdayPos := (Date.ofDay n).day_pos
  have hdayLe := (Date.ofDay n).day_le_31
  have hyearLow : (Date.ofDay n).marchYear ≤ (Date.ofDay n).year := by
    unfold Date.marchYear
    split_ifs <;> omega
  have hyearHigh : (Date.ofDay n).year ≤ (Date.ofDay n).marchYear + 1 := by
    unfold Date.marchYear
    split_ifs <;> omega
  have hshift : (if z ≥ 0 then (.ok z : Checked ε Int) else i64 (z - 146096)) =
      .ok (if z ≥ 0 then z else z - 146096) := by
    split_ifs
    · rfl
    · exact i64_eq_ok (by omega) (by omega)
  have hok : ∀ {x : Int}, -2 ^ 63 ≤ x → x < 2 ^ 63 → (i64 x : Checked ε Int) = .ok x := i64_eq_ok
  have hbind : ∀ {α β : Type} (a : α) (f : α → Checked ε β), (.ok a : Checked ε α) >>= f = f a :=
    fun _ _ => rfl
  unfold civilFromDaysI64
  rw [hok (by omega) (by omega), hbind, hz, hshift, hbind, h.era_eq]
  dsimp only
  rw [hok (by omega) (by omega), hbind, hok (by omega) (by omega), hbind, h.doe_eq,
    hok (by omega) (by omega), hbind, hok (by omega) (by omega), hbind,
    hok (by omega) (by omega), hbind, h.yoe_eq]
  rw [hok (by omega) (by omega), hbind, hok (by omega) (by omega), hbind, h.year_eq,
    hok (by omega) (by omega), hbind, hok (by omega) (by omega), hbind,
    hok (by omega) (by omega), hbind, hok (by omega) (by omega), hbind, h.day_eq,
    hok (by omega) (by omega), hbind, hok (by omega) (by omega), hbind, h.month_eq]
  rw [hok (by omega) (by omega), hbind, hok (by omega) (by omega), hbind,
    hok (by omega) (by omega), hbind, hok (by omega) (by omega), hbind, hday,
    hmonth, hok (by omega) (by omega), hbind, hyear, hok (by omega) (by omega), hbind,
    asI32_eq (by omega) (by omega), asU32_eq (by omega) (by omega), asU32_eq (by omega) (by omega),
    civilFromDays_ofDay]

/-! ## The order of keys -/

/-- The date in a key: year, month and day between slashes. -/
def datePart (date : Date) : List Char :=
  padded 4 date.year.toNat ++ '/' :: padded 2 date.month.toNat ++ '/' :: padded 2 date.day.toNat ++ ['/']

theorem toList_zeroPad {width : Nat} {value : Int} (hwidth : 0 < width) (hnonneg : 0 ≤ value)
    (hlt : value.toNat < 10 ^ width) : (zeroPad width value).toList = padded width value.toNat := by
  have hdigits : (toString value.natAbs).toList = Nat.toDigits 10 value.toNat := by
    rw [show value.natAbs = value.toNat by omega]
    exact Nat.toList_repr
  have hlength : (toString value.natAbs).length = (Nat.toDigits 10 value.toNat).length := by
    rw [← hdigits, String.length_toList]
  rw [← replicate_append_toDigits hlt hwidth, ← hdigits]
  have hsign : (if value < 0 then "-" else "") = "" := if_neg (not_lt.mpr hnonneg)
  simp only [zeroPad, hsign, hlength, String.toList_append, String.toList_ofList, hdigits]
  rfl

/-- A key is the prefix, the date, and the segment. -/
theorem toList_segmentPath {date : Date} {timestampMillis : Int} (segmentId : String)
    (hdate : Date.ofDay (timestampMillis / 86400000) = date) (hyear : 0 ≤ date.year)
    (hyear' : date.year ≤ 9999) : (segmentPath timestampMillis segmentId).toList =
      walPrefix.toList ++ datePart date ++ (segmentId ++ ".jsonl").toList := by
  have hmonth := date.month_pos
  have hmonth' := date.month_le
  have hday := date.day_pos
  have hday' : date.day ≤ 31 := date.day_le_31
  simp only [segmentPath, civilFromDays_ofDay, hdate, String.toList_append, datePart]
  rw [toList_zeroPad (by decide) hyear (by omega), toList_zeroPad (by decide) (by omega) (by omega),
    toList_zeroPad (by decide) (by omega) (by omega)]
  simp

/-- An earlier date has the smaller text. -/
theorem datePart_lt {date date' : Date} (h : date.Before date') (hyear : 0 ≤ date.year)
    (hyear' : date'.year ≤ 9999) : datePart date < datePart date' := by
  have hmonth := date.month_pos
  have hday := date.day_pos
  have hmonth' := date'.month_le
  have hday' := date'.day_le_31
  simp only [datePart, List.append_assoc, List.cons_append]
  rcases h with h | ⟨heq, h | ⟨heq', h⟩⟩
  · exact append_lt_append_of_lt (by simp) (padded_lt (by omega) (by omega)) _ _
  · rw [heq]
    apply List.append_left_lt
    rw [List.cons_lt_cons_iff]
    exact .inr ⟨rfl, append_lt_append_of_lt (by simp) (padded_lt (by omega) (by omega)) _ _⟩
  · rw [heq, heq']
    apply List.append_left_lt
    rw [List.cons_lt_cons_iff]
    refine .inr ⟨rfl, ?_⟩
    apply List.append_left_lt
    rw [List.cons_lt_cons_iff]
    exact .inr ⟨rfl, append_lt_append_of_lt (by simp) (padded_lt (by omega) (by omega)) _ _⟩

/-- The date in the key of a timestamp is that of its day, for every timestamp and without overflow,
and in the years of four digits a later day has the greater key. -/
theorem segmentKey_date :
    (∀ (timestampMillis : Int64) (n : Int), n * 86400000 ≤ timestampMillis.toInt →
      timestampMillis.toInt < (n + 1) * 86400000 →
      (civilFromDaysI64 (timestampMillis.toInt / 86400000) : Checked Unit (Int × Int × Int)) =
          .ok ((Date.ofDay n).year, (Date.ofDay n).month, (Date.ofDay n).day) ∧
        ∀ segmentId, segmentPath timestampMillis.toInt segmentId =
          walPrefix ++ zeroPad 4 (Date.ofDay n).year ++ "/" ++ zeroPad 2 (Date.ofDay n).month ++ "/" ++
            zeroPad 2 (Date.ofDay n).day ++ "/" ++ segmentId ++ ".jsonl") ∧
    ∀ (timestampMillis timestampMillis' : Int64) (n n' : Int) (segmentId segmentId' key key' : String),
      n * 86400000 ≤ timestampMillis.toInt → timestampMillis.toInt < (n + 1) * 86400000 →
      n' * 86400000 ≤ timestampMillis'.toInt → timestampMillis'.toInt < (n' + 1) * 86400000 →
      n < n' → 0 ≤ (Date.ofDay n).year → (Date.ofDay n').year ≤ 9999 →
      segmentKey timestampMillis.toInt segmentId = .ok key →
      segmentKey timestampMillis'.toInt segmentId' = .ok key' → key < key' := by
  have hday : ∀ {t n : Int}, n * 86400000 ≤ t → t < (n + 1) * 86400000 → t / 86400000 = n := by
    intro t n hlow hhigh
    omega
  constructor
  · intro t n hlow hhigh
    have hmin := Int64.le_toInt t
    have hmax := Int64.toInt_lt t
    rw [hday hlow hhigh]
    constructor
    · rw [civilFromDaysI64_eq (by omega) (by omega), civilFromDays_ofDay]
    · intro segmentId
      simp only [segmentPath, hday hlow hhigh, civilFromDays_ofDay]
  · intro t t' n n' segmentId segmentId' key key' hlow hhigh hlow' hhigh' hlt hyear hyear' hkey hkey'
    obtain ⟨_, -, hpath⟩ := bind_eq_ok.mp hkey
    obtain ⟨_, -, hpath'⟩ := bind_eq_ok.mp hkey'
    have hbefore := Date.ofDay_before hlt
    have hle : (Date.ofDay n).year ≤ (Date.ofDay n').year := by
      unfold Date.Before at hbefore
      omega
    rw [← Except.ok.inj hpath, ← Except.ok.inj hpath', String.lt_iff_toList_lt,
      toList_segmentPath segmentId (congrArg _ (hday hlow hhigh)) hyear (hle.trans hyear'),
      toList_segmentPath segmentId' (congrArg _ (hday hlow' hhigh')) (hyear.trans hle) hyear',
      List.append_assoc, List.append_assoc]
    apply List.append_left_lt
    exact append_lt_append_of_lt (by simp [datePart]) (datePart_lt hbefore hyear hyear') _ _

end LTSearch
