/-
# LTSearch.Foundation.Calendar -- the proleptic Gregorian calendar, day by day

A date is a year, a month and a day that the month has.  Each date has a next one and a previous one,
and day `n` is the date that is reached from 1970-01-01 in `n` steps.  Counting years from March, so
that the leap day is the last one, the number of a date is a sum of quotients.
-/
import Mathlib

namespace LTSearch.Foundation

/-! ## Dates -/

/-- Every fourth year, of the full centuries every fourth one. -/
def IsLeap (year : Int) : Prop := year % 4 = 0 ∧ (year % 100 ≠ 0 ∨ year % 400 = 0)

instance (year : Int) : Decidable (IsLeap year) := inferInstanceAs (Decidable (_ ∧ _))

/-- The length of a month. -/
def daysInMonth (year month : Int) : Int :=
  if month = 2 then if IsLeap year then 29 else 28
  else if month = 4 ∨ month = 6 ∨ month = 9 ∨ month = 11 then 30
  else 31

theorem daysInMonth_pos (year month : Int) : 0 < daysInMonth year month := by
  unfold daysInMonth
  split_ifs <;> decide

/-- A date of the calendar. -/
@[ext]
structure Date where
  year : Int
  month : Int
  day : Int
  month_pos : 1 ≤ month
  month_le : month ≤ 12
  day_pos : 1 ≤ day
  day_le : day ≤ daysInMonth year month

namespace Date

theorem day_le_31 (date : Date) : date.day ≤ 31 := by
  refine date.day_le.trans ?_
  unfold daysInMonth
  split_ifs <;> decide

/-- The first day of the epoch. -/
def epoch : Date := ⟨1970, 1, 1, by decide, by decide, by decide, by decide⟩

/-- The day after. -/
def next (date : Date) : Date :=
  if h : date.day < daysInMonth date.year date.month then
    { date with
      day := date.day + 1
      day_pos := by have := date.day_pos; omega
      day_le := h }
  else if h : date.month < 12 then
    { year := date.year, month := date.month + 1, day := 1
      month_pos := by have := date.month_pos; omega
      month_le := h
      day_pos := le_rfl
      day_le := daysInMonth_pos _ _ }
  else
    ⟨date.year + 1, 1, 1, by decide, by decide, by decide, daysInMonth_pos _ _⟩

/-- The day before. -/
def prev (date : Date) : Date :=
  if h : 1 < date.day then
    { date with
      day := date.day - 1
      day_pos := by omega
      day_le := by have := date.day_le; omega }
  else if h : 1 < date.month then
    { year := date.year, month := date.month - 1, day := daysInMonth date.year (date.month - 1)
      month_pos := by omega
      month_le := by have := date.month_le; omega
      day_pos := daysInMonth_pos _ _
      day_le := le_rfl }
  else
    ⟨date.year - 1, 12, 31, by decide, by decide, by decide, by simp [daysInMonth]⟩

theorem next_prev (date : Date) : date.prev.next = date := by
  have hpos := date.day_pos
  have hle := date.day_le
  have hmonth := date.month_pos
  have hmonth' := date.month_le
  unfold prev
  split_ifs with hday hfirst
  · -- inside a month
    have : date.day - 1 < daysInMonth date.year date.month := by omega
    simp only [next, this, dif_pos]
    ext <;> simp
  · -- from the first of a month
    simp only [next, lt_self_iff_false, dif_neg, not_false_iff]
    rw [dif_pos (show date.month - 1 < 12 by omega)]
    ext
    · rfl
    · show date.month - 1 + 1 = date.month
      omega
    · show 1 = date.day
      omega
  · -- from the first of a year
    have hlast : ¬(31 : Int) < daysInMonth (date.year - 1) 12 := by simp [daysInMonth]
    simp only [next, hlast, lt_self_iff_false, dif_neg, not_false_iff]
    ext
    · show date.year - 1 + 1 = date.year
      omega
    · show 1 = date.month
      omega
    · show 1 = date.day
      omega

/-- The date `n` days after the epoch, or before it. -/
def ofDay : Int → Date
  | .ofNat n => next^[n] epoch
  | .negSucc n => prev^[n + 1] epoch

/-- A day later, the next date. -/
theorem ofDay_add_one (n : Int) : ofDay (n + 1) = (ofDay n).next := by
  cases n with
  | ofNat n =>
      show next^[n + 1] epoch = next (next^[n] epoch)
      exact Function.iterate_succ_apply' next n epoch
  | negSucc n =>
      cases n with
      | zero => exact (next_prev epoch).symm
      | succ n =>
          show prev^[n + 1] epoch = next (prev^[n + 1 + 1] epoch)
          rw [Function.iterate_succ_apply' prev (n + 1), next_prev]

/-! ## Earlier and later -/

/-- Earlier in the order of years, months and days. -/
def Before (date date' : Date) : Prop :=
  date.year < date'.year ∨ date.year = date'.year ∧
    (date.month < date'.month ∨ date.month = date'.month ∧ date.day < date'.day)

theorem Before.trans {a b c : Date} (hab : a.Before b) (hbc : b.Before c) : a.Before c := by
  unfold Before at *
  omega

theorem before_next (date : Date) : date.Before date.next := by
  unfold next
  split_ifs with hday hmonth
  · exact .inr ⟨rfl, .inr ⟨rfl, Int.lt_succ date.day⟩⟩
  · exact .inr ⟨rfl, .inl (Int.lt_succ date.month)⟩
  · exact .inl (Int.lt_succ date.year)

/-- A later day has a later date. -/
theorem ofDay_before {m n : Int} (h : m < n) : (ofDay m).Before (ofDay n) := by
  induction n, h using Int.leInduction with
  | base =>
      rw [ofDay_add_one]
      exact before_next _
  | succ n _ ih =>
      rw [ofDay_add_one]
      exact ih.trans (before_next _)

/-! ## Numbers of dates -/

/-- The year that the last March belongs to. -/
def marchYear (date : Date) : Int := if date.month ≤ 2 then date.year - 1 else date.year

/-- The months since March. -/
def marchMonth (date : Date) : Int := if date.month ≤ 2 then date.month + 9 else date.month - 3

/-- The days since the first of March. -/
def marchDay (date : Date) : Int := (153 * date.marchMonth + 2) / 5 + date.day - 1

/-- The days since the epoch. -/
def dayNumber (date : Date) : Int :=
  365 * date.marchYear + date.marchYear / 4 - date.marchYear / 100 + date.marchYear / 400 +
    date.marchDay - 719468

/-- Leap days: one more in a leap year than in the year before it. -/
theorem leapDays_step (year : Int) :
    365 * year + year / 4 - year / 100 + year / 400 =
      365 * (year - 1) + (year - 1) / 4 - (year - 1) / 100 + (year - 1) / 400 + 365 +
        if IsLeap year then 1 else 0 := by
  unfold IsLeap
  split_ifs <;> omega

/-- The next date has the next number. -/
theorem dayNumber_next (date : Date) : date.next.dayNumber = date.dayNumber + 1 := by
  obtain ⟨year, month, day, hmonth, hmonth', hday, hday'⟩ := date
  unfold next
  split_ifs with hinside hmonths
  · simp only [dayNumber, marchDay, marchMonth, marchYear]
    omega
  · -- over the end of a month; the end of February is the end of a year from March
    have hlast : day = daysInMonth year month := by
      simp only at hinside hday'
      omega
    have hleap := leapDays_step year
    simp only at hmonths
    simp only [dayNumber, marchDay, marchMonth, marchYear, hlast, daysInMonth] at hleap ⊢
    by_cases hfebruary : month = 2
    · subst hfebruary
      by_cases h : IsLeap year <;> simp only [h] at hleap ⊢ <;> norm_num at hleap ⊢ <;> omega
    · have hcases : month = 1 ∨ month = 3 ∨ month = 4 ∨ month = 5 ∨ month = 6 ∨ month = 7 ∨
          month = 8 ∨ month = 9 ∨ month = 10 ∨ month = 11 := by omega
      rcases hcases with rfl | rfl | rfl | rfl | rfl | rfl | rfl | rfl | rfl | rfl <;> simp <;> omega
  · have hdecember : month = 12 := by
      simp only at hmonths
      omega
    have hlast : day = 31 := by
      simp only [hdecember, daysInMonth] at hinside hday'
      norm_num at hinside hday'
      omega
    simp [dayNumber, marchDay, marchMonth, marchYear, hdecember, hlast]
    omega

theorem dayNumber_epoch : epoch.dayNumber = 0 := by decide

/-- Day `n` has the number `n`. -/
theorem dayNumber_ofDay (n : Int) : (ofDay n).dayNumber = n := by
  induction n using Int.induction_on with
  | zero => exact dayNumber_epoch
  | succ n ih => rw [ofDay_add_one, dayNumber_next, ih]
  | pred n ih =>
      have hstep := dayNumber_next (ofDay (-n - 1))
      rw [← ofDay_add_one, sub_add_cancel, ih] at hstep
      omega

end Date

end LTSearch.Foundation
