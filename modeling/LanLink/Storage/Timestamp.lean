import Mathlib.Algebra.Group.Int.Defs
import LanLink.Core.Decimal

/-! Timestamps of version identifiers. The calendar date is computed from the
days since 1970 in signed machine integers, whose division truncates; none of
the values comes near the bounds of 64 bits. Every second has a text of its
own, because the calendar computation can be undone. -/
namespace LanLink.Version
open Decimal

/-- Year, month and day. -/
structure CivilDate where
  year : Int
  month : Int
  day : Int
  deriving DecidableEq

def civilDateFromDays (days : Int) : CivilDate :=
  let z := days + 719468
  let era := (if 0 ≤ z then z else z - 146096).tdiv 146097
  let doe := z - era * 146097
  let yoe := (doe - doe.tdiv 1460 + doe.tdiv 36524 - doe.tdiv 146096).tdiv 365
  let y := yoe + era * 400
  let doy := doe - (365 * yoe + yoe.tdiv 4 - yoe.tdiv 100)
  let mp := (5 * doy + 2).tdiv 153
  let d := doy - (153 * mp + 2).tdiv 5 + 1
  let m := if mp < 10 then mp + 3 else mp - 9
  ⟨if m ≤ 2 then y + 1 else y, m, d⟩

/-- A zero-padded signed number; the sign counts towards the width. -/
def signed (width : Nat) (n : Int) : List Char :=
  if n < 0 then '-' :: padded (width - 1) n.natAbs else padded width n.toNat

/-- The digits of `YYYYMMDDHHMMSS`. -/
def timestampDigits (unixSecs : Nat) : List Char :=
  let timeInDay := unixSecs % 86400
  let date := civilDateFromDays (unixSecs / 86400)
  signed 4 date.year ++ signed 2 date.month ++ signed 2 date.day ++ padded 2 (timeInDay / 3600) ++
    padded 2 (timeInDay % 3600 / 60) ++ padded 2 (timeInDay % 60)

def formatTimestamp (unixSecs : Nat) : String := String.ofList (timestampDigits unixSecs)

/-- The day of the year is in range for the days of one century: the number of
leap days in front of it is estimated one too high at most. -/
theorem century_bounds {r c q y : Int} (start : 0 ≤ r) (whole : r < 36524) (first : 0 ≤ c)
    (last : c ≤ 3) (leap : q = (r + 24 * c) / 1460) (year : y = (r - q) / 365) :
    0 ≤ y ∧ y ≤ 99 ∧ 0 ≤ r - 365 * y - y / 4 ∧ r - 365 * y - y / 4 ≤ 365 := by
  have some : 0 ≤ q ∧ q ≤ r := by omega
  have most : r - q < 36500 := by omega
  have years : 0 ≤ y ∧ y ≤ 99 := by omega
  have low : y / 4 ≤ q := by omega
  have high : q ≤ y / 4 + 1 := by omega
  omega

theorem cycle_bounds {doe yoe doy : Int} (start : 0 ≤ doe) (whole : doe ≤ 146096)
    (year : yoe = (doe - doe / 1460 + doe / 36524 - doe / 146096) / 365)
    (day : doy = doe - (365 * yoe + yoe / 4 - yoe / 100)) :
    0 ≤ yoe ∧ yoe ≤ 399 ∧ 0 ≤ doy ∧ doy ≤ 365 := by
  by_cases leap : doe = 146096
  · subst leap year day
    decide
  · obtain ⟨c, r, split, first, last, low, high⟩ : ∃ c r : Int, doe = 36524 * c + r ∧ 0 ≤ c ∧
        c ≤ 3 ∧ 0 ≤ r ∧ r < 36524 :=
      ⟨doe / 36524, doe % 36524, by omega, by omega, by omega, by omega, by omega⟩
    obtain ⟨years, most, early, late⟩ := century_bounds low high first last rfl rfl
    have fours : doe / 1460 = 25 * c + (r + 24 * c) / 1460 := by omega
    have centuries : doe / 36524 = c := by omega
    have cycles : doe / 146096 = 0 := by omega
    have numerator : doe - doe / 1460 + doe / 36524 - doe / 146096 =
        365 * (100 * c) + (r - (r + 24 * c) / 1460) := by omega
    have counted : yoe = 100 * c + (r - (r + 24 * c) / 1460) / 365 := by
      rw [year, numerator, Int.mul_add_ediv_left _ _ (by decide)]
    generalize (r - (r + 24 * c) / 1460) / 365 = y at *
    have leaps : yoe / 4 = 25 * c + y / 4 := by omega
    have dropped : yoe / 100 = c := by omega
    rw [leaps, dropped] at day
    clear year numerator
    omega

/-- How a date comes from a day count: the 400-year cycle, the year in it and
the month, counted from March. -/
structure Reckoned (days : Int) (date : CivilDate) (era yoe mp : Int) : Prop where
  cycle : 0 ≤ era
  first : 0 ≤ yoe
  last : yoe ≤ 399
  march : 0 ≤ mp
  february : mp ≤ 11
  month : date.month = if mp < 10 then mp + 3 else mp - 9
  year : date.year = if date.month ≤ 2 then yoe + era * 400 + 1 else yoe + era * 400
  one : 1 ≤ date.day
  month_end : date.day ≤ 31
  counted : days + 719468 = era * 146097 + (365 * yoe + yoe / 4 - yoe / 100) +
    ((153 * mp + 2) / 5 + date.day - 1)

theorem civilDateFromDays_reckoned (days : Int) (past : 0 ≤ days) :
    ∃ era yoe mp, Reckoned days (civilDateFromDays days) era yoe mp := by
  have positive : 0 ≤ days + 719468 := by omega
  generalize era_eq : (days + 719468) / 146097 = era
  generalize doe_eq : days + 719468 - era * 146097 = doe
  have inside : 0 ≤ era ∧ 0 ≤ doe ∧ doe ≤ 146096 := by omega
  generalize yoe_eq : (doe - doe / 1460 + doe / 36524 - doe / 146096) / 365 = yoe
  generalize doy_eq : doe - (365 * yoe + yoe / 4 - yoe / 100) = doy
  obtain ⟨first, last, early, late⟩ :=
    cycle_bounds inside.2.1 inside.2.2 yoe_eq.symm doy_eq.symm
  generalize mp_eq : (5 * doy + 2) / 153 = mp
  have date : civilDateFromDays days =
      ⟨if (if mp < 10 then mp + 3 else mp - 9) ≤ 2 then yoe + era * 400 + 1 else yoe + era * 400,
        if mp < 10 then mp + 3 else mp - 9, doy - (153 * mp + 2) / 5 + 1⟩ := by
    have some : 0 ≤ doe - doe / 1460 + doe / 36524 - doe / 146096 := by omega
    have march : 0 ≤ mp := by omega
    simp only [civilDateFromDays, if_pos positive, Int.tdiv_eq_ediv_of_nonneg positive, era_eq,
      doe_eq, Int.tdiv_eq_ediv_of_nonneg inside.2.1, Int.tdiv_eq_ediv_of_nonneg some, yoe_eq,
      Int.tdiv_eq_ediv_of_nonneg first, doy_eq,
      Int.tdiv_eq_ediv_of_nonneg (show 0 ≤ 5 * doy + 2 by omega), mp_eq,
      Int.tdiv_eq_ediv_of_nonneg (show 0 ≤ 153 * mp + 2 by omega)]
  rw [date]
  refine ⟨era, yoe, mp, inside.1, first, last, by omega, by omega, rfl, rfl, ?_, ?_, ?_⟩
  · show 1 ≤ doy - (153 * mp + 2) / 5 + 1
    omega
  · show doy - (153 * mp + 2) / 5 + 1 ≤ 31
    omega
  · show days + 719468 = era * 146097 + (365 * yoe + yoe / 4 - yoe / 100) +
      ((153 * mp + 2) / 5 + (doy - (153 * mp + 2) / 5 + 1) - 1)
    omega

/-- A date is the date of one day only. -/
theorem Reckoned.unique (left : Reckoned a date era yoe mp)
    (right : Reckoned b date era' yoe' mp') : a = b := by
  obtain ⟨_, first, last, march, february, month, year, _, _, days⟩ := left
  obtain ⟨_, first', last', march', february', month', year', _, _, days'⟩ := right
  have months : mp = mp' := by
    have same := month.symm.trans month'
    split at same <;> split at same <;> omega
  have years : yoe = yoe' ∧ era = era' := by
    have same := year.symm.trans year'
    split at same <;> omega
  obtain ⟨rfl, rfl⟩ := years
  subst months
  omega

theorem Reckoned.year_nonneg (reckoned : Reckoned days date era yoe mp) : 0 ≤ date.year := by
  obtain ⟨cycle, first, _, _, _, _, year, _⟩ := reckoned
  split at year <;> omega

theorem Reckoned.month_bounds (reckoned : Reckoned days date era yoe mp) :
    0 ≤ date.month ∧ date.month < 10 ^ 2 := by
  obtain ⟨_, _, _, march, february, month, _⟩ := reckoned
  split at month <;> omega

theorem signed_of_nonneg (positive : 0 ≤ n) : signed width n = padded width n.toNat :=
  if_neg (by omega)

theorem signed_inj (positive : 0 ≤ a) (positive' : 0 ≤ b) (same : signed width a = signed width b) :
    a = b := by
  rw [signed_of_nonneg positive, signed_of_nonneg positive'] at same
  have := padded_injective same
  omega

theorem append_signed_inj (positive : 0 < width) (low : 0 ≤ a) (high : a < 10 ^ width)
    (low' : 0 ≤ b) (high' : b < 10 ^ width)
    (same : front ++ signed width a = back ++ signed width b) : front = back ∧ a = b := by
  rw [signed_of_nonneg low, signed_of_nonneg low'] at same
  have bound : ((10 ^ width : Nat) : Int) = 10 ^ width := by simp
  obtain ⟨fronts, numbers⟩ := append_padded_inj positive (by omega) (by omega) same
  exact ⟨fronts, by omega⟩

theorem Reckoned.day_bounds (reckoned : Reckoned days date era yoe mp) :
    0 ≤ date.day ∧ date.day < 10 ^ 2 := by
  obtain ⟨_, _, _, _, _, _, _, one, month_end, _⟩ := reckoned
  omega

theorem dayTime_inj {a b : Nat} (hours : a % 86400 / 3600 = b % 86400 / 3600)
    (minutes : a % 86400 % 3600 / 60 = b % 86400 % 3600 / 60)
    (seconds : a % 86400 % 60 = b % 86400 % 60) : a % 86400 = b % 86400 := by
  omega

/-- Every second has its own digits: the fields behind the year have a fixed
width, and the date they give is the date of one day. -/
theorem timestampDigits_injective {a b : Nat} (same : timestampDigits a = timestampDigits b) :
    a = b := by
  simp only [timestampDigits] at same
  obtain ⟨same, seconds⟩ := append_padded_inj (by decide) (by omega) (by omega) same
  obtain ⟨same, minutes⟩ := append_padded_inj (by decide) (by omega) (by omega) same
  obtain ⟨same, hours⟩ := append_padded_inj (by decide) (by omega) (by omega) same
  have times := dayTime_inj hours minutes seconds
  obtain ⟨era, yoe, mp, left⟩ := civilDateFromDays_reckoned (a / 86400) (by omega)
  obtain ⟨era', yoe', mp', right⟩ := civilDateFromDays_reckoned (b / 86400) (by omega)
  obtain ⟨same, days⟩ := append_signed_inj (by decide) left.day_bounds.1 left.day_bounds.2
    right.day_bounds.1 right.day_bounds.2 same
  obtain ⟨same, months⟩ := append_signed_inj (by decide) left.month_bounds.1 left.month_bounds.2
    right.month_bounds.1 right.month_bounds.2 same
  have years := signed_inj left.year_nonneg right.year_nonneg same
  have dates : civilDateFromDays (a / 86400) = civilDateFromDays (b / 86400) := by
    rw [CivilDate.mk.injEq]
    exact ⟨years, months, days⟩
  rw [← dates] at right
  have dayCounts := left.unique right
  clear seconds minutes hours
  omega

theorem dash_notMem_padded (width n : Nat) : '-' ∉ padded width n := by
  intro member
  exact absurd (isDigit_of_mem_padded member) (by decide)

theorem dash_notMem_timestampDigits (unixSecs : Nat) : '-' ∉ timestampDigits unixSecs := by
  obtain ⟨era, yoe, mp, reckoned⟩ :=
    civilDateFromDays_reckoned (unixSecs / 86400) (by omega)
  simp only [timestampDigits, signed_of_nonneg reckoned.year_nonneg,
    signed_of_nonneg reckoned.month_bounds.1, signed_of_nonneg reckoned.day_bounds.1,
    List.mem_append, dash_notMem_padded, or_self, not_false_eq_true]

end LanLink.Version
