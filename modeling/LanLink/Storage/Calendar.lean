import LanLink.Core.Gregorian
import LanLink.Storage.Timestamp

/-! The dates of timestamps against the calendar: the date computed from a day
count is the date that many calendar days after 1 January 1970. -/
namespace LanLink.Version
open Gregorian Decimal

/-- In the range of `i64`. -/
def Fits (n : Int) : Prop := -2 ^ 63 ≤ n ∧ n < 2 ^ 63

instance : DecidablePred Fits := fun _ => inferInstanceAs (Decidable (_ ∧ _))

/-- The value of a signed operator in a build that checks for overflow. -/
def i64 (n : Int) : Option Int := if Fits n then some n else none

theorem i64_bind (fits : Fits n) (next : Int → Option α) : (i64 n >>= next) = next n := by
  rw [i64, if_pos fits]
  rfl

/-- `civilDateFromDays` with the check at every operator; a value that an operator
did not change passes it again. -/
def civilDateFromDaysChecked (days : Int) : Option CivilDate := do
  let z ← i64 (days + 719468)
  let cycleDay ← i64 (if 0 ≤ z then z else z - 146096)
  let era := cycleDay.tdiv 146097
  let cycles ← i64 (era * 146097)
  let doe ← i64 (z - cycles)
  let leaps ← i64 (doe - doe.tdiv 1460)
  let leaps ← i64 (leaps + doe.tdiv 36524)
  let leaps ← i64 (leaps - doe.tdiv 146096)
  let yoe := leaps.tdiv 365
  let years ← i64 (era * 400)
  let y ← i64 (yoe + years)
  let yearDays ← i64 (365 * yoe)
  let yearDays ← i64 (yearDays + yoe.tdiv 4)
  let yearDays ← i64 (yearDays - yoe.tdiv 100)
  let doy ← i64 (doe - yearDays)
  let fifths ← i64 (5 * doy)
  let fifths ← i64 (fifths + 2)
  let mp := fifths.tdiv 153
  let monthDays ← i64 (153 * mp)
  let monthDays ← i64 (monthDays + 2)
  let d ← i64 (doy - monthDays.tdiv 5)
  let d ← i64 (d + 1)
  let m ← i64 (if mp < 10 then mp + 3 else mp - 9)
  let y ← i64 (if m ≤ 2 then y + 1 else y)
  return ⟨y, m, d⟩

def CivilDate.ofDate (date : Date) : CivilDate := ⟨date.year, date.month, date.day⟩

/-- The estimate of the year in a 400-year cycle, for a day in the year `j` of
the `k`-th four years of the century `c`: the leap days in front are one too
many only in the last days of a leap year. -/
theorem year_estimate {c k j doy : Int} (century : 0 ≤ c ∧ c ≤ 3) (fours : 0 ≤ k ∧ k ≤ 24)
    (years : 0 ≤ j ∧ j ≤ 3) (early : 0 ≤ doy) (late : doy ≤ 364 ∨ j = 3 ∧ doy = 365)
    (inside : 1461 * k + 365 * j + doy < 36524)
    (counted : doe = 36524 * c + (1461 * k + 365 * j + doy)) :
    (doe - doe / 1460 + doe / 36524 - doe / 146096) / 365 = 100 * c + 4 * k + j := by
  have cycles : doe / 146096 = 0 := by omega
  have centuries : doe / 36524 = c := by omega
  by_cases ahead : 1460 ≤ 24 * c + k + 365 * j + doy
  · have leaps : doe / 1460 = 25 * c + k + 1 := by omega
    rw [cycles, centuries, leaps]
    omega
  · have leaps : doe / 1460 = 25 * c + k := by omega
    rw [cycles, centuries, leaps]
    omega

theorem yoe_eq {yoe doy : Int} (first : 0 ≤ yoe) (last : yoe ≤ 399) (early : 0 ≤ doy)
    (late : yearStart yoe + doy < yearStart (yoe + 1)) (counted : doe = yearStart yoe + doy) :
    (doe - doe / 1460 + doe / 36524 - doe / 146096) / 365 = yoe := by
  obtain ⟨c, k, j, split, century, fours, years⟩ : ∃ c k j : Int, yoe = 100 * c + 4 * k + j ∧
      (0 ≤ c ∧ c ≤ 3) ∧ (0 ≤ k ∧ k ≤ 24) ∧ 0 ≤ j ∧ j ≤ 3 :=
    ⟨yoe / 100, yoe % 100 / 4, yoe % 4, by omega, by omega, by omega, by omega⟩
  have start : yearStart yoe = 36524 * c + 1461 * k + 365 * j := by
    simp only [yearStart]
    omega
  have next : yearStart (yoe + 1) =
      yearStart yoe + if yoe = 399 ∨ j = 3 ∧ k ≤ 23 then 366 else 365 := by
    simp only [yearStart]
    split <;> omega
  rw [next] at late
  by_cases final : yoe = 399 ∧ doy = 365
  · obtain ⟨rfl, rfl⟩ := final
    subst counted
    decide
  · rw [split]
    have within : doy ≤ 364 ∨ j = 3 ∧ doy = 365 := by
      split at late <;> omega
    have inside : 1461 * k + 365 * j + doy < 36524 := by
      split at late <;> omega
    exact year_estimate century fours years early within inside (by omega)

/-- The month of a day of the year. -/
theorem mp_eq {mp doy : Int} (march : 0 ≤ mp) (february : mp ≤ 11) (low : monthStart mp ≤ doy)
    (high : mp < 11 → doy < monthStart (mp + 1)) (last : doy ≤ 365) :
    (5 * doy + 2) / 153 = mp := by
  simp only [monthStart] at low high
  omega

/-- The values the computation goes through for a date. -/
structure Stages (days : Int) (date : Date) (era doe yoe doy mp : Int) : Prop where
  era_nonneg : 0 ≤ era
  doe_bounds : 0 ≤ doe ∧ doe ≤ 146096
  yoe_bounds : 0 ≤ yoe ∧ yoe ≤ 399
  doy_bounds : 0 ≤ doy ∧ doy ≤ 365
  mp_bounds : 0 ≤ mp ∧ mp ≤ 11
  counted : days + 719468 = era * 146097 + doe
  year : (doe - doe / 1460 + doe / 36524 - doe / 146096) / 365 = yoe
  dayOfYear : doe - (365 * yoe + yoe / 4 - yoe / 100) = doy
  month : (5 * doy + 2) / 153 = mp
  date_day : doy - (153 * mp + 2) / 5 + 1 = date.day
  date_month : date.month = if mp < 10 then mp + 3 else mp - 9
  date_year : date.year = if date.month ≤ 2 then yoe + era * 400 + 1 else yoe + era * 400

theorem stages (date : Date) (past : 0 ≤ days) (counted : date.ordinal = days + 719468) :
    ∃ era doe yoe doy mp, Stages days date era doe yoe doy mp := by
  have places := date.fromMarch_bounds
  have one := date.one
  have inMonth := date.day_lt
  have inYear := date.ordinal_lt
  have month := date.month_eq
  have year := date.year_eq
  rw [Date.ordinal] at counted inYear
  generalize fromMarch date.month = mp at *
  generalize date.marchYear = march at *
  obtain ⟨era, yoe, split, first, last⟩ : ∃ era yoe : Int, march = yoe + era * 400 ∧
      0 ≤ yoe ∧ yoe ≤ 399 := ⟨march / 400, march % 400, by omega, by omega, by omega⟩
  have start : yearStart march = era * 146097 + yearStart yoe := by
    simp only [yearStart]
    omega
  have next : yearStart (march + 1) = era * 146097 + yearStart (yoe + 1) := by
    simp only [yearStart]
    omega
  have months : 0 ≤ monthStart mp := by
    rw [monthStart]
    omega
  obtain ⟨doy, doy_eq⟩ : ∃ doy, doy = monthStart mp + (date.day - 1) := ⟨_, rfl⟩
  have late : yearStart yoe + doy < yearStart (yoe + 1) := by omega
  have cycle : 0 ≤ yearStart yoe ∧ yearStart (yoe + 1) ≤ 146097 ∧
      yearStart (yoe + 1) ≤ yearStart yoe + 366 := by
    simp only [yearStart]
    omega
  refine ⟨era, yearStart yoe + doy, yoe, doy, mp, ?_⟩
  constructor
  · omega
  · omega
  · exact ⟨first, last⟩
  · omega
  · exact places
  · omega
  · exact yoe_eq first last (by omega) late rfl
  · rw [yearStart]
    omega
  · exact mp_eq places.1 places.2 (by omega) (by omega) (by omega)
  · rw [doy_eq, monthStart]
    omega
  · exact month
  · rw [year, split]

theorem Stages.date_eq (s : Stages days date era doe yoe doy mp) (past : 0 ≤ days) :
    civilDateFromDays days = .ofDate date := by
  obtain ⟨era_nonneg, doe_bounds, yoe_bounds, doy_bounds, mp_bounds, counted, year, dayOfYear, month,
    date_day, date_month, date_year⟩ := s
  have cycle : (days + 719468) / 146097 = era := by omega
  have rest : days + 719468 - era * 146097 = doe := by omega
  simp (disch := omega) only [civilDateFromDays, if_pos, Int.tdiv_eq_ediv_of_nonneg, cycle, rest,
    year, dayOfYear, month, date_day, ← date_month, ← date_year]
  rfl

theorem leaps_fit (low : 0 ≤ doe) (high : doe ≤ 146096) : Fits (doe - doe / 1460) ∧
    Fits (doe - doe / 1460 + doe / 36524) ∧
    0 ≤ doe - doe / 1460 + doe / 36524 - doe / 146096 ∧
    Fits (doe - doe / 1460 + doe / 36524 - doe / 146096) := by
  simp only [Fits]
  omega

theorem yearDays_fit (low : 0 ≤ yoe) (high : yoe ≤ 399) : Fits (365 * yoe) ∧
    Fits (365 * yoe + yoe / 4) ∧ Fits (365 * yoe + yoe / 4 - yoe / 100) := by
  simp only [Fits]
  omega

theorem month_fit (low : 0 ≤ doy) (high : doy ≤ 365) (march : 0 ≤ mp) (february : mp ≤ 11) :
    Fits doy ∧ Fits (5 * doy) ∧ Fits (5 * doy + 2) ∧ Fits (153 * mp) ∧ Fits (153 * mp + 2) ∧
    Fits (doy - (153 * mp + 2) / 5) ∧ Fits (doy - (153 * mp + 2) / 5 + 1) := by
  simp only [Fits]
  omega

theorem cycle_fit (past : 0 ≤ days) (near : days < 2 ^ 62) (start : 0 ≤ era)
    (day : 0 ≤ doe) (inside : doe ≤ 146096) (first : 0 ≤ yoe) (last : yoe ≤ 399)
    (counted : days + 719468 = era * 146097 + doe) :
    Fits (days + 719468) ∧ Fits (era * 146097) ∧ Fits doe ∧ Fits (era * 400) ∧
    Fits (yoe + era * 400) ∧ Fits (yoe + era * 400 + 1) := by
  simp only [Fits]
  omega

theorem Stages.checked_eq (s : Stages days date era doe yoe doy mp) (past : 0 ≤ days)
    (near : days < 2 ^ 62) : civilDateFromDaysChecked days = some (.ofDate date) := by
  obtain ⟨start, ⟨day, inside⟩, ⟨first, last⟩, ⟨early, late⟩, ⟨march, february⟩, counted, year,
    dayOfYear, month, date_day, date_month, date_year⟩ := s
  obtain ⟨z_fits, cycles_fit, doe_fits, years_fit, y_fits, next_fits⟩ :=
    cycle_fit past near start day inside first last counted
  obtain ⟨dropped, added, positive, leaps⟩ := leaps_fit day inside
  obtain ⟨whole, fours, hundreds⟩ := yearDays_fit first last
  obtain ⟨doy_fits, fifths, rounded, monthDays, rounded', before, inMonth⟩ :=
    month_fit early late march february
  have z_pos : 0 ≤ days + 719468 := by omega
  have cycle : (days + 719468) / 146097 = era := by omega
  have rest : days + 719468 - era * 146097 = doe := by omega
  have month_fits : Fits (if mp < 10 then mp + 3 else mp - 9) := by
    rw [Fits]
    split <;> omega
  have year_fits : Fits (if date.month ≤ 2 then yoe + era * 400 + 1 else yoe + era * 400) := by
    split
    · exact next_fits
    · exact y_fits
  rw [civilDateFromDaysChecked]
  dsimp only
  rw [i64_bind z_fits, if_pos z_pos, i64_bind z_fits, Int.tdiv_eq_ediv_of_nonneg z_pos, cycle,
    i64_bind cycles_fit, rest, i64_bind doe_fits, Int.tdiv_eq_ediv_of_nonneg day, i64_bind dropped,
    Int.tdiv_eq_ediv_of_nonneg day, i64_bind added, Int.tdiv_eq_ediv_of_nonneg day, i64_bind leaps,
    Int.tdiv_eq_ediv_of_nonneg positive, year, i64_bind years_fit, i64_bind y_fits, i64_bind whole,
    Int.tdiv_eq_ediv_of_nonneg first, i64_bind fours, Int.tdiv_eq_ediv_of_nonneg first,
    i64_bind hundreds, dayOfYear, i64_bind doy_fits, i64_bind fifths, i64_bind rounded,
    Int.tdiv_eq_ediv_of_nonneg (by omega), month, i64_bind monthDays, i64_bind rounded',
    Int.tdiv_eq_ediv_of_nonneg (by omega), i64_bind before, i64_bind inMonth, i64_bind month_fits,
    ← date_month, i64_bind year_fits, ← date_year, date_day]
  rfl

/-- The first day of Unix time. -/
def epoch : Date := .newYear 1970

theorem ordinal_iterate (n : Nat) : (Date.next^[n] epoch).ordinal = n + 719468 := by
  induction n with
  | zero => rfl
  | succ n ih =>
    rw [Function.iterate_succ_apply', Date.ordinal_next, ih]
    omega

/-- The date of a day is the calendar's, as many days after the first one. -/
theorem civilDateFromDays_iterate (n : Nat) :
    civilDateFromDays n = .ofDate (Date.next^[n] epoch) := by
  obtain ⟨_, _, _, _, _, s⟩ := stages (Date.next^[n] epoch) (by omega) (ordinal_iterate n)
  exact s.date_eq (by omega)

theorem civilDateFromDaysChecked_iterate {n : Nat} (near : n < 2 ^ 62) :
    civilDateFromDaysChecked n = some (.ofDate (Date.next^[n] epoch)) := by
  obtain ⟨_, _, _, _, _, s⟩ := stages (Date.next^[n] epoch) (by omega) (ordinal_iterate n)
  exact s.checked_eq (by omega) (by omega)

/-- The day number a timestamp is made of, cast to a signed word. -/
def daysSinceEpoch (unixSecs : UInt64) : Int := (unixSecs / 86400).toInt64.toInt

theorem daysSinceEpoch_eq (unixSecs : UInt64) :
    daysSinceEpoch unixSecs = (unixSecs.toNat / 86400 : Nat) := by
  have small := unixSecs.toNat_lt
  have days : (unixSecs / 86400).toBitVec.toNat = unixSecs.toNat / 86400 := UInt64.toNat_div ..
  have signed : (unixSecs / 86400).toBitVec.toInt = (unixSecs / 86400).toBitVec.toNat :=
    BitVec.toInt_eq_toNat_of_lt (by omega)
  rw [← days, ← signed]
  rfl

/-- Day 0 is 1 January 1970; every day number of a timestamp gives a valid date
without overflow, and the next number gives the next day. -/
theorem civilDateFromDays_calendar (unixSecs : UInt64) :
    civilDateFromDays 0 = ⟨1970, 1, 1⟩ ∧
    civilDateFromDaysChecked (daysSinceEpoch unixSecs) =
      some (civilDateFromDays (daysSinceEpoch unixSecs)) ∧
    ∃ date : Date, civilDateFromDays (daysSinceEpoch unixSecs) = .ofDate date ∧
      civilDateFromDays (daysSinceEpoch unixSecs + 1) = .ofDate date.next := by
  rw [daysSinceEpoch_eq]
  generalize days_eq : unixSecs.toNat / 86400 = days
  have small := unixSecs.toNat_lt
  refine ⟨rfl, ?_, Date.next^[days] epoch, civilDateFromDays_iterate days, ?_⟩
  · rw [civilDateFromDays_iterate]
    exact civilDateFromDaysChecked_iterate (by omega)
  · rw [← Function.iterate_succ_apply' Date.next]
    exact civilDateFromDays_iterate (days + 1)

/-- The first second of the year 10000. -/
def year10000 : Nat := 2932897 * 86400

theorem civilDateFromDays_year10000 : civilDateFromDays 2932897 = ⟨10000, 1, 1⟩ := by
  decide

theorem year_bounds (before : n < 2932897) :
    0 ≤ (Date.next^[n] epoch).year ∧ (Date.next^[n] epoch).year < 10000 := by
  constructor
  · rcases Nat.eq_zero_or_pos n with rfl | positive
    · decide
    · have later := Date.before_iterate epoch positive
      have first : (Date.next^[0] epoch).year = 1970 := rfl
      rw [Date.Before, first] at later
      omega
  · have last := Date.before_iterate epoch before
    have date := (civilDateFromDays_iterate 2932897).symm.trans civilDateFromDays_year10000
    rw [CivilDate.ofDate, CivilDate.mk.injEq] at date
    obtain ⟨year, month, day⟩ := date
    have january := (Date.next^[n] epoch).january
    have one := (Date.next^[n] epoch).one
    rw [Date.Before, year, month, day] at last
    omega

/-- The number that the digits of a timestamp are. -/
def timestampValue (date : Date) (timeInDay : Nat) : Nat :=
  10 ^ 2 * (10 ^ 2 * (10 ^ 2 * (10 ^ 2 * (10 ^ 2 * date.year.toNat + date.month.toNat) +
    date.day.toNat) + timeInDay / 3600) + timeInDay % 3600 / 60) + timeInDay % 60

theorem timestampValue_lt_of_before (before : first.Before second) (past : 0 ≤ first.year)
    (inDay : time < 86400) : timestampValue first time < timestampValue second time' := by
  have := first.january
  have := first.december
  have := first.one
  have := first.day_le
  have := second.january
  have := second.one
  rw [Date.Before] at before
  have dates : 10 ^ 2 * (10 ^ 2 * first.year.toNat + first.month.toNat) + first.day.toNat <
      10 ^ 2 * (10 ^ 2 * second.year.toNat + second.month.toNat) + second.day.toNat := by
    rcases before with year | ⟨year, month | ⟨month, day⟩⟩ <;> omega
  have hours : time / 3600 < 24 := by omega
  have minutes : time % 3600 / 60 < 60 := by omega
  have seconds : time % 60 < 60 := by omega
  rw [timestampValue, timestampValue]
  omega

theorem timestampValue_lt_of_time (earlier : time < time') :
    timestampValue date time < timestampValue date time' := by
  rw [timestampValue, timestampValue]
  omega

/-- Fourteen digits. -/
def IsTimestamp (text : String) : Prop := text.toList.length = 14 ∧ ∀ c ∈ text.toList, c.isDigit

theorem timestampDigits_value (before : unixSecs < year10000) :
    (timestampDigits unixSecs).length = 14 ∧ (∀ c ∈ timestampDigits unixSecs, c.isDigit) ∧
    Nat.ofDigitChars 10 (timestampDigits unixSecs) 0 =
      timestampValue (Date.next^[unixSecs / 86400] epoch) (unixSecs % 86400) := by
  have years := year_bounds (n := unixSecs / 86400) (by rw [year10000] at before; omega)
  have date := civilDateFromDays_iterate (unixSecs / 86400)
  rw [Int.natCast_ediv] at date
  generalize Date.next^[unixSecs / 86400] epoch = d at *
  have january := d.january
  have december := d.december
  have one := d.one
  have last := d.day_le
  have digits : timestampDigits unixSecs = padded 4 d.year.toNat ++ padded 2 d.month.toNat ++
      padded 2 d.day.toNat ++ padded 2 (unixSecs % 86400 / 3600) ++
      padded 2 (unixSecs % 86400 % 3600 / 60) ++ padded 2 (unixSecs % 86400 % 60) := by
    rw [timestampDigits]
    simp only [show (unixSecs : Int) / 86400 = (unixSecs : Int) / (86400 : Nat) from rfl, date,
      CivilDate.ofDate]
    rw [signed_of_nonneg years.1, signed_of_nonneg (by omega), signed_of_nonneg (by omega)]
  have year : d.year.toNat < 10 ^ 4 := by omega
  have month : d.month.toNat < 10 ^ 2 := by omega
  have day : d.day.toNat < 10 ^ 2 := by omega
  have hours : unixSecs % 86400 / 3600 < 10 ^ 2 := by omega
  have minutes : unixSecs % 86400 % 3600 / 60 < 10 ^ 2 := by omega
  have seconds : unixSecs % 86400 % 60 < 10 ^ 2 := by omega
  have two : 0 < 2 := by decide
  rw [digits]
  refine ⟨?_, ?_, ?_⟩
  · simp only [List.length_append, padded_length two month, padded_length two day,
      padded_length two hours, padded_length two minutes, padded_length two seconds,
      padded_length (show 0 < 4 by decide) year]
  · simp only [List.mem_append]
    rintro c (((((member | member) | member) | member) | member) | member) <;>
      exact isDigit_of_mem_padded member
  · rw [ofDigitChars_append_padded two seconds, ofDigitChars_append_padded two minutes,
      ofDigitChars_append_padded two hours, ofDigitChars_append_padded two day,
      ofDigitChars_append_padded two month, ofDigitChars_padded]
    rfl

/-- Up to the year 10000 timestamps are texts of fourteen digits in the order of
time, so no two times share one. -/
theorem formatTimestamp_order {s t : Nat} (earlier : s < t) (before : t < year10000) :
    IsTimestamp (formatTimestamp s) ∧ IsTimestamp (formatTimestamp t) ∧
    List.Lex (· < ·) (formatTimestamp s).toList (formatTimestamp t).toList ∧
    formatTimestamp s ≠ formatTimestamp t := by
  obtain ⟨length, digits, value⟩ := timestampDigits_value (earlier.trans before)
  obtain ⟨length', digits', value'⟩ := timestampDigits_value before
  have less : timestampValue (Date.next^[s / 86400] epoch) (s % 86400) <
      timestampValue (Date.next^[t / 86400] epoch) (t % 86400) := by
    rcases Nat.lt_or_ge (s / 86400) (t / 86400) with days | days
    · apply timestampValue_lt_of_before (Date.before_iterate epoch days)
      · exact (year_bounds (by rw [year10000] at before; omega)).1
      · exact Nat.mod_lt _ (by decide)
    · have same : s / 86400 = t / 86400 := by omega
      rw [same]
      exact timestampValue_lt_of_time (by omega)
  rw [← value, ← value'] at less
  simp only [IsTimestamp, formatTimestamp, String.toList_ofList]
  refine ⟨⟨length, digits⟩, ⟨length', digits'⟩, ?_, ?_⟩
  · exact lex_of_ofDigitChars_lt (length.trans length'.symm) digits digits' less
  · intro same
    rw [String.ofList_inj.mp same] at less
    exact absurd less (Nat.lt_irrefl _)

theorem formatTimestamp_order_newYear : IsTimestamp "19701231235959" ∧
    IsTimestamp "19710101000000" ∧ List.Lex (· < ·) "19701231235959".toList "19710101000000".toList ∧
    "19701231235959" ≠ "19710101000000" :=
  formatTimestamp_order (s := 31535999) (t := 31536000) (by decide) (by decide)

end LanLink.Version
