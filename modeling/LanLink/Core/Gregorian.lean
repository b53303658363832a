import Mathlib.Data.Int.Order.Lemmas
import Mathlib.Tactic.IntervalCases

/-! The Gregorian calendar. A date carries its validity, and the day after it
is given by the calendar rules alone. Days are counted from 1 March of the year
0, so that the day a leap year adds is the last one of its year. -/
namespace Gregorian

def Leap (year : Int) : Prop := 4 ∣ year ∧ (¬ 100 ∣ year ∨ 400 ∣ year)

instance : DecidablePred Leap := fun _ => inferInstanceAs (Decidable (_ ∧ _))

def monthLength (year month : Int) : Int :=
  if month = 2 then if Leap year then 29 else 28
  else if month = 4 ∨ month = 6 ∨ month = 9 ∨ month = 11 then 30
  else 31

theorem february_length (year : Int) :
    monthLength year 2 = 28 ∨ monthLength year 2 = 29 := by
  rw [monthLength, if_pos rfl]
  split
  · exact .inr rfl
  · exact .inl rfl

theorem monthLength_bounds (year month : Int) :
    1 ≤ monthLength year month ∧ monthLength year month ≤ 31 := by
  rw [monthLength]
  split
  · split <;> decide
  · split <;> decide

/-- The days before a year that starts in March. -/
def yearStart (year : Int) : Int := 365 * year + year / 4 - year / 100 + year / 400

/-- A month's place in such a year. -/
def fromMarch (month : Int) : Int := if month ≤ 2 then month + 9 else month - 3

/-- The days of such a year before the month at a place. -/
def monthStart (place : Int) : Int := (153 * place + 2) / 5

theorem yearStart_succ (year : Int) :
    yearStart (year + 1) = yearStart year + monthStart 11 + monthLength (year + 1) 2 := by
  have eleven : monthStart 11 = 337 := by decide
  rw [eleven, monthLength, if_pos rfl]
  by_cases leap : Leap (year + 1)
  · rw [if_pos leap]
    simp only [yearStart, Leap] at *
    omega
  · rw [if_neg leap]
    simp only [yearStart, Leap] at *
    omega

theorem monthStart_succ (year : Int) (low : 1 ≤ month) (high : month ≤ 12) (other : month ≠ 2) :
    monthStart (fromMarch month + 1) =
      monthStart (fromMarch month) + monthLength year month := by
  rw [monthLength, if_neg other]
  interval_cases month
  · decide
  · contradiction
  all_goals decide

structure Date where
  year : Int
  month : Int
  day : Int
  january : 1 ≤ month
  december : month ≤ 12
  one : 1 ≤ day
  last : day ≤ monthLength year month
  deriving DecidableEq

namespace Date

/-- The first day of a year. -/
def newYear (year : Int) : Date :=
  ⟨year, 1, 1, by decide, by decide, by decide, (monthLength_bounds ..).1⟩

/-- The day after. -/
def next (date : Date) : Date :=
  if within : date.day < monthLength date.year date.month then
    ⟨date.year, date.month, date.day + 1, date.january, date.december, by have := date.one; omega,
      within⟩
  else if same : date.month < 12 then
    ⟨date.year, date.month + 1, 1, by have := date.january; omega, same, by decide,
      (monthLength_bounds ..).1⟩
  else newYear (date.year + 1)

/-- The order of dates: by year, then by month, then by day. -/
def Before (first second : Date) : Prop :=
  first.year < second.year ∨ first.year = second.year ∧
    (first.month < second.month ∨ first.month = second.month ∧ first.day < second.day)

theorem Before.trans (left : Before a b) (right : Before b c) : Before a c := by
  simp only [Before] at *
  omega

theorem before_next (date : Date) : date.Before date.next := by
  rw [next]
  split
  · exact .inr ⟨rfl, .inr ⟨rfl, Int.lt_succ _⟩⟩
  · split
    · exact .inr ⟨rfl, .inl (Int.lt_succ _)⟩
    · exact .inl (Int.lt_succ _)

/-- Later days have later dates. -/
theorem before_iterate (date : Date) (less : m < n) : (next^[m] date).Before (next^[n] date) := by
  induction n with
  | zero => exact absurd less (Nat.not_lt_zero m)
  | succ n ih =>
    rw [Function.iterate_succ_apply']
    rcases Nat.lt_succ_iff_lt_or_eq.mp less with earlier | rfl
    · exact (ih earlier).trans (before_next _)
    · exact before_next _

/-- The year, counted from March. -/
def marchYear (date : Date) : Int := if date.month ≤ 2 then date.year - 1 else date.year

/-- Days since 1 March of the year 0. -/
def ordinal (date : Date) : Int :=
  yearStart date.marchYear + monthStart (fromMarch date.month) + (date.day - 1)

theorem day_le (date : Date) : date.day ≤ 31 :=
  date.last.trans (monthLength_bounds ..).2

theorem fromMarch_bounds (date : Date) : 0 ≤ fromMarch date.month ∧ fromMarch date.month ≤ 11 := by
  have := date.january
  have := date.december
  rw [fromMarch]
  split <;> omega

theorem month_eq (date : Date) : date.month =
    if fromMarch date.month < 10 then fromMarch date.month + 3 else fromMarch date.month - 9 := by
  have := date.january
  have := date.december
  simp only [fromMarch]
  split <;> split <;> omega

theorem year_eq (date : Date) :
    date.year = if date.month ≤ 2 then date.marchYear + 1 else date.marchYear := by
  rw [marchYear]
  split <;> omega

/-- A day lies in its month; only the last month of the year depends on the year. -/
theorem day_lt (date : Date) : fromMarch date.month < 11 →
    monthStart (fromMarch date.month) + (date.day - 1) < monthStart (fromMarch date.month + 1) := by
  intro early
  have last := date.last
  have other : date.month ≠ 2 := by
    intro february
    rw [february] at early
    exact absurd early (by decide)
  rw [monthStart_succ date.year date.january date.december other]
  omega

/-- A day lies in its year. -/
theorem ordinal_lt (date : Date) : date.ordinal < yearStart (date.marchYear + 1) := by
  have eleven : monthStart 11 = 337 := by decide
  have february := february_length (date.marchYear + 1)
  rw [ordinal, yearStart_succ, eleven]
  by_cases early : fromMarch date.month < 11
  · have inside := date.day_lt early
    have places : monthStart (fromMarch date.month + 1) ≤ 337 := by
      rw [monthStart]
      omega
    omega
  · have place : fromMarch date.month = 11 := by
      have := date.fromMarch_bounds
      omega
    have month : date.month = 2 := by
      rw [month_eq, place]
      rfl
    have year : date.marchYear + 1 = date.year := by
      rw [year_eq, month]
      rfl
    have last := date.last
    rw [month, ← year] at last
    rw [place, eleven]
    omega

/-- The first day of a month follows the last day of the month before. -/
theorem ordinal_month (date after : Date) (ends : date.day = monthLength date.year date.month)
    (year : after.year = date.year) (month : after.month = date.month + 1)
    (first : after.day = 1) : after.ordinal = date.ordinal + 1 := by
  have low := date.january
  have high := after.december
  rw [month] at high
  by_cases february : date.month = 2
  · have leap := yearStart_succ (date.year - 1)
    rw [Int.sub_add_cancel, ← february, ← ends] at leap
    have march : after.marchYear = date.year := by
      rw [marchYear, month, february, year]
      rfl
    have before : date.marchYear = date.year - 1 := by
      rw [marchYear, february]
      rfl
    rw [ordinal, ordinal, march, before, month, february, first, leap]
    show _ + monthStart 0 + _ = _ + monthStart 11 + _ + 1
    rw [show monthStart 0 = 0 by decide]
    omega
  · have months := monthStart_succ date.year low (by omega) february
    rw [← ends] at months
    have years : after.marchYear = date.marchYear := by
      simp only [marchYear, month, year]
      split <;> split <;> omega
    have place : fromMarch after.month = fromMarch date.month + 1 := by
      simp only [fromMarch, month]
      split <;> split <;> omega
    rw [ordinal, ordinal, years, place, months, first]
    omega

theorem ordinal_next (date : Date) : date.next.ordinal = date.ordinal + 1 := by
  rw [next]
  split
  · simp only [ordinal, marchYear]
    omega
  · rename_i ends
    have last : date.day = monthLength date.year date.month := by
      have := date.last
      omega
    split
    · exact ordinal_month date _ last rfl rfl rfl
    · have december : date.month = 12 := by
        have := date.december
        omega
      rw [december] at last
      have thirtyOne : date.day = 31 := last
      have january : (newYear (date.year + 1)).marchYear = date.year :=
        Int.add_sub_cancel date.year 1
      have before : date.marchYear = date.year := by
        rw [marchYear, december]
        rfl
      rw [ordinal, ordinal, january, before, december, thirtyOne]
      show _ + monthStart (fromMarch 1) + (1 - 1) = _
      rw [show monthStart (fromMarch 1) = 306 by decide,
        show monthStart (fromMarch 12) = 275 by decide]
      omega

end Date
end Gregorian
