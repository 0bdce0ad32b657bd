import Mathlib.Algebra.Order.Ring.Int
import Mathlib.Data.Int.ConditionallyCompleteOrder
import Mathlib.Order.SuccPred.IntervalSucc
import Ironclaw.Lib.Windows

/-!
# The Gregorian calendar

Days are counted from the first of January 1970 and months from the first month of the
year zero.  Years are counted from March while months are looked up, so that the leap
day is the last day of its year.
-/

namespace Ironclaw.Lib.Gregorian

/-- The days from the first of March of the year zero to the epoch. -/
def epochOffset : Int := 719468

/-- The days before the first of March of a year. -/
def daysBeforeYear (year : Int) : Int := 365 * year + year / 4 - year / 100 + year / 400

/-- The days before a month, counted from March. -/
def daysBeforeMonth (month : Int) : Int := (153 * month + 2) / 5

def monthStart (month : Int) : Int :=
  let fromMarch := month - 2
  daysBeforeYear (fromMarch / 12) + daysBeforeMonth (fromMarch % 12) - epochOffset

/-- The year, counted from March, that a day count falls in: the mean length of a year
gives it up to one. -/
def yearOfDays (days : Int) : Int :=
  let guess := 400 * days / 146097
  if days < daysBeforeYear guess then guess - 1
  else if daysBeforeYear (guess + 1) ≤ days then guess + 1
  else guess

def monthOfDay (day : Int) : Int :=
  let days := day + epochOffset
  let year := yearOfDays days
  12 * year + (5 * (days - daysBeforeYear year) + 2) / 153 + 2

theorem daysBeforeYear_lt_succ (year : Int) :
    daysBeforeYear year + 365 ≤ daysBeforeYear (year + 1) ∧
      daysBeforeYear (year + 1) ≤ daysBeforeYear year + 366 := by
  simp only [daysBeforeYear]
  omega

theorem yearOfDays_spec (days : Int) :
    daysBeforeYear (yearOfDays days) ≤ days ∧ days < daysBeforeYear (yearOfDays days + 1) := by
  have near : daysBeforeYear (400 * days / 146097 - 1) ≤ days ∧
      days < daysBeforeYear (400 * days / 146097 + 1 + 1) := by
    simp only [daysBeforeYear]
    omega
  unfold yearOfDays
  dsimp only
  split
  next below => exact ⟨near.1, by simpa using below⟩
  next above =>
    split
    · rename_i beyond
      exact ⟨beyond, near.2⟩
    · rename_i within
      exact ⟨not_lt.mp above, not_le.mp within⟩

theorem monthStart_of_year (year month : Int) (first : 0 ≤ month) (last : month < 12) :
    monthStart (12 * year + month + 2) =
      daysBeforeYear year + daysBeforeMonth month - epochOffset := by
  have march : (12 * year + month + 2 - 2) / 12 = year ∧
      (12 * year + month + 2 - 2) % 12 = month := by omega
  rw [monthStart, march.1, march.2]

theorem monthOfDay_spec (day : Int) :
    monthStart (monthOfDay day) ≤ day ∧ day < monthStart (monthOfDay day + 1) := by
  have inYear := yearOfDays_spec (day + epochOffset)
  have lengths := daysBeforeYear_lt_succ (yearOfDays (day + epochOffset))
  unfold monthOfDay
  dsimp only
  generalize yearOfDays (day + epochOffset) = year at inYear lengths ⊢
  generalize inMonth : (5 * (day + epochOffset - daysBeforeYear year) + 2) / 153 = month
  have range : 0 ≤ month ∧ month < 12 := by omega
  have first := monthStart_of_year year month range.1 range.2
  refine ⟨by rw [first, daysBeforeMonth]; omega, ?_⟩
  by_cases last : month = 11
  · have next := monthStart_of_year (year + 1) 0 (by decide) (by decide)
    rw [show 12 * year + month + 2 + 1 = 12 * (year + 1) + 0 + 2 by omega, next, daysBeforeMonth]
    omega
  · have next := monthStart_of_year year (month + 1) (by omega) (by omega)
    rw [show 12 * year + month + 2 + 1 = 12 * year + (month + 1) + 2 by omega, next,
      daysBeforeMonth]
    omega

theorem monthStart_lt_succ (month : Int) : monthStart month < monthStart (month + 1) := by
  simp only [monthStart, daysBeforeYear, daysBeforeMonth]
  omega

theorem monthStart_strictMono : StrictMono monthStart :=
  strictMono_int_of_lt_succ monthStart_lt_succ

theorem tiles_months :
    Tiles fun day => (monthStart (monthOfDay day), monthStart (monthOfDay day + 1)) where
  start_le day := (monthOfDay_spec day).1
  lt_end day := (monthOfDay_spec day).2
  same := by
    intro day other starts ends
    have spec := monthOfDay_spec other
    have below := monthStart_strictMono.lt_iff_lt.mp (starts.trans_lt spec.2)
    have above := monthStart_strictMono.lt_iff_lt.mp (spec.1.trans_lt ends)
    have sameMonth : monthOfDay other = monthOfDay day := by omega
    rw [sameMonth]

/-- The days of the week before a day, counted from Monday. -/
def daysFromMonday (day : Int) : Int := (day + 3) % 7

theorem tiles_weeks : Tiles fun day =>
    (day - daysFromMonday day, day - daysFromMonday day + 7) where
  start_le day := by
    simp only [daysFromMonday]
    omega
  lt_end day := by
    simp only [daysFromMonday]
    omega
  same := by
    intro day other starts ends
    simp only [daysFromMonday] at starts ends
    have sameMonday : other - daysFromMonday other = day - daysFromMonday day := by
      simp only [daysFromMonday]
      omega
    rw [sameMonday]

theorem tiles_days : Tiles fun day : Int => (day, day + 1) where
  start_le day := le_refl day
  lt_end day := by omega
  same := by
    intro day other _ _
    rw [show other = day by omega]

end Ironclaw.Lib.Gregorian
