import Mathlib.Data.Rat.Init
import Ironclaw.Lib.Gregorian
import Ironclaw.Lib.Numbers

/-!
# Budget periods

A period decides when the ledger of an account starts anew.  The floating-point numbers
of the thresholds and the time-zone database are parameters of the model: nothing below
depends on how a quotient is rounded or on which zones there are.
-/

namespace Ironclaw.Resources

open Lib Gregorian
open Gregorian (monthOfDay monthStart)

/-- An instant, in nanoseconds since the epoch. -/
abbrev DateTime := Int

/-- A calendar date, in days since the epoch. -/
abbrev NaiveDate := Int

/-- The libraries that the governor computes with. -/
class Platform where
  /-- Binary64 numbers. -/
  F64 : Type
  one : F64
  lt : F64 → F64 → Bool
  ge : F64 → F64 → Bool
  div : F64 → F64 → F64
  ofU64 : Nat → F64
  decimalToF64 : Decimal → F64
  /-- What a decoder reads for a number an encoder wrote as JSON: a number that is not
  finite is written as `null`, which is not read as a number. -/
  viaJson : F64 → Option F64
  /-- The names of the time zones. -/
  Tz : Type
  decidableEqTz : DecidableEq Tz
  /-- The date that the clocks of a zone show. -/
  localDate : Tz → DateTime → NaiveDate
  /-- The first instant at which the clocks of a zone show midnight of a date; there is
  none when they are moved forward over it. -/
  earliestMidnight : Tz → NaiveDate → Option DateTime

namespace DateTime

def hours (count : Int) : Int := count * (3600 * 1000000000)

def days (count : Int) : Int := hours (24 * count)

def maxUtc : DateTime := 8210266876799999999999

end DateTime

inductive PeriodUnit where
  | day
  | week
  | month
  deriving DecidableEq

namespace NaiveDate

def year (date : NaiveDate) : Int := monthOfDay date / 12

def month (date : NaiveDate) : Int := monthOfDay date % 12 + 1

/-- `NaiveDate::from_ymd_opt` for the first day of a month. -/
def firstOfMonth (year month : Int) : NaiveDate := monthStart (12 * year + month - 1)

end NaiveDate

open NaiveDate (firstOfMonth year)

/-- The first date of the unit around a date and the first date behind it. -/
def PeriodUnit.dates (unit : PeriodUnit) (date : NaiveDate) : NaiveDate × NaiveDate :=
  match unit with
  | .day => (date, date + 1)
  | .week =>
    let weekStart := date - daysFromMonday date
    (weekStart, weekStart + 7)
  | .month =>
    let monthStart := firstOfMonth (year date) (NaiveDate.month date)
    let nextMonth :=
      if NaiveDate.month date = 12 then firstOfMonth (year date + 1) 1
      else firstOfMonth (year date) (NaiveDate.month date + 1)
    (monthStart, nextMonth)

theorem PeriodUnit.tiles_dates (unit : PeriodUnit) : Tiles unit.dates := by
  cases unit with
  | day => exact tiles_days
  | week => exact tiles_weeks
  | month =>
    have sameMonths : PeriodUnit.month.dates = fun date =>
        (monthStart (monthOfDay date), monthStart (monthOfDay date + 1)) := by
      funext date
      simp only [dates, firstOfMonth, year, NaiveDate.month]
      refine Prod.ext (congrArg monthStart (by omega)) ?_
      by_cases december : monthOfDay date % 12 + 1 = 12
      · exact (if_pos december).trans (congrArg monthStart (by omega))
      · exact (if_neg december).trans (congrArg monthStart (by omega))
    rw [sameMonths]
    exact tiles_months

open DateTime (days hours maxUtc)

section

variable [platform : Platform]

instance : DecidableEq platform.Tz := platform.decidableEqTz

inductive BudgetPeriod where
  | perInvocation
  | rolling24h
  | calendar (tz : platform.Tz) (unit : PeriodUnit)
  deriving DecidableEq

def calendarBounds (tz : platform.Tz) (unit : PeriodUnit) (now : DateTime) : DateTime × DateTime :=
  let (startDate, endDate) := unit.dates (platform.localDate tz now)
  ((platform.earliestMidnight tz startDate).getD now,
    (platform.earliestMidnight tz endDate).getD (now + days 1))

/-- The window around `now`; the period rolls over at its end. -/
def periodBounds (period : BudgetPeriod) (now : DateTime) : DateTime × DateTime :=
  match period with
  | .perInvocation => (now, maxUtc)
  | .rolling24h => (now, now + hours 24)
  | .calendar tz unit => calendarBounds tz unit now

def periodHasRolledOver (currentEnd now : DateTime) : Bool := decide (now ≥ currentEnd)

/-! ## Regular zones -/

/-- The clocks of a zone show midnight of every date, and show a date or a later one exactly
from that midnight on. -/
def RegularZone (tz : platform.Tz) : Prop :=
  ∃ midnight : NaiveDate → DateTime,
    (∀ date, platform.earliestMidnight tz date = some (midnight date)) ∧
      ∀ date now, midnight date ≤ now ↔ date ≤ platform.localDate tz now

theorem tiles_calendarBounds {tz : platform.Tz} (regular : RegularZone tz) (unit : PeriodUnit) :
    Tiles (calendarBounds tz unit) := by
  obtain ⟨midnight, present, marks⟩ := regular
  exact tiles_carried unit.tiles_dates fun now => ⟨⟨_, present _, marks _⟩, ⟨_, present _, marks _⟩⟩

/-- In a zone whose clocks show a date at what is given as its midnight, the windows of a
calendar unit tile the time line exactly if the clocks show midnight of the first date of
each window and of the one behind it, and that date or a later one exactly from it on. -/
theorem tiles_calendar_iff {tz : platform.Tz} (unit : PeriodUnit)
    (shown : ∀ date midnight, platform.earliestMidnight tz date = some midnight →
      platform.localDate tz midnight = date) :
    Tiles (periodBounds (.calendar tz unit)) ↔ ∀ now,
      let dates := unit.dates (platform.localDate tz now)
      MarkedAt (platform.localDate tz) (platform.earliestMidnight tz) dates.1 ∧
        MarkedAt (platform.localDate tz) (platform.earliestMidnight tz) dates.2 :=
  tiles_carried_iff unit.tiles_dates shown (by decide)

namespace BudgetPeriod

/-- The zone of a calendar period is regular. -/
def Regular : BudgetPeriod → Prop
  | .calendar tz _ => RegularZone tz
  | _ => True

/-- The start of the window that ends at an instant. -/
def windowStart (period : BudgetPeriod) (windowEnd : DateTime) : DateTime :=
  match period with
  | .perInvocation => windowEnd
  | .rolling24h => windowEnd - hours 24
  | .calendar tz unit => (calendarBounds tz unit (windowEnd - 1)).1

variable {period : BudgetPeriod}

theorem start_le (regular : period.Regular) (now : DateTime) :
    (periodBounds period now).1 ≤ now := by
  cases period with
  | perInvocation | rolling24h => exact le_refl now
  | calendar _ unit => exact (tiles_calendarBounds regular unit).start_le now

variable (periodic : period ≠ .perInvocation)
include periodic

theorem lt_end (regular : period.Regular) (now : DateTime) : now < (periodBounds period now).2 := by
  cases period with
  | perInvocation => exact absurd rfl periodic
  | rolling24h => exact Int.lt_add_of_pos_right now (by decide)
  | calendar _ unit => exact (tiles_calendarBounds regular unit).lt_end now

/-- A window that is opened once another has ended starts at that end or later. -/
theorem end_le_start (regular : period.Regular) {opened now : DateTime}
    (ended : (periodBounds period opened).2 ≤ now) :
    (periodBounds period opened).2 ≤ (periodBounds period now).1 := by
  cases period with
  | perInvocation => exact absurd rfl periodic
  | rolling24h => exact ended
  | calendar _ unit => exact (tiles_calendarBounds regular unit).end_le_start ended

theorem windowStart_end (regular : period.Regular) (opened : DateTime) :
    period.windowStart (periodBounds period opened).2 = (periodBounds period opened).1 := by
  cases period with
  | perInvocation => exact absurd rfl periodic
  | rolling24h => exact Int.add_sub_cancel opened _
  | calendar _ unit =>
    have tiles := tiles_calendarBounds regular unit
    have starts := tiles.start_le opened
    have ends := tiles.lt_end opened
    exact congrArg Prod.fst
      (tiles.same (Int.le_sub_one_of_lt (starts.trans_lt ends)) (Int.sub_one_lt_of_le le_rfl))

end BudgetPeriod

/-! ## Thresholds -/

structure BudgetThresholds where
  warnAt : platform.F64
  pauseAt : platform.F64

namespace BudgetThresholds

def disabled : BudgetThresholds := ⟨platform.one, platform.one⟩

end BudgetThresholds

end

/-! ## An exact platform -/

/-- A rational number or an infinite one. -/
inductive ExactF64 where
  | finite (value : ℚ)
  | infinite

/-- Thresholds are compared exactly, and all clocks show universal time. -/
abbrev Platform.exactUtc : Platform where
  F64 := ExactF64
  one := .finite 1
  lt first second :=
    match first, second with
    | .finite first, .finite second => decide (first < second)
    | .finite _, .infinite => true
    | .infinite, _ => false
  ge first second :=
    match first, second with
    | .finite first, .finite second => decide (first ≥ second)
    | .finite _, .infinite => false
    | .infinite, _ => true
  div first second :=
    match first, second with
    | .finite first, .finite second => .finite (first / second)
    | .finite _, .infinite => .finite 0
    | .infinite, _ => .infinite
  ofU64 count := .finite count
  decimalToF64 value := .finite (value.units / 10 ^ Decimal.maxScale)
  viaJson number :=
    match number with
    | .finite value => some (.finite value)
    | .infinite => none
  Tz := Unit
  decidableEqTz := inferInstance
  localDate _ now := now / days 1
  earliestMidnight _ date := some (date * days 1)

/-- The zone of `Platform.exactUtc` with clocks that are set forward by two hours an hour
before a midnight. -/
def skippingClock (now : DateTime) : Int := if now < -hours 1 then now else now + hours 2

abbrev Platform.skipping : Platform :=
  { Platform.exactUtc with
    localDate := fun _ now => skippingClock now / days 1
    earliestMidnight := fun _ date =>
      if date = 0 then none
      else some (date * days 1 - if date < 0 then 0 else hours 2) }

section

local instance : Platform := .exactUtc

theorem utc_days_tile : Tiles (periodBounds (.calendar () .day)) := by
  refine (tiles_calendar_iff .day ?_).mpr fun now =>
    ⟨⟨_, rfl, fun other => ?_⟩, ⟨_, rfl, fun other => ?_⟩⟩
  · rintro date _ ⟨⟩
    exact Int.mul_ediv_cancel date (by decide)
  · exact (Int.le_ediv_iff_mul_le (by decide)).symm
  · exact (Int.le_ediv_iff_mul_le (by decide)).symm

end

section

local instance : Platform := .skipping

/-- On the day without a midnight the window starts at the instant that is asked about. -/
theorem skipped_midnight_moves_window :
    (∀ date midnight, Platform.earliestMidnight () date = some midnight ↔
      skippingClock midnight = date * DateTime.days 1) ∧
      ¬ Tiles (periodBounds (.calendar () .day)) := by
  constructor
  · rintro (date : Int) (midnight : Int)
    change (if date = 0 then none
      else some (date * days 1 - if date < 0 then 0 else hours 2)) = _ ↔ _
    unfold skippingClock days hours
    by_cases skipped : date = 0 <;> by_cases past : date < 0 <;>
      by_cases early : midnight < -(1 * (3600 * 1000000000)) <;>
      simp only [skipped, past, early, if_true, if_false, Option.some.injEq, reduceCtorEq,
        false_iff] <;> omega
  · intro tiles
    have same : periodBounds (.calendar () .day) 1 = periodBounds (.calendar () .day) 0 :=
      tiles.same (by decide) (by decide)
    exact absurd (congrArg Prod.fst same) (by decide)

end

end Ironclaw.Resources
