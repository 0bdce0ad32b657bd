import Ironclaw.HostApi.Mount

/-!
# Trigger schedules

A trigger fires once at an instant or whenever a cron expression says.  The cron and
time-zone libraries are parameters of the model; the checks around them are the code's.
-/

namespace Ironclaw.Triggers

open HostApi

/-- An instant, in nanoseconds since the epoch. -/
abbrev Timestamp := Int

inductive TriggerRecordValidationKind where
  | nameEmpty
  | nameTooLong
  | promptEmpty
  | promptTooLong
  | other

inductive TriggerScheduleValidationKind where
  | invalidTimezone
  | emptyCronExpression
  | invalidCronFieldCount
  | invalidCronExpression
  | secondLevelCadence
  | noUpcomingFireTime
  | subMinuteCadence

inductive TriggerError where
  | invalidRecord (kind : TriggerRecordValidationKind) (reason : String)
  | invalidSchedule (kind : TriggerScheduleValidationKind) (reason : String)

/-! ## Texts -/

/-- `char::is_whitespace`, the Unicode property `White_Space`. -/
def isWhitespace (letter : Char) : Bool :=
  let code := letter.toNat
  (9 ≤ code && code ≤ 13) || code == 32 || code == 0x85 || code == 0xA0 || code == 0x1680 ||
    (0x2000 ≤ code && code ≤ 0x200A) || code == 0x2028 || code == 0x2029 || code == 0x202F ||
    code == 0x205F || code == 0x3000

def trim (text : Text) : Text :=
  ((text.dropWhile isWhitespace).reverse.dropWhile isWhitespace).reverse

def splitWhitespace (text : Text) : List Text := (text.splitOnP isWhitespace).filter (· ≠ [])

/-- `parse::<u32>() == Ok(0)`. -/
def parsesAsZero (field : Text) : Bool :=
  let digits := match field with
    | '+' :: rest => rest
    | digits => digits
  !digits.isEmpty && digits.all (· == '0')

/-! ## The libraries -/

/-- What the `cron` and `chrono_tz` crates provide. -/
structure ScheduleLibrary where
  Tz : Type
  Schedule : Type
  /-- `str::parse::<Tz>`. -/
  parseTz : Text → Option Tz
  /-- `Schedule::from_str`, with the text of its error. -/
  fromStr : Text → Except String Schedule
  /-- The first fire times after an instant, in UTC. -/
  upcoming : Schedule → Timestamp → List Timestamp
  /-- The first fire time after an instant, on the clocks of a time zone. -/
  nextAfter : Schedule → Tz → Timestamp → Option Timestamp

/-- The next fire time is after the instant it is asked for. -/
def ScheduleLibrary.StrictlyAfter (library : ScheduleLibrary) : Prop :=
  ∀ schedule tz instant next, library.nextAfter schedule tz instant = some next → instant < next

inductive TriggerSchedule where
  | cron (expression timezone : Text)
  | once (fireAt : Timestamp) (timezone : Text)

section

variable (library : ScheduleLibrary)

def parseTimezone (timezone : Text) : Except TriggerError library.Tz :=
  match library.parseTz timezone with
  | some tz => .ok tz
  | none => .error (.invalidSchedule .invalidTimezone
      ("invalid timezone '" ++ String.ofList timezone ++
        "': must be a valid IANA timezone name (e.g. 'America/New_York', 'UTC')"))

def rejectSubMinuteSecondsField (field : Text) : Except TriggerError Unit :=
  if parsesAsZero (trim field) then .ok ()
  else .error (.invalidSchedule .secondLevelCadence
    "cron schedules must not use second-level cadence; use second field `0`")

/-- The seven-field expression the cron library reads. -/
def normalizeCronExpression (expression : Text) : Except TriggerError Text :=
  let trimmed := trim expression
  if trimmed.isEmpty then
    .error (.invalidSchedule .emptyCronExpression "cron expression must not be empty")
  else
    let fields := splitWhitespace trimmed
    let joined := [' '].intercalate fields
    match fields with
    | [_, _, _, _, _] => .ok ("0 ".toList ++ joined ++ " *".toList)
    | [seconds, _, _, _, _, _] => do
        rejectSubMinuteSecondsField seconds
        return joined ++ " *".toList
    | [seconds, _, _, _, _, _, _] => do
        rejectSubMinuteSecondsField seconds
        return trimmed
    | _ => .error (.invalidSchedule .invalidCronFieldCount
        ("expected 5, 6, or 7 cron fields, got " ++ toString fields.length))

def minFireCadence : Int := 60

def nanosPerSecond : Int := 1000000000

variable {library} in
/-- `clock` is the time the upcoming fires are counted from. -/
def rejectSubMinuteCadence (clock : Timestamp) (schedule : library.Schedule) :
    Except TriggerError Unit :=
  match library.upcoming schedule clock with
  | [] => .error (.invalidSchedule .noUpcomingFireTime "cron expression has no upcoming fire time")
  | [_] => .ok ()
  | first :: second :: _ =>
    if (second - first).tdiv nanosPerSecond < minFireCadence then
      .error (.invalidSchedule .subMinuteCadence
        "schedule can fire more frequently than once per minute")
    else .ok ()

def parseCronSchedule (clock : Timestamp) (expression : Text) :
    Except TriggerError library.Schedule := do
  let normalized ← normalizeCronExpression expression
  match library.fromStr normalized with
  | .error error => .error (.invalidSchedule .invalidCronExpression
      ("invalid cron expression: " ++ error))
  | .ok schedule => do
      rejectSubMinuteCadence clock schedule
      return schedule

namespace TriggerSchedule

def validate (clock : Timestamp) : TriggerSchedule → Except TriggerError Unit
  | .cron expression timezone => do
      let _ ← parseTimezone library timezone
      let _ ← parseCronSchedule library clock expression
      return ()
  | .once _ timezone => do
      let _ ← parseTimezone library timezone
      return ()

def nextSlotAfter (clock : Timestamp) (schedule : TriggerSchedule) (after : Timestamp) :
    Except TriggerError (Option Timestamp) :=
  match schedule with
  | .cron expression timezone => do
      let tz ← parseTimezone library timezone
      let parsed ← parseCronSchedule library clock expression
      return library.nextAfter parsed tz after
  | .once fireAt _ => .ok (if after < fireAt then some fireAt else none)

variable {library} in
theorem lt_of_nextSlotAfter (strict : library.StrictlyAfter) {clock : Timestamp}
    {schedule : TriggerSchedule} {after next : Timestamp}
    (slot : schedule.nextSlotAfter library clock after = .ok (some next)) : after < next := by
  cases schedule with
  | cron expression timezone =>
    rw [nextSlotAfter] at slot
    cases zone : parseTimezone library timezone with
    | error error =>
      rw [zone] at slot
      cases slot
    | ok tz =>
      cases parses : parseCronSchedule library clock expression with
      | error =>
        rw [zone, parses] at slot
        cases slot
      | ok parsed =>
        rw [zone, parses] at slot
        exact strict parsed tz after next (Except.ok.inj slot)
  | once =>
    have slot := Except.ok.inj slot
    split at slot
    next future => exact Option.some.inj slot ▸ future
    · cases slot

end TriggerSchedule

end

end Ironclaw.Triggers
