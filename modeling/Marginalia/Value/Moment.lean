/-
Dates and moments.

A date is a day of the calendar that is in use today, carried back to the
year one; a moment is a date with a time of day and perhaps the zone it is
told in. Both are checked when they are made, and the check says which part
is wrong.
-/
namespace Marginalia

/-- A day of the calendar. -/
structure Date where
  year : Nat
  month : Nat
  day : Nat
  deriving DecidableEq, Repr, Inhabited

/-- A time of day on a date. -/
structure Moment where
  date : Date
  hour : Nat
  minute : Nat
  second : Nat
  micro : Nat := 0
  /-- How many minutes the zone is ahead. -/
  zone : Option Int := none
  deriving DecidableEq, Repr, Inhabited

/-- Which part of a date or moment is out of range. -/
inductive MomentError where
  | year (given : Nat)
  | month
  | day
  | hour
  | minute
  | second
  | zone (minutes : Int)
  deriving DecidableEq, Repr

-- ========================================================== calendar

/-- Whether February has a day more in the year. -/
def isLeapYear (year : Nat) : Bool :=
  year % 4 == 0 && (year % 100 != 0 || year % 400 == 0)

/-- The number of days of a month. -/
def daysInMonth (year month : Nat) : Nat :=
  if month == 2 then (if isLeapYear year then 29 else 28)
  else if [4, 6, 9, 11].contains month then 30
  else 31

/-- The date of the given numbers, if there is such a day. -/
def Date.make (year month day : Nat) : Except MomentError Date :=
  if year < 1 || 9999 < year then .error (.year year)
  else if month < 1 || 12 < month then .error .month
  else if day < 1 || daysInMonth year month < day then .error .day
  else .ok ⟨year, month, day⟩

/-- The number of days before a month in its year. -/
def daysBeforeMonth (year month : Nat) : Nat :=
  (List.range month).foldl
    (fun n m => if m == 0 then n else n + daysInMonth year m) 0

/-- The number of days from the last day before the year one. -/
def Date.number (date : Date) : Nat :=
  let y := date.year - 1
  365 * y + y / 4 - y / 100 + y / 400 + daysBeforeMonth date.year date.month
    + date.day

/-- The minutes of a day, which no zone is ahead or behind by. -/
def minutesOfDay : Int := 1440

/-- The moment of the given numbers, if there is such a time. -/
def Moment.make (year month day hour minute second micro : Nat)
    (zone : Option Int) : Except MomentError Moment := do
  match zone with
  | some minutes =>
    if minutes ≤ -minutesOfDay || minutesOfDay ≤ minutes then
      throw (.zone minutes)
  | none => pure ()
  let date ← Date.make year month day
  if 23 < hour then throw .hour
  if 59 < minute then throw .minute
  if 59 < second then throw .second
  return { date, hour, minute, second, micro, zone }

/-- Whether two moments are the same: of two in zones, whether they are at the
same time; one in a zone and one in none never are. -/
def Moment.same (a b : Moment) : Bool :=
  let minutes (m : Moment) (zone : Int) : Int :=
    m.date.number * minutesOfDay + m.hour * 60 + m.minute - zone
  match a.zone, b.zone with
  | none, none => a == b
  | some x, some y =>
    minutes a x == minutes b y && a.second == b.second && a.micro == b.micro
  | _, _ => false

-- ============================================================== text

/-- A number of at least the given number of digits. -/
def paddedNumber (digits n : Nat) : String :=
  let text := toString n
  String.ofList (List.replicate (digits - text.length) '0') ++ text

/-- A date in digits, the year first. -/
def Date.text (date : Date) : String :=
  paddedNumber 4 date.year ++ "-" ++ paddedNumber 2 date.month ++ "-"
    ++ paddedNumber 2 date.day

/-- How far a zone is ahead, in hours and minutes. -/
def zoneText (minutes : Int) : String :=
  (if minutes < 0 then "-" else "+")
    ++ paddedNumber 2 (minutes.natAbs / 60) ++ ":"
    ++ paddedNumber 2 (minutes.natAbs % 60)

/-- A moment in digits, a space between the date and the time of day. -/
def Moment.text (moment : Moment) : String :=
  moment.date.text ++ " " ++ paddedNumber 2 moment.hour ++ ":"
    ++ paddedNumber 2 moment.minute ++ ":" ++ paddedNumber 2 moment.second
    ++ (if moment.micro == 0 then "" else "." ++ paddedNumber 6 moment.micro)
    ++ (moment.zone.map zoneText).getD ""

/-- A call of the given name on numbers. -/
def callText (name : String) (arguments : List String) : String :=
  name ++ "(" ++ ", ".intercalate arguments ++ ")"

/-- The numbers of a date as messages show them. -/
def Date.numbers (date : Date) : List String :=
  [toString date.year, toString date.month, toString date.day]

/-- A date as messages show it. -/
def Date.shown (date : Date) : String := callText "datetime.date" date.numbers

/-- A span of minutes as messages show it: whole days, which may be negative,
and the seconds beyond them. -/
def minutesShown (minutes : Int) : String :=
  let days := Int.fdiv minutes minutesOfDay
  let seconds := Int.fmod minutes minutesOfDay * 60
  let parts :=
    (if days == 0 then [] else ["days=" ++ toString days])
      ++ (if seconds == 0 then [] else ["seconds=" ++ toString seconds])
  callText "datetime.timedelta" (if parts.isEmpty then ["0"] else parts)

/-- A zone as messages show it. -/
def zoneShown (minutes : Int) : String :=
  if minutes == 0 then "datetime.timezone.utc"
  else callText "datetime.timezone" [minutesShown minutes]

/-- A moment as messages show it: without trailing parts that are zero. -/
def Moment.shown (moment : Moment) : String :=
  let fine :=
    if moment.micro != 0 then [toString moment.second, toString moment.micro]
    else if moment.second != 0 then [toString moment.second]
    else []
  let zone :=
    (moment.zone.map fun minutes => "tzinfo=" ++ zoneShown minutes).toList
  callText "datetime.datetime"
    (moment.date.numbers ++ [toString moment.hour, toString moment.minute]
      ++ fine ++ zone)

/-- What is said of a part that is out of range. -/
def MomentError.message : MomentError → String
  | year given => "year " ++ toString given ++ " is out of range"
  | month => "month must be in 1..12"
  | day => "day is out of range for month"
  | hour => "hour must be in 0..23"
  | minute => "minute must be in 0..59"
  | second => "second must be in 0..59"
  | zone minutes =>
    "offset must be a timedelta strictly between -timedelta(hours=24) and "
      ++ "timedelta(hours=24), not " ++ minutesShown minutes ++ "."

end Marginalia
