/-! Days and moments of the calendar. A moment may be tied to a zone by the
minutes that its clock is ahead. -/

namespace Intcode

structure Day where
  year : Nat
  month : Nat
  day : Nat
deriving DecidableEq, Repr

structure Moment where
  day : Day
  hour : Nat
  minute : Nat
  second : Nat
  microsecond : Nat
  /-- The minutes that the clock is ahead of the common one, if they are known. -/
  ahead : Option Int
deriving DecidableEq, Repr

/-- Why numbers make no day or no moment. -/
inductive CalendarError where
  | year (year : Nat)
  | month
  | day
  | hour
  | minute
  | second
  | ahead (minutes : Int)
deriving DecidableEq, Repr

namespace Calendar

def isLeap (year : Nat) : Bool := year % 4 = 0 && (year % 100 ≠ 0 || year % 400 = 0)

def daysOf (year month : Nat) : Nat :=
  if month = 2 then (if isLeap year then 29 else 28)
  else if [4, 6, 9, 11].contains month then 30
  else 31

def maxYear : Nat := 9999

def minutesPerDay : Nat := 1440

def daysBeforeYear (year : Nat) : Nat :=
  let past := year - 1
  365 * past + past / 4 - past / 100 + past / 400

def padded (width number : Nat) : String :=
  let digits := toString number
  String.ofList (List.replicate (width - digits.length) '0') ++ digits

/-- A span of minutes as it is shown: whole days rounded down, and seconds. -/
def span (minutes : Int) : String :=
  let days := minutes.fdiv minutesPerDay
  let seconds := minutes.fmod minutesPerDay * 60
  let parts :=
    (if days = 0 then [] else ["days=" ++ toString days]) ++
      (if seconds = 0 then [] else ["seconds=" ++ toString seconds])
  "datetime.timedelta(" ++ (if parts.isEmpty then "0" else ", ".intercalate parts) ++ ")"

end Calendar

def CalendarError.message : CalendarError → String
  | year number => "year " ++ toString number ++ " is out of range"
  | month => "month must be in 1..12"
  | day => "day is out of range for month"
  | hour => "hour must be in 0..23"
  | minute => "minute must be in 0..59"
  | second => "second must be in 0..59"
  | ahead minutes =>
    "offset must be a timedelta strictly between -timedelta(hours=24) and " ++
      "timedelta(hours=24), not " ++ Calendar.span minutes ++ "."

namespace Day

def make (year month day : Nat) : Except CalendarError Day := do
  if year < 1 || Calendar.maxYear < year then throw (.year year)
  if month < 1 || 12 < month then throw .month
  if day < 1 || Calendar.daysOf year month < day then throw .day
  return { year, month, day }

def number (day : Day) : Nat :=
  (List.range (day.month - 1)).foldl
    (fun total month => total + Calendar.daysOf day.year (month + 1))
    (Calendar.daysBeforeYear day.year + day.day)

def text (day : Day) : String :=
  Calendar.padded 4 day.year ++ "-" ++ Calendar.padded 2 day.month ++ "-" ++
    Calendar.padded 2 day.day

def numbers (day : Day) : List Nat := [day.year, day.month, day.day]

def literal (day : Day) : String :=
  "datetime.date(" ++ ", ".intercalate (day.numbers.map toString) ++ ")"

end Day

namespace Moment

def checkAhead (minutes : Int) : Except CalendarError Unit :=
  if minutes.natAbs < Calendar.minutesPerDay then .ok () else .error (.ahead minutes)

/-- The moment with these numbers. Its zone is looked at first. -/
def make (year month day hour minute second microsecond : Nat) (ahead : Option Int) :
    Except CalendarError Moment := do
  if let some minutes := ahead then checkAhead minutes
  let day ← Day.make year month day
  if 23 < hour then throw .hour
  if 59 < minute then throw .minute
  if 59 < second then throw .second
  return { day, hour, minute, second, microsecond, ahead }

def clock (moment : Moment) : Int :=
  let hours := 24 * moment.day.number + moment.hour
  (((60 * hours + moment.minute) * 60 + moment.second) * 1000000 + moment.microsecond : Nat)

/-- The microseconds up to a moment by the common clock, or by its own if its zone
is unknown. -/
def instant (moment : Moment) : Int :=
  moment.clock - moment.ahead.getD 0 * 60000000

def zoneText (minutes : Int) : String :=
  (if minutes < 0 then "-" else "+") ++ Calendar.padded 2 (minutes.natAbs / 60) ++ ":" ++
    Calendar.padded 2 (minutes.natAbs % 60)

def text (moment : Moment) : String :=
  moment.day.text ++ " " ++
    ":".intercalate ([moment.hour, moment.minute, moment.second].map (Calendar.padded 2)) ++
    (if moment.microsecond = 0 then "" else "." ++ Calendar.padded 6 moment.microsecond) ++
    (moment.ahead.map zoneText).getD ""

def zoneLiteral (minutes : Int) : String :=
  if minutes = 0 then "datetime.timezone.utc"
  else "datetime.timezone(" ++ Calendar.span minutes ++ ")"

/-- A moment as it stands inside another value. Seconds and smaller parts are left
out if they are zero. -/
def literal (moment : Moment) : String :=
  let seconds :=
    if moment.microsecond ≠ 0 then [moment.second, moment.microsecond]
    else if moment.second ≠ 0 then [moment.second]
    else []
  let numbers := moment.day.numbers ++ [moment.hour, moment.minute] ++ seconds
  let zone := (moment.ahead.map fun minutes => "tzinfo=" ++ zoneLiteral minutes).toList
  "datetime.datetime(" ++ ", ".intercalate (numbers.map toString ++ zone) ++ ")"

end Moment
end Intcode
