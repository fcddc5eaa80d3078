/-!
# Instants and dates

An instant is a count of seconds since the start of 1970 in universal time, where leap seconds are
not counted; a leap second has the count of the second before it. Its date is that of the
Gregorian calendar, continued to all years before and after.

The calendar repeats every 400 years. Within such an era the years are counted from March, so that
the leap day is the last day of a year and the lengths of the months before it follow one linear
rule.
-/

set_option autoImplicit false
set_option relaxedAutoImplicit false

namespace BuildPlan

/-- A point in time, to the second. -/
structure Instant where
  /-- The seconds since the start of 1970. -/
  seconds : Int
  /-- Whether this is the leap second after the one counted. -/
  leap : Bool
  deriving DecidableEq

/-- A day of the calendar. -/
structure Date where
  /-- The year; the year before year 1 is year 0. -/
  year : Int
  /-- The month, from 1. -/
  month : Nat
  /-- The day of the month, from 1. -/
  day : Nat
  deriving DecidableEq

namespace Date

/-- The days of 400 years. -/
def daysPerEra : Nat := 146097

/-- The days from the first of March of year 0 to the start of 1970. -/
def epochDay : Nat := 719468

/-- The year of an era, counted from March, in which a day of the era lies. -/
def yearOfEra (day : Nat) : Nat :=
  (day - day / 1460 + day / 36524 - day / 146096) / 365

/-- The days of an era before one of its years. -/
def daysBeforeYear (year : Nat) : Nat :=
  365 * year + year / 4 - year / 100

/-- The month, counted from March, in which a day of the year lies. -/
def monthFromMarch (day : Nat) : Nat :=
  (5 * day + 2) / 153

/-- The days of a year before one of its months, both counted from March. -/
def daysBeforeMonth (month : Nat) : Nat :=
  (153 * month + 2) / 5

/-- The date of a day counted from the start of 1970. -/
def ofDay (day : Int) : Date :=
  let shifted := day + epochDay
  let era := shifted / daysPerEra
  let dayOfEra := (shifted % daysPerEra).toNat
  let year := yearOfEra dayOfEra
  let dayOfYear := dayOfEra - daysBeforeYear year
  let month := monthFromMarch dayOfYear
  { year := 400 * era + year + if month < 10 then 0 else 1
    month := if month < 10 then month + 3 else month - 9
    day := dayOfYear - daysBeforeMonth month + 1 }

/-- Digits with zeros in front up to a width. -/
def padded (width n : Nat) : String :=
  let digits := Nat.toDigits 10 n
  .ofList (List.replicate (width - digits.length) '0' ++ digits)

/-- A year in four digits at least, with a sign if it is negative or has more. -/
def yearText (year : Int) : String :=
  let sign := if year < 0 then "-" else if 9999 < year then "+" else ""
  sign ++ padded 4 year.natAbs

/-- A date as year, month and day. -/
def text (date : Date) : String :=
  yearText date.year ++ "-" ++ padded 2 date.month ++ "-" ++ padded 2 date.day

end Date

namespace Instant

/-- The seconds of a day. -/
def secondsPerDay : Nat := 86400

/-- The date of an instant. -/
def date (instant : Instant) : Date :=
  .ofDay (instant.seconds / secondsPerDay)

/-- The seconds since midnight. -/
def secondOfDay (instant : Instant) : Nat :=
  (instant.seconds % secondsPerDay).toNat

/-- The second within the minute; it is 60 for a leap second. -/
def secondOfMinute (instant : Instant) : Nat :=
  instant.secondOfDay % 60 + if instant.leap then 1 else 0

/-- The time of day, in universal time. -/
def timeText (instant : Instant) : String :=
  let second := instant.secondOfDay
  Date.padded 2 (second / 3600) ++ ":" ++ Date.padded 2 (second / 60 % 60) ++ ":" ++
    Date.padded 2 instant.secondOfMinute

/-- The date and the time of day, in universal time. -/
def text (instant : Instant) : String :=
  instant.date.text ++ "T" ++ instant.timeText ++ "Z"

end Instant

end BuildPlan
