/-! # Points in time

Times are counted in seconds from the beginning of 1970. They are written as a date and a
time of day of the proleptic Gregorian calendar.
-/

namespace TuneGraph

/-- A day of the calendar. -/
structure Date where
  year : Nat
  month : Nat
  day : Nat
  deriving DecidableEq, Repr

namespace Date

/-- The days from the first of March of the year zero to the beginning of 1970. -/
def epoch : Nat := 719468

/-- The years before a day of a cycle of four hundred years. Years begin in March, so that
the leap day is the last of its year. -/
def yearOfCycle (day : Nat) : Nat := (day - day / 1460 + day / 36524 - day / 146096) / 365

/-- The days before a year of a cycle. -/
def daysBefore (year : Nat) : Nat := 365 * year + year / 4 - year / 100

/-- The day that is a number of days after the beginning of 1970. -/
def ofDays (days : Nat) : Date :=
  let shifted := days + epoch
  let cycleDay := shifted % 146097
  let cycleYear := yearOfCycle cycleDay
  let yearDay := cycleDay - daysBefore cycleYear
  let fromMarch := (5 * yearDay + 2) / 153
  let month := if fromMarch < 10 then fromMarch + 3 else fromMarch - 9
  { year := 400 * (shifted / 146097) + cycleYear + (if month ≤ 2 then 1 else 0)
    month
    day := yearDay - (153 * fromMarch + 2) / 5 + 1 }

end Date

/-- A number with leading zeros. -/
def paddedNumber (width n : Nat) : String :=
  let digits := Nat.toDigits 10 n
  String.ofList (List.replicate (width - digits.length) '0' ++ digits)

/-- A time as a date and a time of day. -/
def timeText (seconds : Nat) : String :=
  let date := Date.ofDays (seconds / 86400)
  let rest := seconds % 86400
  paddedNumber 4 date.year ++ "-" ++ paddedNumber 2 date.month ++ "-" ++
    paddedNumber 2 date.day ++ "T" ++ paddedNumber 2 (rest / 3600) ++ ":" ++
    paddedNumber 2 (rest / 60 % 60) ++ ":" ++ paddedNumber 2 (rest % 60)

end TuneGraph
