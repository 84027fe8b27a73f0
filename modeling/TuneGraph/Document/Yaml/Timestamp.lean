import TuneGraph.Document.Yaml.Fault
import TuneGraph.Library.Time

/-! # Points in time in YAML

A scalar may spell a day, or a day with a time of day, of which a fraction of a second and the
offset from universal time may be left out. It is known by the text that it is written as.
-/

namespace TuneGraph.Yaml

/-- A time of day. -/
structure TimeOfDay where
  hour : Nat
  minute : Nat
  second : Nat
  /-- Millionths of a second. -/
  fraction : Nat
  /-- The offset from universal time, in minutes. -/
  offset : Option Int
  deriving DecidableEq, Repr

/-- A day, maybe with a time of day. -/
structure Timestamp where
  date : Date
  time : Option TimeOfDay := none
  deriving DecidableEq, Repr

namespace Timestamp

/-- Some digits at the beginning, as many as there are up to a number, and what follows. -/
def digits? (least most : Nat) (cs : List Char) : Option (List Char × List Char) :=
  let run := (cs.take most).takeWhile Numeral.isDigit
  if least ≤ run.length then some (run, cs.drop run.length) else none

/-- What follows a character. -/
def after? (mark : Char) : List Char → Option (List Char)
  | c :: rest => if c = mark then some rest else none
  | [] => none

/-- What follows the mark or the blanks between a day and a time of day. -/
def afterDay? (cs : List Char) : Option (List Char) :=
  match cs with
  | 'T' :: rest | 't' :: rest => some rest
  | c :: rest =>
    if c = ' ' ∨ c = '\t' then some (rest.dropWhile fun c => c = ' ' || c = '\t') else none
  | [] => none

/-- Millionths of a second from the digits of a fraction. -/
def millionths (digits : List Char) : Nat :=
  Numeral.ofDigits ((digits ++ List.replicate 6 '0').take 6)

/-- The offset from universal time at the end, which may be left out. -/
def offset? (cs : List Char) : Option (Option Int) := do
  if cs.isEmpty then return none
  match cs.dropWhile fun c => c = ' ' || c = '\t' with
  | ['Z'] => return some 0
  | sign :: rest =>
    guard (sign = '+' ∨ sign = '-')
    let (hours, rest) ← digits? 1 2 rest
    let minutes ← if rest.isEmpty then some [] else do
      let (minutes, rest) ← digits? 2 2 (← after? ':' rest)
      if rest.isEmpty then some minutes else none
    let offset : Int := 60 * Numeral.ofDigits hours + Numeral.ofDigits minutes
    return some (if sign = '-' then -offset else offset)
  | [] => none

/-- The point in time that characters spell. A day alone is written in full where there is no tag.
-/
def read? (tagged : Bool) (cs : List Char) : Option Timestamp := do
  let (year, cs) ← digits? 4 4 cs
  let (month, cs) ← digits? 1 2 (← after? '-' cs)
  let (day, cs) ← digits? 1 2 (← after? '-' cs)
  let date : Date :=
    { year := Numeral.ofDigits year, month := Numeral.ofDigits month, day := Numeral.ofDigits day }
  if cs.isEmpty then
    if tagged || (month.length == 2 && day.length == 2) then return { date } else none
  else
    let (hour, cs) ← digits? 1 2 (← afterDay? cs)
    let (minute, cs) ← digits? 2 2 (← after? ':' cs)
    let (second, cs) ← digits? 2 2 (← after? ':' cs)
    let (fraction, cs) := match cs with
      | '.' :: rest => (rest.takeWhile Numeral.isDigit, rest.dropWhile Numeral.isDigit)
      | rest => ([], rest)
    return { date
             time := some
              { hour := Numeral.ofDigits hour, minute := Numeral.ofDigits minute
                second := Numeral.ofDigits second, fraction := millionths fraction
                offset := ← offset? cs } }

/-- The number of days of a month. -/
def monthLength (year month : Nat) : Nat :=
  if month = 2 then
    if year % 4 = 0 ∧ (year % 100 ≠ 0 ∨ year % 400 = 0) then 29 else 28
  else if month = 4 ∨ month = 6 ∨ month = 9 ∨ month = 11 then 30
  else 31

/-- What is wrong with a day. -/
def dateFault? (date : Date) : Option TimeField :=
  if date.year = 0 then some .year
  else if date.month = 0 ∨ 12 < date.month then some .month
  else if date.day = 0 ∨ monthLength date.year date.month < date.day then some .day
  else none

/-- What is wrong with a time of day, its offset apart. -/
def timeFault? (time : TimeOfDay) : Option TimeField :=
  if 23 < time.hour then some .hour
  else if 59 < time.minute then some .minute
  else if 59 < time.second then some .second
  else none

/-- What is wrong with a point in time. The offset is looked at first. -/
def fault? (point : Timestamp) : Option ScalarFault :=
  ((point.time.bind (·.offset)).bind fun offset =>
    if 1440 ≤ offset.natAbs then some (.longOffset offset) else none).or
      (((dateFault? point.date).or (point.time.bind timeFault?)).map .outOfRange)

/-- The text of an offset. -/
def offsetText (offset : Int) : String :=
  (if offset < 0 then "-" else "+") ++ paddedNumber 2 (offset.natAbs / 60) ++ ":" ++
    paddedNumber 2 (offset.natAbs % 60)

/-- The text of a point in time. -/
def text (point : Timestamp) : String :=
  let day := paddedNumber 4 point.date.year ++ "-" ++ paddedNumber 2 point.date.month ++ "-" ++
    paddedNumber 2 point.date.day
  match point.time with
  | none => day
  | some time =>
    day ++ " " ++ paddedNumber 2 time.hour ++ ":" ++ paddedNumber 2 time.minute ++ ":" ++
      paddedNumber 2 time.second ++
        (if time.fraction = 0 then "" else "." ++ paddedNumber 6 time.fraction) ++
          (time.offset.map offsetText).getD ""

/-- The text of a point in time, if there is that point. -/
def value (point : Timestamp) : Except ScalarFault String :=
  match point.fault? with
  | some fault => throw fault
  | none => pure point.text

end Timestamp

end TuneGraph.Yaml
