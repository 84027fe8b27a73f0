import TuneGraph.Number.Binary64

/-! # Shortest decimal text of a double

The text of a finite number has the fewest significant digits that read back as the same
number and, among those, is the one nearest to it. For one, two, … seventeen digits the
two neighbours of the value on that decimal grid are tested against the interval of
reals that round to it; the first grid with a hit decides.

The digits are a fact about the number. How they are laid out is a `Layout`; the text
documents of this library all use `Layout.standard`.
-/

namespace TuneGraph

/-- Significant decimal digits: `coefficient * 10 ^ exponent`. -/
structure Decimal where
  coefficient : Nat
  exponent : Int
  deriving DecidableEq, Repr

namespace Decimal

/-- The decimal digits of a natural number, most significant first. -/
def digits (n : Nat) : List Char := Nat.toDigits 10 n

/-- `floor (log10 (num / den))` for a positive quotient below one, as the number of
tens it takes to reach one. -/
def tensBelow (num den : Nat) : Nat → Nat
  | 0 => 0
  | fuel + 1 => if num < den then tensBelow (num * 10) den fuel + 1 else 0

/-- The place of the leading decimal digit of a positive quotient. Doubles need at most
324 tens. -/
def leadingPlace (num den : Nat) : Int :=
  if num < den then -(tensBelow num den 400 : Nat)
  else ((digits (num / den)).length : Int) - 1

end Decimal

namespace Binary64

/-- The reals that round to a positive finite number, over a common denominator. The
ends belong to it when the significand is even. -/
structure RoundingInterval where
  low : Nat
  value : Nat
  high : Nat
  den : Nat
  closed : Bool

/-- The rounding interval of a positive finite number: half a step to either side, and a
quarter of the upper step below a power of two, where the step doubles. -/
def roundingInterval (x : Binary64) : RoundingInterval :=
  let scale := Nat.pow 2 x.shift
  let below := if x.fractionField = 0 && 1 < x.exponentField then 1 else 2
  { low := (4 * x.significand - below) * scale
    value := 4 * x.significand * scale
    high := (4 * x.significand + 2) * scale
    den := Nat.pow 2 1076
    closed := x.significand % 2 == 0 }

namespace RoundingInterval

/-- Whether `num / den` lies in the interval. -/
def contains (r : RoundingInterval) (num den : Nat) : Bool :=
  let low := r.low * den
  let high := r.high * den
  let point := num * r.den
  if r.closed then decide (low ≤ point ∧ point ≤ high) else decide (low < point ∧ point < high)

/-- The nearest point of the grid `10 ^ exponent` that lies in the interval, if one of
the value's two neighbours does. Of two equally near the even one is taken. -/
def onGrid (r : RoundingInterval) (exponent : Int) : Option Decimal :=
  let up := Nat.pow 10 exponent.toNat
  let down := Nat.pow 10 (-exponent).toNat
  let floor := r.value * down / (r.den * up)
  let twice := 2 * (r.value * down - floor * (r.den * up))
  let hasFloor := r.contains (floor * up) down
  let hasCeiling := r.contains ((floor + 1) * up) down
  let preferFloor := decide (twice < r.den * up) || (twice == r.den * up && floor % 2 == 0)
  if hasFloor && (preferFloor || !hasCeiling) then some ⟨floor, exponent⟩
  else if hasCeiling then some ⟨floor + 1, exponent⟩
  else none

/-- The first grid with a point in the interval, from `exponent` downwards. -/
def search (r : RoundingInterval) (exponent : Int) : Nat → Decimal
  | 0 => ⟨r.value / r.den, 0⟩
  | fuel + 1 =>
    match r.onGrid exponent with
    | some found => found
    | none => search r (exponent - 1) fuel

end RoundingInterval

/-- The shortest decimal that reads back as a positive finite number. -/
def shortest (x : Binary64) : Decimal :=
  let r := x.roundingInterval
  r.search (Decimal.leadingPlace r.value r.den) 17

end Binary64

/-- How digits become text. -/
structure Layout where
  /-- The least place of the leading digit that is written without an exponent. -/
  firstPlain : Int
  /-- The first place of the leading digit that is written with an exponent. -/
  firstLarge : Int
  /-- The mark before an exponent. -/
  mark : Char
  /-- The least number of digits of an exponent. -/
  exponentDigits : Nat
  infinity : String
  nan : String

namespace Layout

/-- Plain notation for places −4 to 15 and always with a point; otherwise an exponent
with its sign and at least two digits. -/
def standard : Layout where
  firstPlain := -4
  firstLarge := 16
  mark := 'e'
  exponentDigits := 2
  infinity := "inf"
  nan := "nan"

/-- Digits without trailing zeros, with the exponent adjusted. -/
def trimZeros : List Char → Int → List Char × Int
  | [], exponent => ([], exponent)
  | digit :: rest, exponent =>
    match trimZeros rest exponent with
    | ([], exponent) => if digit = '0' then ([], exponent + 1) else ([digit], exponent)
    | (kept, exponent) => (digit :: kept, exponent)

/-- The text of digits whose leading digit stands at `place`. -/
def writeDigits (layout : Layout) (digits : List Char) (place : Int) : String :=
  if layout.firstPlain ≤ place ∧ place < layout.firstLarge then
    if place < 0 then
      String.ofList ("0.".toList ++ List.replicate ((-place).toNat - 1) '0' ++ digits)
    else
      let whole := place.toNat + 1
      let front := digits.take whole ++ List.replicate (whole - digits.length) '0'
      let back := digits.drop whole
      String.ofList (front ++ '.' :: (if back.isEmpty then ['0'] else back))
  else
    let fraction := if digits.length ≤ 1 then [] else '.' :: digits.drop 1
    let power := Decimal.digits place.natAbs
    let padding := List.replicate (layout.exponentDigits - power.length) '0'
    String.ofList (digits.take 1 ++ fraction ++
      layout.mark :: (if place < 0 then '-' else '+') :: (padding ++ power))

/-- The text of a decimal. -/
def writeDecimal (layout : Layout) (decimal : Decimal) : String :=
  let (digits, exponent) := trimZeros (Decimal.digits decimal.coefficient) decimal.exponent
  layout.writeDigits digits (exponent + digits.length - 1)

/-- The text of a number; a zero keeps its sign. -/
def write (layout : Layout) (x : Binary64) : String :=
  if x.isNaN then layout.nan else
    let sign := if x.signBit then "-" else ""
    if x.isInfinite then sign ++ layout.infinity
    else if x.isZero then sign ++ "0.0"
    else sign ++ layout.writeDecimal x.shortest

end Layout

end TuneGraph
