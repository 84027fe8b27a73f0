/-! # Double-precision numbers, exactly

A note length is an IEEE-754 binary64 number. It is kept as its 64 bits, and every
operation the library needs is exact integer arithmetic on the fields of that word: the
rational value of a finite number, the number nearest to a rational, and truncation to
an integer. Nothing here computes with machine floating point.
-/

namespace TuneGraph

/-- A binary64 number, as its bits. -/
structure Binary64 where
  bits : UInt64
  deriving DecidableEq, Repr

namespace Binary64

/-- The word as a natural number. -/
def word (x : Binary64) : Nat := x.bits.toNat

/-- The number whose word is `n`. -/
def ofWord (n : Nat) : Binary64 := ⟨UInt64.ofNat n⟩

/-- The sign bit; it is also set on negative zero and may be set on a NaN. -/
def signBit (x : Binary64) : Bool := decide (Nat.pow 2 63 ≤ x.word)

/-- The eleven bits of the biased exponent. -/
def exponentField (x : Binary64) : Nat := x.word / Nat.pow 2 52 % 2048

/-- The fifty-two bits of the fraction. -/
def fractionField (x : Binary64) : Nat := x.word % Nat.pow 2 52

/-- A finite number is one whose exponent field is not all ones. -/
def isFinite (x : Binary64) : Bool := x.exponentField != 2047

/-- An infinity has an exponent of all ones and no fraction. -/
def isInfinite (x : Binary64) : Bool := x.exponentField == 2047 && x.fractionField == 0

/-- A NaN has an exponent of all ones and some fraction. -/
def isNaN (x : Binary64) : Bool := x.exponentField == 2047 && x.fractionField != 0

/-- Both zeros. -/
def isZero (x : Binary64) : Bool := x.exponentField == 0 && x.fractionField == 0

/-- Greater than zero: neither a NaN nor a zero, and no sign. -/
def isPositive (x : Binary64) : Bool := !x.signBit && !x.isZero && !x.isNaN

/-- The integer significand; a normal number has an implicit leading bit. -/
def significand (x : Binary64) : Nat :=
  if x.exponentField = 0 then x.fractionField else Nat.pow 2 52 + x.fractionField

/-- How far the significand is shifted: the magnitude of a finite number is
`significand * 2 ^ (shift - 1074)`. -/
def shift (x : Binary64) : Nat := x.exponentField - 1

/-- The numerator of the magnitude over the denominator `2 ^ 1074`. -/
def scaled (x : Binary64) : Nat := x.significand * Nat.pow 2 x.shift

/-- The exact value of a finite number. -/
def toRat? (x : Binary64) : Option Rat :=
  if x.isFinite then
    let magnitude := mkRat (x.scaled : Int) (Nat.pow 2 1074)
    some (if x.signBit then -magnitude else magnitude)
  else none

/-- A finite number with its fraction cut off. -/
def truncate? (x : Binary64) : Option Int :=
  if x.isFinite then
    let whole : Int := (x.scaled / Nat.pow 2 1074 : Nat)
    some (if x.signBit then -whole else whole)
  else none

/-- A finite number without a fractional part. -/
def isIntegral (x : Binary64) : Bool := x.isFinite && x.scaled % Nat.pow 2 1074 == 0

/-- Positive infinity. -/
def infinity : Binary64 := ofWord (2047 * Nat.pow 2 52)

/-- The quiet NaN without payload. -/
def nan : Binary64 := ofWord (4095 * Nat.pow 2 51)

/-- The same magnitude with the sign given. -/
def withSign (negative : Bool) (magnitude : Binary64) : Binary64 :=
  ofWord (magnitude.word % Nat.pow 2 63 + if negative then Nat.pow 2 63 else 0)

/-- The integer nearest to `num / den`; of two at the same distance, the even one. -/
def divideToEven (num den : Nat) : Nat :=
  let quotient := num / den
  let doubled := 2 * (num % den)
  if doubled < den then quotient
  else if den < doubled then quotient + 1
  else quotient + quotient % 2

/-- How many binary places `num / den` is above the grid `2 ^ -1074`, such that the
quotient by that power has at most 53 bits: the place of the last significant bit. -/
def lastPlace (num den : Nat) : Nat :=
  let estimate : Int := (num.log2 : Int) - (den.log2 : Int) - 53 + 1074
  let place := estimate.toNat
  if num * Nat.pow 2 1074 / (den * Nat.pow 2 place) < Nat.pow 2 53 then place else place + 1

/-- The magnitude nearest to the quotient `num / den` of natural numbers, ties to even;
what is too large becomes infinite. Below the normal range the grid stays at `2 ^ -1074`. -/
def ofRatio (num den : Nat) : Binary64 :=
  if num = 0 then ofWord 0 else
    let place := lastPlace num den
    let word := place * Nat.pow 2 52 + divideToEven (num * Nat.pow 2 1074) (den * Nat.pow 2 place)
    if word < 2047 * Nat.pow 2 52 then ofWord word else infinity

/-- The number nearest to an integer, unless it is out of range. -/
def ofInt? (i : Int) : Option Binary64 :=
  let magnitude := ofRatio i.natAbs 1
  if magnitude.isFinite then some (withSign (i < 0) magnitude) else none

/-- The magnitude nearest to `coefficient * 10 ^ exponent`. Exponents far outside the
range are decided without building the power. -/
def ofDecimal (coefficient : Nat) (exponent : Int) : Binary64 :=
  let digits : Int := (coefficient.log2 / 3 + 1 : Nat)
  if coefficient = 0 ∨ exponent + digits < -330 then ofWord 0
  else if 330 < exponent then infinity
  else if 0 ≤ exponent then ofRatio (coefficient * Nat.pow 10 exponent.toNat) 1
  else ofRatio coefficient (Nat.pow 10 (-exponent).toNat)

end Binary64

end TuneGraph
