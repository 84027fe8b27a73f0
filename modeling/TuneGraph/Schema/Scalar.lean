import TuneGraph.Schema.Basic
import TuneGraph.Number.Numeral

/-! # Checked scalars

Scalars are taken in any form that loses nothing: an integer may come as a text or as a
real number without a fraction, a truth value as a word. Texts come only as texts.
-/

namespace TuneGraph.Schema

/-- A text. -/
def text : Datum → Checked String
  | .text value => pure value
  | value => .fault .textType value

/-- A numeral without its underscores, which may not stand at an end or side by side. -/
def withoutUnderscores? (cs : List Char) : Option (List Char) :=
  let parts := cs.splitOn '_'
  if parts.length ≤ 1 || parts.all (!·.isEmpty) then some parts.flatten else none

/-- A numeral from its first significant digit on. What is skipped are zeros, and
underscores between them; a lone zero stays. `zero` is the last character skipped. -/
def fromSignificant? (last : Char) : List Char → Option (List Char)
  | [] => some [last]
  | c :: rest =>
    if c = '0' ∨ c = '_' then fromSignificant? c rest
    else if '1' ≤ c ∧ c ≤ '9' then some (c :: rest)
    else if c = '.' then some (last :: c :: rest)
    else none

/-- A numeral without leading zeros. -/
def withoutLeadingZeros? : List Char → Option (List Char)
  | [] => none
  | c :: rest =>
    if c = '0' then fromSignificant? c rest
    else if Numeral.isDigit c || c = '-' then some (c :: rest)
    else none

/-- A numeral without a fraction of zeros. -/
def withoutZeroFraction (cs : List Char) : List Char :=
  match cs.dropWhile (· != '.') with
  | [] => cs
  | _ :: fraction => if fraction.all (· = '0') then cs.takeWhile (· != '.') else cs

/-- A numeral without a plus sign, which no other sign may follow. -/
def withoutPlus? : List Char → Option (List Char)
  | ['+'] => none
  | '+' :: '-' :: _ => none
  | '+' :: rest => some rest
  | cs => some cs

/-- The digits of an integer and whether it is negative. A leading zero is a digit only
when it stands alone. -/
def integerDigits? (cs : List Char) : Option (Bool × List Char) :=
  let digits? (negative : Bool) (digits : List Char) : Option (Bool × List Char) :=
    if digits.isEmpty || !digits.all Numeral.isDigit then none
    else if digits.head? = some '0' && 1 < digits.length then none
    else some (negative, digits)
  match cs with
  | '-' :: digits => digits? true digits
  | digits => digits? false digits

/-- The digits of an integer written in a text. -/
def integerNumeral? (cs : List Char) : Option (Bool × List Char) := do
  let unsigned ← withoutPlus? (Text.trim Text.isWhiteSpace cs)
  let significant ← withoutLeadingZeros? unsigned
  let plain ← withoutUnderscores? (withoutZeroFraction significant)
  integerDigits? plain

/-- The least magnitude that a whole real number may not reach to be taken as an
integer. -/
def wholeLimit : Int := (Nat.pow 2 63 : Nat)

/-- An integer. -/
def integer : Datum → Checked Int
  | .integer value => pure value
  | .boolean value => pure (if value then 1 else 0)
  | .real value =>
    match value.truncate? with
    | none => .fault .notFinite (.real value)
    | some whole =>
      if !value.isIntegral then .fault .fractional (.real value)
      else if -wholeLimit < whole ∧ whole < wholeLimit then pure whole
      else .fault .integerSize (.real value)
  | .text value =>
    match integerNumeral? value.toList with
    | none => .fault .integerParsing (.text value)
    | some (negative, digits) =>
      if Numeral.digitLimit < digits.length then .fault .integerSize (.text value)
      else
        let magnitude : Int := Numeral.ofDigits digits
        pure (if negative then -magnitude else magnitude)
  | value => .fault .integerType value

/-- A real number. An integer beyond the range of real numbers is not one. -/
def real : Datum → Checked Binary64
  | .real value => pure value
  | .integer value =>
    match Binary64.ofInt? value with
    | some number => pure number
    | none => .fault .realType (.integer value)
  | .boolean value => pure (if value then Binary64.ofRatio 1 1 else Binary64.ofRatio 0 1)
  | .text value =>
    let direct := Numeral.real? (Text.trim Text.isWhiteSpace value.toList)
    let grouped := (withoutUnderscores? value.toList).bind Numeral.real?
    match direct.or grouped with
    | some number => pure number
    | none => .fault .realParsing (.text value)
  | value => .fault .realType value

/-- The words for truth. -/
def trueWords : List String := ["1", "on", "t", "true", "y", "yes"]

/-- The words for falsehood. -/
def falseWords : List String := ["0", "off", "f", "false", "n", "no"]

/-- A truth value: itself, one or zero, or a word for it in any case. -/
def boolean : Datum → Checked Bool
  | .boolean value => pure value
  | .integer value =>
    if value = 1 then pure true
    else if value = 0 then pure false
    else .fault .booleanParsing (.integer value)
  | .real value =>
    if value = Binary64.ofRatio 1 1 then pure true
    else if value.isZero then pure false
    else if value.isIntegral then .fault .booleanParsing (.real value)
    else .fault .booleanType (.real value)
  | .text value =>
    let word := String.ofList (value.toList.map Char.toLower)
    if trueWords.contains word then pure true
    else if falseWords.contains word then pure false
    else .fault .booleanParsing (.text value)
  | value => .fault .booleanType value

/-- An integer greater than a bound. -/
def integerAbove (bound : Int) (value : Datum) : Checked { i : Int // bound < i } :=
  (integer value).require fun i =>
    if above : bound < i then pure ⟨i, above⟩ else .fault (.notGreater bound) value

/-- An integer of at least a bound. -/
def integerAtLeast (bound : Int) (value : Datum) : Checked { i : Int // bound ≤ i } :=
  (integer value).require fun i =>
    if above : bound ≤ i then pure ⟨i, above⟩ else .fault (.notAtLeast bound) value

/-- A certain text and no other. -/
def constant (expected : String) (value : Datum) : Checked Unit :=
  if value.text? = some expected then pure () else .fault (.notConstant expected) value

end TuneGraph.Schema
