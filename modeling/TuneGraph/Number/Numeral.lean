import TuneGraph.Number.Binary64
import TuneGraph.Text.Blank
import TuneGraph.Text.Digit

/-! # Numbers written in texts

Readers of numerals. The strict forms are over plain digits; the free forms, for numbers
that people typed, also take decimal digits of any script, blanks at both ends, and single
underscores between digits. Neither way does an integer get from a text or into one if it has
more digits than a limit.
-/

namespace TuneGraph.Numeral

/-- The digits zero to nine. -/
def isDigit (c : Char) : Bool := '0' ≤ c && c ≤ '9'

/-- The number that plain digits denote in base ten. -/
def ofDigits (cs : List Char) : Nat := cs.foldl (fun n c => 10 * n + (c.toNat - 48)) 0

/-- Plain digits, at least one, with a sign or without. -/
def integer? (cs : List Char) : Option Int :=
  let unsigned (negative : Bool) (digits : List Char) : Option Int :=
    if !digits.isEmpty && digits.all isDigit then
      some (if negative then -(ofDigits digits : Int) else ofDigits digits)
    else none
  match cs with
  | '-' :: digits => unsigned true digits
  | '+' :: digits => unsigned false digits
  | digits => unsigned false digits

/-- The power of ten after a mantissa: nothing, or a mark with an integer. -/
def exponent? : List Char → Option Int
  | [] => some 0
  | c :: rest => if c = 'e' ∨ c = 'E' then integer? rest else none

/-- A number without a sign: an infinity or a NaN by name, or digits with an optional point
and an optional exponent. -/
def magnitude? (cs : List Char) : Option Binary64 :=
  let word := cs.map Char.toLower
  if word = "inf".toList ∨ word = "infinity".toList then some Binary64.infinity
  else if word = "nan".toList then some Binary64.nan
  else
    let whole := cs.takeWhile isDigit
    let rest := cs.dropWhile isDigit
    let (fraction, tail) := match rest with
      | '.' :: rest => (rest.takeWhile isDigit, rest.dropWhile isDigit)
      | rest => ([], rest)
    if whole.isEmpty && fraction.isEmpty then none
    else (exponent? tail).map fun exponent =>
      Binary64.ofDecimal (ofDigits (whole ++ fraction)) (exponent - fraction.length)

/-- A number with a sign or without. -/
def real? : List Char → Option Binary64
  | '-' :: rest => (magnitude? rest).map (Binary64.withSign true)
  | '+' :: rest => magnitude? rest
  | rest => magnitude? rest

/-- A text without its underscores, each of which has to stand between two digits.
`previous` is the character before the rest. -/
def dropUnderscores? (previous : Char) : List Char → Option (List Char)
  | [] => if previous = '_' then none else some []
  | c :: rest =>
    if c = '_' then if isDigit previous then dropUnderscores? c rest else none
    else if previous = '_' && !isDigit c then none
    else (dropUnderscores? c rest).map (c :: ·)

/-- Foreign blanks and digits in their plain form; other foreign characters are not part
of any numeral. -/
def plainChar (c : Char) : Char :=
  if c.toNat < 127 then c
  else if Text.isBlank c then ' '
  else match Text.digitValue? c with
    | some value => Char.ofNat (48 + value)
    | none => '?'

/-- The blanks around a numeral: space, and tab to carriage return. -/
def isPadding (c : Char) : Bool := c = ' ' || (9 ≤ c.toNat && c.toNat ≤ 13)

/-- The plain form of a free numeral. -/
def plain? (s : String) : Option (List Char) :=
  dropUnderscores? ' ' (Text.trim isPadding (s.toList.map plainChar))

/-- The most digits with which an integer is written in a text or read from one. -/
def digitLimit : Nat := 4300

/-- What is said of a numeral with too many digits. -/
def tooLongMessage (digits : Nat) : String :=
  "Exceeds the limit (" ++ toString digitLimit ++
    " digits) for integer string conversion: value has " ++ toString digits ++ " digits; use sys.set_int_max_str_digits() to increase the limit"

/-- The first magnitude with too many digits. -/
@[irreducible] def tooLong : Nat := Nat.pow 10 digitLimit

/-- What is said of an integer that has too many digits to be written out. -/
def limitMessage : String :=
  "Exceeds the limit (" ++ toString digitLimit ++ " digits) for integer string conversion; " ++
    "use sys.set_int_max_str_digits() to increase the limit"

/-- Whether an integer can be written out. -/
def isShort (value : Int) : Bool := decide (value.natAbs < tooLong)

/-- The numeral of an integer that can be written out. -/
def ofInt? (value : Int) : Option String :=
  if isShort value then some (toString value) else none

/-- An integer has a numeral exactly if it can be written out, and then it is the usual one. -/
theorem ofInt?_eq_some_iff {value : Int} {numeral : String} :
    ofInt? value = some numeral ↔ isShort value = true ∧ toString value = numeral := by
  unfold ofInt?
  split <;> simp_all

@[simp] theorem isSome_ofInt? (value : Int) : (ofInt? value).isSome = isShort value := by
  unfold ofInt?
  split <;> simp_all

/-- A free integer. -/
def freeInteger? (s : String) : Option Int :=
  (plain? s).bind fun cs => if (cs.filter isDigit).length ≤ digitLimit then integer? cs else none

/-- A free real number. -/
def freeReal? (s : String) : Option Binary64 := (plain? s).bind real?

end TuneGraph.Numeral
