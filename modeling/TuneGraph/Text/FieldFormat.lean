import TuneGraph.Text.Digit

/-! # How a field is written

A field format says how a number or a text fills its field: fill character and alignment,
sign, width, digit groups, precision, and a letter for the notation. A format is read from
its short notation, such as `03d` or `>4`, and then applied.
-/

namespace TuneGraph.Text

/-- What a format is applied to. -/
inductive FieldType where
  | number
  | text
  deriving DecidableEq, Repr

/-- The name of a type in messages. -/
def FieldType.name : FieldType → String
  | number => "int"
  | text => "str"

/-- The name of the subject in messages about things that it does not take. -/
def FieldType.specifier : FieldType → String
  | number => "integer format specifier"
  | text => "string format specifier"

/-- Why a format is refused. -/
inductive FormatError where
  | tooManyDigits
  | commaAndUnderscore
  | missingPrecision
  | invalid (format : String) (type : FieldType)
  | groupingWith (separator code : Char)
  | unknownCode (code : Char) (type : FieldType)
  | precisionNotAllowed
  | zeroCoercionNotAllowed (type : FieldType)
  | spaceNotAllowed
  | signNotAllowed
  | alternateNotAllowed
  | alignmentNotAllowed
  | signWithCharacter
  | alternateWithCharacter
  | characterRange
  deriving DecidableEq, Repr

/-- A letter as messages show it: by its code unless it is plain and visible. -/
def shownCode (c : Char) : String :=
  if 32 < c.toNat ∧ c.toNat < 128 then c.toString
  else "\\x" ++ String.ofList (Nat.toDigits 16 c.toNat)

/-- The wording of a refusal. -/
def FormatError.message : FormatError → String
  | tooManyDigits => "Too many decimal digits in format string"
  | commaAndUnderscore => "Cannot specify both ',' and '_'."
  | missingPrecision => "Format specifier missing precision"
  | invalid format type =>
    "Invalid format specifier '" ++ format ++ "' for object of type '" ++ type.name ++ "'"
  | groupingWith separator code =>
    "Cannot specify '" ++ separator.toString ++ "' with '" ++ shownCode code ++ "'."
  | unknownCode code type =>
    "Unknown format code '" ++ shownCode code ++ "' for object of type '" ++ type.name ++ "'"
  | precisionNotAllowed => "Precision not allowed in integer format specifier"
  | zeroCoercionNotAllowed type =>
    "Negative zero coercion (z) not allowed in " ++ type.specifier
  | spaceNotAllowed => "Space not allowed in string format specifier"
  | signNotAllowed => "Sign not allowed in string format specifier"
  | alternateNotAllowed => "Alternate form (#) not allowed in string format specifier"
  | alignmentNotAllowed => "'=' alignment not allowed in string format specifier"
  | signWithCharacter => "Sign not allowed with integer format specifier 'c'"
  | alternateWithCharacter => "Alternate form (#) not allowed with integer format specifier 'c'"
  | characterRange => "%c arg not in range(0x110000)"

/-- Where the padding goes. -/
inductive Alignment where
  | left
  | right
  | center
  /-- Between the sign and the digits. -/
  | inside
  deriving DecidableEq, Repr

/-- The alignment of a mark. -/
def Alignment.ofMark? : Char → Option Alignment
  | '<' => some left
  | '>' => some right
  | '^' => some center
  | '=' => some inside
  | _ => none

/-- The format of a field. -/
structure FieldFormat where
  fill : Char := ' '
  alignment : Alignment
  sign : Option Char := none
  zeroCoercion : Bool := false
  alternate : Bool := false
  width : Nat := 0
  separator : Option Char := none
  precision : Option Nat := none
  code : Char
  deriving DecidableEq, Repr

namespace FieldFormat

/-- The largest width or precision. -/
def numberLimit : Nat := Nat.pow 2 63 - 1

/-- The digits of any script at the beginning, as a number; nothing if there are none. -/
def readNumber (cs : List Char) : Except FormatError (Option Nat × List Char) :=
  let digits := cs.takeWhile fun c => (digitValue? c).isSome
  let value := digits.foldl (fun n c => 10 * n + (digitValue? c).getD 0) 0
  if numberLimit < value then throw .tooManyDigits
  else if digits.isEmpty then pure (none, cs)
  else pure (some value, cs.drop digits.length)

/-- A mark at the beginning, if it is one of those wanted. -/
def readMark (wanted : Char → Bool) : List Char → Option Char × List Char
  | c :: rest => if wanted c then (some c, rest) else (none, c :: rest)
  | [] => (none, [])

/-- Fill and alignment at the beginning. -/
def readAlignment : List Char → Option Char × Option Alignment × List Char
  | c :: d :: rest =>
    match Alignment.ofMark? d with
    | some alignment => (some c, some alignment, rest)
    | none =>
      match Alignment.ofMark? c with
      | some alignment => (none, some alignment, d :: rest)
      | none => (none, none, c :: d :: rest)
  | [c] =>
    match Alignment.ofMark? c with
    | some alignment => (none, some alignment, [])
    | none => (none, none, [c])
  | [] => (none, none, [])

/-- The separator of digit groups: a comma or an underscore, and not both. -/
def readSeparator : List Char → Except FormatError (Option Char × List Char)
  | ',' :: '_' :: _ => throw .commaAndUnderscore
  | '_' :: ',' :: _ => throw .commaAndUnderscore
  | ',' :: rest => pure (some ',', rest)
  | '_' :: rest => pure (some '_', rest)
  | rest => pure (none, rest)

/-- The precision after a point. -/
def readPrecision : List Char → Except FormatError (Option Nat × List Char)
  | '.' :: rest => do
    match ← readNumber rest with
    | (some precision, rest) => return (some precision, rest)
    | (none, _) => throw .missingPrecision
  | rest => pure (none, rest)

/-- Whether digit groups go with a notation. -/
def allowsGroups (separator code : Char) : Bool :=
  "deEfFgG%".toList.contains code || (separator == '_' && "boxX".toList.contains code)

/-- A format in its short notation. -/
def parse (type : FieldType) (short : List Char) : Except FormatError FieldFormat := do
  let (fill, alignment, rest) := readAlignment short
  let (sign, rest) := readMark (fun c => c = ' ' || c = '+' || c = '-') rest
  let (coercion, rest) := readMark (· = 'z') rest
  let (alternate, rest) := readMark (· = '#') rest
  let (zero, rest) := if fill.isNone then readMark (· = '0') rest else (none, rest)
  let (width, rest) ← readNumber rest
  let (separator, rest) ← readSeparator rest
  let (precision, rest) ← readPrecision rest
  let standard := match type with
    | .number => if zero.isSome then Alignment.inside else .right
    | .text => .left
  let code ← match rest with
    | [] => pure (match type with | .number => 'd' | .text => 's')
    | [code] => pure code
    | _ => throw (.invalid (String.ofList short) type)
  match separator with
  | some mark => if !allowsGroups mark code then throw (.groupingWith mark code)
  | none => pure ()
  return { fill := fill.getD (if zero.isSome then '0' else ' ')
           alignment := alignment.getD standard
           sign, zeroCoercion := coercion.isSome, alternate := alternate.isSome
           width := width.getD 0, separator, precision, code }

/-- Digits in groups, last digit first; zeros fill up to a least width, of which a
separator takes a part. -/
def group (size : Nat) (separator : Char) : Nat → List Char → Nat → List Char
  | 0, digits, _ => digits
  | fuel + 1, digits, least =>
    let count := min size (max (max digits.length least) 1)
    let part := digits.take count
    let full := part ++ List.replicate (count - part.length) '0'
    let rest := digits.drop count
    if rest.isEmpty && least ≤ count then full
    else full ++ separator :: group size separator fuel rest (least - count - 1)

/-- The digits of a number with the separators and leading zeros that the format asks
for. -/
def groupDigits (format : FieldFormat) (digits : List Char) (least : Nat) : List Char :=
  match format.separator with
  | none => List.replicate (least - digits.length) '0' ++ digits
  | some separator =>
    let size := if "boxX".toList.contains format.code then 4 else 3
    (group size separator (digits.length + least + 1) digits.reverse least).reverse

/-- A text between padding, with what goes before inner padding kept in front. -/
def pad (format : FieldFormat) (lead body : List Char) : String :=
  let missing := format.width - (lead.length + body.length)
  let padding (n : Nat) := List.replicate n format.fill
  String.ofList <| match format.alignment with
    | .left => lead ++ body ++ padding missing
    | .right => padding missing ++ lead ++ body
    | .center => padding (missing / 2) ++ lead ++ body ++ padding (missing - missing / 2)
    | .inside => lead ++ padding missing ++ body

/-- A number from its parts: what stands before the digits, the digits, and what follows
them. -/
def assemble (format : FieldFormat) (lead digits tail : List Char) : String :=
  let sign := match format.sign with
    | some '-' | none => []
    | some mark => [mark]
  let lead := sign ++ lead
  let least := if format.fill = '0' ∧ format.alignment = .inside then
    format.width - (lead.length + tail.length) else 0
  format.pad lead (format.groupDigits digits least ++ tail)

/-- A number rounded to a count of significant digits, a half to the even neighbour, and
the place of its first digit. -/
def significant (count n : Nat) : List Char × Nat :=
  let digits := Nat.toDigits 10 n
  if digits.length ≤ count then
    (digits ++ List.replicate (count - digits.length) '0', digits.length - 1)
  else
    let unit := Nat.pow 10 (digits.length - count)
    let doubled := 2 * (n % unit)
    let quotient := n / unit
    let rounded :=
      if doubled < unit then quotient
      else if unit < doubled then quotient + 1
      else quotient + quotient % 2
    let kept := Nat.toDigits 10 rounded
    (kept.take count, digits.length - 1 + (kept.length - count))

/-- Digits without zeros at the end. -/
def withoutTrailingZeros (digits : List Char) : List Char :=
  (digits.reverse.dropWhile (· = '0')).reverse

/-- A point and digits; the point stands alone only in the alternate form. -/
def fraction (format : FieldFormat) (digits : List Char) : List Char :=
  if digits.isEmpty && !format.alternate then [] else '.' :: digits

/-- An exponent with its mark, a sign and at least two digits. -/
def exponent (mark : Char) (place : Nat) : List Char :=
  let digits := Nat.toDigits 10 place
  mark :: '+' :: (List.replicate (2 - digits.length) '0' ++ digits)

/-- A number with an exponent. -/
def scientific (format : FieldFormat) (mark : Char) (n : Nat) : String :=
  let (digits, place) := significant (format.precision.getD 6 + 1) n
  format.assemble [] (digits.take 1) (format.fraction (digits.drop 1) ++ exponent mark place)

/-- A number with a fixed number of places. -/
def fixed (format : FieldFormat) (n : Nat) (unit : List Char) : String :=
  let places := List.replicate (format.precision.getD 6) '0'
  format.assemble [] (Nat.toDigits 10 n) (format.fraction places ++ unit)

/-- A number with a count of significant digits, with an exponent if it is too long. -/
def general (format : FieldFormat) (mark : Char) (n : Nat) : String :=
  let count := max (format.precision.getD 6) 1
  let (digits, place) := significant count n
  let shorten (digits : List Char) :=
    if format.alternate then digits else withoutTrailingZeros digits
  if place < count then
    format.assemble [] (digits.take (place + 1))
      (format.fraction (shorten (digits.drop (place + 1))))
  else
    format.assemble [] (digits.take 1)
      (format.fraction (shorten (digits.drop 1)) ++ exponent mark place)

/-- The digits of a number in another base, after the mark of the base in the alternate
form. -/
def inBase (format : FieldFormat) (base : Nat) (mark : Char) (n : Nat) : String :=
  let digits := Nat.toDigits base n
  let digits := if format.code = 'X' then digits.map Char.toUpper else digits
  format.assemble (if format.alternate then ['0', mark] else []) digits []

/-- The character with a number as its code. -/
def character (format : FieldFormat) (n : Nat) : Except FormatError String :=
  if format.sign.isSome then throw .signWithCharacter
  else if format.alternate then throw .alternateWithCharacter
  else if 0x10FFFF < n then throw .characterRange
  else pure (format.pad [] [Char.ofNat n])

/-- A whole number under a format. -/
def writeNumber (format : FieldFormat) (n : Nat) : Except FormatError String :=
  match format.code with
  | 'e' | 'E' => pure (format.scientific format.code n)
  | 'f' | 'F' => pure (format.fixed n [])
  | 'g' => pure (format.general 'e' n)
  | 'G' => pure (format.general 'E' n)
  | '%' => pure (format.fixed (100 * n) ['%'])
  | code =>
    if !"bcdoxXn".toList.contains code then throw (.unknownCode code .number)
    else if format.precision.isSome then throw .precisionNotAllowed
    else if format.zeroCoercion then throw (.zeroCoercionNotAllowed .number)
    else match code with
      | 'c' => format.character n
      | 'b' => pure (format.inBase 2 'b' n)
      | 'o' => pure (format.inBase 8 'o' n)
      | 'x' => pure (format.inBase 16 'x' n)
      | 'X' => pure (format.inBase 16 'X' n)
      | _ => pure (format.assemble [] (Nat.toDigits 10 n) [])

/-- A text under a format, cut to the precision. -/
def writeText (format : FieldFormat) (s : String) : Except FormatError String :=
  if format.code ≠ 's' then throw (.unknownCode format.code .text)
  else if format.sign = some ' ' then throw .spaceNotAllowed
  else if format.sign.isSome then throw .signNotAllowed
  else if format.zeroCoercion then throw (.zeroCoercionNotAllowed .text)
  else if format.alternate then throw .alternateNotAllowed
  else if format.alignment = .inside then throw .alignmentNotAllowed
  else
    let cs := s.toList
    pure (format.pad [] (match format.precision with
      | some count => cs.take count
      | none => cs))

end FieldFormat

end TuneGraph.Text
