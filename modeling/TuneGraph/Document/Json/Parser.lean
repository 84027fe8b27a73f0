import TuneGraph.Document.Basic
import TuneGraph.Number.Numeral
import TuneGraph.Text.Surrogate

/-! # Reading JSON

A reader of JSON texts that also takes the names of the infinities and of NaN as numbers.
The last value of a repeated name wins. A text that is refused is refused with a cause and
a place; places count characters, and a fault remembers how much of the text was left.
-/

namespace TuneGraph.Json

/-- Why a text is not JSON. -/
inductive Cause where
  | byteOrderMark
  | expectedValue
  | expectedName
  | expectedColon
  | expectedComma
  | extraData
  | unterminatedString
  | controlCharacter
  | invalidEscape
  | invalidUnicodeEscape
  | longInteger (digits : Nat)
  deriving DecidableEq, Repr

namespace Cause

/-- The wording of a cause. -/
def message : Cause → String
  | byteOrderMark => "Unexpected UTF-8 BOM (decode using utf-8-sig)"
  | expectedValue => "Expecting value"
  | expectedName => "Expecting property name enclosed in double quotes"
  | expectedColon => "Expecting ':' delimiter"
  | expectedComma => "Expecting ',' delimiter"
  | extraData => "Extra data"
  | unterminatedString => "Unterminated string starting at"
  | controlCharacter => "Invalid control character at"
  | invalidEscape => "Invalid \\escape"
  | invalidUnicodeEscape => "Invalid \\uXXXX escape"
  | longInteger digits => Numeral.tooLongMessage digits

end Cause

/-- A cause and the number of characters that were left where it arose. -/
structure Fault where
  cause : Cause
  remaining : Nat
  deriving DecidableEq, Repr

/-- The lines of a text before a place: how many are complete, and the length of the
last. -/
def lineAndColumn (before : List Char) : Nat × Nat :=
  (before.count '\n' + 1, (before.reverse.takeWhile (· != '\n')).length + 1)

/-- The wording of a fault of `text`. -/
def Fault.message (fault : Fault) (text : String) : String :=
  match fault.cause with
  | .longInteger digits => (Cause.longInteger digits).message
  | cause =>
    let cs := text.toList
    let place := cs.length - fault.remaining
    let (line, column) := lineAndColumn (cs.take place)
    cause.message ++ ": line " ++ toString line ++ " column " ++ toString column ++
      " (char " ++ toString place ++ ")"

/-- A fault at the beginning of what is left. -/
def faultAt {α : Type} (cause : Cause) (rest : List Char) : Except Fault α :=
  .error ⟨cause, rest.length⟩

/-- White space between the tokens of JSON. -/
def isSpace (c : Char) : Bool := c = ' ' || c = '\t' || c = '\n' || c = '\r'

/-- A text without its leading white space. -/
def skipSpace (cs : List Char) : List Char := cs.dropWhile isSpace

/-- The value of a hexadecimal digit. -/
def hexDigit? (c : Char) : Option Nat :=
  if '0' ≤ c ∧ c ≤ '9' then some (c.toNat - 48)
  else if 'a' ≤ c ∧ c ≤ 'f' then some (c.toNat - 87)
  else if 'A' ≤ c ∧ c ≤ 'F' then some (c.toNat - 55)
  else none

/-- The code unit of four hexadecimal digits. -/
def codeUnit? (a b c d : Char) : Option Nat := do
  let a ← hexDigit? a
  let b ← hexDigit? b
  let c ← hexDigit? c
  let d ← hexDigit? d
  return ((a * 16 + b) * 16 + c) * 16 + d

/-- The first unit of a surrogate pair. -/
def isHighSurrogate (n : Nat) : Bool := 0xD800 ≤ n && n < 0xDC00

/-- The second unit of a surrogate pair. -/
def isLowSurrogate (n : Nat) : Bool := 0xDC00 ≤ n && n < 0xE000

/-- The characters of a sequence of code points and surrogates. A pair of surrogates is one
character; a lone surrogate is kept as the character that stands for it. -/
def joinUnits : List Nat → List Char
  | first :: second :: rest =>
    if isHighSurrogate first && isLowSurrogate second then
      Char.ofNat (0x10000 + (first - 0xD800) * 0x400 + (second - 0xDC00)) :: joinUnits rest
    else unitChar first :: joinUnits (second :: rest)
  | [unit] => [unitChar unit]
  | [] => []
where
  unitChar (n : Nat) : Char :=
    if isHighSurrogate n || isLowSurrogate n then Text.ofSurrogate n else Char.ofNat n

/-- The character that a letter after a backslash stands for. -/
def escaped? : Char → Option Char
  | '"' => some '"'
  | '\\' => some '\\'
  | '/' => some '/'
  | 'b' => some (Char.ofNat 8)
  | 'f' => some (Char.ofNat 12)
  | 'n' => some '\n'
  | 'r' => some '\r'
  | 't' => some '\t'
  | _ => none

/-- The code points and surrogates of a string up to its closing quote. `opening` is what
was left at the opening quote. The four digits of an escape have to be followed by more
text. -/
def readUnits (opening : Nat) : List Char → Except Fault (List Nat × List Char)
  | [] => .error ⟨.unterminatedString, opening⟩
  | '"' :: rest => .ok ([], rest)
  | ['\\'] => .error ⟨.unterminatedString, opening⟩
  | '\\' :: 'u' :: a :: b :: c :: d :: next :: rest =>
    match codeUnit? a b c d with
    | none => faultAt .invalidUnicodeEscape ('u' :: a :: b :: c :: d :: next :: rest)
    | some unit => do
      let (units, rest) ← readUnits opening (next :: rest)
      return (unit :: units, rest)
  | '\\' :: 'u' :: rest => faultAt .invalidUnicodeEscape ('u' :: rest)
  | '\\' :: letter :: rest =>
    match escaped? letter with
    | none => faultAt .invalidEscape ('\\' :: letter :: rest)
    | some c => do
      let (units, rest) ← readUnits opening rest
      return (c.toNat :: units, rest)
  | c :: rest =>
    if c.toNat < 32 then faultAt .controlCharacter (c :: rest)
    else do
      let (units, rest) ← readUnits opening rest
      return (c.toNat :: units, rest)

/-- A string whose opening quote has just been passed. -/
def readText (rest : List Char) : Except Fault (String × List Char) := do
  let (units, rest) ← readUnits (rest.length + 1) rest
  return (String.ofList (joinUnits units), rest)

/-- The fraction after the whole part of a number, without its point. -/
def splitFraction : List Char → List Char × List Char
  | '.' :: digit :: rest =>
    if Numeral.isDigit digit then
      (digit :: rest.takeWhile Numeral.isDigit, rest.dropWhile Numeral.isDigit)
    else ([], '.' :: digit :: rest)
  | rest => ([], rest)

/-- The exponent of a number, if a mark is followed by digits. -/
def splitExponent : List Char → Option Int × List Char
  | mark :: rest =>
    if mark = 'e' ∨ mark = 'E' then
      let (sign, digits) := match rest with
        | '-' :: digits => (-1, digits)
        | '+' :: digits => (1, digits)
        | digits => ((1 : Int), digits)
      let power := digits.takeWhile Numeral.isDigit
      if power.isEmpty then (none, mark :: rest)
      else (some (sign * Numeral.ofDigits power), digits.dropWhile Numeral.isDigit)
    else (none, mark :: rest)
  | [] => (none, [])

/-- The digits before the point: a single zero, or digits that start with another one. -/
def splitWhole : List Char → List Char × List Char
  | '0' :: rest => (['0'], rest)
  | rest => (rest.takeWhile Numeral.isDigit, rest.dropWhile Numeral.isDigit)

/-- A number: an integer, or a real number if there is a fraction or an exponent. -/
def readNumber (start : List Char) : Except Fault (Datum × List Char) :=
  let (negative, unsigned) := match start with
    | '-' :: rest => (true, rest)
    | rest => (false, rest)
  let (whole, rest) := splitWhole unsigned
  if whole.isEmpty then faultAt .expectedValue start
  else
    let (fraction, rest) := splitFraction rest
    let (exponent, rest) := splitExponent rest
    if fraction.isEmpty && exponent.isNone then
      if Numeral.digitLimit < whole.length then faultAt (.longInteger whole.length) start
      else
        let magnitude : Int := Numeral.ofDigits whole
        .ok (.integer (if negative then -magnitude else magnitude), rest)
    else
      let magnitude := Binary64.ofDecimal (Numeral.ofDigits (whole ++ fraction))
        (exponent.getD 0 - fraction.length)
      .ok (.real (Binary64.withSign negative magnitude), rest)

/-- The names that stand for values. -/
def constants : List (String × Datum) :=
  [("null", .null), ("true", .boolean true), ("false", .boolean false),
   ("NaN", .real Binary64.nan), ("Infinity", .real Binary64.infinity),
   ("-Infinity", .real (Binary64.withSign true Binary64.infinity))]

/-- A value that is neither a string nor a list nor a mapping. -/
def readScalar (cs : List Char) : Except Fault (Datum × List Char) :=
  match constants.find? fun entry => entry.1.toList.isPrefixOf cs with
  | some (name, value) => .ok (value, cs.drop name.length)
  | none => readNumber cs

mutual

/-- A value. The fuel bounds the depth and the number of items together. -/
def readValue : Nat → List Char → Except Fault (Datum × List Char)
  | 0, cs => faultAt .expectedValue cs
  | fuel + 1, cs =>
    match cs with
    | [] => faultAt .expectedValue cs
    | '"' :: rest => do
      let (text, rest) ← readText rest
      return (.text text, rest)
    | '[' :: rest =>
      match skipSpace rest with
      | ']' :: rest => .ok (.list [], rest)
      | rest => do
        let (items, rest) ← readItems fuel rest
        return (.list items, rest)
    | '{' :: rest =>
      match skipSpace rest with
      | '}' :: rest => .ok (.mapping [], rest)
      | rest => do
        let (entries, rest) ← readEntries fuel rest
        return (.ofEntries entries, rest)
    | cs => readScalar cs
termination_by structural fuel => fuel

/-- The items of a list and its closing bracket. -/
def readItems : Nat → List Char → Except Fault (List Datum × List Char)
  | 0, cs => faultAt .expectedValue cs
  | fuel + 1, cs => do
    let (item, rest) ← readValue fuel cs
    match skipSpace rest with
    | ']' :: rest => return ([item], rest)
    | ',' :: rest =>
      let (items, rest) ← readItems fuel (skipSpace rest)
      return (item :: items, rest)
    | rest => faultAt .expectedComma rest
termination_by structural fuel => fuel

/-- The entries of a mapping and its closing brace. -/
def readEntries : Nat → List Char → Except Fault (List (String × Datum) × List Char)
  | 0, cs => faultAt .expectedValue cs
  | fuel + 1, cs =>
    match cs with
    | '"' :: rest => do
      let (name, rest) ← readText rest
      match skipSpace rest with
      | ':' :: rest =>
        let (value, rest) ← readValue fuel (skipSpace rest)
        match skipSpace rest with
        | '}' :: rest => return ([(name, value)], rest)
        | ',' :: rest =>
          let (entries, rest) ← readEntries fuel (skipSpace rest)
          return ((name, value) :: entries, rest)
        | rest => faultAt .expectedComma rest
      | rest => faultAt .expectedColon rest
    | cs => faultAt .expectedName cs
termination_by structural fuel => fuel

end

/-- The value of a JSON text. Each step of the reader consumes a character, so twice the
length of the text is fuel enough. -/
def parse (text : String) : Except Fault Datum := do
  let cs := text.toList
  if cs.head? = some (Char.ofNat 0xFEFF) then faultAt .byteOrderMark cs
  else
    let (value, rest) ← readValue (2 * cs.length + 2) (skipSpace cs)
    match skipSpace rest with
    | [] => return value
    | rest => faultAt .extraData rest

end TuneGraph.Json
