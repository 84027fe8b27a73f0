import TuneGraph.Document.Basic
import TuneGraph.Document.Yaml.Timestamp
import TuneGraph.Text.Case

/-! # Scalars of YAML 1.1

A scalar without quotes stands for the value that its spelling suggests: null, a truth
value, an integer in one of five notations, a real number, a point in time, or else a text. A
real number has to have a point, and an exponent has to have a sign. A tag asks for a value of
one kind whatever the spelling suggests.
-/

namespace TuneGraph.Yaml

/-- Spellings of null. -/
def nullWords : List String := ["", "~", "null", "Null", "NULL"]

/-- Spellings of true. -/
def trueWords : List String :=
  ["yes", "Yes", "YES", "true", "True", "TRUE", "on", "On", "ON"]

/-- Spellings of false. -/
def falseWords : List String :=
  ["no", "No", "NO", "false", "False", "FALSE", "off", "Off", "OFF"]

/-- A number without its sign. -/
def splitSign : List Char → Bool × List Char
  | '-' :: rest => (true, rest)
  | '+' :: rest => (false, rest)
  | rest => (false, rest)

/-- The number that digits of a base denote; underscores are passed over. Without any digit
there is none. -/
def ofDigitsIn? (base : Nat) (cs : List Char) : Option Nat :=
  let values := cs.filterMap fun c =>
    if '0' ≤ c ∧ c ≤ '9' then some (c.toNat - 48)
    else if 'a' ≤ c ∧ c ≤ 'f' then some (c.toNat - 87)
    else if 'A' ≤ c ∧ c ≤ 'F' then some (c.toNat - 55)
    else none
  if values.isEmpty then none else some (values.foldl (fun n digit => base * n + digit) 0)

/-- The number that digits of a base denote, of which there has to be one. -/
def inBase (base : Nat) (cs : List Char) : Except ScalarFault Nat :=
  match ofDigitsIn? base cs with
  | some n => pure n
  | none => throw (.noInteger base (String.ofList (cs.filter (· ≠ '_'))))

/-- The number that decimal digits denote, of which there may be too many. -/
def decimal (cs : List Char) : Except ScalarFault Nat :=
  let digits := cs.filter Numeral.isDigit
  if digits.length ≤ Numeral.digitLimit then pure (Numeral.ofDigits digits)
  else throw (.longInteger digits.length)

/-- A digit or an underscore. -/
def isDigitLike (c : Char) : Bool := Numeral.isDigit c || c = '_'

/-- A digit of a base or an underscore. -/
def isDigitLikeIn (base : Nat) (c : Char) : Bool :=
  c = '_' || ('0' ≤ c && c ≤ '9' && c.toNat - 48 < base) ||
    (base == 16 && (('a' ≤ c && c ≤ 'f') || ('A' ≤ c && c ≤ 'F')))

/-- One part of a number in base sixty after the first: up to two digits below sixty. -/
def isSixtieth (cs : List Char) : Bool :=
  match cs with
  | [d] => Numeral.isDigit d
  | [t, d] => '0' ≤ t && t ≤ '5' && Numeral.isDigit d
  | _ => false

/-- The parts of a number in base sixty, of which there are at least two. -/
def sixtieths? (cs : List Char) : Option (List (List Char)) :=
  match cs.splitOn ':' with
  | first :: second :: rest =>
    if first.head?.any Numeral.isDigit && first.all isDigitLike &&
        (second :: rest).all isSixtieth then some (first :: second :: rest)
    else none
  | _ => none

/-- The number that parts in base sixty denote. -/
def ofSixtieths (parts : List (List Char)) : Nat :=
  parts.foldl (fun n part => 60 * n + (ofDigitsIn? 10 part).getD 0) 0

/-- An integer without a sign: binary, octal, hexadecimal, decimal, or in base sixty. -/
def magnitude? : List Char → Option (Except ScalarFault Nat)
  | '0' :: 'b' :: digits =>
    if !digits.isEmpty && digits.all (isDigitLikeIn 2) then some (inBase 2 digits) else none
  | '0' :: 'x' :: digits =>
    if !digits.isEmpty && digits.all (isDigitLikeIn 16) then some (inBase 16 digits) else none
  | ['0'] => some (pure 0)
  | '0' :: digits =>
    if digits.all (isDigitLikeIn 8) then some (inBase 8 ('0' :: digits)) else none
  | cs =>
    if !cs.head?.any Numeral.isDigit then none
    else if cs.all isDigitLike then some (decimal cs)
    else (sixtieths? cs).map fun parts =>
      parts.foldlM (fun n part => do return 60 * n + (← decimal part)) 0

/-- A number with its sign. -/
def signed (negative : Bool) (n : Nat) : Int := if negative then -(n : Int) else n

/-- An integer. -/
def integer? (cs : List Char) : Option (Except ScalarFault Int) :=
  let (negative, rest) := splitSign cs
  (magnitude? rest).map fun read => do return signed negative (← read)

/-- An exponent: a mark, a sign and digits. -/
def exponent? : List Char → Option Int
  | [] => some 0
  | mark :: sign :: digits =>
    if (mark = 'e' || mark = 'E') && (sign = '+' || sign = '-') && !digits.isEmpty &&
        digits.all Numeral.isDigit then
      let power : Int := Numeral.ofDigits digits
      some (if sign = '-' then -power else power)
    else none
  | _ => none

/-- A number with a point. Before the point stands at least one digit unless one follows
it. -/
def pointed? (cs : List Char) : Option Binary64 :=
  let whole := cs.takeWhile isDigitLike
  match cs.drop whole.length with
  | '.' :: rest =>
    let fraction := rest.takeWhile isDigitLike
    let lead := if whole.isEmpty then fraction else whole
    if !lead.head?.any Numeral.isDigit then none
    else (exponent? (rest.drop fraction.length)).map fun exponent =>
      let whole := whole.filter Numeral.isDigit
      let fraction := fraction.filter Numeral.isDigit
      Binary64.ofDecimal (Numeral.ofDigits (whole ++ fraction)) (exponent - fraction.length)
  | _ => none

/-- A number in base sixty with a point. -/
def pointedSixtieths? (cs : List Char) : Option Binary64 :=
  let whole := cs.takeWhile (· != '.')
  match cs.drop whole.length with
  | '.' :: fraction =>
    if !fraction.all isDigitLike then none
    else (sixtieths? whole).map fun parts =>
      let digits := fraction.filter Numeral.isDigit
      let scale := Nat.pow 10 digits.length
      Binary64.ofRatio (ofSixtieths parts * scale + Numeral.ofDigits digits) scale
  | _ => none

/-- A real number. A number that starts with its point has no sign, unless it is
infinite. -/
def real? (cs : List Char) : Option Binary64 :=
  let (negative, rest) := splitSign cs
  let word := String.ofList rest
  if [".inf", ".Inf", ".INF"].contains word then some (Binary64.withSign negative Binary64.infinity)
  else if [".nan", ".NaN", ".NAN"].contains (String.ofList cs) then some Binary64.nan
  else if rest.head? = some '.' && rest.length < cs.length then none
  else ((pointed? rest).or (pointedSixtieths? rest)).map (Binary64.withSign negative)

/-- The value that a plain scalar stands for. -/
def plainValue (word : String) : Except ScalarFault Datum :=
  let cs := word.toList
  if nullWords.contains word then pure .null
  else if trueWords.contains word then pure (.boolean true)
  else if falseWords.contains word then pure (.boolean false)
  else match integer? cs with
    | some read => return .integer (← read)
    | none => match real? cs with
      | some number => pure (.real number)
      | none => match Timestamp.read? false cs with
        | some point => return .text (← point.value)
        | none => pure (.text word)

/-- The truth value of a word in any case. -/
def truthValue (word : String) : Except ScalarFault Bool :=
  let word := Text.lower word
  if trueWords.contains word then pure true
  else if falseWords.contains word then pure false
  else throw (.noTruthValue word)

/-- A decimal integer that has been typed freely. -/
def freeDecimal (cs : List Char) : Except ScalarFault Int :=
  let word := String.ofList cs
  match Numeral.freeInteger? word with
  | some i => pure i
  | none => match (Numeral.plain? word).filter fun cs => (Numeral.integer? cs).isSome with
    | some cs => throw (.longInteger (cs.filter Numeral.isDigit).length)
    | none => throw (.noInteger 10 word)

/-- Digits of a base, and nothing else. -/
def strictlyInBase (base : Nat) (cs : List Char) : Except ScalarFault Nat :=
  if cs.all (isDigitLikeIn base) then inBase base cs
  else throw (.noInteger base (String.ofList cs))

/-- The integer that a word is taken for. -/
def integerOf (word : String) : Except ScalarFault Int := do
  let cs := word.toList.filter (· ≠ '_')
  let (negative, cs) := splitSign cs
  let sign (i : Int) : Int := if negative then -i else i
  match cs with
  | [] => throw .noDigits
  | ['0'] => return 0
  | '0' :: 'b' :: digits => return sign (← strictlyInBase 2 digits)
  | '0' :: 'x' :: digits => return sign (← strictlyInBase 16 digits)
  | '0' :: _ => return sign (← strictlyInBase 8 cs)
  | cs => return sign (← (cs.splitOn ':').foldlM (fun n part => do
      return 60 * n + (← freeDecimal part)) 0)

/-- The real number that a word is taken for. -/
def realOf (word : String) : Except ScalarFault Binary64 :=
  let cs := word.toList.filter (· ≠ '_')
  if cs.isEmpty then throw .noDigits
  else match (real? cs).or ((Numeral.freeReal? (String.ofList cs)).or (real? (cs ++ ['.']))) with
    | some number => pure number
    | none => throw (.noReal (Text.lower (String.ofList (splitSign cs).2)))

/-- The text of the point in time that a word is taken for. -/
def timeOf (word : String) : Except ScalarFault String :=
  match Timestamp.read? true word.toList with
  | some point => point.value
  | none => throw .noTime

end TuneGraph.Yaml
