import TuneGraph.Text.FieldFormat
import TuneGraph.Text.Quoted

/-! # Templates

A template is a text with fields between braces. A field names a value, may convert it to
a text with `!`, and may say after a colon how it is written; that part may hold fields
itself. Doubled braces stand for single ones. A template is worked through from left to
right, so the first fault of either its form or its fields is the one reported.
-/

namespace TuneGraph.Text

/-- Why a template cannot be filled in. -/
inductive TemplateError where
  | loneOpening
  | loneClosing
  | unclosedField
  | unclosedFormat
  | braceInName
  | missingConversion
  | textAfterConversion
  | unknownConversion (code : Char)
  | tooDeep
  | emptyAttribute
  | unclosedIndex
  | textAfterIndex
  | format (error : FormatError)
  /-- A field by position; values have names only. -/
  | noPosition (index : Nat)
  /-- A field with a name that no value has. -/
  | noValue (name : String)
  | noAttribute (type : FieldType) (name : String)
  | noItems (type : FieldType)
  deriving DecidableEq, Repr

/-- The wording of a fault. -/
def TemplateError.message : TemplateError → String
  | loneOpening => "Single '\x7b' encountered in format string"
  | loneClosing => "Single '\x7d' encountered in format string"
  | unclosedField => "expected '\x7d' before end of string"
  | unclosedFormat => "unmatched '\x7b' in format spec"
  | braceInName => "unexpected '\x7b' in field name"
  | missingConversion => "end of string while looking for conversion specifier"
  | textAfterConversion => "expected ':' after conversion specifier"
  | unknownConversion code => "Unknown conversion specifier " ++ shownCode code
  | tooDeep => "Max string recursion exceeded"
  | emptyAttribute => "Empty attribute in format string"
  | unclosedIndex => "Missing ']' in format string"
  | textAfterIndex => "Only '.' or '[' may follow ']' in format field specifier"
  | format error => error.message
  | noPosition index =>
    "Replacement index " ++ toString index ++ " out of range for positional args tuple"
  | noValue name => quoted name
  | noAttribute type name => "'" ++ type.name ++ "' object has no attribute '" ++ name ++ "'"
  | noItems type => "'" ++ type.name ++ "' object is not subscriptable"

namespace Template

/-- A field as it stands in a template. -/
structure Field where
  name : List Char
  conversion : Option Char := none
  format : List Char := []
  /-- Whether the format holds fields itself. -/
  nested : Bool := false

/-- A part of a template. -/
inductive Piece where
  | literal (cs : List Char)
  | field (field : Field)

/-- Characters up to a bracket that closes an index, if one does. -/
def splitIndex : List Char → List Char × List Char
  | [] => ([], [])
  | c :: rest =>
    if c = ']' then ([], c :: rest)
    else
      let (index, rest) := splitIndex rest
      (c :: index, rest)

/-- What ends a field name, the name, and the rest. A name may hold indices in brackets,
inside which nothing has a meaning of its own. -/
def splitName (inIndex : Bool) : List Char → Except TemplateError (List Char × Char × List Char)
  | [] => throw .unclosedField
  | c :: rest =>
    if inIndex then do
      let (name, stop, rest) ← splitName (c != ']') rest
      return (c :: name, stop, rest)
    else if c = '{' then throw .braceInName
    else if c = '}' ∨ c = ':' ∨ c = '!' then pure ([], c, rest)
    else do
      let (name, stop, rest) ← splitName (c = '[') rest
      return (c :: name, stop, rest)

/-- The format of a field up to the brace that closes it, with braces inside it balanced. -/
def splitFormat (depth : Nat) : List Char → Except TemplateError (List Char × List Char)
  | [] => throw .unclosedFormat
  | c :: rest =>
    if c = '}' ∧ depth = 0 then pure ([], rest)
    else do
      let depth := if c = '{' then depth + 1 else if c = '}' then depth - 1 else depth
      let (format, rest) ← splitFormat depth rest
      return (c :: format, rest)

/-- A field with a format. -/
def readFormat (name : List Char) (conversion : Option Char) (rest : List Char) :
    Except TemplateError (Field × List Char) := do
  let (format, rest) ← splitFormat 0 rest
  return ({ name, conversion, format, nested := format.contains '{' }, rest)

/-- The field whose opening brace has just been passed. -/
def readField (cs : List Char) : Except TemplateError (Field × List Char) := do
  match ← splitName false cs with
  | (_, '!', []) => throw .missingConversion
  | (name, '!', [conversion]) => readFormat name conversion []
  | (name, '!', conversion :: '}' :: rest) => return ({ name, conversion }, rest)
  | (name, '!', conversion :: ':' :: rest) => readFormat name conversion rest
  | (_, '!', _) => throw .textAfterConversion
  | (name, ':', rest) => readFormat name none rest
  | (name, _, rest) => return ({ name }, rest)

/-- The pieces of a template, up to the first fault in its form. -/
def pieces : Nat → List Char → List (Except TemplateError Piece)
  | 0, _ => []
  | fuel + 1, cs =>
    let plain := cs.takeWhile fun c => c != '{' && c != '}'
    match cs.drop plain.length with
    | [] => [.ok (.literal plain)]
    | '{' :: '{' :: rest => .ok (.literal (plain ++ ['{'])) :: pieces fuel rest
    | '}' :: '}' :: rest => .ok (.literal (plain ++ ['}'])) :: pieces fuel rest
    | ['{'] => [.error .loneOpening]
    | '{' :: rest =>
      match readField rest with
      | .ok (field, rest) => .ok (.literal plain) :: .ok (.field field) :: pieces fuel rest
      | .error fault => [.error fault]
    | _ => [.error .loneClosing]

/-- The value of a field. -/
inductive Value where
  | number (n : Nat)
  | text (s : String)

/-- The type of a value. -/
def Value.type : Value → FieldType
  | number _ => .number
  | text _ => .text

/-- A name that is a number, in the digits of any script. -/
def position? (name : List Char) : Except TemplateError (Option Nat) :=
  if name.isEmpty || !name.all fun c => (digitValue? c).isSome then pure none
  else match FieldFormat.readNumber name with
    | .ok (value, _) => pure value
    | .error fault => throw (.format fault)

/-- The attribute of a number. -/
def attributeOf (name : String) (n : Nat) : Except TemplateError Nat :=
  match name with
  | "real" | "numerator" => pure n
  | "imag" => pure 0
  | "denominator" => pure 1
  | _ => throw (.noAttribute .number name)

/-- A number, or one of its attributes. Steps are names after points; the items that an
index asks for do not exist. -/
def follow (n : Nat) : Nat → List Char → Except TemplateError Nat
  | 0, _ => pure n
  | _ + 1, [] => pure n
  | fuel + 1, '.' :: rest => do
    let name := rest.takeWhile fun c => c != '.' && c != '['
    if name.isEmpty then throw .emptyAttribute
    let next ← attributeOf (String.ofList name) n
    follow next fuel (rest.drop name.length)
  | _ + 1, '[' :: rest => do
    let index := rest.takeWhile (· != ']')
    if index.length = rest.length then throw .unclosedIndex
    let _ ← position? index
    if index.isEmpty then throw .emptyAttribute
    throw (.noItems .number)
  | _ + 1, _ => throw .textAfterIndex

/-- The value that a field names. -/
def lookup (values : List (String × Nat)) (name : List Char) : Except TemplateError Nat := do
  let first := name.takeWhile fun c => c != '.' && c != '['
  if first.isEmpty then throw (.noPosition 0)
  match ← position? first with
  | some index => throw (.noPosition index)
  | none =>
    match values.lookup (String.ofList first) with
    | none => throw (.noValue (String.ofList first))
    | some value => follow value (name.length + 1) (name.drop first.length)

/-- A number as it is, or as a text. -/
def convert (n : Nat) : Option Char → Except TemplateError Value
  | none => pure (.number n)
  | some code =>
    if code = 'r' ∨ code = 's' ∨ code = 'a' then pure (.text (toString n))
    else throw (.unknownConversion code)

/-- A value under a format; without one it is written plainly. -/
def write (value : Value) (format : List Char) : Except FormatError String := do
  match value with
  | .number n =>
    if format.isEmpty then return toString n
    (← FieldFormat.parse .number format).writeNumber n
  | .text s =>
    if format.isEmpty then return s
    (← FieldFormat.parse .text format).writeText s

/-- A template filled in. Formats that hold fields are templates again, one level
deeper. -/
def fillAt (values : List (String × Nat)) : Nat → List Char → Except TemplateError String
  | 0, _ => throw .tooDeep
  | depth + 1, cs => do
    let parts ← (pieces (cs.length + 1) cs).mapM fun piece => do
      match ← piece with
      | .literal cs => return String.ofList cs
      | .field field =>
        let value ← convert (← lookup values field.name) field.conversion
        let format ← if field.nested then fillAt values depth field.format
          else pure (String.ofList field.format)
        match write value format.toList with
        | .ok text => return text
        | .error fault => throw (.format fault)
    return String.join parts

/-- A template filled in with named numbers. -/
def fill (template : String) (values : List (String × Nat)) : Except TemplateError String :=
  fillAt values 2 template.toList

end Template

end TuneGraph.Text
