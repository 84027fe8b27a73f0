import TuneGraph.Document.Display

/-! # Checked reading

Data that claims to have a certain shape is checked field by field, and every fault is
reported with its place, not only the first one. `Checked` is the outcome; it is an
applicative whose two sides are both checked before either is refused.
-/

namespace TuneGraph.Schema

/-- What is wrong with a value. -/
inductive Cause where
  | missing
  | textType
  | integerType
  | integerParsing
  | integerSize
  | fractional
  | notFinite
  | realType
  | realParsing
  | booleanType
  | booleanParsing
  | listType
  | recordType (record : String)
  | notConstant (expected : String)
  | notMember (expected : List String)
  | notGreater (bound : Int)
  | notAtLeast (bound : Int)
  | emptyTuneName
  | untaggedType
  | tagMissing (field : String)
  | tagUnknown (field tag : String) (expected : List String)
  deriving DecidableEq, Repr

namespace Cause

/-- The code of a cause. -/
def code : Cause → String
  | missing => "missing"
  | textType => "string_type"
  | integerType => "int_type"
  | integerParsing => "int_parsing"
  | integerSize => "int_parsing_size"
  | fractional => "int_from_float"
  | notFinite => "finite_number"
  | realType => "float_type"
  | realParsing => "float_parsing"
  | booleanType => "bool_type"
  | booleanParsing => "bool_parsing"
  | listType => "list_type"
  | recordType _ => "model_type"
  | notConstant _ => "literal_error"
  | notMember _ => "enum"
  | notGreater _ => "greater_than"
  | notAtLeast _ => "greater_than_equal"
  | emptyTuneName => "value_error"
  | untaggedType => "model_attributes_type"
  | tagMissing _ => "union_tag_not_found"
  | tagUnknown .. => "union_tag_invalid"

/-- Names between single quotes. -/
def marked (name : String) : String := "'" ++ name ++ "'"

/-- Alternatives with commas and a last "or". -/
def alternatives : List String → String
  | [] => ""
  | [name] => marked name
  | [name, last] => marked name ++ " or " ++ marked last
  | name :: rest => marked name ++ ", " ++ alternatives rest

/-- The wording of a cause. -/
def message : Cause → String
  | missing => "Field required"
  | textType => "Input should be a valid string"
  | integerType => "Input should be a valid integer"
  | integerParsing =>
    "Input should be a valid integer, unable to parse string as an integer"
  | integerSize => "Unable to parse input string as an integer, exceeded maximum size"
  | fractional => "Input should be a valid integer, got a number with a fractional part"
  | notFinite => "Input should be a finite number"
  | realType => "Input should be a valid number"
  | realParsing => "Input should be a valid number, unable to parse string as a number"
  | booleanType => "Input should be a valid boolean"
  | booleanParsing => "Input should be a valid boolean, unable to interpret input"
  | listType => "Input should be a valid list"
  | recordType record => "Input should be a valid dictionary or instance of " ++ record
  | notConstant expected => "Input should be " ++ marked expected
  | notMember expected => "Input should be " ++ alternatives expected
  | notGreater bound => "Input should be greater than " ++ toString bound
  | notAtLeast bound => "Input should be greater than or equal to " ++ toString bound
  | emptyTuneName => "Value error, Tune name must not be empty"
  | untaggedType => "Input should be a valid dictionary or object to extract fields from"
  | tagMissing field => "Unable to extract tag using discriminator " ++ marked field
  | tagUnknown field tag expected =>
    "Input tag " ++ marked tag ++ " found using " ++ marked field ++
      " does not match any of the expected tags: " ++ ", ".intercalate (expected.map marked)

end Cause

/-- A step into a value. -/
inductive Step where
  | field (name : String)
  | index (position : Nat)
  deriving DecidableEq, Repr

/-- The text of a step. -/
def Step.text : Step → String
  | .field name => name
  | .index position => toString position

/-- A fault: its cause, the way to it, and the value found there. -/
structure Fault where
  cause : Cause
  location : List Step
  input : Datum
  deriving BEq

namespace Fault

/-- The bytes of an input that a report shows at each end of a long one. -/
def shownBytes : Nat := 25

/-- The longest prefix with at most `budget` bytes. -/
def takeBytes (budget : Nat) : List Char → List Char
  | [] => []
  | c :: rest => if c.utf8Size ≤ budget then c :: takeBytes (budget - c.utf8Size) rest else []

/-- The spelling of an input, cut in the middle when it is longer than fifty bytes. -/
def abridge (spelling : String) : String :=
  if spelling.utf8ByteSize ≤ 2 * shownBytes then spelling
  else
    let cs := spelling.toList
    let front := takeBytes shownBytes cs
    let back := (takeBytes (shownBytes - 1) cs.reverse).reverse
    String.ofList (front ++ '.' :: '.' :: '.' :: back)

/-- What a report shows of an input: its spelling, or that it has none. -/
def shown (input : Datum) : String :=
  (input.literal?).getD ("<unprintable " ++ input.typeName ++ " object>")

/-- The lines that report a fault. -/
def report (fault : Fault) : String :=
  let heading := if fault.location.isEmpty then "" else
    ".".intercalate (fault.location.map Step.text) ++ "\n"
  heading ++ "  " ++ fault.cause.message ++ " [type=" ++ fault.cause.code ++ ", input_value=" ++
    abridge (shown fault.input) ++ ", input_type=" ++ fault.input.typeName ++ "]"

/-- The text that reports the faults of a record. -/
def reportAll (record : String) (faults : List Fault) : String :=
  let count := toString faults.length ++ " validation error" ++
    (if faults.length = 1 then "" else "s") ++ " for " ++ record
  "\n".intercalate (count :: faults.map report)

end Fault

/-- A checked value, or the faults that were found. -/
inductive Checked (α : Type) where
  | accepted (value : α)
  | refused (faults : List Fault)

namespace Checked

/-- The faults of an outcome. -/
def faults {α : Type} : Checked α → List Fault
  | accepted _ => []
  | refused faults => faults

/-- A fault at the value itself. -/
def fault {α : Type} (cause : Cause) (input : Datum) : Checked α :=
  refused [⟨cause, [], input⟩]

instance : Functor Checked where
  map f
    | accepted value => accepted (f value)
    | refused faults => refused faults

instance : Applicative Checked where
  pure := accepted
  seq f x := match f, x () with
    | accepted f, accepted value => accepted (f value)
    | f, x => refused (f.faults ++ x.faults)

/-- The outcome for a part of a larger value. -/
def under {α : Type} (step : Step) : Checked α → Checked α
  | accepted value => accepted value
  | refused faults =>
    refused (faults.map fun fault => { fault with location := step :: fault.location })

/-- A further condition on an accepted value. -/
def require {α β : Type} (x : Checked α) (next : α → Checked β) : Checked β :=
  match x with
  | accepted value => next value
  | refused faults => refused faults

/-- The outcome with its faults as an error. -/
def toExcept {α : Type} : Checked α → Except (List Fault) α
  | accepted value => .ok value
  | refused faults => .error faults

end Checked

/-- The items of a list, each checked. -/
def listFrom {α : Type} (check : Datum → Checked α) (position : Nat) :
    List Datum → Checked (List α)
  | [] => pure []
  | item :: rest =>
    List.cons <$> (check item).under (.index position) <*> listFrom check (position + 1) rest

/-- A list of checked items. -/
def listOf {α : Type} (check : Datum → Checked α) : Datum → Checked (List α)
  | .list items => listFrom check 0 items
  | value => .fault .listType value

/-- A value or null. -/
def optional {α : Type} (check : Datum → Checked α) : Datum → Checked (Option α)
  | .null => pure none
  | value => some <$> check value

/-- The fields of a record. -/
def record {α : Type} (name : String) (check : List (String × Datum) → Checked α) :
    Datum → Checked α
  | .mapping entries => check entries
  | value => .fault (.recordType name) value

/-- A field that has to be there. -/
def required {α : Type} (entries : List (String × Datum)) (name : String)
    (check : Datum → Checked α) : Checked α :=
  match Datum.find? name entries with
  | some value => (check value).under (.field name)
  | none => (Checked.fault .missing (.mapping entries)).under (.field name)

/-- A field with a default. -/
def defaulted {α : Type} (entries : List (String × Datum)) (name : String) (default : α)
    (check : Datum → Checked α) : Checked α :=
  match Datum.find? name entries with
  | some value => (check value).under (.field name)
  | none => pure default

end TuneGraph.Schema
