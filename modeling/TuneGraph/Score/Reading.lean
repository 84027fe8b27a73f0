import TuneGraph.Schema.Score
import TuneGraph.Number.Numeral

/-! # Reading the tree of a notation parser

A notation parser describes a tune as a document: a mapping with text about the tune and a
list of lines. The reader is lenient. Elements it does not know are skipped and whatever
cannot be used takes a default. Very little is refused: a document that is no mapping, a
list or a mapping where a name is looked up, numbers that have no integer or no real
value, an integer of too many digits where a text is wanted, and a tune without a usable
name. Of several faults the first one on the way through the document counts.
-/

namespace TuneGraph

/-- Why a document is not read as a tune. -/
inductive ReadError where
  | notMapping
  /-- A list or a mapping, by the name of its type, where a name is looked up. -/
  | notName (typeName : String)
  /-- An infinity where an integer is wanted. -/
  | infinite
  /-- An integer beyond the real numbers where a real number is wanted. -/
  | tooLarge
  /-- A value without a spelling where a text is wanted. -/
  | tooLong
  /-- Faults of the tune that was read. -/
  | refused (faults : List Schema.Fault)

namespace ReadError

/-- The wording of an error. -/
def message : ReadError → String
  | notMapping => "Invalid score data: expected a mapping"
  | notName typeName => "unhashable type: '" ++ typeName ++ "'"
  | infinite => "cannot convert float infinity to integer"
  | tooLarge => "int too large to convert to float"
  | tooLong => Numeral.limitMessage
  | refused faults => Schema.Fault.reportAll "Tune" faults

end ReadError

namespace Reading

/-- An integer in any of the forms that have one. -/
def integer? : Datum → Except ReadError (Option Int)
  | .integer value => pure (some value)
  | .boolean value => pure (some (if value then 1 else 0))
  | .real value => if value.isInfinite then throw .infinite else pure value.truncate?
  | .text value => pure (Numeral.freeInteger? value)
  | .other value => pure value.integer?
  | _ => pure none

/-- A positive integer; the default for anything else. -/
def positive (value : Datum) (default : Int) : Except ReadError Int := do
  match ← integer? value with
  | some i => return if 0 < i then i else default
  | none => return default

/-- A staff position; zero for anything that is no integer. -/
def position (value : Datum) : Except ReadError Int := do
  return (← integer? value).getD 0

/-- A real number in any of the forms that have one. -/
def real? : Datum → Except ReadError (Option Binary64)
  | .real value => pure (some value)
  | .integer value =>
    match Binary64.ofInt? value with
    | some number => pure (some number)
    | none => throw .tooLarge
  | .boolean value => pure (some (Binary64.ofRatio (if value then 1 else 0) 1))
  | .text value => pure (Numeral.freeReal? value)
  | .other value => pure value.real?
  | _ => pure none

/-- A positive duration; a quarter for anything else. -/
def duration (value : Datum) : Except ReadError Binary64 := do
  match ← real? value with
  | some number => return if number.isPositive then number else Note.defaultDuration
  | none => return Note.defaultDuration

/-- A name that is looked up in a table; nothing that is not a text is in one. -/
def nameIn {α : Type} (table : List (String × α)) : Datum → Except ReadError (Option α)
  | .text name => pure (table.lookup name)
  | .list _ => throw (.notName (Datum.typeName (.list [])))
  | .mapping _ => throw (.notName (Datum.typeName (.mapping [])))
  | .other value => if value.isHashable then pure none else throw (.notName value.typeName)
  | _ => pure none

/-- Meters with a name of their own. -/
def namedMeters : List (String × Meter) :=
  [("common_time", .common), ("cut_time", { numerator := 2, denominator := 2 })]

/-- A meter of two numbers; whatever is not positive counts four. -/
def meterOf (numerator denominator : Int) : Meter :=
  let numerator' := if 0 < numerator then numerator else 4
  let denominator' := if 0 < denominator then denominator else 4
  have numerator_pos : 0 < numerator' := by
    show 0 < if 0 < numerator then numerator else 4
    split <;> omega
  have denominator_pos : 0 < denominator' := by
    show 0 < if 0 < denominator then denominator else 4
    split <;> omega
  { numerator := numerator', denominator := denominator', numerator_pos, denominator_pos }

/-- A meter, if the staff states one: by name, or as the first of its values. -/
def meter (value : Datum) : Except ReadError (Option Meter) := do
  if !value.isMapping then return none
  match ← nameIn namedMeters (value.get "type") with
  | some named => return some named
  | none =>
    match (value.get "value").items with
    | first@(.mapping _) :: _ =>
      let numerator ← positive (first.get "num") 4
      let denominator ← positive (first.get "den") 4
      return some (meterOf numerator denominator)
    | _ => return none

/-- A value as a text. -/
def spelled (value : Datum) : Except ReadError String :=
  match value.display? with
  | some spelling => pure spelling
  | none => throw .tooLong

/-- The text of an entry; empty if the entry is absent. -/
def textOf (value : Datum) (name : String) : Except ReadError String :=
  match value with
  | .mapping entries => ((Datum.find? name entries).map spelled).getD (pure "")
  | _ => pure ""

/-- An accidental of a key; it has to say which letter it belongs to. -/
def keyAccidental? (value : Datum) : Except ReadError (Option KeyAccidental) := do
  if !(value.get "note").isTruthy then return none
  let acc ← textOf value "acc"
  let note ← textOf value "note"
  return some { acc, note }

/-- The key of a staff; the default key if there is none. -/
def keySignature (value : Datum) : Except ReadError KeySignature := do
  let accidentals ← (value.get "accidentals").items.mapM keyAccidental?
  let root ← spelled ((value.get "root").orElse (.text "C"))
  let acc ← spelled ((value.get "acc").orElse (.text ""))
  let mode ← spelled ((value.get "mode").orElse (.text ""))
  return { root, acc, mode, accidentals := accidentals.filterMap id }

/-- The kinds of bars by the names that the parser gives them. -/
def barTypes : List (String × BarType) :=
  [("bar_left_repeat", .repeatOpen), ("bar_right_repeat", .repeatClose),
   ("bar_dbl_repeat", .doubleRepeat)]

/-- A pitch. -/
def pitch (value : Datum) : Except ReadError Pitch := do
  let position ← position (value.get "pitch")
  let name ← spelled ((value.get "name").orElse (.text "C"))
  return { position, name, accidental := (value.get "accidental").text? }

/-- A note. -/
def note (value : Datum) : Except ReadError Note := do
  let pitches ← ((value.get "pitches").items.filter Datum.isMapping).mapM pitch
  let duration ← duration (value.get "duration")
  let triplet ← positive (value.get "startTriplet") 0
  return { pitches, duration
           startTriplet := if triplet = 0 then none else some triplet
           endTriplet := (value.get "endTriplet").isTruthy }

/-- An event, if the element is a note or a bar. -/
def event? (value : Datum) : Except ReadError (Option Event) := do
  match value.get "el_type" with
  | .text "bar" => return some (.bar ((← nameIn barTypes (value.get "type")).getD .plain))
  | .text "note" => return some (.note (← note value))
  | _ => return none

/-- A voice: the events among the mappings of a list. -/
def voice (elements : List Datum) : Except ReadError Voice := do
  return (← (elements.filter Datum.isMapping).mapM event?).filterMap id

/-- The elements of a value that is a list. -/
def elements? : Datum → Option (List Datum)
  | .list items => some items
  | _ => none

/-- A staff; the default staff for anything that is no mapping. -/
def staff (value : Datum) : Except ReadError Staff := do
  let voices ← ((value.get "voices").items.filterMap elements?).mapM voice
  let key ← keySignature (value.get "key")
  let meter ← meter (value.get "meter")
  return { key, meter, voices }

/-- A line; lines without staves hold text and are skipped. -/
def line? (value : Datum) : Except ReadError (Option TuneLine) := do
  match (value.get "staff").items with
  | [] => return none
  | staves => return some { staves := ← staves.mapM staff }

/-- A title as a name: words of plain letters and digits, joined by hyphens. -/
def slug (title : String) : String :=
  let words := ((Text.lower title).toList.splitBy fun a b => isWordChar a == isWordChar b).filter
    fun run => run.head?.any isWordChar
  if words.isEmpty then "title" else String.ofList (List.intercalate ['-'] words)
where
  isWordChar (c : Char) : Bool := ('a' ≤ c && c ≤ 'z') || ('0' ≤ c && c ≤ '9')

/-- The name of a tune before it is checked: the one given, else the one in the document,
else one made from the title. -/
def chosenName (document name : Datum) (title : String) : Except ReadError Datum := do
  if name.isTruthy then return name
  let own ← spelled ((document.get "name").orElse (.text ""))
  return .text (if own = "" then slug title else own)

/-- A name that a tune may have. -/
def checkedName (chosen : Datum) : Except ReadError String :=
  match Schema.tuneName chosen with
  | .accepted name => pure name
  | .refused faults =>
    throw (.refused (faults.map fun fault => { fault with location := [.field "name"] }))

end Reading

/-- The tune of a parsed document. Its name is the one given, else its own, else one made
from the title. -/
def Tune.read (document : Datum) (name : Datum) : Except ReadError Tune := do
  if !document.isMapping then throw .notMapping
  let about := document.get "metaText"
  let title ← Text.lower <$> Reading.spelled ((about.get "title").orElse (.text "title"))
  let instrument ←
    Text.lower <$> Reading.spelled ((about.get "instruction").orElse (.text "guitar"))
  let lines ← (document.get "lines").items.mapM Reading.line?
  let schema ← Reading.spelled ((document.get "schema").orElse (.text "tune/v1"))
  let name ← Reading.checkedName (← Reading.chosenName document name title)
  return { schema, name, title, instrument, lines := lines.filterMap id }

end TuneGraph
