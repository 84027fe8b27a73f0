import TuneGraph.Schema.Scalar
import TuneGraph.Score.Basic

/-! # Checked scores

Score values in their own shape, field by field: unknown fields are ignored, absent ones
take their defaults, and a field with a value of the wrong kind is a fault.
-/

namespace TuneGraph.Schema

/-- A pitch. -/
def pitch : Datum → Checked Pitch := record "Pitch" fun entries =>
  Pitch.mk <$> defaulted entries "pitch" 0 integer <*> defaulted entries "name" "C" text
    <*> defaulted entries "accidental" none (optional text)

/-- An accidental of a key. -/
def keyAccidental : Datum → Checked KeyAccidental := record "KeyAccidental" fun entries =>
  KeyAccidental.mk <$> required entries "acc" text <*> required entries "note" text

/-- A key. -/
def keySignature : Datum → Checked KeySignature := record "KeySignature" fun entries =>
  KeySignature.mk <$> defaulted entries "root" "C" text <*> defaulted entries "acc" "" text
    <*> defaulted entries "mode" "" text
    <*> defaulted entries "accidentals" [] (listOf keyAccidental)

/-- A meter; both numbers have to be positive. -/
def meter : Datum → Checked Meter := record "Meter" fun entries =>
  (fun (n d : { i : Int // 0 < i }) => Meter.mk n.1 d.1 n.2 d.2)
    <$> defaulted entries "numerator" ⟨_, Meter.common.numerator_pos⟩ (integerAbove 0)
    <*> defaulted entries "denominator" ⟨_, Meter.common.denominator_pos⟩ (integerAbove 0)

/-- A note. -/
def note : Datum → Checked Note := record "Note" fun entries =>
  (fun () => Note.mk) <$> defaulted entries "kind" () (constant "note")
    <*> defaulted entries "pitches" [] (listOf pitch)
    <*> defaulted entries "duration" Note.defaultDuration real
    <*> defaulted entries "start_triplet" none (optional integer)
    <*> defaulted entries "end_triplet" false boolean

/-- The kind of a bar, by its name. -/
def barType (value : Datum) : Checked BarType :=
  match value.text?.bind BarType.ofName? with
  | some type => pure type
  | none => .fault (.notMember (BarType.all.map BarType.name)) value

/-- A bar line. -/
def bar : Datum → Checked BarType := record "Bar" fun entries =>
  (fun () type => type) <$> defaulted entries "kind" () (constant "bar")
    <*> defaulted entries "type" .plain barType

/-- An event; its kind tells notes from bars. -/
def event (value : Datum) : Checked Event :=
  match value with
  | .mapping entries =>
    match Datum.find? "kind" entries with
    | none => .fault (.tagMissing "kind") value
    | some (.text "note") => Event.note <$> (note value).under (.field "note")
    | some (.text "bar") => Event.bar <$> (bar value).under (.field "bar")
    | some tag =>
      .fault (.tagUnknown "kind" (tag.display?.getD (Fault.shown tag)) ["note", "bar"]) value
  | value => .fault .untaggedType value

/-- A staff. -/
def staff : Datum → Checked Staff := record "Staff" fun entries =>
  Staff.mk <$> defaulted entries "key" {} keySignature
    <*> defaulted entries "meter" none (optional meter)
    <*> defaulted entries "voices" [] (listOf (listOf event))

/-- A line. -/
def tuneLine : Datum → Checked TuneLine := record "TuneLine" fun entries =>
  TuneLine.mk <$> defaulted entries "staff" [] (listOf staff)

/-- The name of a tune, without blanks around it; something has to be left. -/
def tuneName (value : Datum) : Checked String :=
  (text value).require fun name =>
    let name := Text.strip name
    if name = "" then .fault .emptyTuneName value else pure name

/-- A tune. -/
def tune : Datum → Checked Tune := record "Tune" fun entries =>
  Tune.mk <$> defaulted entries "schema_version" "tune/v1" text
    <*> required entries "name" tuneName
    <*> defaulted entries "title" "title" text
    <*> defaulted entries "instrument" "guitar" text
    <*> defaulted entries "lines" [] (listOf tuneLine)

end TuneGraph.Schema
