import TuneGraph.Score.Reading

/-! # Writing tunes as documents

A tune is stored in the shape in which notation parsers deliver it, so that what was
written is read back by the same reader.
-/

namespace TuneGraph

/-- A pitch as a mapping. -/
def Pitch.document (pitch : Pitch) : Datum :=
  .mapping ([("pitch", .integer pitch.position), ("name", .text pitch.name)] ++
    (pitch.accidental.map fun word => ("accidental", Datum.text word)).toList)

/-- A key as a mapping. -/
def KeySignature.document (key : KeySignature) : Datum :=
  .mapping [("root", .text key.root), ("acc", .text key.acc), ("mode", .text key.mode),
    ("accidentals", .list (key.accidentals.map fun accidental =>
      .mapping [("acc", .text accidental.acc), ("note", .text accidental.note)]))]

/-- A meter as a mapping. -/
def Meter.document (meter : Meter) : Datum :=
  .mapping [("type", .text "specified"),
    ("value", .list [.mapping [("num", .integer meter.numerator),
      ("den", .integer meter.denominator)]])]

/-- The name of a bar in a document. -/
def BarType.elementName (type : BarType) : String :=
  ((Reading.barTypes.find? (·.2 == type)).map (·.1)).getD "bar_thin"

/-- A note as a mapping; a tuplet is mentioned only where it begins or ends. -/
def Note.document (note : Note) : Datum :=
  .mapping ([("el_type", .text "note"), ("duration", .real note.duration),
      ("pitches", .list (note.pitches.map Pitch.document))] ++
    (match note.startTriplet with
      | some factor => if factor = 0 then [] else [("startTriplet", .integer factor)]
      | none => []) ++
    (if note.endTriplet then [("endTriplet", .boolean true)] else []))

/-- An event as a mapping. -/
def Event.document : Event → Datum
  | .note value => value.document
  | .bar type => .mapping [("el_type", .text "bar"), ("type", .text type.elementName)]

/-- A staff as a mapping; without a meter there is no entry for it. -/
def Staff.document (staff : Staff) : Datum :=
  .mapping ([("key", staff.key.document),
      ("voices", .list (staff.voices.map fun voice => .list (voice.map Event.document)))] ++
    (staff.meter.map fun meter => ("meter", meter.document)).toList)

/-- A line as a mapping. -/
def TuneLine.document (line : TuneLine) : Datum :=
  .mapping [("staff", .list (line.staves.map Staff.document))]

/-- The document that a tune is stored as. -/
def Tune.document (tune : Tune) : Datum :=
  .mapping [("schema", .text tune.schema), ("name", .text tune.name),
    ("metaText", .mapping [("title", .text tune.title), ("instruction", .text tune.instrument)]),
    ("lines", .list (tune.lines.map TuneLine.document))]

end TuneGraph
