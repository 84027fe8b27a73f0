import TuneGraph.Number.Binary64
import TuneGraph.Text.Blank
import TuneGraph.Text.Case

/-! # Scores

A tune is a sequence of lines, a line has one staff per part, and a staff has voices of
notes and bar lines together with its key and, if it states one, its meter. A staff index
names the same part in every line, although a line may lack the later parts.
-/

namespace TuneGraph

/-- A pitch of a note: its position on the staff, with middle C at zero, and its letter
with octave marks. -/
structure Pitch where
  position : Int := 0
  name : String := "C"
  /-- An accidental that stands before the note itself. -/
  accidental : Option String := none
  deriving DecidableEq, Repr

/-- A sharp or flat that the key puts on a letter. -/
structure KeyAccidental where
  acc : String
  note : String
  deriving DecidableEq, Repr

/-- The key of a staff. -/
structure KeySignature where
  root : String := "C"
  /-- The accidental of the root: `#`, `b` or nothing. -/
  acc : String := ""
  /-- The mode as it was written. -/
  mode : String := ""
  accidentals : List KeyAccidental := []
  deriving DecidableEq, Repr

/-- The spellings of the minor mode. -/
def KeySignature.minorModes : List String := ["m", "min", "minor"]

/-- Whether the mode is one of the spellings of minor, up to case and blanks. -/
def KeySignature.isMinor (key : KeySignature) : Bool :=
  minorModes.contains (Text.lower (Text.strip key.mode))

/-- A time signature; both numbers are positive. -/
structure Meter where
  numerator : Int := 4
  denominator : Int := 4
  numerator_pos : 0 < numerator := by decide
  denominator_pos : 0 < denominator := by decide
  deriving DecidableEq, Repr

/-- The meter where none is stated. -/
def Meter.common : Meter := {}

/-- The length of a note that states none: a quarter. -/
def Note.defaultDuration : Binary64 := Binary64.ofRatio 1 4

/-- A note; a chord has several pitches. -/
structure Note where
  pitches : List Pitch := []
  /-- The length as a fraction of a whole note. -/
  duration : Binary64 := Note.defaultDuration
  /-- The factor of a tuplet that begins here. -/
  startTriplet : Option Int := none
  /-- Whether a tuplet ends after this note. -/
  endTriplet : Bool := false
  deriving DecidableEq, Repr

/-- The kinds of bar lines that matter. -/
inductive BarType where
  | plain
  | repeatOpen
  | repeatClose
  /-- The end of one repeat and the beginning of the next. -/
  | doubleRepeat
  deriving DecidableEq, Repr

namespace BarType

/-- All kinds of bar lines. -/
def all : List BarType := [plain, repeatOpen, repeatClose, doubleRepeat]

/-- The name of a kind. -/
def name : BarType → String
  | plain => "plain"
  | repeatOpen => "repeat-open"
  | repeatClose => "repeat-close"
  | doubleRepeat => "double-repeat"

/-- The kind of a name. -/
def ofName? (name : String) : Option BarType := all.find? (·.name == name)

/-- Whether a repeat begins at this bar. -/
def opens : BarType → Bool
  | repeatOpen | doubleRepeat => true
  | plain | repeatClose => false

/-- Whether a repeat ends at this bar. -/
def closes : BarType → Bool
  | repeatClose | doubleRepeat => true
  | plain | repeatOpen => false

end BarType

/-- What stands in a voice. -/
inductive Event where
  | note (note : Note)
  | bar (type : BarType)
  deriving DecidableEq, Repr

/-- Whether an event is a note. -/
def Event.isNote : Event → Bool
  | .note _ => true
  | .bar _ => false

/-- The note of an event. -/
def Event.note? : Event → Option Note
  | .note value => some value
  | .bar _ => none

/-- A voice: notes and bars in order. -/
abbrev Voice := List Event

/-- The notes of a voice. -/
def Voice.notes (voice : Voice) : List Note := voice.filterMap Event.note?

/-- One part of one line. -/
structure Staff where
  key : KeySignature := {}
  /-- The meter, if the staff states one. -/
  meter : Option Meter := none
  voices : List Voice := []
  deriving DecidableEq, Repr

/-- The notes of all voices. -/
def Staff.notes (staff : Staff) : List Note := staff.voices.flatMap Voice.notes

/-- A system of the score: one staff per part. -/
structure TuneLine where
  staves : List Staff := []
  deriving DecidableEq, Repr

/-- A tune with what is known about it. -/
structure Tune where
  schema : String := "tune/v1"
  /-- The name under which the tune is stored. -/
  name : String
  title : String := "title"
  instrument : String := "guitar"
  lines : List TuneLine := []
  deriving DecidableEq, Repr

namespace Tune

/-- The number of parts of the longest line. -/
def staffCount (tune : Tune) : Nat :=
  tune.lines.foldl (fun most line => max most line.staves.length) 0

/-- The staves of one part, line by line; lines that lack the part are passed over. -/
def part (tune : Tune) (index : Nat) : List Staff := tune.lines.filterMap (·.staves[index]?)

/-- The parts of a tune, by staff index. -/
def parts (tune : Tune) : List (List Staff) := (List.range tune.staffCount).map tune.part

/-- The number of notes on all staves. -/
def noteCount (tune : Tune) : Nat :=
  (tune.lines.flatMap fun line => line.staves.flatMap Staff.notes).length

end Tune

end TuneGraph
