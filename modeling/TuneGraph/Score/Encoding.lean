import TuneGraph.Score.Basic
import TuneGraph.Number.Approximation

/-! # Block values of notes and keys

A note becomes a spelled letter, an octave number and a length with a numerator and a
denominator. Nothing here fails: what cannot be used falls back to middle C or to a
quarter.
-/

namespace TuneGraph

/-- The glyph of an accidental that goes after a letter; quarter tones have none. -/
def accidentalGlyphs : List (String × String) :=
  [("sharp", "♯"), ("flat", "♭"), ("natural", ""), ("dblsharp", "𝄪"), ("dblflat", "𝄫"),
   ("quartersharp", ""), ("quarterflat", "")]

/-- The glyph of a named accidental. -/
def accidentalGlyph? (name : String) : Option String := accidentalGlyphs.lookup name

/-- A note letter without its octave marks. -/
def withoutOctaveMarks (name : String) : String :=
  String.ofList (name.toList.filter fun c => c != ',' && c != '\'')

/-- The accidental that a key puts on a letter, if it puts one. -/
def KeySignature.accidentalOf? (key : KeySignature) (letter : String) : Option String :=
  (key.accidentals.find? fun accidental =>
    Text.lower (withoutOctaveMarks accidental.note) == Text.lower letter).map (·.acc)

/-- A letter spelled in a key. An accidental on the note itself counts before those of the
key, unless it is unknown. -/
def spell (name : String) (key : Option KeySignature) (accidental : Option String) : String :=
  let letter := withoutOctaveMarks name
  let own := accidental.bind fun word =>
    if word = "" then none else accidentalGlyph? (Text.lower word)
  let fromKey := (key.bind (·.accidentalOf? letter)).map fun word => (accidentalGlyph? word).getD ""
  Text.upper (letter ++ (own.or fromKey).getD "")

/-- The octave of a staff position: seven steps to an octave, and the fourth octave from
middle C upwards. -/
def octaveOf (position : Int) : Int := position.fdiv 7 + 4

/-- A note length as two numbers. -/
structure NoteLength where
  numerator : Int
  denominator : Int
  deriving DecidableEq, Repr

/-- The length of a note: the fraction nearest to its duration with a denominator of at
most `bound`. A duration that is not finite, that is not positive, or that rounds to
zero becomes a quarter, as does every duration when the bound leaves no denominator. -/
def fractionOf (duration : Option Rat) (bound : Int) : Rat :=
  let nearest := match duration with
    | some value => if bound < 1 then mkRat 1 4 else approximate value bound.toNat
    | none => mkRat 1 4
  if nearest.num ≤ 0 then mkRat 1 4 else nearest

/-- The length of a note as block values. Inside a tuplet the denominator is the meter's,
multiplied by the tuplet's factor. -/
def encodeLength (duration : Option Rat) (meterDenominator : Int) (triplet : Option Int)
    (bound : Int) : NoteLength :=
  let fraction := fractionOf duration bound
  { numerator := fraction.num
    denominator := match triplet with
      | some factor => if factor = 0 then fraction.den else meterDenominator * factor
      | none => fraction.den }

/-- The tonic of a key with its glyph. -/
def KeySignature.tonic (key : KeySignature) : String :=
  Text.upper key.root ++ (([("#", "♯"), ("b", "♭")].lookup key.acc).getD "")

/-- The mode of a key, one of two. -/
def KeySignature.modeName (key : KeySignature) : String :=
  if key.isMinor then "minor" else "major"

/-- The values of one note on the canvas. -/
structure EncodedNote where
  name : String
  octave : Int
  numerator : Int
  denominator : Int
  deriving DecidableEq, Repr

/-- The values of a note: of its first pitch, or of middle C if it has none, and of its
length. -/
def Note.encode (note : Note) (key : Option KeySignature) (meterDenominator : Int)
    (triplet : Option Int) (bound : Int) : EncodedNote :=
  let pitch := note.pitches.head?.getD {}
  let length := encodeLength note.duration.toRat? meterDenominator triplet bound
  { name := spell pitch.name key pitch.accidental
    octave := octaveOf pitch.position
    numerator := length.numerator
    denominator := length.denominator }

end TuneGraph
