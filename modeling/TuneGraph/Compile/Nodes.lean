import TuneGraph.Graph.Basic
import TuneGraph.Score.Encoding

/-! # The nodes of headers, lines and notes

Every staff begins with a header of seventeen nodes: a start, its title and voice name, its
meter and key, and an instrument-setter whose body will hold the first line. Four nodes
name a line: a line-call, a line-label, its text and a trailer. Nine nodes make a note.
-/

namespace TuneGraph

/-- A payload with one value. -/
def valuePayload (value : Datum) : Option (List (String × Datum)) := some [("value", value)]

/-- A payload that says whether a block is shown folded. -/
def collapsedPayload (collapsed : Bool) : Option (List (String × Datum)) :=
  some [("collapsed", .boolean collapsed)]

/-- Where a stack of blocks stands on the canvas. -/
def stackPosition : Int × Int := (100, 100)

namespace Header

/-- The number of nodes of a header. -/
def width : Nat := 17

/-- Where the instrument-setter stands in a header. -/
def instrumentOffset : Nat := 14

/-- The nodes of a header from the id `b` on. -/
def nodes (b : Int) (title voiceName : String) (meter : Meter) (key : KeySignature)
    (instrument : String) : List Node :=
  [{ id := b, kind := .start, links := [none, some (b + 1), none]
     payload := collapsedPayload false, position := stackPosition },
   { id := b + 1, kind := .print, links := [some b, some (b + 2), some (b + 3)] },
   { id := b + 2, kind := .text, links := [some (b + 1)], payload := valuePayload (.text title) },
   { id := b + 3, kind := .displayNameSetter
     links := [some (b + 1), some (b + 4), some (b + 5)] },
   { id := b + 4, kind := .text, links := [some (b + 3)]
     payload := valuePayload (.text voiceName) },
   { id := b + 5, kind := .meter
     links := [some (b + 3), some (b + 6), some (b + 7), some (b + 10)] },
   { id := b + 6, kind := .number, links := [some (b + 5)]
     payload := valuePayload (.integer meter.numerator) },
   { id := b + 7, kind := .divide, links := [some (b + 5), some (b + 8), some (b + 9)] },
   { id := b + 8, kind := .number, links := [some (b + 7)], payload := valuePayload (.integer 1) },
   { id := b + 9, kind := .number, links := [some (b + 7)]
     payload := valuePayload (.integer meter.denominator) },
   { id := b + 10, kind := .vspace, links := [some (b + 5), some (b + 11)] },
   { id := b + 11, kind := .keySetter
     links := [some (b + 10), some (b + 12), some (b + 13), some (b + 14)] },
   { id := b + 12, kind := .noteName, links := [some (b + 11)]
     payload := valuePayload (.text key.tonic) },
   { id := b + 13, kind := .modeName, links := [some (b + 11)]
     payload := valuePayload (.text key.modeName) },
   { id := b + 14, kind := .instrumentSetter
     links := [some (b + 11), some (b + 15), none, some (b + 16)] },
   { id := b + 15, kind := .voiceName, links := [some (b + 14)]
     payload := valuePayload (.text instrument) },
   { id := b + 16, kind := .hidden, links := [some (b + 14), none] }]

end Header

namespace Wrapper

/-- The number of nodes that name a line. -/
def width : Nat := 4

/-- The nodes that name a line from the id `b` on, between the call of the previous line
and the first note. -/
def nodes (b : Int) (label : String) (previousCall : Option Int) (first : Option Int := none) :
    List Node :=
  [{ id := b, kind := .lineCall, links := [previousCall, none]
     payload := valuePayload (.text label) },
   { id := b + 1, kind := .lineLabel, links := [none, some (b + 2), some (b + 3), none]
     payload := collapsedPayload false, position := stackPosition },
   { id := b + 2, kind := .text, links := [some (b + 1)], payload := valuePayload (.text label) },
   { id := b + 3, kind := .hidden, links := [some (b + 1), first] }]

end Wrapper

namespace Cluster

/-- The number of nodes of a note. -/
def width : Nat := 9

/-- The nodes of a note from the id `b` on, between a previous node and, if there is one,
the next note. -/
def nodes (b previous : Int) (encoded : EncodedNote) (next : Option Int := none) : List Node :=
  [{ id := b, kind := .noteRoot
     links := [some previous, some (b + 1), some (b + 4), some (b + 8)]
     payload := collapsedPayload true },
   { id := b + 1, kind := .divide, links := [some b, some (b + 2), some (b + 3)] },
   { id := b + 2, kind := .number, links := [some (b + 1)]
     payload := valuePayload (.integer encoded.numerator) },
   { id := b + 3, kind := .number, links := [some (b + 1)]
     payload := valuePayload (.integer encoded.denominator) },
   { id := b + 4, kind := .vspace, links := [some b, some (b + 5)] },
   { id := b + 5, kind := .pitch, links := [some (b + 4), some (b + 6), some (b + 7), none] },
   { id := b + 6, kind := .noteName, links := [some (b + 5)]
     payload := valuePayload (.text encoded.name) },
   { id := b + 7, kind := .number, links := [some (b + 5)]
     payload := valuePayload (.integer encoded.octave) },
   { id := b + 8, kind := .hidden, links := [some b, next] }]

end Cluster

end TuneGraph
