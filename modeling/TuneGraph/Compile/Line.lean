import TuneGraph.Compile.Nodes

/-! # The chain of a line

A line of a voice becomes four nodes that name it (a line-call, a line-label, its text and
a trailer) and nine nodes for every note. The notes hang together through their hidden
nodes: the trailer leads to the first note and every note to the next. Ids run through the
chain without a gap, so that the node before a note is always the one with the id before.
-/

namespace TuneGraph

namespace Cluster

/-- The nodes of a row of notes from the id `b` on, each led to by the one before. -/
def row (b : Int) : List EncodedNote → List Node
  | [] => []
  | [encoded] => nodes b (b - 1) encoded
  | encoded :: rest => nodes b (b - 1) encoded (some (b + width)) ++ row (b + width) rest

end Cluster

/-- The nodes of a line from the id `b` on. -/
def lineChain (b : Int) (label : String) (previousCall : Option Int)
    (notes : List EncodedNote) : List Node :=
  Wrapper.nodes b label previousCall (if notes.isEmpty then none else some (b + Wrapper.width)) ++
    Cluster.row (b + Wrapper.width) notes

/-- The tuplet factor that applies to a note, given the one before it. -/
def Note.activeTriplet (note : Note) (before : Option Int) : Option Int :=
  match note.startTriplet with
  | some factor => if factor = 0 then before else some factor
  | none => before

/-- The values of the notes of a voice. A tuplet lasts until a note ends it. -/
def Voice.encode (key : KeySignature) (meterDenominator bound : Int) (triplet : Option Int) :
    Voice → List EncodedNote
  | [] => []
  | .bar _ :: rest => Voice.encode key meterDenominator bound triplet rest
  | .note note :: rest =>
    let active := note.activeTriplet triplet
    note.encode (some key) meterDenominator active bound ::
      Voice.encode key meterDenominator bound (if note.endTriplet then none else active) rest

end TuneGraph
