import TuneGraph.Score.Basic

/-! # Repeat markers

A marker is a range of lines of one staff that is to be repeated, both ends included. It is
made by the bar that opens the repeat and has no end until a closing bar resolves it.
Closing bars resolve open markers first in, first out.
-/

namespace TuneGraph

/-- A repeat range. -/
structure RepeatMarker where
  startLine : Int
  /-- The last line, or `RepeatMarker.unresolved`. -/
  endLine : Int := -1
  deriving DecidableEq, Repr

namespace RepeatMarker

/-- The end of a marker that no bar has closed. -/
def unresolved : Int := -1

/-- Whether a bar has closed the marker. -/
def isResolved (marker : RepeatMarker) : Bool := marker.endLine != unresolved

/-- Whether a range holds another one. -/
def contains (outer inner : RepeatMarker) : Bool :=
  outer.startLine ≤ inner.startLine && inner.endLine ≤ outer.endLine

/-- Whether a range starts inside another one and ends after it. -/
def runsOver (later earlier : RepeatMarker) : Bool :=
  earlier.startLine < later.startLine && later.startLine ≤ earlier.endLine &&
    earlier.endLine < later.endLine

/-- Whether two ranges meet and neither holds the other. -/
def partiallyOverlaps (a b : RepeatMarker) : Bool := b.runsOver a || a.runsOver b

/-- Markers with a new open one. -/
def openAt (line : Int) (markers : List RepeatMarker) : List RepeatMarker :=
  markers ++ [{ startLine := line }]

/-- Markers with the earliest open one resolved; without an open one nothing happens. -/
def closeAt (line : Int) : List RepeatMarker → List RepeatMarker
  | [] => []
  | marker :: rest =>
    if marker.isResolved then marker :: closeAt line rest
    else { marker with endLine := line } :: rest

/-- Markers after a bar. A bar closes before it opens, and it opens on the next line if no
note follows it on its own. -/
def atBar (type : BarType) (line : Int) (notesFollow : Bool) (markers : List RepeatMarker) :
    List RepeatMarker :=
  let markers := if type.closes then closeAt line markers else markers
  if type.opens then openAt (if notesFollow then line else line + 1) markers else markers

/-- Markers after the bars of a voice. -/
def afterVoice (line : Int) (markers : List RepeatMarker) : Voice → List RepeatMarker
  | [] => markers
  | .note _ :: rest => afterVoice line markers rest
  | .bar type :: rest => afterVoice line (atBar type line (rest.any Event.isNote) markers) rest

end RepeatMarker

end TuneGraph
