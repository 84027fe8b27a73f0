/-! # Kinds of nodes

The closed set of kinds, the name of each, the block that stands for it on the canvas, and
the number of its link slots. The first slot of a node holds the node before it, where
there is one.
-/

namespace TuneGraph

/-- The kind of a node; the comments give its slots. -/
inductive NodeKind where
  /-- Nothing, first block, nothing. -/
  | start
  /-- Previous, text, next. -/
  | print
  /-- Owner. -/
  | text
  /-- Previous, text, next. -/
  | displayNameSetter
  /-- Previous, beats, divide, next. -/
  | meter
  /-- Owner, numerator, denominator. -/
  | divide
  /-- Owner. -/
  | number
  /-- Previous, next. -/
  | vspace
  /-- Previous, note name, mode name, next. -/
  | keySetter
  /-- Owner. -/
  | noteName
  /-- Owner. -/
  | modeName
  /-- Previous, voice name, body, next. -/
  | instrumentSetter
  /-- Owner. -/
  | voiceName
  /-- Owner, next. -/
  | hidden
  /-- Previous, divide, vspace, hidden. -/
  | noteRoot
  /-- Previous, note name, octave, next. -/
  | pitch
  /-- Previous, next. -/
  | lineCall
  /-- Nothing, name, body, nothing. -/
  | lineLabel
  /-- Previous, count, body, next. -/
  | repetition
  /-- Owner. -/
  | repeatCount
  deriving DecidableEq, Repr

namespace NodeKind

/-- All kinds. -/
def all : List NodeKind :=
  [start, print, text, displayNameSetter, meter, divide, number, vspace, keySetter, noteName,
   modeName, instrumentSetter, voiceName, hidden, noteRoot, pitch, lineCall, lineLabel,
   repetition, repeatCount]

/-- The name of a kind. -/
def name : NodeKind → String
  | start => "start"
  | print => "print"
  | text => "text"
  | displayNameSetter => "display-name-setter"
  | meter => "meter"
  | divide => "divide"
  | number => "number"
  | vspace => "vspace"
  | keySetter => "key-setter"
  | noteName => "notename"
  | modeName => "modename"
  | instrumentSetter => "instrument-setter"
  | voiceName => "voicename"
  | hidden => "hidden"
  | noteRoot => "note-root"
  | pitch => "pitch"
  | lineCall => "line-call"
  | lineLabel => "line-label"
  | repetition => "repeat"
  | repeatCount => "repeat-count"

/-- The kind of a name. -/
def ofName? (name : String) : Option NodeKind := all.find? (·.name == name)

/-- The name of the block that stands for a kind on the canvas. -/
def blockName : NodeKind → String
  | displayNameSetter => "setturtlename2"
  | keySetter => "setkey2"
  | instrumentSetter => "settimbre"
  | noteRoot => "newnote"
  | lineCall => "nameddo"
  | lineLabel => "action"
  | repeatCount => "number"
  | kind => kind.name

/-- The number of link slots of a kind. -/
def arity : NodeKind → Nat
  | text | number | noteName | modeName | voiceName | repeatCount => 1
  | vspace | hidden | lineCall => 2
  | start | print | displayNameSetter | divide => 3
  | meter | keySetter | instrumentSetter | noteRoot | pitch | lineLabel | repetition => 4

end NodeKind

/-! Positions of links within a node. -/

namespace Slot

/-- The node before, in every kind that has one. -/
def previous : Nat := 0

/-- The next line-call, in a line-call. -/
def callNext : Nat := 1

/-- What follows a hidden node. -/
def hiddenNext : Nat := 1

/-- The first line, in an instrument-setter. -/
def instrumentBody : Nat := 2

/-- The first repeated line, in a repeat. -/
def repeatBody : Nat := 2

/-- What follows a repeat. -/
def repeatNext : Nat := 3

end Slot

end TuneGraph
