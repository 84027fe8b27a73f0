import TuneGraph.Proofs.Graph.Link
import TuneGraph.Score.Encoding

/-! # What a graph says

A graph is read by following its links, each to a node of the kind that belongs there: a note from
its root (`Graph.readNote?`), the header of a staff from its start (`Graph.readHeader?`), and a
line from its label (`Graph.LineSung`), whose trailer leads through note-roots and hidden nodes
until nothing follows. A line says one thing only (`Graph.LineSung.unique`).
-/

namespace TuneGraph

/-- The next hidden node, in a note-root. -/
def Slot.noteNext : Nat := 3

/-- The trailer, in a line-label. -/
def Slot.labelBody : Nat := 2

namespace Graph

/-- The node of a kind that a slot of a node leads to. -/
def follow? (nodes : List Node) (node : Node) (slot : Nat) (kind : NodeKind) : Option Node := do
  let held ← findNode? nodes (← node.link slot)
  if held.kind = kind then some held else none

/-- The text in the node of a kind that a slot of a node leads to. -/
def readText? (nodes : List Node) (node : Node) (slot : Nat) (kind : NodeKind) :
    Option String := do
  match (← follow? nodes node slot kind).value with
  | .text text => some text
  | _ => none

/-- The integer in the number that a slot of a node leads to. -/
def readNumber? (nodes : List Node) (node : Node) (slot : Nat) : Option Int := do
  match (← follow? nodes node slot .number).value with
  | .integer number => some number
  | _ => none

/-- The values of the note of a root. -/
def readNote? (nodes : List Node) (root : Node) : Option EncodedNote := do
  let length ← follow? nodes root 1 .divide
  let space ← follow? nodes root 2 .vspace
  let pitch ← follow? nodes space 1 .pitch
  let name ← readText? nodes pitch 1 .noteName
  let octave ← readNumber? nodes pitch 2
  let numerator ← readNumber? nodes length 1
  let denominator ← readNumber? nodes length 2
  return { name, octave, numerator, denominator }

/-- What the header of a staff says. -/
structure HeaderText where
  title : String
  voiceName : String
  beats : Int
  /-- The numerator and the denominator of a beat. -/
  beat : Int × Int
  tonic : String
  modeName : String
  instrument : String
  deriving DecidableEq, Repr

/-- What the header from a start on says. -/
def readHeader? (nodes : List Node) (start : Node) : Option HeaderText := do
  let print ← follow? nodes start 1 .print
  let title ← readText? nodes print 1 .text
  let setter ← follow? nodes print 2 .displayNameSetter
  let voiceName ← readText? nodes setter 1 .text
  let meter ← follow? nodes setter 2 .meter
  let beats ← readNumber? nodes meter 1
  let divide ← follow? nodes meter 2 .divide
  let beat := (← readNumber? nodes divide 1, ← readNumber? nodes divide 2)
  let space ← follow? nodes meter 3 .vspace
  let key ← follow? nodes space 1 .keySetter
  let tonic ← readText? nodes key 1 .noteName
  let modeName ← readText? nodes key 2 .modeName
  let instrument ← readText? nodes (← follow? nodes key 3 .instrumentSetter) 1 .voiceName
  return { title, voiceName, beats, beat, tonic, modeName, instrument }

/-- What is sung after a hidden node: the notes that follow it, each with the id of its root. -/
inductive Sung (nodes : List Node) : Node → List (Int × EncodedNote) → Prop where
  | silence {hidden : Node} (last : hidden.link Slot.hiddenNext = none) : Sung nodes hidden []
  | note {hidden root next : Node} {encoded : EncodedNote} {rest : List (Int × EncodedNote)}
      (led : follow? nodes hidden Slot.hiddenNext .noteRoot = some root)
      (values : readNote? nodes root = some encoded)
      (leads : follow? nodes root Slot.noteNext .hidden = some next)
      (later : Sung nodes next rest) : Sung nodes hidden ((root.id, encoded) :: rest)

/-- What the line of a label is named and what is sung in it. -/
def LineSung (nodes : List Node) (id : Int) (name : String)
    (notes : List (Int × EncodedNote)) : Prop :=
  ∃ label trailer, findNode? nodes id = some label ∧ label.kind = .lineLabel ∧
    readText? nodes label 1 .text = some name ∧
    follow? nodes label Slot.labelBody .hidden = some trailer ∧ Sung nodes trailer notes

variable {nodes : List Node} {hidden node held : Node} {notes others : List (Int × EncodedNote)}
  {id : Int} {slot : Nat} {name : String}

theorem follow?_eq (link : node.link slot = some id) (found : findNode? nodes id = some held) :
    follow? nodes node slot held.kind = some held := by
  simp only [follow?, link, found, Option.bind_eq_bind, Option.bind_some, ↓reduceIte]

theorem bind_eq_some_of {α β : Type} {value : Option α} {next : α → Option β} {input : α}
    {result : β} (step : value = some input) (later : next input = some result) :
    value.bind next = some result := by
  rw [step, Option.bind_some, later]

theorem readText?_eq {text : String} (link : node.link slot = some id)
    (found : findNode? nodes id = some held) (value : held.value = .text text) :
    readText? nodes node slot held.kind = some text := by
  simp only [readText?, follow?_eq link found, value, Option.bind_eq_bind, Option.bind_some]

theorem readNumber?_eq {number : Int} (link : node.link slot = some id)
    (found : findNode? nodes id = some held) (kind : held.kind = .number)
    (value : held.value = .integer number) : readNumber? nodes node slot = some number := by
  have led := follow?_eq link found
  rw [kind] at led
  simp only [readNumber?, led, value, Option.bind_eq_bind, Option.bind_some]

theorem follow?_eq_none (link : node.link slot = none) (kind : NodeKind) :
    follow? nodes node slot kind = none := by
  simp only [follow?, link, Option.bind_eq_bind, Option.bind_none]

/-- After a hidden node at most one sequence of notes is sung. -/
theorem Sung.unique (sung : Sung nodes hidden notes) (also : Sung nodes hidden others) :
    notes = others := by
  induction sung generalizing others with
  | silence last =>
      cases also with
      | silence => rfl
      | note led =>
          rw [follow?_eq_none last] at led
          cases led
  | note led values leads later ih =>
      cases also with
      | silence last =>
          rw [follow?_eq_none last] at led
          cases led
      | note led' values' leads' later' =>
          obtain rfl := Option.some.inj (led.symm.trans led')
          obtain rfl := Option.some.inj (values.symm.trans values')
          obtain rfl := Option.some.inj (leads.symm.trans leads')
          rw [ih later']

/-- In a line at most one sequence of notes is sung. -/
theorem LineSung.unique (sung : LineSung nodes id name notes)
    (also : LineSung nodes id name others) : notes = others := by
  obtain ⟨label, trailer, found, -, -, led, after⟩ := sung
  obtain ⟨label', trailer', found', -, -, led', after'⟩ := also
  obtain rfl := Option.some.inj (found.symm.trans found')
  obtain rfl := Option.some.inj (led.symm.trans led')
  exact after.unique after'

end Graph

end TuneGraph
