import TuneGraph.Compile.Repeat
import TuneGraph.Compile.Settings
import TuneGraph.Graph.Check
import TuneGraph.Graph.Document

/-! # Compiling a tune

Each part of the tune becomes a staff of its own: header, lines, repeats. The staves are
compiled one after another with ids that run on, each is checked, and their nodes together
are the graph.
-/

namespace TuneGraph

/-- What came of a compilation. -/
structure Compilation where
  graph : Graph
  staves : Nat
  lines : Nat
  notes : Nat
  repeats : Nat
  dropped : List RepeatMarker
  nextId : Int

/-- The counts of a compilation as a mapping. -/
def Compilation.document (compilation : Compilation) : Datum :=
  let number (n : Nat) := Datum.integer n
  .mapping [("name", .text compilation.graph.name),
    ("total_nodes", number compilation.graph.size), ("staves", number compilation.staves),
    ("lines", number compilation.lines), ("notes", number compilation.notes),
    ("repeats", number compilation.repeats),
    ("dropped_repeats", number compilation.dropped.length)]

namespace Compile

/-- A label of the settings, filled in. -/
def label (template : String) (values : List (String × Nat)) : Except CompileError String :=
  match Text.Template.fill template values with
  | .ok text => pure text
  | .error fault => throw (.label fault)

/-- The lines of one staff line, one for each voice. -/
def addVoices (settings : Settings) (index : Nat) (meter : Meter) (line : Staff)
    (staff : StaffAssembly) : Except CompileError StaffAssembly :=
  line.voices.foldlM (fun staff voice => do
    let name ← label settings.lineLabel [("staff", index + 1), ("line", staff.lineCount + 1)]
    return staff.appendVoice name line.key meter.denominator settings.maxDenominator voice) staff

/-- The staff of a part: its header takes key and meter from the first line. -/
def staff (settings : Settings) (title instrument : String) (index : Nat) (first : Staff)
    (rest : List Staff) (base : Int) : Except CompileError StaffAssembly := do
  let meter := first.meter.getD .common
  let voiceName ← label settings.voiceLabel [("staff", index + 1)]
  let begun ← StaffAssembly.begin base title voiceName meter first.key instrument
  let assembled ← (first :: rest).foldlM (fun staff line =>
    addVoices settings index meter line staff) begun
  assembled.enterFirstLine.resolveRepeats settings.repeatCount

/-- Refuses the nodes of a staff that have errors, if the settings ask for a check. -/
def checkStaff (settings : Settings) (index : Int) (name : String) (nodes : List Node) :
    Except CompileError Unit :=
  if settings.checkGraph then
    match ({ name, nodes } : Graph).check with
    | none => throw .tooLong
    | some report =>
      if report.isValid then pure ()
      else if Numeral.isShort index then throw (.invalidStaff index name report)
      else throw .tooLong
  else pure ()

/-- A compilation with one more staff. -/
def addStaff (compilation : Compilation) (staff : StaffAssembly) : Compilation :=
  { graph := { compilation.graph with nodes := compilation.graph.nodes ++ staff.nodes }
    staves := compilation.staves + 1
    lines := compilation.lines + staff.lineCount
    notes := compilation.notes + staff.noteCount
    repeats := compilation.repeats + staff.ranges.length
    dropped := compilation.dropped ++ staff.dropped
    nextId := staff.next }

/-- A compilation with the staff of one more part. -/
def addPart (settings : Settings) (tune : Tune) (compilation : Compilation) (part : List Staff) :
    Except CompileError Compilation :=
  match part with
  | [] => pure compilation
  | first :: rest => do
    let index := compilation.staves
    let staff ← staff settings tune.title tune.instrument index first rest compilation.nextId
    checkStaff settings index tune.name staff.nodes
    return addStaff compilation staff

end Compile

/-- The graph of a tune, with ids from `startId` on. -/
def Tune.compile (tune : Tune) (settings : Settings := .standard) (startId : Int := 0) :
    Except CompileError Compilation :=
  tune.parts.foldlM (Compile.addPart settings tune)
    { graph := { name := tune.name }, staves := 0, lines := 0, notes := 0, repeats := 0
      dropped := [], nextId := startId }

end TuneGraph
