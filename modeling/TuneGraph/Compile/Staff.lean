import TuneGraph.Compile.Error
import TuneGraph.Compile.Line
import TuneGraph.Compile.Marker

/-! # Assembling a staff

A staff grows from its header, one voice-line at a time. Each new line-call is linked with
the one before, and the bars of the line are noted as repeat markers. The nodes are kept
in the order in which they are emitted, and later changes to a node go through its id.
-/

namespace TuneGraph

/-- A staff that is being assembled. -/
structure StaffAssembly where
  /-- The nodes so far: header, lines, repeats. -/
  nodes : List Node
  /-- The id of the instrument-setter in the header. -/
  instrument : Int
  /-- The first id that is not in use. -/
  next : Int
  /-- The ids of the line-calls, line by line. -/
  calls : List Int := []
  markers : List RepeatMarker := []
  /-- The repeats emitted so far, each with its range. -/
  ranges : List (Int × RepeatMarker) := []
  /-- The markers for which no repeat was emitted. -/
  dropped : List RepeatMarker := []

namespace StaffAssembly

/-- A staff with nothing but its header. Ids have to start at zero or above. -/
def begin (base : Int) (title voiceName : String) (meter : Meter) (key : KeySignature)
    (instrument : String) : Except CompileError StaffAssembly :=
  if base < 0 then throw (.negativeId base)
  else pure
    { nodes := Header.nodes base title voiceName meter key instrument
      instrument := base + Header.instrumentOffset
      next := base + Header.width }

/-- The node of an id. -/
def node (staff : StaffAssembly) (id : Int) : Except CompileError Node :=
  match findNode? staff.nodes id with
  | some node => pure node
  | none => throw (.unknownNode id)

/-- A staff with another target in a slot of one of its nodes. -/
def setLink (staff : StaffAssembly) (id : Int) (slot : Nat) (target : Option Int) :
    StaffAssembly :=
  { staff with
    nodes := staff.nodes.map fun node => if node.id = id then node.setLink slot target else node }

/-- The call of the last line. -/
def lastCall (staff : StaffAssembly) : Option Int := staff.calls.getLast?

/-- The call of a line. -/
def callOf (staff : StaffAssembly) (line : Int) : Option Int :=
  if 0 ≤ line then staff.calls[line.toNat]? else none

/-- The number of lines so far, which is the index of the next one. -/
def lineCount (staff : StaffAssembly) : Nat := staff.calls.length

/-- The nodes of the next line of the staff. -/
def chainOf (staff : StaffAssembly) (label : String) (notes : List EncodedNote) : List Node :=
  lineChain staff.next label staff.lastCall notes

/-- A staff with a line after the ones that it has. -/
def appendLine (staff : StaffAssembly) (label : String) (notes : List EncodedNote)
    (markers : List RepeatMarker) : StaffAssembly :=
  let call := staff.next
  let linked := match staff.lastCall with
    | some last => staff.setLink last Slot.callNext (some call)
    | none => staff
  let chain := staff.chainOf label notes
  { linked with
    nodes := linked.nodes ++ chain
    next := staff.next + chain.length
    calls := staff.calls ++ [call]
    markers }

/-- A staff with the line of a voice after the ones that it has. -/
def appendVoice (staff : StaffAssembly) (label : String) (key : KeySignature)
    (meterDenominator bound : Int) (voice : Voice) : StaffAssembly :=
  staff.appendLine label (Voice.encode key meterDenominator bound none voice)
    (RepeatMarker.afterVoice staff.lineCount staff.markers voice)

/-- A staff whose instrument-setter holds the first line, if there is one. -/
def enterFirstLine (staff : StaffAssembly) : StaffAssembly :=
  match staff.calls.head? with
  | some first => staff.setLink staff.instrument Slot.instrumentBody (some first)
  | none => staff

/-- The number of notes of a staff. -/
def noteCount (staff : StaffAssembly) : Nat := staff.nodes.countP (·.kind == .noteRoot)

end StaffAssembly

end TuneGraph
