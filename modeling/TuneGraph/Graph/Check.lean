import TuneGraph.Graph.Basic
import TuneGraph.Number.Numeral
import TuneGraph.Report

/-! # Checking graphs

A graph can be installed if its ids are unique, its links lead to its own nodes, and the
chains of line-calls and repeats that start at its instrument-setters enter every node at
most once and nothing else. Calls that no chain reaches, and nodes that the node before
them does not know, are worth a warning.

A fault is reported by the ids that it is about. If one of them has too many digits to be
written out, there is no report.

`Graph.walk` follows all chains at once: it keeps the links still to be followed on a
stack, a repeat's body above what comes after it, and the ids already entered.
-/

namespace TuneGraph

/-- Something wrong with a graph. -/
inductive GraphFault where
  | duplicateId (id : Int)
  | danglingLink (id : Int) (slot : Nat) (target : Int)
  | revisited (id : Int)
  | strayNode (kind : NodeKind) (id : Int)
  | unreachable (kind : NodeKind) (id : Int)
  | oneWayLink (parent id : Int)
  deriving DecidableEq, Repr

namespace GraphFault

/-- Whether a graph with this fault cannot be installed. -/
def severity : GraphFault → Severity
  | duplicateId _ | danglingLink .. | revisited _ | strayNode .. => .error
  | unreachable .. | oneWayLink .. => .warning

/-- The code of a fault. -/
def code : GraphFault → String
  | duplicateId _ => "DUPLICATE_ID"
  | danglingLink .. => "DANGLING_REFERENCE"
  | revisited _ => "CALL_CYCLE"
  | strayNode .. => "BAD_CHAIN_NODE"
  | unreachable .. => "UNREACHABLE"
  | oneWayLink .. => "ONE_WAY_LINK"

/-- The node that a fault is reported at. -/
def id : GraphFault → Int
  | duplicateId id | danglingLink id _ _ | revisited id | strayNode _ id | unreachable _ id
  | oneWayLink _ id => id

/-- The wording of a fault, if its ids can be written out. -/
def message? : GraphFault → Option String
  | duplicateId id => do return "Node id " ++ (← Numeral.ofInt? id) ++ " is used twice"
  | danglingLink id slot target => do
    return "Node " ++ (← Numeral.ofInt? id) ++ " slot " ++ toString slot ++
      " references missing node " ++ (← Numeral.ofInt? target) ++ "."
  | revisited id => do return "Chain revisits node " ++ (← Numeral.ofInt? id)
  | strayNode kind id => do
    return "Call chain reaches " ++ kind.name ++ " node " ++ (← Numeral.ofInt? id)
  | unreachable kind id => do
    return kind.name ++ " node " ++ (← Numeral.ofInt? id) ++ " is not reachable from any header"
  | oneWayLink parent id => do
    return "Node " ++ (← Numeral.ofInt? parent) ++ " does not link back to node " ++
      (← Numeral.ofInt? id)

/-- A fault as an issue, if its ids can be written out. -/
def issue? (fault : GraphFault) : Option Issue := do
  let message ← fault.message?
  let id ← Numeral.ofInt? fault.id
  return { severity := fault.severity, code := fault.code, message
           location := some ("nodes/" ++ id) }

end GraphFault

namespace Graph

/-- The ids that stand in front of a node that has the same id. -/
def duplicates (seen : List Int) : List Node → List GraphFault
  | [] => []
  | node :: rest =>
    (if seen.contains node.id then [.duplicateId node.id] else []) ++
      duplicates (node.id :: seen) rest

/-- The links of a node that lead out of a list of nodes, from a slot on. -/
def danglingFrom (nodes : List Node) (id : Int) (slot : Nat) :
    List (Option Int) → List GraphFault
  | [] => []
  | link :: rest =>
    (match link with
      | some target =>
        if (findNode? nodes target).isSome then [] else [.danglingLink id slot target]
      | none => []) ++ danglingFrom nodes id (slot + 1) rest

/-- The links of all nodes that lead to no node. -/
def dangling (nodes : List Node) : List GraphFault :=
  nodes.flatMap fun node => danglingFrom nodes node.id 0 node.links

/-- The nodes that no chain has entered. -/
def unentered (nodes : List Node) (entered : List Int) : List Node :=
  nodes.filter fun node => !entered.contains node.id

theorem unentered_lt {nodes : List Node} {entered : List Int} {id : Int} {node : Node}
    (found : findNode? nodes id = some node) (fresh : ¬entered.contains id = true) :
    (unentered nodes (id :: entered)).length < (unentered nodes entered).length := by
  have member : node ∈ nodes := List.mem_of_find?_eq_some found
  have same : node.id = id := by simpa using List.find?_some found
  have smaller : unentered nodes (id :: entered) =
      (unentered nodes entered).filter fun node => !decide (node.id = id) := by
    simp [unentered, List.filter_filter, Bool.not_or]
  rw [smaller]
  refine List.length_filter_lt_length_iff_exists.2 ⟨node, ?_, by simp [same]⟩
  simp only [unentered, List.mem_filter, same]
  exact ⟨member, by simpa using fresh⟩

/-- Follows the links on the stack. The answer is the ids that were entered, with those
entered before, and the faults that were met. -/
def walk (nodes : List Node) (entered : List Int) :
    List (Option Int) → List Int × List GraphFault
  | [] => (entered, [])
  | none :: stack => walk nodes entered stack
  | some id :: stack =>
    if _fresh : entered.contains id then
      let (entered, faults) := walk nodes entered stack
      (entered, .revisited id :: faults)
    else match _found : findNode? nodes id with
      | none => walk nodes entered stack
      | some node =>
        match node.kind with
        | .repetition =>
          walk nodes (id :: entered)
            (node.link Slot.repeatBody :: node.link Slot.repeatNext :: stack)
        | .lineCall => walk nodes (id :: entered) (node.link Slot.callNext :: stack)
        | kind =>
          let (entered, faults) := walk nodes entered stack
          (entered, .strayNode kind id :: faults)
termination_by stack => ((unentered nodes entered).length, stack.length)
decreasing_by
  all_goals first
    | exact Prod.Lex.right _ (by simp)
    | exact Prod.Lex.left _ _ (unentered_lt _found _fresh)

/-- The chains of a graph, by their first links. -/
def chainStarts (nodes : List Node) : List (Option Int) :=
  (nodes.filter (·.kind == .instrumentSetter)).map (·.link Slot.instrumentBody)

/-- Kinds that belong to chains. -/
def isChainKind (kind : NodeKind) : Bool := kind == .lineCall || kind == .repetition

/-- Calls and repeats that no chain entered. -/
def unreachable (nodes : List Node) (entered : List Int) : List GraphFault :=
  (nodes.filter fun node => isChainKind node.kind && !entered.contains node.id).map
    fun node => .unreachable node.kind node.id

/-- The fault of a node that the node before it does not know. -/
def oneWayLink? (nodes : List Node) (node : Node) : Option GraphFault := do
  let parent ← node.previous
  let before ← findNode? nodes parent
  if (before.slotOf (some node.id)).isSome then none else some (.oneWayLink parent node.id)

/-- Calls, repeats and notes that the node before them does not know. -/
def oneWayLinks (nodes : List Node) : List GraphFault :=
  (nodes.filter fun node => isChainKind node.kind || node.kind == .noteRoot).filterMap
    (oneWayLink? nodes)

/-- The faults of a graph. Chains are followed only if ids and links are sound. -/
def faults (graph : Graph) : List GraphFault :=
  let nodes := index graph.nodes
  let basic := duplicates [] graph.nodes ++ dangling nodes
  if basic.isEmpty then
    let (entered, met) := walk nodes [] (chainStarts nodes)
    met ++ unreachable nodes entered ++ oneWayLinks nodes
  else basic

/-- The report on a graph, if all that it mentions can be written out. -/
def check (graph : Graph) : Option Report := (graph.faults.mapM GraphFault.issue?).map Report.mk

end Graph

end TuneGraph
