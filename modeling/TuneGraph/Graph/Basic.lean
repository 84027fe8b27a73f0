import TuneGraph.Document.Basic
import TuneGraph.Graph.Kind

/-! # Graphs of nodes

A graph is a list of nodes in the order in which they were emitted. Nodes refer to each
other by id: each has as many link slots as its kind says, and a slot holds an id or
nothing.
-/

namespace TuneGraph

/-- A node of a graph. -/
structure Node where
  id : Int
  kind : NodeKind
  links : List (Option Int)
  /-- Named values that belong to the node. -/
  payload : Option (List (String × Datum)) := none
  /-- Where the node stands on the canvas. -/
  position : Int × Int := (0, 0)
  arity : links.length = kind.arity := by rfl

namespace Node

/-- The target of a slot, if it has one. -/
def link (node : Node) (slot : Nat) : Option Int := (node.links[slot]?).join

/-- The node before this one. -/
def previous (node : Node) : Option Int := node.link Slot.previous

/-- A node with another target in a slot. -/
def setLink (node : Node) (slot : Nat) (target : Option Int) : Node :=
  { node with
    links := node.links.set slot target
    arity := by rw [List.length_set]; exact node.arity }

/-- The first slot, from a given one on, that holds a target. -/
def slotOf (node : Node) (target : Option Int) (start : Nat := 1) : Option Nat :=
  ((List.range node.links.length).drop start).find? fun slot => node.links[slot]? == some target

/-- The value of the payload; null if there is none. -/
def value (node : Node) : Datum :=
  match node.payload with
  | some entries => (Datum.find? "value" entries).getD .null
  | none => .null

/-- Equality of all that a node holds. -/
protected def beq (a b : Node) : Bool :=
  a.id == b.id && a.kind == b.kind && a.links == b.links && a.payload == b.payload &&
    a.position == b.position

instance : BEq Node := ⟨Node.beq⟩

end Node

/-- The node of an id in a list of nodes. -/
def findNode? (nodes : List Node) (id : Int) : Option Node := nodes.find? (·.id == id)

/-- A named graph. -/
structure Graph where
  schema : String := "blocks/v1"
  name : String := ""
  nodes : List Node := []
  deriving BEq

namespace Graph

/-- The number of nodes. -/
def size (graph : Graph) : Nat := graph.nodes.length

/-- The first node of an id. -/
def get? (graph : Graph) (id : Int) : Option Node := findNode? graph.nodes id

/-- The nodes of a kind, in order. -/
def ofKind (graph : Graph) (kind : NodeKind) : List Node := graph.nodes.filter (·.kind == kind)

/-- A node put into an index: in the place of the node of its id, or at the end. -/
def indexNode (node : Node) : List Node → List Node
  | [] => [node]
  | first :: rest => if first.id = node.id then node :: rest else first :: indexNode node rest

/-- The nodes by id, one for each id: in the place of the first node of the id stands the
last one. -/
def index (nodes : List Node) : List Node := nodes.foldl (fun done node => indexNode node done) []

end Graph

end TuneGraph
