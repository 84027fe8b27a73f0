import TuneGraph.Graph.Document

/-! # Shapes and summaries of graphs

The shape of a graph does not depend on where its ids start, so that two graphs can be
compared. The summary counts its nodes.
-/

namespace TuneGraph

/-- A node without the base of its graph's ids. -/
structure NodeShape where
  id : Int
  kind : NodeKind
  /-- The payload as a JSON text with sorted names. -/
  payload : String
  position : Int × Int
  links : List (Option Int)
  deriving DecidableEq, Repr

/-- The shape of a node, with ids counted from a base, if its payload can be written out. -/
def Node.shape? (node : Node) (base : Int) : Option NodeShape :=
  (Json.write? {} (Json.sortNames (Datum.ofOption .mapping node.payload))).map fun payload =>
    { id := node.id - base
      kind := node.kind
      payload
      position := node.position
      links := node.links.map fun link => link.map (· - base) }

namespace Graph

/-- The least id; zero in an empty graph. -/
def leastId (graph : Graph) : Int := ((graph.nodes.map Node.id).min?).getD 0

/-- The greatest id; zero in an empty graph. -/
def greatestId (graph : Graph) : Int := ((graph.nodes.map Node.id).max?).getD 0

/-- The shapes of all nodes, with ids counted from the least one. -/
def normalized? (graph : Graph) : Option (List NodeShape) :=
  graph.nodes.mapM (·.shape? graph.leastId)

/-- The number of nodes of a kind. -/
def count (graph : Graph) (kind : NodeKind) : Nat := graph.nodes.countP (·.kind == kind)

/-- The kinds that occur, by name, each with its number of nodes. -/
def kindCounts (graph : Graph) : List (String × Nat) :=
  ((NodeKind.all.filter fun kind => 0 < graph.count kind).map fun kind =>
    (kind.name, graph.count kind)).mergeSort fun a b => a.1 ≤ b.1

/-- A summary as a mapping. -/
def summary (graph : Graph) : Datum :=
  let number (n : Nat) := Datum.integer n
  .mapping [("name", .text graph.name), ("total_nodes", number graph.size),
    ("staves", number (graph.count .start)), ("lines", number (graph.count .lineCall)),
    ("notes", number (graph.count .noteRoot)), ("repeats", number (graph.count .repetition)),
    ("kinds", .mapping (graph.kindCounts.map fun entry => (entry.1, number entry.2))),
    ("id_range", .list [.integer graph.leastId, .integer graph.greatestId])]

end Graph

end TuneGraph
