import TuneGraph.Graph.Basic
import TuneGraph.Document.Json.Printer
import TuneGraph.Document.Display

/-! # Graphs as documents

A graph has two written forms. As blocks, for the canvas, every node is a list of its id,
its block name with its payload, its position and its links. As a mapping it keeps the
kinds and can be read back; reading refuses nodes whose links do not fit their kind.
-/

namespace TuneGraph

/-- A link as a value. -/
def linkDatum (link : Option Int) : Datum := Datum.ofOption .integer link

namespace Node

/-- The block that stands for a node on the canvas. -/
def block (node : Node) : Datum :=
  let name := Datum.text node.kind.blockName
  .list [.integer node.id,
    match node.payload with
      | some entries => .list [name, .mapping entries]
      | none => name,
    .integer node.position.1, .integer node.position.2, .list (node.links.map linkDatum)]

/-- A node as a mapping; a payload and a position are mentioned only if there is one. -/
def document (node : Node) : Datum :=
  .mapping ([("id", .integer node.id), ("kind", .text node.kind.name),
      ("links", .list (node.links.map linkDatum))] ++
    (node.payload.map fun entries => ("payload", Datum.mapping entries)).toList ++
    (if node.position = (0, 0) then [] else
      [("position", .list [.integer node.position.1, .integer node.position.2])]))

end Node

/-- Why a document is not read as a graph. -/
inductive GraphError where
  | missing (field : String)
  | unknownKind (kind : Datum)
  | wrongArity (id : Int) (kind : NodeKind) (links : Nat)
  | negativeId (id : Int)
  /-- Something else than a mapping where a node is described. -/
  | notNode (typeName : String)
  /-- Something else than a mapping where a graph is described. -/
  | notGraph (typeName : String)
  /-- A scalar where a list is wanted. -/
  | notList (typeName : String)
  | malformed (field : String)

namespace GraphError

/-- The wording of an error. -/
def message : GraphError → String
  | missing field => Text.quoted field
  | unknownKind kind => wording kind.literal? fun kind => kind ++ " is not a valid NodeKind"
  | wrongArity id kind links => wording (Numeral.ofInt? id) fun id =>
    "Node " ++ id ++ " of kind '" ++ kind.name ++ "' needs " ++ toString kind.arity ++
      " links, got " ++ toString links ++ "."
  | negativeId id => wording (Numeral.ofInt? id) ("Node id must be >= 0, got " ++ ·)
  | notNode typeName =>
    if typeName = "list" then "list indices must be integers or slices, not str"
    else if typeName = "str" then "string indices must be integers, not 'str'"
    else "'" ++ typeName ++ "' object is not subscriptable"
  | notGraph typeName => "'" ++ typeName ++ "' object has no attribute 'get'"
  | notList typeName => "'" ++ typeName ++ "' object is not iterable"
  | malformed field => "Malformed " ++ field
where
  /-- A wording with a spelling in it; where there is none, this is what is said. -/
  wording (spelling : Option String) (say : String → String) : String :=
    (spelling.map say).getD Numeral.limitMessage

end GraphError

/-- A kind by its name. -/
def NodeKind.read (value : Datum) : Except GraphError NodeKind :=
  match value.text?.bind NodeKind.ofName? with
  | some kind => pure kind
  | none => throw (.unknownKind value)

namespace Node

/-- The value of a field that has to be there. -/
def requireField (entries : List (String × Datum)) (name : String) : Except GraphError Datum :=
  match Datum.find? name entries with
  | some value => pure value
  | none => throw (.missing name)

/-- An id. -/
def readId : Datum → Except GraphError Int
  | .integer id => pure id
  | .boolean value => pure (if value then 1 else 0)
  | _ => throw (.malformed "id")

/-- A link: an id or null. -/
def readLink : Datum → Except GraphError (Option Int)
  | .null => pure none
  | value => some <$> readId value

/-- The links of a node. -/
def readLinks : Datum → Except GraphError (List (Option Int))
  | .list items => items.mapM readLink
  | .text _ | .mapping _ => throw (.malformed "links")
  | value => throw (.notList value.typeName)

/-- A payload: a mapping or null. -/
def readPayload : Datum → Except GraphError (Option (List (String × Datum)))
  | .mapping entries => pure (some entries)
  | .null => pure none
  | _ => throw (.malformed "payload")

/-- A position: a pair of integers; the origin if there is none. -/
def readPosition : Option Datum → Except GraphError (Int × Int)
  | none => pure (0, 0)
  | some (.list [.integer x, .integer y]) => pure (x, y)
  | some _ => throw (.malformed "position")

/-- An id that a node may have. -/
def checkId (id : Int) : Except GraphError Unit :=
  if id < 0 then throw (.negativeId id) else pure ()

/-- A node from its mapping. The number of links is checked before the id. -/
def read : Datum → Except GraphError Node
  | .mapping entries => do
    let id ← readId (← requireField entries "id")
    let kind ← NodeKind.read (← requireField entries "kind")
    let links ← readLinks (← requireField entries "links")
    let payload ← readPayload ((Datum.find? "payload" entries).getD .null)
    let position ← readPosition (Datum.find? "position" entries)
    if arity : links.length = kind.arity then
      checkId id
      return { id, kind, links, payload, position, arity }
    else throw (.wrongArity id kind links.length)
  | value => throw (.notNode value.typeName)

end Node

namespace Graph

/-- The blocks of a graph. -/
def blocks (graph : Graph) : List Datum := graph.nodes.map Node.block

/-- A graph as a mapping. -/
def document (graph : Graph) : Datum :=
  .mapping [("schema", .text graph.schema), ("name", .text graph.name),
    ("nodes", .list (graph.nodes.map Node.document))]

/-- The blocks of a graph as a JSON text, if they can be written out. -/
def json? (graph : Graph) (indent : Option String) : Option String :=
  Json.write? { indent } (.list graph.blocks)

/-- A text entry with a default. -/
def readText (entries : List (String × Datum)) (name default : String) :
    Except GraphError String :=
  match Datum.find? name entries with
  | none => pure default
  | some (.text value) => pure value
  | some _ => throw (.malformed name)

/-- The nodes of a graph; none if nothing is said. -/
def readNodes : Option Datum → Except GraphError (List Node)
  | none => pure []
  | some (.list items) => items.mapM Node.read
  | some (.text _) | some (.mapping _) => throw (.malformed "nodes")
  | some value => throw (.notList value.typeName)

/-- A graph from its mapping. -/
def read : Datum → Except GraphError Graph
  | .mapping entries => do
    let schema ← readText entries "schema" "blocks/v1"
    let name ← readText entries "name" ""
    let nodes ← readNodes (Datum.find? "nodes" entries)
    return { schema, name, nodes }
  | value => throw (.notGraph value.typeName)

end Graph

end TuneGraph
