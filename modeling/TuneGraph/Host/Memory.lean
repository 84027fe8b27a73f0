import TuneGraph.Host.Block

/-! # A host in memory

A store of blocks by id. An installation replaces the blocks whose ids it brings and keeps
the rest, so that installing the same graph again changes nothing but the count.
-/

namespace TuneGraph

/-- Blocks by id, in the order in which their ids first came, and the number of
installations so far. -/
structure MemoryHost where
  stored : List Block := []
  installs : Nat := 0

namespace MemoryHost

/-- The stored blocks with one more: in the place of the block of its id, or at the end. -/
def put (block : Block) : List Block → List Block
  | [] => [block]
  | first :: rest => if first.id = block.id then block :: rest else first :: put block rest

/-- A host with the blocks of a graph, all or none. -/
def install (host : MemoryHost) (blocks : List Datum) : Except HostError MemoryHost := do
  let blocks ← Block.readAll blocks
  return { stored := blocks.foldl (fun stored block => put block stored) host.stored
           installs := host.installs + 1 }

/-- The block of an id. -/
def get? (host : MemoryHost) (id : Int) : Option Datum :=
  (host.stored.find? (·.id == id)).map Block.datum

/-- All blocks, by id. -/
def blocks (host : MemoryHost) : List Datum :=
  (host.stored.mergeSort fun a b => a.id ≤ b.id).map Block.datum

/-- The number of blocks. -/
def size (host : MemoryHost) : Nat := host.stored.length

/-- A host without its blocks. -/
def clear (host : MemoryHost) : MemoryHost := { host with stored := [] }

end MemoryHost

end TuneGraph
