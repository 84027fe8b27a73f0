import TuneGraph.Document.Display

/-! # Blocks for a host

A host takes a whole list of blocks or none. A block is a list of five: an id, a name, two
coordinates and a list of links. What goes wrong with an installation is an `InstallError`,
unless it goes wrong before there is one: a block is shown in the error that refuses it, and
one that has no spelling cannot be shown.
-/

namespace TuneGraph

/-- Why a host does not take a graph. -/
inductive InstallError where
  /-- The host's own words. -/
  | refused (message : String)
  /-- The installation broke down for some other reason. -/
  | failed (reason : String)
  /-- A block that is not a list of five, as it is spelled. -/
  | malformedBlock (spelling : String)
  /-- A block with an id that is no integer, or with links that are no list, as it is spelled. -/
  | malformedFields (spelling : String)
  deriving DecidableEq, Repr

/-- The wording of an error. -/
def InstallError.message : InstallError → String
  | refused message => message
  | failed reason => "Failed to install compiled graph: " ++ reason
  | malformedBlock spelling => "Failed to install compiled graph: malformed block " ++ spelling
  | malformedFields spelling =>
    "Failed to install compiled graph: bad id or links in " ++ spelling

/-- What comes out of a host that does not take a graph. -/
inductive HostError where
  | install (error : InstallError)
  /-- Something that has to be written out cannot be. -/
  | tooLong
  /-- Anything else, by the name of its kind and its wording. -/
  | other (kind message : String)
  deriving DecidableEq, Repr

/-- The error of an installation. Whatever else comes out of the host becomes one. -/
def HostError.installError : HostError → InstallError
  | install error => error
  | tooLong => .failed Numeral.limitMessage
  | other _ message => .failed message

/-- A block with its id. -/
structure Block where
  id : Int
  datum : Datum

namespace Block

/-- The id of a block; truth values count as one and zero. -/
def id? : Datum → Option Int
  | .integer id => some id
  | .boolean value => some (if value then 1 else 0)
  | _ => none

/-- The error that shows a block, if it can be shown. -/
def refusal (error : String → InstallError) (block : Datum) : HostError :=
  match block.literal? with
  | some spelling => .install (error spelling)
  | none => .tooLong

/-- A well-formed block. -/
def read (block : Datum) : Except HostError Block :=
  match block with
  | .list [id, _, _, _, links] =>
    match id? id, links with
    | some id, .list _ => pure ⟨id, block⟩
    | _, _ => throw (refusal .malformedFields block)
  | _ => throw (refusal .malformedBlock block)

/-- The blocks of a graph, up to the first that is not well-formed. -/
def readAll (blocks : List Datum) : Except HostError (List Block) := blocks.mapM read

end Block

end TuneGraph
