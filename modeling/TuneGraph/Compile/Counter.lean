import TuneGraph.Compile.Error

/-! # The counter of ids

All parts of a compilation take the ids of their nodes from one counter, which never hands
out an id twice.
-/

namespace TuneGraph

/-- The counter of one compilation. -/
structure IdCounter where
  /-- The first id that has not been handed out. -/
  next : Int := 0
  deriving DecidableEq, Repr

/-- The first of several ids that are handed out together, and the counter after them. -/
def IdCounter.allocate (counter : IdCounter) (count : Int) :
    Except CompileError (Int × IdCounter) :=
  if count < 1 then throw (.noIds count) else pure (counter.next, ⟨counter.next + count⟩)

end TuneGraph
