import TuneGraph.Library.Setup
import TuneGraph.Score.Writing

/-! # A library of scores

A library keeps tunes in memory, by name, and scores as files in a folder. Every action
on it is a state transition that may fail; what it did before it failed stays done.
-/

namespace TuneGraph

/-- A library of scores. -/
structure Library where
  setup : Setup
  files : Files := {}
  /-- The tunes in memory, by the names under which they are known. -/
  memory : List (String × Tune) := []
  /-- The time, in seconds. -/
  now : Nat := 0

/-- Why an action on a library fails. -/
inductive LibraryError where
  | file (error : FileError)
  /-- A score file that the reader makes no value of. -/
  | unread (fault : ReaderFault)
  /-- A document that is not read as a tune. -/
  | notTune (error : ReadError)
  /-- A tune with a number that cannot be written out. -/
  | tooLong

namespace LibraryError

/-- The wording of an error, with paths below a root folder. -/
def message (root : String) : LibraryError → String
  | file error => error.message root
  | unread (.syntactic reason) => "Invalid score data: " ++ reason
  | unread (.value reason) | unread (.breakdown _ reason) => reason
  | notTune error => error.message
  | tooLong => Numeral.limitMessage

/-- Whether a score file with this error is left out of a list of scores. Values of the
wrong kind in a score are not expected and stop the listing, and so does a reader that breaks
down. -/
def isPassedOver : LibraryError → Bool
  | file _ | tooLong => true
  | unread (.syntactic _) | unread (.value _) => true
  | unread (.breakdown ..) => false
  | notTune .notMapping | notTune .tooLong | notTune (.refused _) => true
  | notTune (.notName _) | notTune .infinite | notTune .tooLarge => false

end LibraryError

/-- An action on a library. -/
abbrev LibraryAction (ε α : Type) := ExceptT ε (StateM Library) α

namespace Library

/-- The outcome of an operation on files. -/
def ofFiles {α : Type} (outcome : Except FileError α) : LibraryAction LibraryError α :=
  match outcome with
  | .ok value => pure value
  | .error error => throw (.file error)

/-- The tune in memory under a name. -/
def known? (library : Library) (name : String) : Option Tune := library.memory.lookup name

/-- A library that knows a tune by its name. -/
def remember (library : Library) (tune : Tune) : Library :=
  { library with memory := (tune.name, tune) :: library.memory.filter (·.1 != tune.name) }

/-- A library that does not know a name. -/
def forget (library : Library) (name : String) : Library :=
  { library with memory := library.memory.filter (·.1 != name) }

/-- A library that knows nothing but its files. -/
def restart (library : Library) : Library := { library with memory := [] }

/-- A name as a file name: spaces and slashes become underscores. -/
def fileStem (name : String) : String :=
  name.map fun c => if c = ' ' || c = '/' then '_' else c

end Library

end TuneGraph
