import TuneGraph.Library.Basic
import TuneGraph.Library.Time
import TuneGraph.Document.Json.Printer

/-! # Storing scores

A score is stored under the file name that its tune's name gives it. It is looked up in
memory first and then among the files; whatever is read stays in memory. Score files may
also be put into the folder by hand, in any notation that the reader knows.
-/

namespace TuneGraph

/-- The endings of score files, in the order in which they are looked for. -/
def scoreEndings : List String := [".tune.yaml", ".tune.json"]

/-- A name without an ending that it has. -/
def dropEnding? (ending name : String) : Option String :=
  let cs := name.toList
  if ending.toList.isSuffixOf cs then
    some (String.ofList (cs.take (cs.length - ending.toList.length)))
  else none

/-- A name without what follows its last dot. A dot at the beginning or at the end does
not count. -/
def dropExtension (name : String) : String :=
  let cs := name.toList
  let extension := cs.reverse.takeWhile (· != '.')
  let stem := cs.take (cs.length - extension.length - 1)
  if extension.isEmpty || stem.isEmpty || extension.length == cs.length then name
  else String.ofList stem

/-- Whether a path is that of a score file. -/
def Path.isScore (path : Path) : Bool :=
  scoreEndings.any fun ending => (dropEnding? ending path.fileName).isSome

/-- The name that a score file gives to a tune without one. -/
def Path.stem (path : Path) : String :=
  (scoreEndings.findSome? fun ending => dropEnding? ending path.fileName).getD
    (dropExtension path.fileName)

/-- What a list of scores says about one of them. -/
structure ScoreSummary where
  name : String
  title : String
  staves : Nat
  lines : Nat
  notes : Nat
  modified : Nat
  deriving DecidableEq, Repr

namespace ScoreSummary

/-- The summary of a tune. -/
def ofTune (tune : Tune) (modified : Nat) : ScoreSummary :=
  { name := tune.name, title := tune.title, staves := tune.staffCount
    lines := tune.lines.length, notes := tune.noteCount, modified }

/-- A summary as a mapping. -/
def document (summary : ScoreSummary) : Datum :=
  .mapping [("name", .text summary.name), ("title", .text summary.title),
    ("staves", .integer summary.staves), ("lines", .integer summary.lines),
    ("notes", .integer summary.notes), ("modified", .text (timeText summary.modified))]

/-- A summary in a few words. -/
def text (summary : ScoreSummary) : String :=
  "ScoreMetadata(" ++ Text.quoted summary.name ++ ", " ++ toString summary.staves ++
    " staves, " ++ toString summary.notes ++ " notes)"

end ScoreSummary

namespace Library

/-- The paths at which the score of a name may be. -/
def candidates (library : Library) (name : String) : List Path :=
  scoreEndings.map fun ending => library.setup.scores ++ [fileStem name ++ ending]

/-- The path at which the score of a name is saved. -/
def scorePath (library : Library) (name : String) : Path :=
  library.setup.scores ++ [fileStem name ++ ".tune.yaml"]

/-- Reads a document as a tune and remembers it. -/
def importDocument (document name : Datum) : LibraryAction LibraryError Tune := do
  match Tune.read document name with
  | .error error => throw (.notTune error)
  | .ok tune =>
    modify fun library => library.remember tune
    return tune

/-- Makes a folder with all folders on the way to it. -/
def makeFolders (path : Path) : LibraryAction LibraryError Unit := do
  let library ← get
  let (files, failure) := library.files.makeFolders path
  set { library with files }
  match failure with
  | some error => throw (.file error)
  | none => pure ()

/-- Writes a file. -/
def writeFile (path : Path) (content : Content) : LibraryAction LibraryError Unit := do
  let library ← get
  let (received, failure) := library.files.receive path content
  let files ← ofFiles (library.files.write path received library.now)
  set { library with files }
  match failure with
  | some error => throw (.file error)
  | none => pure ()

/-- What the file of a tune is to hold: its document, but nothing if a number in it cannot be
written out. -/
def scoreContent (tune : Tune) : Content :=
  if Json.fits tune.document then .document tune.document else .text ""

/-- Saves a tune and remembers it; the outcome is the path of its score. The file of a tune
with a number that cannot be written out is opened all the same. -/
def save (tune : Tune) : LibraryAction LibraryError Path := do
  let library ← get
  makeFolders library.setup.scores
  let path := library.scorePath tune.name
  writeFile path (scoreContent tune)
  if !Json.fits tune.document then throw .tooLong
  modify fun library => library.remember tune
  return path

/-- Loads a score file and remembers its tune. A tune without a name is named for the
file. The outcome includes the time of the last change. -/
def load (path : Path) : LibraryAction LibraryError (Tune × Nat) := do
  let library ← get
  let (content, modified) ← ofFiles (library.files.read path)
  match library.setup.reader content with
  | .error fault => throw (.unread fault)
  | .ok document =>
    let named := (document.get "name").isTruthy
    let tune ← importDocument document (if named then .null else .text path.stem)
    return (tune, modified)

/-- The first of several paths at which there is something. -/
def firstPresent? (files : Files) : List Path → Except FileError (Option Path)
  | [] => pure none
  | path :: rest => do if ← files.contains path then return some path else firstPresent? files rest

/-- The tune of a name: from memory, else from its score file. -/
def find? (name : String) : LibraryAction LibraryError (Option Tune) := do
  let library ← get
  match library.known? name with
  | some tune => return some tune
  | none =>
    match ← ofFiles (firstPresent? library.files (library.candidates name)) with
    | none => return none
    | some path => return some (← load path).1

/-- The summary of a score file; nothing if it is left out of lists. -/
def summary? (path : Path) : LibraryAction LibraryError (Option ScoreSummary) := do
  try
    let (tune, modified) ← load path
    return some (.ofTune tune modified)
  catch error => if error.isPassedOver then return none else throw error

/-- The summaries of all score files, the newest first. -/
def summaries : LibraryAction LibraryError (List ScoreSummary) := do
  let library ← get
  if !(← ofFiles (library.files.contains library.setup.scores)) then return []
  let paths ← ofFiles (library.files.children library.setup.scores)
  let found ← (paths.filter Path.isScore).mapM summary?
  return (found.filterMap id).mergeSort fun a b => b.modified ≤ a.modified

/-- Removes a file if there is something at its path; says whether there was. -/
def removeIfPresent (path : Path) : LibraryAction LibraryError Bool := do
  let library ← get
  if ← ofFiles (library.files.contains path) then
    let files ← ofFiles (library.files.remove path)
    set { library with files }
    return true
  else return false

/-- Forgets a name and removes its score files; says whether there was anything. -/
def delete (name : String) : LibraryAction LibraryError Bool := do
  let library ← get
  set (library.forget name)
  let removed ← (library.candidates name).mapM removeIfPresent
  return (library.known? name).isSome || removed.any id

end Library

end TuneGraph
