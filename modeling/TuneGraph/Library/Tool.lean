import TuneGraph.Library.Project
import TuneGraph.Document.Json.Parser
import TuneGraph.Graph.Summary
import TuneGraph.Score.Review

/-! # Tools

A tool is a request to a library that is answered with a JSON text. What goes wrong becomes
an answer whose status is an error, unless the error has no wording: then there is no answer.
Answers about stored tunes and graphs keep characters outside ASCII, all others escape them.
-/

namespace TuneGraph

/-- A request. -/
inductive ToolRequest where
  /-- Store a parsed tune, given as a JSON text; saving it as a file is optional. -/
  | importScore (json : String) (name : Datum := .null) (save : Bool := true)
  | getScore (name : String)
  | listScores
  | deleteScore (name : String)
  | validateScore (name : String)
  /-- Compile a stored tune into a project file. -/
  | compileScore (name : String) (outputName : String := "") (repeatCount : Datum := .integer 2)
  /-- Compile a parsed tune without storing it. -/
  | compileInline (json : String) (startId : Int := 0)
  /-- Compile a stored tune and describe the graph. -/
  | describeGraph (name : String) (includeNodes : Bool := false)

/-- Why a request is answered with an error. -/
inductive ToolError where
  | notJson (fault : Json.Fault) (text : String)
  | notTune (error : ReadError)
  | notFound (name : String)
  | library (error : LibraryError)
  | settings (faults : List Schema.Fault)
  | compile (error : CompileError)
  | install (error : InstallError)
  /-- Blocks that cannot be written out. -/
  | tooLong

/-- The wording of an error, with paths below a root folder, if it has one. -/
def ToolError.message? (root : String) : ToolError → Option String
  | notJson fault text => some (fault.message text)
  | notTune error => some error.message
  | notFound name => some ("Score '" ++ name ++ "' not found.")
  | library error => some (error.message root)
  | settings faults => some (Schema.Fault.reportAll "CompilerSettings" faults)
  | compile error => error.message?
  | install error => some error.message
  | tooLong => some Numeral.limitMessage

/-- An answer and how it is written. -/
structure ToolAnswer where
  body : List (String × Datum)
  ascii : Bool := true

namespace ToolAnswer

/-- The answer to a request that fails. -/
def failure (message : String) : ToolAnswer :=
  { body := [("status", .text "error"), ("message", .text message)] }

/-- The answer to a request that succeeds. -/
def success (body : List (String × Datum)) (ascii : Bool := true) : ToolAnswer :=
  { body := ("status", .text "success") :: body, ascii }

/-- An answer as a value. -/
def document (answer : ToolAnswer) : Datum := .mapping answer.body

/-- The answer that is sent: one that cannot be written out is a failure. -/
def sent (answer : ToolAnswer) : ToolAnswer :=
  if Json.fits answer.document then answer else failure Numeral.limitMessage

/-- The text of an answer. -/
def text (answer : ToolAnswer) : String :=
  Json.write { ascii := answer.sent.ascii } answer.sent.document

end ToolAnswer

/-- An issue as a mapping. -/
def Issue.document (issue : Issue) : Datum :=
  .mapping [("severity", .text issue.severity.name), ("code", .text issue.code),
    ("message", .text issue.message), ("location", Datum.ofOption .text issue.location)]

/-- A marker as a mapping. -/
def RepeatMarker.document (marker : RepeatMarker) : Datum :=
  .mapping [("start_line", .integer marker.startLine), ("end_line", .integer marker.endLine)]

namespace Library

/-- The value of a JSON text. -/
def parseJson (text : String) : Except ToolError Datum :=
  match Json.parse text with
  | .ok value => pure value
  | .error fault => throw (.notJson fault text)

/-- The tune of a name, which has to be there. -/
def stored (name : String) : LibraryAction ToolError Tune := do
  match ← (find? name).adapt ToolError.library with
  | some tune => return tune
  | none => throw (.notFound name)

/-- A compilation. -/
def compiled (tune : Tune) (settings : Settings := .standard) (startId : Int := 0) :
    Except ToolError Compilation :=
  match tune.compile settings startId with
  | .ok compilation => pure compilation
  | .error error => throw (.compile error)

/-- Stores a parsed tune. -/
def importScore (json : String) (name : Datum) (saved : Bool) :
    LibraryAction ToolError ToolAnswer := do
  let library ← get
  let document ← parseJson json
  let tune ← (importDocument document name).adapt ToolError.library
  let path ← if saved then some <$> (save tune).adapt ToolError.library else pure none
  return .success
    [("score", .mapping [("name", .text tune.name), ("title", .text tune.title),
        ("instrument", .text tune.instrument), ("staves", .integer tune.staffCount),
        ("lines", .integer tune.lines.length), ("notes", .integer tune.noteCount)]),
     ("path", Datum.ofOption (fun path => .text (path.text library.setup.root)) path),
     ("message", .text ("Imported score '" ++ tune.name ++ "'."))]

/-- The document of a stored tune. -/
def getScore (name : String) : LibraryAction ToolError ToolAnswer := do
  let tune ← stored name
  return .success [("score", tune.document)] false

/-- All scores in files. -/
def listScores : LibraryAction ToolError ToolAnswer := do
  let found ← summaries.adapt ToolError.library
  return .success [("scores", .list (found.map ScoreSummary.document)),
    ("count", .integer found.length)]

/-- Deletes a stored tune. -/
def deleteScore (name : String) : LibraryAction ToolError ToolAnswer := do
  if ← (delete name).adapt ToolError.library then return .success [("deleted", .text name)]
  else throw (.notFound name)

/-- Reviews a stored tune. -/
def validateScore (name : String) : LibraryAction ToolError ToolAnswer := do
  let report := (← stored name).review
  return .success [("valid", .boolean report.isValid),
    ("issues", .list (report.issues.map Issue.document))]

/-- Compiles a stored tune into a project file, named for the tune unless another name is
given. -/
def compileScore (name outputName : String) (repeatCount : Datum) :
    LibraryAction ToolError ToolAnswer := do
  let tune ← stored name
  match Schema.settings (.mapping [("repeat_count", repeatCount)]) with
  | .refused faults => throw (.settings faults)
  | .accepted settings =>
    let compilation ← compiled tune settings
    let library ← get
    let path ← (writeProject library.setup.projects (if outputName = "" then name else outputName)
      compilation.graph.blocks).adapt fun error => ToolError.install error.installError
    let place := path.text library.setup.root
    return .success [("path", .text place), ("compilation", compilation.document),
      ("message", .text ("Compiled score '" ++ name ++ "' to " ++ place ++ "."))]

/-- Compiles a parsed tune. As for a project, its blocks have to be such as can be written
out. -/
def compileInline (json : String) (startId : Int) : LibraryAction ToolError ToolAnswer := do
  let document ← parseJson json
  match Tune.read document .null with
  | .error error => throw (.notTune error)
  | .ok tune =>
    let compilation ← compiled tune .standard startId
    if Json.fits (.list compilation.graph.blocks) then
      return .success [("blocks", .list compilation.graph.blocks),
        ("summary", compilation.graph.summary), ("next_id", .integer compilation.nextId)] false
    else throw .tooLong

/-- Describes the graph of a stored tune. -/
def describeGraph (name : String) (includeNodes : Bool) :
    LibraryAction ToolError ToolAnswer := do
  let compilation ← compiled (← stored name)
  let nodes := if includeNodes then [("graph", compilation.graph.document)] else []
  return .success ([("summary", compilation.graph.summary),
    ("compilation", compilation.document),
    ("dropped_repeats", .list (compilation.dropped.map RepeatMarker.document))] ++ nodes) false

/-- What a request does. -/
def perform : ToolRequest → LibraryAction ToolError ToolAnswer
  | .importScore json name save => importScore json name save
  | .getScore name => getScore name
  | .listScores => listScores
  | .deleteScore name => deleteScore name
  | .validateScore name => validateScore name
  | .compileScore name outputName repeatCount => compileScore name outputName repeatCount
  | .compileInline json startId => compileInline json startId
  | .describeGraph name includeNodes => describeGraph name includeNodes

/-- The answer to a request, if there is one, and the library after it. -/
def answer (library : Library) (request : ToolRequest) : Option ToolAnswer × Library :=
  match (perform request).run library with
  | (.ok answer, after) => (some answer, after)
  | (.error error, after) => ((error.message? library.setup.root).map .failure, after)

end Library

end TuneGraph
