import TuneGraph.Document.Yaml.Reader
import TuneGraph.Library.Call
import TuneGraph.Options

/-! # The server on standard input

Every line of standard input is a call: a JSON object with the name of a tool and its
arguments. Every call is answered with one line, also where the tool itself has no answer. The
score files are read at the start, and files that a call changes are written before it is
answered.
-/

namespace TuneGraph.Server

/-- What the program prints when help is asked for. -/
def usage : String :=
  "usage: tunegraph [-h] [--transport stdio|http] [--port PORT] [--scores-dir DIR] " ++
    "[--output-dir DIR] [--debug]"

/-- The path of a folder that is named from another. -/
def folderPath (base name : String) : Path :=
  Path.ofText (if name.startsWith "/" then name else base ++ "/" ++ name)

/-- The time of the last change of a file on disk, in seconds. -/
def diskTime (path : Path) : IO Nat := do
  return (← ((← IO.currentDir) / path.text "").metadata).modified.sec.toNat

/-- The score files of a folder. -/
def readScores (folder : Path) : IO Files := do
  let place := (← IO.currentDir) / folder.text ""
  if !(← place.isDir) then return {}
  let mut files : Files := (({} : Files).makeFolders folder).1
  for entry in ← place.readDir do
    let path := folder ++ [entry.fileName]
    if path.isScore then
      try
        let text ← IO.FS.readFile (path.text "")
        files := files.put path (.file (.text text) (← diskTime path))
      catch _ => pure ()
  return files

/-- The text of a file on disk. A score that was saved is written as JSON, which is YAML but not
in the block layout of other writers of score files. -/
def diskText : Content → String
  | .text value => value
  | .document value => Json.write { indent := some "  " } value

/-- Brings the disk from one state of the files to another. What was written bears the
times of the disk. -/
def syncFiles (before after : Files) : IO Files := do
  let mut synced := after
  for (path, entry) in after.entries do
    if before.find? path != some entry then
      match entry with
      | .folder => IO.FS.createDirAll (path.text "")
      | .file content _ =>
        IO.FS.createDirAll (Path.text "" path.dropLast)
        IO.FS.writeFile (path.text "") (diskText content)
        synced := synced.put path (.file content (← diskTime path))
  for (path, entry) in before.entries do
    if (after.find? path).isNone && entry != .folder then
      IO.FS.removeFile (path.text "")
  return synced

/-- The answer to a line, if there is one, and the library after it. -/
def respond (library : Library) (line : String) : Option ToolAnswer × Library :=
  match Json.parse line with
  | .error fault => (some (.failure (fault.message line)), library)
  | .ok call =>
    match ToolRequest.ofCall? (((call.get "tool").text?).getD "") (call.get "args") with
    | none => (some (.failure "Unknown tool or missing arguments."), library)
    | some request => library.answer request

/-- Answers calls until the input ends. -/
partial def serve (library : Library) (input output : IO.FS.Stream) : IO Unit := do
  let line ← input.getLine
  if line.isEmpty then return
  let (answer, after) := respond library line.trimAscii.toString
  let files ← syncFiles library.files after.files
  output.putStrLn (answer.getD (.failure Numeral.limitMessage)).text
  output.flush
  serve { after with files } input output

/-- The name of a folder: from an option, else from a variable, else a default. -/
def folderName (option : Option String) (key default : String) : IO String := do
  let fromVariable := ((← IO.getEnv key).filter (· != "")).getD default
  return (option.filter (· != "")).getD fromVariable

/-- Serves calls with the given options. -/
def start (options : Options) : IO UInt32 := do
  if options.transport = .http then
    IO.eprintln "Only calls on standard input are served."
    return 1
  let base := (← IO.currentDir).toString
  let scores ← folderName options.scoresFolder Options.scoresVariable "scores"
  let output ← folderName options.outputFolder Options.outputVariable "output"
  let setup : Setup :=
    { root := "", scores := folderPath base scores, projects := folderPath base output
      reader := Yaml.reader }
  let files ← readScores setup.scores
  serve { setup, files } (← IO.getStdin) (← IO.getStdout)
  return 0

end TuneGraph.Server

/-- Reads the options and serves calls. -/
def main (arguments : List String) : IO UInt32 := do
  match TuneGraph.Options.parse arguments with
  | .ok options => TuneGraph.Server.start options
  | .error stop =>
    if stop = .help then IO.println TuneGraph.Server.usage
    else IO.eprintln TuneGraph.Server.usage
    return stop.exitCode.toUInt32
