import TuneGraph.Library.Store
import TuneGraph.Compile.Install
import TuneGraph.Document.Json.Printer

/-! # Project files

A project file holds the blocks of a graph as one line of JSON. A later project of the
same name takes its place. Blocks that cannot be written out leave a file that ends where
the writing stopped.
-/

namespace TuneGraph

/-- The error of a project whose blocks do not get into its file as a whole. -/
def HostError.ofObstacle : Json.Obstacle → HostError
  | .tooLong => tooLong
  | .surrogates message => other "UnicodeEncodeError" message

/-- The error of a project that meets an error of the library. A path that is no path for the
file system is no error of the installation. -/
def HostError.ofLibrary (root : String) (error : LibraryError) : HostError :=
  match error with
  | .file .nullCharacter => other "ValueError" (error.message root)
  | .file (.unencodable _) => other "UnicodeEncodeError" (error.message root)
  | _ => install (.failed (error.message root))

namespace Library

/-- The path of a project in a folder. -/
def projectPath (folder : Path) (name : String) : Path := folder ++ [fileStem name ++ ".json"]

/-- Writes the blocks of a project into a folder, which is made if need be. Nothing is
touched unless every block is well-formed, but a file that was begun stays. -/
def writeProject (folder : Path) (name : String) (blocks : List Datum) :
    LibraryAction HostError Path := do
  let library ← get
  match Block.readAll blocks with
  | .error error => throw error
  | .ok _ =>
    let path := projectPath folder name
    let written : LibraryAction LibraryError Unit := do
      makeFolders folder
      writeFile path (.text (Json.written (.list blocks)))
    written.adapt (HostError.ofLibrary library.setup.root)
    match Json.obstacle? (.list blocks) with
    | some obstacle => throw (.ofObstacle obstacle)
    | none => return path

end Library

end TuneGraph
