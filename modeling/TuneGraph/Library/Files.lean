import TuneGraph.Document.Basic
import TuneGraph.Text.Quoted

/-! # Files

A tree of folders and files, kept as a list of paths with what is there, in the order in
which it was put there. The root folder is always there and has the empty path. Whatever
is refused leaves the tree as it was, except that folders made on the way stay.

What the tree allows may still fail on the disk: a change may be refused, and the writing of
a file may break off after a part of its content. How the disk behaves is not known here and
is given from outside.
-/

namespace TuneGraph

/-- A path: the names on the way from the root folder. -/
abbrev Path := List String

namespace Path

/-- The path that a text with slashes denotes, relative to the root folder. -/
def ofText (text : String) : Path :=
  (text.splitOn "/").filter fun name => name != "" && name != "."

/-- The text of a path below a root folder. -/
def text (root : String) (path : Path) : String := "/".intercalate (root :: path)

/-- The last name of a path. -/
def fileName (path : Path) : String := path.getLast?.getD ""

/-- Whether a character has no bytes in the name of a file. -/
def hasNoBytes (c : Char) : Bool := Text.isSurrogate c && !Text.isByte c

/-- The number of bytes of a name. -/
def size (name : String) : Nat :=
  name.toList.foldl (fun size c => size + if Text.isByte c then 1 else c.utf8Size) 0

/-- Whether a name is longer than a file system takes. -/
def isLongName (name : String) : Bool := 255 < size name

/-- Whether a path is longer than a file system takes. -/
def isLong (path : Path) : Bool := 4095 < size (path.text "")

/-- Whether a path holds the null character, which no file system takes. -/
def hasNull (path : Path) : Bool := path.any fun name => name.toList.contains (Char.ofNat 0)

/-- Whether a path holds surrogates that no file system takes. -/
def isUnencodable (path : Path) : Bool := path.any fun name => name.toList.any hasNoBytes

end Path

/-- What a file holds: a text, or what a score was written as. -/
inductive Content where
  | text (value : String)
  | document (value : Datum)
  deriving BEq

/-- What is at a path. -/
inductive Entry where
  | folder
  | file (content : Content) (modified : Nat)
  deriving BEq

/-- An error of the operating system, by its number and its wording. -/
structure SystemError where
  number : Nat
  text : String
  deriving DecidableEq, Repr

/-- What a disk does to changes that the tree of files allows. -/
structure Disk where
  /-- The error with which a change at a path is refused. -/
  refuses : Path → Option SystemError := fun _ => none
  /-- What a file holds after the writing of a content broke off, and the error. -/
  breaksOff : Path → Content → Option (Content × SystemError) := fun _ _ => none

/-- What is wrong with a path. -/
inductive FileFault where
  | missing
  | occupied
  | notFolder
  | isFolder
  | longName
  /-- A change that the disk refuses. -/
  | refused (error : SystemError)
  deriving DecidableEq, Repr

namespace FileFault

/-- The number of a fault. -/
def number : FileFault → Nat
  | missing => 2
  | occupied => 17
  | notFolder => 20
  | isFolder => 21
  | longName => 36
  | refused error => error.number

/-- The wording of a fault. -/
def text : FileFault → String
  | missing => "No such file or directory"
  | occupied => "File exists"
  | notFolder => "Not a directory"
  | isFolder => "Is a directory"
  | longName => "File name too long"
  | refused error => error.text

end FileFault

/-- Why an operation on files fails. -/
inductive FileError where
  | fault (fault : FileFault) (path : Path)
  | nullCharacter
  /-- A path with surrogates. -/
  | unencodable (path : Path)
  /-- A file whose writing broke off. -/
  | brokenOff (error : SystemError)
  deriving DecidableEq, Repr

/-- The number and the wording of an error of the operating system. -/
def SystemError.message (error : SystemError) : String :=
  "[Errno " ++ toString error.number ++ "] " ++ error.text

/-- The wording of an error, with paths below a root folder. -/
def FileError.message (root : String) : FileError → String
  | fault kind path =>
    SystemError.message ⟨kind.number, kind.text⟩ ++ ": " ++ Text.quoted (path.text root)
  | nullCharacter => "embedded null byte"
  | unencodable path => (Text.encodingFault? Path.hasNoBytes (path.text root)).getD ""
  | brokenOff error => error.message

/-- A tree of folders and files on a disk. -/
structure Files where
  entries : List (Path × Entry) := []
  disk : Disk := {}

namespace Files

/-- The entries with one more, in the place of the one at its path or at the end. -/
def putEntry (path : Path) (entry : Entry) : List (Path × Entry) → List (Path × Entry)
  | [] => [(path, entry)]
  | first :: rest =>
    if first.1 = path then (path, entry) :: rest else first :: putEntry path entry rest

/-- What is recorded at a path. -/
def find? (files : Files) (path : Path) : Option Entry := files.entries.lookup path

/-- A tree with something at a path. -/
def put (files : Files) (path : Path) (entry : Entry) : Files :=
  { files with entries := putEntry path entry files.entries }

/-- A tree with nothing at a path. -/
def erase (files : Files) (path : Path) : Files :=
  { files with entries := files.entries.filter (·.1 != path) }

/-- A changed tree, unless the disk refuses the change at a path. -/
def permit (files : Files) (path : Path) (changed : Files) : Except FileError Files :=
  match files.disk.refuses path with
  | some error => throw (.fault (.refused error) path)
  | none => pure changed

/-- What is found on the way from a folder along names. -/
def walk (files : Files) (folder : Path) : List String → Except FileFault Entry
  | [] => pure .folder
  | name :: rest =>
    if Path.isLongName name then throw .longName
    else match files.find? (folder ++ [name]) with
      | none => throw .missing
      | some .folder => walk files (folder ++ [name]) rest
      | some file => if rest.isEmpty then pure file else throw .notFolder

/-- What is at a path, or what is wrong with it. -/
def locate (files : Files) (path : Path) : Except FileError Entry :=
  if path.isUnencodable then throw (.unencodable path)
  else if path.hasNull then throw .nullCharacter
  else if path.isLong then throw (.fault .longName path)
  else match files.walk [] path with
    | .ok entry => pure entry
    | .error fault => throw (.fault fault path)

/-- Whether there is something at a path. Only a name that is too long makes this fail. -/
def contains (files : Files) (path : Path) : Except FileError Bool :=
  match files.locate path with
  | .ok _ => pure true
  | .error (.fault .longName path) => throw (.fault .longName path)
  | .error _ => pure false

/-- The content of a file and the time of its last change. -/
def read (files : Files) (path : Path) : Except FileError (Content × Nat) :=
  match files.locate path with
  | .ok (.file content modified) => pure (content, modified)
  | .ok .folder => throw (.fault .isFolder path)
  | .error error => throw error

/-- What a file receives of a content that is written to it, and the error if that is not
all of it. -/
def receive (files : Files) (path : Path) (content : Content) : Content × Option FileError :=
  match files.disk.breaksOff path content with
  | some (part, error) => (part, some (.brokenOff error))
  | none => (content, none)

/-- A tree in which a file has a content. Its folder has to be there. -/
def write (files : Files) (path : Path) (content : Content) (now : Nat) :
    Except FileError Files :=
  match files.locate path with
  | .ok .folder => throw (.fault .isFolder path)
  | .ok (.file ..) => files.permit path (files.put path (.file content now))
  | .error (.fault .missing _) =>
    match files.walk [] path.dropLast with
    | .ok _ => files.permit path (files.put path (.file content now))
    | .error _ => throw (.fault .missing path)
  | .error error => throw error

/-- A tree without a file. -/
def remove (files : Files) (path : Path) : Except FileError Files :=
  match files.locate path with
  | .ok .folder => throw (.fault .isFolder path)
  | .ok (.file ..) => files.permit path (files.erase path)
  | .error error => throw error

/-- The paths inside a folder. -/
def children (files : Files) (folder : Path) : Except FileError (List Path) :=
  match files.locate folder with
  | .ok .folder =>
    pure ((files.entries.map (·.1)).filter fun path => path != [] && path.dropLast == folder)
  | .ok (.file ..) => throw (.fault .notFolder folder)
  | .error error => throw error

/-- The paths on the way to a path and the path itself, the shortest first. -/
def stages (path : Path) : List Path := (List.range path.length).map fun n => path.take (n + 1)

/-- A tree with one more folder inside a folder that is there, and what was wrong if it
could not be made. -/
def makeFolder (files : Files) (path : Path) : Files × Option FileError :=
  match files.locate path with
  | .ok .folder => (files, none)
  | .ok (.file ..) => (files, some (.fault .occupied path))
  | .error (.fault .missing _) =>
    match files.permit path (files.put path .folder) with
    | .ok made => (made, none)
    | .error error => (files, some error)
  | .error error => (files, some error)

/-- A tree with folders, made one after another up to the first that cannot be made. -/
def makeEach (files : Files) : List Path → Files × Option FileError
  | [] => (files, none)
  | path :: rest =>
    match files.makeFolder path with
    | (files, none) => makeEach files rest
    | (files, some error) => (files, some error)

/-- A tree with a folder and all folders on the way to it. If the way is blocked before
anything is missing, nothing is made. -/
def makeFolders (files : Files) (path : Path) : Files × Option FileError :=
  match files.locate path with
  | .error (.fault .missing _) => files.makeEach (stages path)
  | _ => files.makeFolder path

/-- The texts of all paths, sorted. -/
def listing (files : Files) : List String :=
  (files.entries.map fun entry => "/".intercalate entry.1).mergeSort fun a b => decide (a ≤ b)

end Files

end TuneGraph
