import TuneGraph.Library.Files

/-! # What a library is given

A library does not choose where it keeps its files, and it reads score files with a reader
that is given to it.
-/

namespace TuneGraph

/-- Why a reader does not make a value of what is in a file. -/
inductive ReaderFault where
  /-- The text is not of the language that the reader reads. -/
  | syntactic (reason : String)
  /-- Something in the text has no value, or the file has no text. -/
  | value (reason : String)
  /-- The reader breaks down, by the name of the kind of error and its wording. -/
  | breakdown (kind reason : String)
  deriving DecidableEq, Repr

/-- A reader of score files. -/
abbrev Reader := Content → Except ReaderFault Datum

/-- What a library is given: a root folder, below it the folders of the scores and of the
projects, and the reader of score files. -/
structure Setup where
  root : String
  scores : Path := ["scores"]
  projects : Path := ["output"]
  reader : Reader

end TuneGraph
