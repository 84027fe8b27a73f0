import TuneGraph.Document.Yaml.Node
import TuneGraph.Library.Setup

/-! # Score files as YAML

The reader of score files that the server uses. A file that was written from a document is
read as that document.
-/

namespace TuneGraph

/-- A text with all its line ends as line feeds. -/
def plainLines : List Char → List Char
  | '\r' :: '\n' :: rest => '\n' :: plainLines rest
  | '\r' :: rest => '\n' :: plainLines rest
  | c :: rest => c :: plainLines rest
  | [] => []

namespace Yaml

/-- The kind of the error that a scalar without a value leads to. -/
def ScalarFault.kind : ScalarFault → String
  | .noTruthValue _ => "KeyError"
  | .noDigits => "IndexError"
  | .noTime => "AttributeError"
  | .hugeCode => "OverflowError"
  | _ => "ValueError"

/-- A fault as a reader reports it. -/
def Fault.ofReader : Fault → ReaderFault
  | .scalar fault =>
    if fault.isOfValue then .value fault.message else .breakdown fault.kind fault.message
  | fault => .syntactic fault.message

/-- The reader of score files as YAML. -/
def reader : Reader
  | .text value =>
    (parse (String.ofList (plainLines value.toList))).mapError Fault.ofReader
  | .document value => .ok value

end Yaml

end TuneGraph
