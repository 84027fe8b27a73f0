import TuneGraph.Number.Numeral
import TuneGraph.Report
import TuneGraph.Text.Template

/-! # What can go wrong in a compilation -/

namespace TuneGraph

/-- Why a tune is not compiled. -/
inductive CompileError where
  /-- A label of the settings cannot be filled in. -/
  | label (error : Text.TemplateError)
  /-- The ids would start below zero. -/
  | negativeId (id : Int)
  /-- Fewer ids than one are asked for. -/
  | noIds (count : Int)
  /-- A repeat would be linked to a node that does not exist yet. -/
  | unknownNode (id : Int)
  /-- An assembled staff did not pass its check. -/
  | invalidStaff (index : Int) (name : String) (report : Report)
  /-- A number that has to be reported has too many digits. -/
  | tooLong

namespace CompileError

/-- A number after some words; if it cannot be written out, this is what is said. -/
def withNumber (words : String) (number : Int) : String :=
  ((Numeral.ofInt? number).map (words ++ ·)).getD Numeral.limitMessage

/-- The wording of an error. For a node that does not exist it is the id and nothing else, and
so there is none if the id cannot be written out. -/
def message? : CompileError → Option String
  | label error => some error.message
  | negativeId id => some (withNumber "Node id must be >= 0, got " id)
  | noIds count => some (withNumber "Must allocate at least one id, got " count)
  | unknownNode id => Numeral.ofInt? id
  | invalidStaff index name report =>
    some ("Staff " ++ toString index ++ " of '" ++ name ++ "' failed validation:\n" ++ report.text)
  | tooLong => some Numeral.limitMessage

end CompileError

end TuneGraph
