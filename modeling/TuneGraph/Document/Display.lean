import TuneGraph.Document.Basic
import TuneGraph.Number.Numeral
import TuneGraph.Number.Shortest
import TuneGraph.Text.Quoted

/-! # Values inside messages and names

`Datum.literal?` spells a value so that its type shows: texts are quoted. `Datum.display?`
is what becomes of a value where a text is wanted: a text stands for itself and anything
else is spelled as a literal. A value that holds an integer of too many digits has no
spelling.
-/

namespace TuneGraph

namespace Datum

/-- The spelling of a scalar. -/
def literalScalar? : Datum → Option String
  | .null => some "None"
  | .boolean true => some "True"
  | .boolean false => some "False"
  | .integer value => Numeral.ofInt? value
  | .real value => some (Layout.standard.write value)
  | .text value => some (Text.quoted value)
  | .list _ | .mapping _ => some ""
  | .other value => value.literal?

mutual

/-- A value spelled with its type. -/
def literal? : Datum → Option String
  | .list items => (literals? items).map fun parts => "[" ++ ", ".intercalate parts ++ "]"
  | .mapping entries =>
    (literalEntries? entries).map fun parts => "\x7b" ++ ", ".intercalate parts ++ "\x7d"
  | scalar => literalScalar? scalar
termination_by structural value => value

/-- The items of a list, spelled one by one. -/
def literals? : List Datum → Option (List String)
  | [] => some []
  | item :: rest => do return (← literal? item) :: (← literals? rest)
termination_by structural items => items

/-- The entries of a mapping, spelled one by one. -/
def literalEntries? : List (String × Datum) → Option (List String)
  | [] => some []
  | entry :: rest => do return (← literalEntry? entry) :: (← literalEntries? rest)
termination_by structural entries => entries

/-- An entry of a mapping. -/
def literalEntry? : String × Datum → Option String
  | (name, value) => (literal? value).map fun spelling => Text.quoted name ++ ": " ++ spelling
termination_by structural entry => entry

end

/-- A value as a text. -/
def display? : Datum → Option String
  | .text value => some value
  | .other value => value.display?
  | value => value.literal?

end Datum

end TuneGraph
