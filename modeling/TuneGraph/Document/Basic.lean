import TuneGraph.Number.Binary64
import TuneGraph.Text.Blank

/-! # Data of a document

The values that a score file, a request or a block can hold: scalars, lists and mappings
from names to values. A mapping keeps its entries in the order in which their names first
appeared. Integers are unbounded and distinct from real numbers. A reader of files may also
deliver values of other types, such as sets and points in time; of these only what can be
observed is kept.
-/

namespace TuneGraph

/-- A value of another type than those of JSON, by what can be observed of it. -/
structure Foreign where
  /-- The name of its type. -/
  typeName : String
  /-- How it is spelled inside other values, if it can be. -/
  literal? : Option String
  /-- How it is spelled as a text of its own, if it can be. -/
  display? : Option String
  /-- Whether it says something. -/
  isTruthy : Bool
  /-- Whether it can be looked up in a table. -/
  isHashable : Bool
  /-- The integer that it converts to. -/
  integer? : Option Int
  /-- The real number that it converts to. -/
  real? : Option Binary64
  /-- A text of its own is never blank. -/
  visible : ∀ spelling, display? = some spelling → Text.strip spelling ≠ ""
  deriving DecidableEq

/-- A value of a document. -/
inductive Datum where
  | null
  | boolean (value : Bool)
  | integer (value : Int)
  | real (value : Binary64)
  | text (value : String)
  | list (items : List Datum)
  | mapping (entries : List (String × Datum))
  | other (value : Foreign)
  deriving BEq, Inhabited

namespace Datum

/-- The entries of a mapping under construction: a name that is there keeps its place and
takes the new value. -/
def insertEntry (name : String) (value : Datum) : List (String × Datum) → List (String × Datum)
  | [] => [(name, value)]
  | entry :: rest =>
    if entry.1 = name then (name, value) :: rest else entry :: insertEntry name value rest

/-- A mapping from entries in which the last value of a name wins. -/
def ofEntries (entries : List (String × Datum)) : Datum :=
  .mapping (entries.foldl (fun done entry => insertEntry entry.1 entry.2 done) [])

/-- The value under a name in a list of entries. -/
def find? (name : String) (entries : List (String × Datum)) : Option Datum :=
  (entries.find? (·.1 == name)).map (·.2)

/-- The value under a name; null where there is none. -/
def get (value : Datum) (name : String) : Datum :=
  match value with
  | .mapping entries => (find? name entries).getD .null
  | _ => .null

/-- The items of a list; any other value has none. -/
def items : Datum → List Datum
  | .list items => items
  | _ => []

/-- Whether a value says something: null, false, zeros and empty values do not. -/
def isTruthy : Datum → Bool
  | .null => false
  | .boolean value => value
  | .integer value => value != 0
  | .real value => !value.isZero
  | .text value => value != ""
  | .list items => !items.isEmpty
  | .mapping entries => !entries.isEmpty
  | .other value => value.isTruthy

/-- The value itself if it says something, else another. -/
def orElse (value other : Datum) : Datum := if value.isTruthy then value else other

/-- The text of a value that is a text. -/
def text? : Datum → Option String
  | .text value => some value
  | _ => none

/-- The number of a value that is an integer; truth values count as one and zero. -/
def integer? : Datum → Option Int
  | .integer value => some value
  | .boolean value => some (if value then 1 else 0)
  | _ => none

/-- Whether a value is a mapping. -/
def isMapping : Datum → Bool
  | .mapping _ => true
  | _ => false

mutual

/-- Whether something is so of every scalar in a value. -/
def allScalars (isSo : Datum → Bool) : Datum → Bool
  | .list items => allInItems isSo items
  | .mapping entries => allInEntries isSo entries
  | scalar => isSo scalar
termination_by structural value => value

/-- Whether something is so of every scalar in the items of a list. -/
def allInItems (isSo : Datum → Bool) : List Datum → Bool
  | [] => true
  | item :: rest => allScalars isSo item && allInItems isSo rest
termination_by structural items => items

/-- Whether something is so of every scalar in the entries of a mapping. -/
def allInEntries (isSo : Datum → Bool) : List (String × Datum) → Bool
  | [] => true
  | entry :: rest => allInEntry isSo entry && allInEntries isSo rest
termination_by structural entries => entries

/-- Whether something is so of every scalar in an entry. -/
def allInEntry (isSo : Datum → Bool) : String × Datum → Bool
  | (_, value) => allScalars isSo value
termination_by structural entry => entry

end

/-- The name of a value's type, as messages spell it. -/
def typeName : Datum → String
  | .null => "NoneType"
  | .boolean _ => "bool"
  | .integer _ => "int"
  | .real _ => "float"
  | .text _ => "str"
  | .list _ => "list"
  | .mapping _ => "dict"
  | .other value => value.typeName

/-- Null for an absent value. -/
def ofOption {α : Type} (embed : α → Datum) : Option α → Datum
  | some value => embed value
  | none => .null

end Datum

end TuneGraph
