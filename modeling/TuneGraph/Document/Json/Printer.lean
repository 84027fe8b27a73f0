import TuneGraph.Document.Basic
import TuneGraph.Number.Numeral
import TuneGraph.Number.Shortest
import TuneGraph.Text.Quoted

/-! # JSON texts

Printing a value as JSON, on one line or with one item per line. Integers are written out
in full and real numbers in the shortest form that reads back; infinities and NaN have
names that only extended readers accept.

An integer with more digits than an integer in a text may have is not written out, so that a
value that holds one has no text. A file is written piece by piece: it holds what came before
the first such integer, or before the first piece with a lone surrogate, which has no bytes.
-/

namespace TuneGraph.Json

/-- How a JSON text is written. -/
structure Style where
  /-- Write characters outside ASCII as escapes. -/
  ascii : Bool := false
  /-- What each level of nesting is indented by; on one line if there is none. -/
  indent : Option String := none

/-- Numbers in JSON: the shortest form, with capitalised names beyond the finite. -/
def numberLayout : Layout :=
  { Layout.standard with infinity := "Infinity", nan := "NaN" }

/-- A code unit of sixteen bits as an escape. -/
def escapeUnit (n : Nat) : List Char := '\\' :: 'u' :: Text.hexadecimal 4 n

/-- A character as escapes; beyond sixteen bits as a surrogate pair. -/
def escapeUnits (c : Char) : List Char :=
  let n := Text.code c
  if n < 0x10000 then escapeUnit n
  else escapeUnit (0xD800 + (n - 0x10000) / 0x400) ++ escapeUnit (0xDC00 + (n - 0x10000) % 0x400)

/-- One character inside a JSON string. -/
def escapeChar (ascii : Bool) (c : Char) : List Char :=
  if c = '"' ∨ c = '\\' then ['\\', c]
  else if c = '\n' then ['\\', 'n']
  else if c = '\r' then ['\\', 'r']
  else if c = '\t' then ['\\', 't']
  else if c.toNat = 8 then ['\\', 'b']
  else if c.toNat = 12 then ['\\', 'f']
  else if c.toNat < 32 then escapeUnit c.toNat
  else if ascii && 126 < c.toNat then escapeUnits c
  else [c]

/-- A JSON string. -/
def writeString (ascii : Bool) (s : String) : String :=
  String.ofList ('"' :: s.toList.flatMap (escapeChar ascii) ++ ['"'])

/-- A JSON scalar. -/
def writeScalar (style : Style) : Datum → String
  | .null => "null"
  | .boolean true => "true"
  | .boolean false => "false"
  | .integer value => toString value
  | .real value => numberLayout.write value
  | .text value => writeString style.ascii value
  | .list _ => "[]"
  | .mapping _ => "\x7b\x7d"
  | .other _ => "null"

/-- A line break with the indentation of a level, if the style breaks lines. -/
def lineBreak (style : Style) (level : Nat) : String :=
  match style.indent with
  | some unit => "\n" ++ String.join (List.replicate level unit)
  | none => ""

/-- What stands between two items of a level. -/
def separator (style : Style) (level : Nat) : String :=
  match style.indent with
  | some _ => "," ++ lineBreak style level
  | none => ", "

/-- Items between brackets, one level further in. -/
def enclose (style : Style) (level : Nat) (opening closing : String) : List String → String
  | [] => opening ++ closing
  | items => opening ++ lineBreak style (level + 1) ++
      (separator style (level + 1)).intercalate items ++ lineBreak style level ++ closing

mutual

/-- A value at a level of nesting. -/
def writeAt (style : Style) (level : Nat) : Datum → String
  | .list items => enclose style level "[" "]" (writeItems style (level + 1) items)
  | .mapping entries =>
    enclose style level "\x7b" "\x7d" (writeEntries style (level + 1) entries)
  | scalar => writeScalar style scalar
termination_by structural value => value

/-- The items of a list, one by one. -/
def writeItems (style : Style) (level : Nat) : List Datum → List String
  | [] => []
  | item :: rest => writeAt style level item :: writeItems style level rest
termination_by structural items => items

/-- The entries of a mapping, one by one. -/
def writeEntries (style : Style) (level : Nat) : List (String × Datum) → List String
  | [] => []
  | entry :: rest => writeEntry style level entry :: writeEntries style level rest
termination_by structural entries => entries

/-- An entry of a mapping. -/
def writeEntry (style : Style) (level : Nat) : String × Datum → String
  | (name, value) => writeString style.ascii name ++ ": " ++ writeAt style level value
termination_by structural entry => entry

end

/-- A value as a JSON text. -/
def write (style : Style) (value : Datum) : String := writeAt style 0 value

/-- Whether a scalar can be written out. -/
def isShort : Datum → Bool
  | .integer value => Numeral.isShort value
  | .other _ => false
  | _ => true

/-- Whether every scalar in a value can be written out. -/
def fits (value : Datum) : Bool := value.allScalars isShort

/-- The text of a value all of which can be written out. -/
def write? (style : Style) (value : Datum) : Option String :=
  if fits value then some (write style value) else none

/-- What stops a value on its way into a file. -/
inductive Obstacle where
  /-- A scalar that cannot be written out. -/
  | tooLong
  /-- Lone surrogates, by what is said of them. -/
  | surrogates (message : String)
  deriving DecidableEq, Repr

/-- The wording of an obstacle. -/
def Obstacle.message : Obstacle → String
  | tooLong => Numeral.limitMessage
  | surrogates message => message

/-- A piece of a text on its way into a file. -/
abbrev Piece := Except Obstacle String

/-- A piece that gets into the file if it holds no lone surrogates. -/
def piece (text : String) : Piece :=
  match Text.encodingFault? Text.isSurrogate text with
  | some message => .error (.surrogates message)
  | none => .ok text

/-- A scalar in one piece with what stands before it. -/
def scalarPiece (before : String) (scalar : Datum) : Piece :=
  if isShort scalar then piece (before ++ writeScalar {} scalar) else .error .tooLong

mutual

/-- The pieces of a value on one line. What stands before a scalar is written together with
it. -/
def pieces (before : String) : Datum → List Piece
  | .list items =>
    if items.isEmpty then [.ok (before ++ "[]")]
    else .ok before :: (itemPieces "[" items ++ [.ok "]"])
  | .mapping entries =>
    if entries.isEmpty then [.ok (before ++ "\x7b\x7d")]
    else .ok (before ++ "\x7b") :: (entryPieces "" entries ++ [.ok "\x7d"])
  | scalar => [scalarPiece before scalar]
termination_by structural value => value

/-- The pieces of the items of a list. -/
def itemPieces (before : String) : List Datum → List Piece
  | [] => []
  | item :: rest => pieces before item ++ itemPieces ", " rest
termination_by structural items => items

/-- The pieces of the entries of a mapping. -/
def entryPieces (before : String) : List (String × Datum) → List Piece
  | [] => []
  | entry :: rest => .ok before :: (entryPiece entry ++ entryPieces ", " rest)
termination_by structural entries => entries

/-- The pieces of an entry. -/
def entryPiece : String × Datum → List Piece
  | (name, value) => piece (writeString false name) :: .ok ": " :: pieces "" value
termination_by structural entry => entry

end

/-- What of several pieces gets into a file. -/
def begun : List Piece → String
  | .ok text :: rest => text ++ begun rest
  | .error _ :: _ | [] => ""

/-- What stops the first of several pieces that does not get into a file. -/
def stopped : List Piece → Option Obstacle
  | .ok _ :: rest => stopped rest
  | .error obstacle :: _ => some obstacle
  | [] => none

/-- What gets into a file of a value: its JSON text, as far as it can be written. -/
def written (value : Datum) : String := begun (pieces "" value)

/-- What keeps a value from getting into a file as a whole. -/
def obstacle? (value : Datum) : Option Obstacle := stopped (pieces "" value)

mutual

/-- A value with the entries of every mapping sorted by name. -/
def sortNames : Datum → Datum
  | .list items => .list (sortNamesIn items)
  | .mapping entries => .mapping ((sortNamesOf entries).mergeSort fun a b => a.1 ≤ b.1)
  | scalar => scalar
termination_by structural value => value

/-- The items of a list with sorted mappings. -/
def sortNamesIn : List Datum → List Datum
  | [] => []
  | item :: rest => sortNames item :: sortNamesIn rest
termination_by structural items => items

/-- The entries of a mapping with sorted mappings inside. -/
def sortNamesOf : List (String × Datum) → List (String × Datum)
  | [] => []
  | entry :: rest => sortNamesWithin entry :: sortNamesOf rest
termination_by structural entries => entries

/-- An entry with a sorted value. -/
def sortNamesWithin : String × Datum → String × Datum
  | (name, value) => (name, sortNames value)
termination_by structural entry => entry

end

end TuneGraph.Json
