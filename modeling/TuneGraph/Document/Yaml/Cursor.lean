/-! # Places in a YAML text

A cursor is what is left of a text together with the place that has been reached. Lines
end with a line feed, a next-line, or a line or paragraph separator.
-/

namespace TuneGraph.Yaml

/-- A place in a text and the text from there on. -/
structure Cursor where
  rest : List Char
  index : Nat := 0
  line : Nat := 0
  column : Nat := 0

/-- Line breaks. -/
def isBreak (c : Char) : Bool :=
  c = '\n' || c.toNat == 0x85 || c.toNat == 0x2028 || c.toNat == 0x2029

/-- A space, a tab or a line break. -/
def isGap (c : Char) : Bool := c = ' ' || c = '\t' || isBreak c

/-- Whether a gap or the end of the text comes next. -/
def gapNext (cs : List Char) : Bool :=
  match cs with
  | [] => true
  | c :: _ => isGap c

/-- What a line break contributes to a scalar: a line feed, or the separator itself. -/
def breakChar (c : Char) : Char := if c.toNat == 0x2028 || c.toNat == 0x2029 then c else '\n'

/-- Whether a document marker starts here: three dashes or dots and a gap. -/
def markerNext (cs : List Char) : Bool :=
  match cs with
  | '-' :: '-' :: '-' :: rest => gapNext rest
  | '.' :: '.' :: '.' :: rest => gapNext rest
  | _ => false

namespace Cursor

/-- The next character. -/
def next? (cursor : Cursor) : Option Char := cursor.rest.head?

/-- The cursor one character further. -/
def advance (cursor : Cursor) : Cursor :=
  match cursor.rest with
  | [] => cursor
  | c :: rest =>
    if isBreak c then { rest, index := cursor.index + 1, line := cursor.line + 1, column := 0 }
    else
      { rest, index := cursor.index + 1, line := cursor.line
        column := if c.toNat == 0xFEFF then cursor.column else cursor.column + 1 }

/-- The cursor a number of characters further. -/
def advanceBy (cursor : Cursor) : Nat → Cursor
  | 0 => cursor
  | n + 1 => cursor.advance.advanceBy n

/-- The characters up to the first that does not satisfy a test, and the cursor behind
them. -/
def takeWhile (cursor : Cursor) (test : Char → Bool) : List Char × Cursor :=
  let taken := cursor.rest.takeWhile test
  (taken, cursor.advanceBy taken.length)

/-- The cursor behind the characters that satisfy a test. -/
def skipWhile (cursor : Cursor) (test : Char → Bool) : Cursor := (cursor.takeWhile test).2

/-- The cursor behind a line break, with what the break contributes, if there is one. -/
def lineBreak? (cursor : Cursor) : Option (Char × Cursor) :=
  match cursor.rest with
  | c :: _ => if isBreak c then some (breakChar c, cursor.advance) else none
  | [] => none

/-- Whether a document marker starts here. -/
def atMarker (cursor : Cursor) : Bool := markerNext cursor.rest

end Cursor

end TuneGraph.Yaml
