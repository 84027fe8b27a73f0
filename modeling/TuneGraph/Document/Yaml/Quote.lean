import TuneGraph.Document.Yaml.Cursor
import TuneGraph.Document.Yaml.Fault

/-! # Scalars that are not plain

Quoted scalars end at their quote and fold line breaks: one break is a space, and each
further one stands for itself. Block scalars are indented below their header and keep
their line breaks or fold them.
-/

namespace TuneGraph.Yaml

/-- The character that a letter after a backslash stands for. -/
def escapedChar? : Char → Option Char
  | '0' => some (Char.ofNat 0)
  | 'a' => some (Char.ofNat 7)
  | 'b' => some (Char.ofNat 8)
  | 't' | '\t' => some '\t'
  | 'n' => some '\n'
  | 'v' => some (Char.ofNat 11)
  | 'f' => some (Char.ofNat 12)
  | 'r' => some '\r'
  | 'e' => some (Char.ofNat 27)
  | ' ' => some ' '
  | '"' => some '"'
  | '\\' => some '\\'
  | '/' => some '/'
  | 'N' => some (Char.ofNat 0x85)
  | '_' => some (Char.ofNat 0xA0)
  | 'L' => some (Char.ofNat 0x2028)
  | 'P' => some (Char.ofNat 0x2029)
  | _ => none

/-- The number of hexadecimal digits after a letter that announces a code. -/
def codeLength? : Char → Option Nat
  | 'x' => some 2
  | 'u' => some 4
  | 'U' => some 8
  | _ => none

/-- The value of a hexadecimal digit. -/
def hexValue? (c : Char) : Option Nat :=
  if '0' ≤ c ∧ c ≤ '9' then some (c.toNat - 48)
  else if 'a' ≤ c ∧ c ≤ 'f' then some (c.toNat - 87)
  else if 'A' ≤ c ∧ c ≤ 'F' then some (c.toNat - 55)
  else none

/-- The number that a count of hexadecimal digits denote, if there are that many. -/
def hexCode? (count : Nat) (cs : List Char) : Option Nat :=
  let digits := (cs.take count).filterMap hexValue?
  if digits.length < count then none else some (digits.foldl (fun n d => 16 * n + d) 0)

/-- The code of two surrogates, the second of which is written as an escape of its own. -/
def pairCode? (first : Nat) : List Char → Option Nat
  | '\\' :: 'u' :: rest =>
    if 0xD800 ≤ first && first < 0xDC00 then
      ((hexCode? 4 rest).filter fun second => 0xDC00 ≤ second && second < 0xE000).map
        fun second => 0x10000 + (first - 0xD800) * 0x400 + (second - 0xDC00)
    else none
  | _ => none

/-- The character of a code; a surrogate alone gives the replacement character. -/
def codeChar (n : Nat) : Except Fault Char :=
  if n.isValidChar then pure (Char.ofNat n)
  else if n < 0x110000 then pure (Char.ofNat 0xFFFD)
  else throw (.scalar (if n < 0x80000000 then .noCharacter else .hugeCode))

/-- The line breaks from here on, with blanks between them passed over. -/
def quotedBreaks : Nat → Cursor → Except Fault (List Char × Cursor)
  | 0, cursor => pure ([], cursor)
  | fuel + 1, cursor =>
    if cursor.atMarker then throw .markerInQuote
    else
      let cursor := cursor.skipWhile fun c => c = ' ' || c = '\t'
      match cursor.lineBreak? with
      | none => pure ([], cursor)
      | some (c, cursor) => do
        let (rest, cursor) ← quotedBreaks fuel cursor
        return (c :: rest, cursor)

/-- What line breaks contribute: a single line feed is a space, the first of several is
dropped. -/
def foldBreaks (first : Char) (more : List Char) : List Char :=
  if first ≠ '\n' then first :: more
  else if more.isEmpty then [' ']
  else more

/-- Blanks inside a quoted scalar: kept as they are, or folded if a line ends. -/
def quotedGap (cursor : Cursor) : Except Fault (List Char × Cursor) := do
  let (blanks, cursor) := cursor.takeWhile fun c => c = ' ' || c = '\t'
  match cursor.lineBreak? with
  | some (first, cursor) =>
    let (more, cursor) ← quotedBreaks (cursor.rest.length + 1) cursor
    return (foldBreaks first more, cursor)
  | none => if cursor.rest.isEmpty then throw .unclosedQuote else return (blanks, cursor)

/-- An escape after its backslash. -/
def quotedEscape (cursor : Cursor) : Except Fault (List Char × Cursor) :=
  match cursor.rest with
  | [] => throw .unknownEscape
  | c :: rest =>
    match escapedChar? c, codeLength? c, cursor.lineBreak? with
    | some value, _, _ => pure ([value], cursor.advance)
    | none, some length, _ =>
      match hexCode? length rest with
      | none => throw .unknownEscape
      | some code =>
        match pairCode? code (rest.drop length) with
        | some joined => do return ([← codeChar joined], cursor.advanceBy (length + 7))
        | none => do return ([← codeChar code], cursor.advanceBy (length + 1))
    | none, none, some (_, cursor) => quotedBreaks (cursor.rest.length + 1) cursor
    | none, none, none => throw .unknownEscape

/-- A quoted scalar behind its opening quote. In double quotes a backslash escapes, in
single quotes a doubled quote stands for one. -/
def quotedScalar (double : Bool) : Nat → Cursor → Except Fault (List Char × Cursor)
  | 0, _ => throw .unclosedQuote
  | fuel + 1, cursor =>
    let append (part : List Char) (cursor : Cursor) : Except Fault (List Char × Cursor) := do
      let (rest, cursor) ← quotedScalar double fuel cursor
      return (part ++ rest, cursor)
    match cursor.rest with
    | [] => throw .unclosedQuote
    | '\'' :: rest =>
      if double then append ['\''] cursor.advance
      else if rest.head? = some '\'' then append ['\''] (cursor.advanceBy 2)
      else pure ([], cursor.advance)
    | '"' :: _ => if double then pure ([], cursor.advance) else append ['"'] cursor.advance
    | '\\' :: _ =>
      if double then do
        let (part, cursor) ← quotedEscape cursor.advance
        append part cursor
      else append ['\\'] cursor.advance
    | c :: _ =>
      if isGap c then do
        let (part, cursor) ← quotedGap cursor
        append part cursor
      else append [c] cursor.advance

/-- What happens to the line breaks at the end of a block scalar. -/
inductive Chomping where
  | clip
  | strip
  | keep
  deriving DecidableEq, Repr

/-- The header of a block scalar. -/
structure BlockHeader where
  chomping : Chomping := .clip
  /-- The indentation below the parent, if it is given. -/
  increment : Option Nat := none

/-- A chomping mark. -/
def chomping? : Char → Option Chomping
  | '+' => some .keep
  | '-' => some .strip
  | _ => none

/-- The indicators of a header, in either order. -/
def blockIndicators (header : BlockHeader) (cursor : Cursor) :
    Except Fault (BlockHeader × Cursor) :=
  match cursor.rest with
  | c :: rest =>
    match chomping? c with
    | some chomping =>
      match rest with
      | d :: _ =>
        if '1' ≤ d ∧ d ≤ '9' then
          pure ({ chomping, increment := some (d.toNat - 48) }, cursor.advanceBy 2)
        else if d = '0' then throw .malformedBlockHeader
        else pure ({ header with chomping }, cursor.advance)
      | [] => pure ({ header with chomping }, cursor.advance)
    | none =>
      if '1' ≤ c ∧ c ≤ '9' then
        let increment := some (c.toNat - 48)
        match rest.head?.bind chomping? with
        | some chomping => pure ({ chomping, increment }, cursor.advanceBy 2)
        | none => pure ({ header with increment }, cursor.advance)
      else if c = '0' then throw .malformedBlockHeader
      else pure (header, cursor)
  | [] => pure (header, cursor)

/-- The rest of the line of a header: blanks and a comment. -/
def blockHeaderEnd (cursor : Cursor) : Except Fault Cursor := do
  if cursor.next?.any fun c => c != ' ' && !isBreak c then throw .malformedBlockHeader
  let cursor := cursor.skipWhile (· = ' ')
  let cursor := if cursor.next? = some '#' then cursor.skipWhile fun c => !isBreak c else cursor
  match cursor.rest, cursor.lineBreak? with
  | [], _ => pure cursor
  | _, some (_, cursor) => pure cursor
  | _, none => throw .malformedBlockHeader

/-- Blank lines at the beginning, with the largest indentation seen. -/
def detectIndentation (deepest : Nat) : Nat → Cursor → List Char × Nat × Cursor
  | 0, cursor => ([], deepest, cursor)
  | fuel + 1, cursor =>
    match cursor.rest with
    | ' ' :: _ =>
      let cursor := cursor.advance
      detectIndentation (max deepest cursor.column) fuel cursor
    | _ =>
      match cursor.lineBreak? with
      | some (c, cursor) =>
        let (breaks, deepest, cursor) := detectIndentation deepest fuel cursor
        (c :: breaks, deepest, cursor)
      | none => ([], deepest, cursor)

/-- Blank lines, each with at most the indentation of the scalar. -/
def blockBreaks (indent : Nat) : Nat → Cursor → List Char × Cursor
  | 0, cursor => ([], cursor)
  | fuel + 1, cursor =>
    if cursor.column < indent && cursor.next? = some ' ' then
      blockBreaks indent fuel cursor.advance
    else match cursor.lineBreak? with
      | some (c, cursor) =>
        let (breaks, cursor) := blockBreaks indent fuel cursor
        (c :: breaks, cursor)
      | none => ([], cursor)

/-- The lines of a block scalar from a line on, the last line break, and the breaks after
it. -/
def blockLines (folded : Bool) (indent : Nat) :
    Nat → Cursor → List Char × Option Char × List Char × Cursor
  | 0, cursor => ([], none, [], cursor)
  | fuel + 1, cursor =>
    let startsText := !(cursor.next?.any fun c => c = ' ' || c = '\t')
    let (line, cursor) := cursor.takeWhile fun c => !isBreak c
    let (ending, cursor) := match cursor.lineBreak? with
      | some (c, cursor) => (some c, cursor)
      | none => (none, cursor)
    let (breaks, cursor) := blockBreaks indent (cursor.rest.length + 1) cursor
    if cursor.column == indent && !cursor.rest.isEmpty then
      let followsText := !(cursor.next?.any fun c => c = ' ' || c = '\t')
      let joined :=
        if folded && ending = some '\n' && startsText && followsText then
          if breaks.isEmpty then [' '] else []
        else ending.toList
      let (rest, last, final, cursor) := blockLines folded indent fuel cursor
      (line ++ joined ++ breaks ++ rest, last, final, cursor)
    else (line, ending, breaks, cursor)

/-- A block scalar behind its mark; `parent` is the indentation around it. -/
def blockScalar (folded : Bool) (parent : Int) (cursor : Cursor) :
    Except Fault (List Char × Cursor) := do
  let (header, cursor) ← blockIndicators {} cursor
  let cursor ← blockHeaderEnd cursor
  let least := (max (parent + 1) 1).toNat
  let fuel := cursor.rest.length + 1
  let (breaks, indent, cursor) := match header.increment with
    | some increment =>
      let indent := least + increment - 1
      let (breaks, cursor) := blockBreaks indent fuel cursor
      (breaks, indent, cursor)
    | none =>
      let (breaks, deepest, cursor) := detectIndentation 0 fuel cursor
      (breaks, max least deepest, cursor)
  if cursor.column == indent && !cursor.rest.isEmpty then
    let (lines, last, final, cursor) := blockLines folded indent fuel cursor
    let tail := match header.chomping with
      | .strip => []
      | .clip => last.toList
      | .keep => last.toList ++ final
    return (breaks ++ lines ++ tail, cursor)
  else
    return (if header.chomping = .keep then breaks else [], cursor)

end TuneGraph.Yaml
