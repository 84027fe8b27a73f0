import TuneGraph.Document.Yaml.Quote

/-! # Tokens of YAML

Structure is partly written with marks and partly with indentation. The tokens make both
explicit: where a block begins or ends by its indentation there is a token, and so there is
in front of every key, although a key can only be recognised by the colon after it. Until
then its place among the tokens is remembered as a `Candidate`.
-/

namespace TuneGraph.Yaml

/-- A token. -/
inductive Token where
  | directive
  | documentStart
  | documentEnd
  | blockSequence
  | blockMapping
  | blockEnd
  | openBracket
  | closeBracket
  | openBrace
  | closeBrace
  | comma
  | entry
  | key
  | value
  | alias (name : String)
  | anchor (name : String)
  | tag (name : String)
  | plain (word : String)
  | quoted (text : String)
  deriving DecidableEq, Repr

/-- A place where a key may have started. -/
structure Candidate where
  /-- The flow level at which it stands. -/
  level : Int
  /-- The number of tokens in front of it. -/
  position : Nat
  /-- Whether a colon has to follow. -/
  required : Bool
  index : Nat
  line : Nat
  column : Nat

/-- The state of reading tokens. -/
structure Scan where
  cursor : Cursor
  tokens : Array Token := #[]
  /-- How many flow collections are open. -/
  level : Int := 0
  /-- The indentation of the innermost open block; below zero outside any. -/
  indent : Int := -1
  /-- The indentations around it. -/
  outer : List Int := []
  /-- Whether a key may start here. -/
  keyAllowed : Bool := true
  candidates : List Candidate := []
  finished : Bool := false

namespace Scan

/-- Whether no flow collection is open. -/
def inBlock (scan : Scan) : Bool := scan.level == 0

/-- A scan with one more token. -/
def push (scan : Scan) (token : Token) : Scan := { scan with tokens := scan.tokens.push token }

/-- The column that has been reached. -/
def column (scan : Scan) : Int := scan.cursor.column

/-- Forgets the candidate of the present level; one that needed its colon is a fault. -/
def dropCandidate (scan : Scan) : Except Fault Scan :=
  match scan.candidates.find? (·.level == scan.level) with
  | none => pure scan
  | some candidate =>
    if candidate.required then throw .missingColon
    else pure { scan with candidates := scan.candidates.filter (·.level != scan.level) }

/-- Remembers that a key may start here. -/
def addCandidate (scan : Scan) : Except Fault Scan := do
  if !scan.keyAllowed then return scan
  let scan ← scan.dropCandidate
  let candidate : Candidate :=
    { level := scan.level, position := scan.tokens.size
      required := scan.inBlock && scan.indent == scan.column
      index := scan.cursor.index, line := scan.cursor.line, column := scan.cursor.column }
  return { scan with candidates := candidate :: scan.candidates }

/-- The most characters that a key may have. -/
def keyLimit : Nat := 1024

/-- Whether a candidate can no longer be a key: keys end on the line on which they start. -/
def isStale (scan : Scan) (candidate : Candidate) : Bool :=
  candidate.line != scan.cursor.line || keyLimit < scan.cursor.index - candidate.index

/-- Forgets the candidates that can no longer be keys. -/
def dropStale (scan : Scan) : Except Fault Scan :=
  if scan.candidates.any fun candidate => scan.isStale candidate && candidate.required then
    throw .missingColon
  else pure { scan with candidates := scan.candidates.filter fun c => !scan.isStale c }

/-- Closes the blocks that are indented further than a column. -/
def closeBlocks (column : Int) (scan : Scan) : Scan :=
  if scan.inBlock then closeFrom scan.outer.length scan else scan
where
  closeFrom : Nat → Scan → Scan
    | 0, scan =>
      if column < scan.indent then { scan with indent := -1, tokens := scan.tokens.push .blockEnd }
      else scan
    | fuel + 1, scan =>
      if column < scan.indent then
        closeFrom fuel { scan with
          indent := scan.outer.head?.getD (-1), outer := scan.outer.drop 1
          tokens := scan.tokens.push .blockEnd }
      else scan

/-- Opens a block if the column is indented further than the present one. The token goes
to a place among the tokens. -/
def openBlock (scan : Scan) (column : Int) (position : Nat) (token : Token) : Scan :=
  if scan.indent < column then
    { scan with
      indent := column, outer := scan.indent :: scan.outer
      tokens := scan.tokens.insertIdx! position token }
  else scan

/-- Behind a number of characters. -/
def advanceBy (scan : Scan) (n : Nat) : Scan := { scan with cursor := scan.cursor.advanceBy n }

/-- The next token: past spaces, comments and line breaks. In a block a key may start on
every new line. -/
def skipToToken : Nat → Scan → Scan
  | 0, scan => scan
  | fuel + 1, scan =>
    let start := scan.cursor
    let cursor := if start.index == 0 && start.next? == some (Char.ofNat 0xFEFF)
      then start.advance else start
    let cursor := cursor.skipWhile (· = ' ')
    let cursor := if cursor.next? = some '#' then cursor.skipWhile fun c => !isBreak c else cursor
    match cursor.lineBreak? with
    | none => { scan with cursor }
    | some (_, cursor) =>
      skipToToken fuel { scan with cursor, keyAllowed := scan.keyAllowed || scan.inBlock }

/-- A mark that opens a flow collection. -/
def openFlow (scan : Scan) (token : Token) : Except Fault Scan := do
  let scan ← scan.addCandidate
  return { scan.push token with
    level := scan.level + 1, keyAllowed := true, cursor := scan.cursor.advance }

/-- A mark that closes a flow collection. -/
def closeFlow (scan : Scan) (token : Token) : Except Fault Scan := do
  let scan ← scan.dropCandidate
  return { scan.push token with
    level := scan.level - 1, keyAllowed := false, cursor := scan.cursor.advance }

/-- A comma. -/
def comma (scan : Scan) : Except Fault Scan := do
  let scan ← { scan with keyAllowed := true }.dropCandidate
  return { scan.push .comma with cursor := scan.cursor.advance }

/-- A dash in front of an item. -/
def entry (scan : Scan) : Except Fault Scan := do
  if scan.inBlock && !scan.keyAllowed then throw .misplacedEntry
  let opened := if scan.inBlock then
    scan.openBlock scan.column scan.tokens.size .blockSequence else scan
  let scan ← { opened with keyAllowed := true }.dropCandidate
  return { scan.push .entry with cursor := scan.cursor.advance }

/-- A question mark in front of a key. -/
def key (scan : Scan) : Except Fault Scan := do
  if scan.inBlock && !scan.keyAllowed then throw .misplacedKey
  let opened := if scan.inBlock then
    scan.openBlock scan.column scan.tokens.size .blockMapping else scan
  let scan ← { opened with keyAllowed := scan.inBlock }.dropCandidate
  return { scan.push .key with cursor := scan.cursor.advance }

/-- A colon in front of a value. If a key may have started before, it has. -/
def value (scan : Scan) : Except Fault Scan := do
  match scan.candidates.find? (·.level == scan.level) with
  | some candidate =>
    let keyed := { scan with
      candidates := scan.candidates.filter (·.level != scan.level)
      tokens := scan.tokens.insertIdx! candidate.position .key
      keyAllowed := false }
    let opened := if scan.inBlock then
      keyed.openBlock candidate.column candidate.position .blockMapping else keyed
    return { opened.push .value with cursor := scan.cursor.advance }
  | none =>
    if scan.inBlock && !scan.keyAllowed then throw .misplacedValue
    let opened := if scan.inBlock then
      scan.openBlock scan.column scan.tokens.size .blockMapping else scan
    let scan ← { opened with keyAllowed := scan.inBlock }.dropCandidate
    return { scan.push .value with cursor := scan.cursor.advance }

/-- Letters of anchors and aliases. -/
def isNameChar (c : Char) : Bool := c.isAlphanum || c = '-' || c = '_'

/-- An anchor or an alias. -/
def name (scan : Scan) (token : String → Token) : Except Fault Scan := do
  let scan ← scan.addCandidate
  let (word, cursor) := scan.cursor.advance.takeWhile isNameChar
  let ends := match cursor.rest with
    | [] => true
    | c :: _ => isGap c || "?:,]\x7d%@`".toList.contains c
  if word.isEmpty || !ends then throw .malformedName
  return { scan.push (token (String.ofList word)) with cursor, keyAllowed := false }

/-- A tag. -/
def tag (scan : Scan) : Except Fault Scan := do
  let scan ← scan.addCandidate
  let (word, cursor) := scan.cursor.takeWhile fun c => !isGap c
  if word.any fun c => 127 < c.toNat then throw .malformedTag
  return { scan.push (.tag (String.ofList word)) with cursor, keyAllowed := false }

/-- A quoted scalar. -/
def quoted (scan : Scan) (double : Bool) : Except Fault Scan := do
  let scan ← scan.addCandidate
  let (text, cursor) ← quotedScalar double (scan.cursor.rest.length + 1) scan.cursor.advance
  return { scan.push (.quoted (String.ofList text)) with cursor, keyAllowed := false }

/-- A block scalar. -/
def block (scan : Scan) (folded : Bool) : Except Fault Scan := do
  let scan ← { scan with keyAllowed := true }.dropCandidate
  let (text, cursor) ← blockScalar folded scan.indent scan.cursor.advance
  return { scan.push (.quoted (String.ofList text)) with cursor }

/-- Marks that end a plain scalar inside a flow collection. -/
def isFlowMark (c : Char) : Bool := ",[]\x7b\x7d".toList.contains c

/-- The length of the next run of a plain scalar. A colon ends it if a gap follows, and
inside a flow collection so do marks. -/
def plainRun (inFlow : Bool) : List Char → Nat
  | [] => 0
  | c :: rest =>
    if isGap c then 0
    else if c = ':' && (gapNext rest || (inFlow && rest.head?.any isFlowMark)) then 0
    else if inFlow && (c = '?' || isFlowMark c) then 0
    else plainRun inFlow rest + 1

/-- Blank lines inside a plain scalar; nothing if a document marker ends it. -/
def plainBreaks : Nat → Cursor → Option (List Char) × Cursor
  | 0, cursor => (some [], cursor)
  | fuel + 1, cursor =>
    match cursor.rest with
    | ' ' :: _ => plainBreaks fuel cursor.advance
    | _ =>
      match cursor.lineBreak? with
      | none => (some [], cursor)
      | some (c, cursor) =>
        if cursor.atMarker then (none, cursor)
        else
          let (breaks, cursor) := plainBreaks fuel cursor
          (breaks.map (c :: ·), cursor)

/-- The gap after a run of a plain scalar: its contribution, whether a line ended in it,
and the cursor behind it. No contribution ends the scalar. -/
def plainGap (cursor : Cursor) : List Char × Bool × Cursor :=
  let (spaces, cursor) := cursor.takeWhile (· = ' ')
  match cursor.lineBreak? with
  | none => (spaces, false, cursor)
  | some (first, cursor) =>
    if cursor.atMarker then ([], true, cursor)
    else match plainBreaks (cursor.rest.length + 1) cursor with
      | (none, cursor) => ([], true, cursor)
      | (some breaks, cursor) => (foldBreaks first breaks, true, cursor)

/-- The runs of a plain scalar with the gaps between them. `gap` is what stands before the
next run. -/
def plainText (inFlow : Bool) (indent : Int) (gap : List Char) (keyAllowed : Bool) :
    Nat → Cursor → List Char × Bool × Cursor
  | 0, cursor => ([], keyAllowed, cursor)
  | fuel + 1, cursor =>
    let length := if cursor.next? = some '#' then 0 else plainRun inFlow cursor.rest
    if length = 0 then ([], keyAllowed, cursor)
    else
      let run := cursor.rest.take length
      let (next, broken, cursor) := plainGap (cursor.advanceBy length)
      if next.isEmpty || cursor.next? = some '#' || (!inFlow && (cursor.column : Int) < indent) then
        (gap ++ run, broken, cursor)
      else
        let (rest, keyAllowed, cursor) := plainText inFlow indent next broken fuel cursor
        (gap ++ run ++ rest, keyAllowed, cursor)

/-- A plain scalar. -/
def plain (scan : Scan) : Except Fault Scan := do
  let scan ← scan.addCandidate
  let (text, keyAllowed, cursor) := plainText (!scan.inBlock) (scan.indent + 1) [] false
    (scan.cursor.rest.length + 1) scan.cursor
  return { scan.push (.plain (String.ofList text)) with cursor, keyAllowed }

/-- A document marker. -/
def marker (scan : Scan) (token : Token) : Except Fault Scan := do
  let scan ← (scan.closeBlocks (-1)).dropCandidate
  return { scan.push token with keyAllowed := false, cursor := scan.cursor.advanceBy 3 }

/-- A directive; what it says is not needed. -/
def directive (scan : Scan) : Except Fault Scan := do
  let scan ← (scan.closeBlocks (-1)).dropCandidate
  let (word, cursor) := scan.cursor.advance.takeWhile isNameChar
  if word.isEmpty || !gapNext cursor.rest then throw .malformedDirective
  return { scan.push .directive with
    keyAllowed := false, cursor := cursor.skipWhile fun c => !isBreak c }

/-- The end of the text. -/
def finish (scan : Scan) : Except Fault Scan := do
  let scan ← (scan.closeBlocks (-1)).dropCandidate
  return { scan with finished := true, keyAllowed := false, candidates := [] }

/-- Whether a plain scalar starts here. -/
def plainNext (inBlock : Bool) : List Char → Bool
  | [] => false
  | c :: rest =>
    if !isGap c && !"-?:,[]\x7b\x7d#&*!|>'\"%@`".toList.contains c then true
    else !gapNext rest && (c = '-' || (inBlock && (c = '?' || c = ':')))

/-- A scan with the next token or tokens. -/
def step (scan : Scan) : Except Fault Scan := do
  let scan := skipToToken (scan.cursor.rest.length + 1) scan
  let scan ← scan.dropStale
  let scan := scan.closeBlocks scan.column
  let atStart := scan.cursor.column == 0
  match scan.cursor.rest with
  | [] => scan.finish
  | c :: rest =>
    if c = '%' && atStart then scan.directive
    else if atStart && scan.cursor.atMarker then
      scan.marker (if c = '-' then .documentStart else .documentEnd)
    else if c = '[' then scan.openFlow .openBracket
    else if c = '{' then scan.openFlow .openBrace
    else if c = ']' then scan.closeFlow .closeBracket
    else if c = '}' then scan.closeFlow .closeBrace
    else if c = ',' then scan.comma
    else if c = '-' && gapNext rest then scan.entry
    else if c = '?' && (!scan.inBlock || gapNext rest) then scan.key
    else if c = ':' && (!scan.inBlock || gapNext rest) then scan.value
    else if c = '*' then scan.name .alias
    else if c = '&' then scan.name .anchor
    else if c = '!' then scan.tag
    else if c = '|' && scan.inBlock then scan.block false
    else if c = '>' && scan.inBlock then scan.block true
    else if c = '\'' then scan.quoted false
    else if c = '"' then scan.quoted true
    else if plainNext scan.inBlock (c :: rest) then scan.plain
    else throw .unexpectedCharacter

/-- All tokens from here on. -/
def run : Nat → Scan → Except Fault (List Token)
  | 0, scan => pure scan.tokens.toList
  | fuel + 1, scan => do
    let scan ← scan.step
    if scan.finished then return scan.tokens.toList
    run fuel scan

end Scan

/-- Whether a YAML text may hold a character. -/
def isAllowed (c : Char) : Bool :=
  let n := c.toNat
  n == 9 || n == 10 || n == 13 || (32 ≤ n && n ≤ 126) || n == 0x85 ||
    (0xA0 ≤ n && n ≤ 0xFFFD) || 0x10000 ≤ n

/-- The tokens of a text. -/
def tokens (text : String) : Except Fault (List Token) :=
  let cs := text.toList
  if !cs.all isAllowed then throw .forbiddenCharacter
  else Scan.run (cs.length + 2) { cursor := { rest := cs } }

end TuneGraph.Yaml
