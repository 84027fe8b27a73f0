import TuneGraph.Document.Yaml.Token
import TuneGraph.Document.Yaml.Scalar
import TuneGraph.Document.Display

/-! # Values of YAML texts

The value of a node is read straight from its tokens. Anchored values are remembered, and
an alias stands for the value of its anchor. A mapping keeps the last value of a name; a
merge key brings the entries of other mappings that the mapping does not name itself.
-/

namespace TuneGraph.Yaml

/-- Values by the names of their anchors. -/
abbrev Anchors := List (String × Datum)

/-- The state of reading values. -/
structure Reading where
  tokens : List Token
  anchors : Anchors := []

/-- What stands before a node. -/
structure Properties where
  anchor : Option String := none
  tag : Option String := none

/-- The anchor and the tag in front of a node, in either order. -/
def properties : List Token → Properties × List Token
  | .anchor name :: .tag tag :: rest => ({ anchor := some name, tag := some tag }, rest)
  | .tag tag :: .anchor name :: rest => ({ anchor := some name, tag := some tag }, rest)
  | .anchor name :: rest => ({ anchor := some name }, rest)
  | .tag tag :: rest => ({ tag := some tag }, rest)
  | rest => ({}, rest)

/-- Whether a node that is left out ends here, inside a sequence. -/
def endsEntry : List Token → Bool
  | .entry :: _ | .blockEnd :: _ | [] => true
  | _ => false

/-- Whether a node that is left out ends here, inside a mapping or a sequence that is not
indented. -/
def endsPair : List Token → Bool
  | .key :: _ | .value :: _ | .blockEnd :: _ | [] => true
  | _ => false

/-- Whether a node that is left out ends here, inside a flow collection. -/
def endsFlow : List Token → Bool
  | .comma :: _ | .closeBracket :: _ | .closeBrace :: _ | .value :: _ | [] => true
  | _ => false

/-- The value of a scalar, if it has the one that it announces. -/
def scalarValue (value : Except ScalarFault Datum) : Except Fault Datum := value.mapError .scalar

/-- The value of a plain scalar under a tag. -/
def taggedScalar (plain : Bool) (word : String) : Option String → Except Fault Datum
  | none =>
    if !plain then pure (.text word)
    else if word = "=" ∨ word = "<<" then throw .unsuitableTag
    else scalarValue (plainValue word)
  | some "!" => pure (.text word)
  | some "!!str" => pure (.text word)
  | some "!!null" => pure .null
  | some "!!bool" => scalarValue (.boolean <$> truthValue word)
  | some "!!int" => scalarValue (.integer <$> integerOf word)
  | some "!!float" => scalarValue (.real <$> realOf word)
  | some "!!timestamp" => scalarValue (.text <$> timeOf word)
  | some _ => throw .unsuitableTag

/-- A collection under a tag that has to be the one of its kind. -/
def taggedCollection (value : Datum) : Option String → Except Fault Datum
  | none => pure value
  | some "!" => pure value
  | some tag =>
    match value, tag with
    | .list _, "!!seq" => pure value
    | .mapping _, "!!map" => pure value
    | _, _ => throw .unsuitableTag

/-- A key of a mapping: its name, or the mark of a merge. -/
inductive Key where
  | name (name : String)
  | merge

/-- The name that a scalar key stands for. -/
def Key.ofDatum : Datum → Except Fault Key
  | .list _ | .mapping _ => throw .compositeKey
  | .null => pure (.name "null")
  | .boolean true => pure (.name "true")
  | .boolean false => pure (.name "false")
  | value => pure (.name (value.display?.getD ""))

/-- The entries that a merge brings: those of a mapping, or of several, the first of which
count most. -/
def mergedEntries : Datum → Except Fault (List (String × Datum))
  | .mapping entries => pure entries
  | .list items => do
    let parts ← items.reverse.mapM fun
      | .mapping entries => pure entries
      | _ => throw .malformedMerge
    return parts.flatten
  | _ => throw .malformedMerge

/-- A mapping from its pairs. What is merged comes before what the mapping names itself. -/
def mappingOf (pairs : List (Key × Datum)) : Except Fault Datum := do
  let merged ← pairs.mapM fun
    | (.merge, value) => mergedEntries value
    | (.name _, _) => pure []
  let own := pairs.filterMap fun
    | (.merge, _) => none
    | (.name name, value) => some (name, value)
  return .ofEntries (merged.flatten ++ own)

/-- Remembers the value of an anchor. -/
def remember (reading : Reading) (anchor : Option String) (value : Datum) : Reading :=
  match anchor with
  | some name => { reading with anchors := (name, value) :: reading.anchors }
  | none => reading

mutual

/-- A node. In a mapping a sequence need not be indented. -/
def readNode (inMapping : Bool) : Nat → Reading → Except Fault (Datum × Reading)
  | 0, _ => throw .unexpectedToken
  | fuel + 1, reading => do
    match reading.tokens with
    | .alias name :: rest =>
      match reading.anchors.lookup name with
      | some value => return (value, { reading with tokens := rest })
      | none => throw .undefinedAlias
    | tokens =>
      let (before, rest) := properties tokens
      if before.anchor.any fun name => (reading.anchors.lookup name).isSome then
        throw .repeatedAnchor
      let reading := { reading with tokens := rest }
      let (value, reading) ← readContent inMapping fuel before reading
      return (value, remember reading before.anchor value)
termination_by structural fuel => fuel

/-- What follows the properties of a node. -/
def readContent (inMapping : Bool) :
    Nat → Properties → Reading → Except Fault (Datum × Reading)
  | 0, _, _ => throw .unexpectedToken
  | fuel + 1, before, reading => do
    let after (rest : List Token) : Reading := { reading with tokens := rest }
    match reading.tokens with
    | .plain word :: rest => return (← taggedScalar true word before.tag, after rest)
    | .quoted text :: rest => return (← taggedScalar false text before.tag, after rest)
    | .openBracket :: rest =>
      let (items, reading) ← readFlowItems true fuel (after rest)
      return (← taggedCollection (.list items) before.tag, reading)
    | .openBrace :: rest =>
      let (pairs, reading) ← readFlowPairs true fuel (after rest)
      return (← taggedCollection (← mappingOf pairs) before.tag, reading)
    | .blockSequence :: rest =>
      let (items, reading) ← readItems true fuel (after rest)
      return (← taggedCollection (.list items) before.tag, reading)
    | .blockMapping :: rest =>
      let (pairs, reading) ← readPairs fuel (after rest)
      return (← taggedCollection (← mappingOf pairs) before.tag, reading)
    | tokens =>
      if inMapping && tokens.head? = some .entry then
        let (items, reading) ← readItems false fuel reading
        return (← taggedCollection (.list items) before.tag, reading)
      else if before.anchor.isSome || before.tag.isSome then
        return (← taggedScalar (before.tag != some "!") "" before.tag, reading)
      else throw .unexpectedToken
termination_by structural fuel => fuel

/-- The items of a block sequence; an indented one ends with a token of its own. -/
def readItems (indented : Bool) : Nat → Reading → Except Fault (List Datum × Reading)
  | 0, _ => throw .unexpectedToken
  | fuel + 1, reading => do
    match reading.tokens with
    | .entry :: rest =>
      let reading := { reading with tokens := rest }
      let (item, reading) ←
        if endsEntry rest || (!indented && endsPair rest) then pure (.null, reading)
        else readNode false fuel reading
      let (items, reading) ← readItems indented fuel reading
      return (item :: items, reading)
    | .blockEnd :: rest =>
      if indented then return ([], { reading with tokens := rest }) else return ([], reading)
    | _ => if indented then throw .unexpectedToken else return ([], reading)
termination_by structural fuel => fuel

/-- The pairs of a block mapping. -/
def readPairs : Nat → Reading → Except Fault (List (Key × Datum) × Reading)
  | 0, _ => throw .unexpectedToken
  | fuel + 1, reading => do
    match reading.tokens with
    | .key :: rest =>
      let (key, reading) ← readKey true fuel { reading with tokens := rest }
      let (value, reading) ← match reading.tokens with
        | .value :: rest =>
          if endsPair rest then pure (.null, { reading with tokens := rest })
          else readNode true fuel { reading with tokens := rest }
        | _ => pure (.null, reading)
      let (pairs, reading) ← readPairs fuel reading
      return ((key, value) :: pairs, reading)
    | .blockEnd :: rest => return ([], { reading with tokens := rest })
    | _ => throw .unexpectedToken
termination_by structural fuel => fuel

/-- The key of a pair, behind its token; it may be left out. -/
def readKey (inMapping : Bool) : Nat → Reading → Except Fault (Key × Reading)
  | 0, _ => throw .unexpectedToken
  | fuel + 1, reading => do
    match reading.tokens with
    | .plain "<<" :: rest => return (.merge, { reading with tokens := rest })
    | .plain "=" :: rest => return (.name "=", { reading with tokens := rest })
    | tokens =>
      let absent := if inMapping then endsPair tokens else endsFlow tokens
      let (value, reading) ←
        if absent then pure (.null, reading) else readNode inMapping fuel reading
      return (← Key.ofDatum value, reading)
termination_by structural fuel => fuel

/-- The value of a pair in a flow collection, which may be left out. -/
def readFlowValue : Nat → Reading → Except Fault (Datum × Reading)
  | 0, _ => throw .unexpectedToken
  | fuel + 1, reading =>
    match reading.tokens with
    | .value :: rest =>
      if endsFlow rest && rest.head? != some .value then
        pure (.null, { reading with tokens := rest })
      else readNode false fuel { reading with tokens := rest }
    | _ => pure (.null, reading)
termination_by structural fuel => fuel

/-- The items of a flow sequence. An item may be a single pair. -/
def readFlowItems (first : Bool) : Nat → Reading → Except Fault (List Datum × Reading)
  | 0, _ => throw .unexpectedToken
  | fuel + 1, reading => do
    let rest ← match reading.tokens with
      | .closeBracket :: _ => pure reading.tokens
      | .comma :: rest => if first then pure reading.tokens else pure rest
      | tokens => if first then pure tokens else throw .unexpectedToken
    let reading := { reading with tokens := rest }
    match rest with
    | .closeBracket :: rest => return ([], { reading with tokens := rest })
    | .key :: rest =>
      let (key, reading) ← readKey false fuel { reading with tokens := rest }
      let (value, reading) ← readFlowValue fuel reading
      let (items, reading) ← readFlowItems false fuel reading
      return ((← mappingOf [(key, value)]) :: items, reading)
    | _ =>
      let (item, reading) ← readNode false fuel reading
      let (items, reading) ← readFlowItems false fuel reading
      return (item :: items, reading)
termination_by structural fuel => fuel

/-- The pairs of a flow mapping. A key without a colon has no value. -/
def readFlowPairs (first : Bool) : Nat → Reading → Except Fault (List (Key × Datum) × Reading)
  | 0, _ => throw .unexpectedToken
  | fuel + 1, reading => do
    let rest ← match reading.tokens with
      | .closeBrace :: _ => pure reading.tokens
      | .comma :: rest => if first then pure reading.tokens else pure rest
      | tokens => if first then pure tokens else throw .unexpectedToken
    let reading := { reading with tokens := rest }
    match rest with
    | .closeBrace :: rest => return ([], { reading with tokens := rest })
    | .key :: rest =>
      let (key, reading) ← readKey false fuel { reading with tokens := rest }
      let (value, reading) ← readFlowValue fuel reading
      let (pairs, reading) ← readFlowPairs false fuel reading
      return ((key, value) :: pairs, reading)
    | _ =>
      let (value, reading) ← readNode false fuel reading
      let key ← Key.ofDatum value
      let (pairs, reading) ← readFlowPairs false fuel reading
      return ((key, .null) :: pairs, reading)
termination_by structural fuel => fuel

end

/-- Tokens of a document that has nothing in it. -/
def isEmptyDocument : List Token → Bool
  | .documentStart :: _ | .documentEnd :: _ | .directive :: _ | [] => true
  | _ => false

/-- The value of the one document of a token list. -/
def readDocument (tokens : List Token) : Except Fault Datum := do
  let tokens := tokens.dropWhile fun token => token == .directive
  match tokens with
  | [] => return .null
  | first :: rest =>
    let explicit := first == .documentStart
    let body := if explicit then rest else tokens
    let (value, after) ←
      if explicit && isEmptyDocument body then pure (.null, body)
      else do
        let (value, reading) ← readNode false (4 * tokens.length + 4) { tokens := body }
        pure (value, reading.tokens)
    match after.dropWhile (· == .documentEnd) with
    | [] => return value
    | .documentStart :: _ | .directive :: _ => throw .severalDocuments
    | _ => throw .unexpectedToken

/-- The value of a YAML text with one document; an empty text is null. -/
def parse (text : String) : Except Fault Datum := do readDocument (← tokens text)

end TuneGraph.Yaml
