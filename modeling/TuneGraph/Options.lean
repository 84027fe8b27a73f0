import TuneGraph.Number.Numeral
import TuneGraph.Text.Digit

/-! # Options of the command line

Options are spelled with two dashes and may be shortened as long as they stay unambiguous.
A value follows its option as the next word or after an equals sign. Words are first told
apart, then read in order; a word that belongs to no option is refused only when all words
have been read, so that a request for help in front of it is still heard.
-/

namespace TuneGraph

/-- How requests reach the server. -/
inductive Transport where
  | stdio
  | http
  deriving DecidableEq, Repr

/-- The name of a way of transport. -/
def Transport.name : Transport → String
  | stdio => "stdio"
  | http => "http"

/-- The way of transport of a name. -/
def Transport.ofName? (name : String) : Option Transport :=
  [stdio, http].find? (·.name == name)

/-- The options of the server. -/
structure Options where
  transport : Transport := .stdio
  port : Int := 8000
  scoresFolder : Option String := none
  outputFolder : Option String := none
  debug : Bool := false
  deriving DecidableEq, Repr

namespace Options

/-- Why a command line does not give options. -/
inductive Stop where
  /-- Help was asked for. -/
  | help
  /-- The command line is wrong. -/
  | misuse
  deriving DecidableEq, Repr

/-- The exit code of a program that stops. -/
def Stop.exitCode : Stop → Nat
  | help => 0
  | misuse => 2

/-- What an option is about. -/
inductive Flag where
  | help
  | transport
  | port
  | scoresFolder
  | outputFolder
  | debug
  deriving DecidableEq, Repr

/-- The long spellings of the options. -/
def spellings : List (String × Flag) :=
  [("--help", .help), ("--transport", .transport), ("--port", .port),
   ("--scores-dir", .scoresFolder), ("--output-dir", .outputFolder), ("--debug", .debug)]

/-- Whether an option has a value. -/
def Flag.takesValue : Flag → Bool
  | help | debug => false
  | transport | port | scoresFolder | outputFolder => true

/-- A word of a command line, told apart from others. -/
inductive Word where
  /-- A value. -/
  | value (text : String)
  /-- The mark after which all words are values. -/
  | separator
  /-- An option, perhaps with its value attached. -/
  | flag (flag : Flag) (attached : Option String)
  /-- The letter that asks for help, with what is attached to it. -/
  | letter (attached : List Char)
  /-- Something that is spelled like an option. -/
  | unknown
  deriving DecidableEq, Repr

/-- The options that a long spelling may stand for. An exact spelling counts alone. -/
def candidates (spelling : String) : List Flag :=
  match spellings.lookup spelling with
  | some flag => [flag]
  | none => (spellings.filter fun entry => spelling.toList.isPrefixOf entry.1.toList).map (·.2)

/-- Whether the text after a dash is a number: digits, perhaps with a point among or
before them, and perhaps a line feed at the end. -/
def isNumberBody (cs : List Char) : Bool :=
  let cs := if cs.getLast? = some '\n' then cs.dropLast else cs
  let isDigit (c : Char) : Bool := (Text.digitValue? c).isSome
  let fraction := cs.dropWhile isDigit
  match fraction with
  | [] => !cs.isEmpty
  | '.' :: rest => !rest.isEmpty && rest.all isDigit
  | _ => false

/-- A word that starts with a dash and is no option. -/
def undefinedWord (text : String) (body : List Char) : Word :=
  if isNumberBody body || text.toList.contains ' ' then .value text else .unknown

/-- A word by itself. -/
def Word.ofText (text : String) : Except Stop Word :=
  match text.toList with
  | '-' :: '-' :: cs =>
    let spelling := cs.takeWhile (· != '=')
    let attached := match cs.drop spelling.length with
      | [] => none
      | _ :: rest => some (String.ofList rest)
    match candidates (String.ofList ('-' :: '-' :: spelling)) with
    | [only] => pure (.flag only attached)
    | [] => pure (undefinedWord text ('-' :: cs))
    | _ => throw .misuse
  | '-' :: 'h' :: attached => pure (.letter attached)
  | '-' :: c :: cs => pure (undefinedWord text (c :: cs))
  | _ => pure (.value text)

/-- The words of a command line. -/
def words : List String → Except Stop (List Word)
  | [] => pure []
  | "--" :: rest => pure (.separator :: rest.map .value)
  | text :: rest => do return (← Word.ofText text) :: (← words rest)

/-- What comes of letters behind the letter for help. Another letter is met too late to
matter, unless it looks like a value. -/
def afterHelp : List Char → Stop
  | [] => .help
  | '=' :: _ | '-' :: _ => .misuse
  | 'h' :: rest => afterHelp rest
  | _ => .help

/-- Options with the value of one of them. -/
def setValue (options : Options) (flag : Flag) (text : String) : Except Stop Options :=
  match flag with
  | .transport =>
    match Transport.ofName? text with
    | some transport => pure { options with transport }
    | none => throw .misuse
  | .port =>
    match Numeral.freeInteger? text with
    | some port => pure { options with port }
    | none => throw .misuse
  | .scoresFolder => pure { options with scoresFolder := some text }
  | .outputFolder => pure { options with outputFolder := some text }
  | .help | .debug => throw .misuse

/-- Options changed by words. `stray` says whether there was a word that belongs to no
option. -/
def readWords (options : Options) (stray : Bool) : List Word → Except Stop Options
  | [] => if stray then throw .misuse else pure options
  | .letter attached :: _ => throw (afterHelp attached)
  | .flag .help none :: _ => throw .help
  | .flag .debug none :: rest => readWords { options with debug := true } stray rest
  | .flag flag (some text) :: rest => do readWords (← options.setValue flag text) stray rest
  | .flag flag none :: .value text :: rest => do
    readWords (← options.setValue flag text) stray rest
  | .flag _ none :: _ => throw .misuse
  | .value _ :: rest | .separator :: rest | .unknown :: rest => readWords options true rest

/-- The options of a command line. -/
def parse (arguments : List String) : Except Stop Options := do
  readWords {} false (← words arguments)

/-- The variable that names the folder of scores. -/
def scoresVariable : String := "CHUK_MUSICBLOCKS_SCORES_DIR"

/-- The variable that names the folder of projects. -/
def outputVariable : String := "CHUK_MUSICBLOCKS_OUTPUT_DIR"

/-- Variables by name. -/
abbrev Environment := List (String × String)

/-- An environment with a variable set. -/
def setVariable (name value : String) : Environment → Environment
  | [] => [(name, value)]
  | entry :: rest =>
    if entry.1 = name then (name, value) :: rest else entry :: setVariable name value rest

/-- The environment with the folders that are given; an empty name gives none. -/
def environment (options : Options) (environment : Environment) : Environment :=
  let set (name : String) (value : Option String) (environment : Environment) : Environment :=
    match value with
    | none | some "" => environment
    | some value => setVariable name value environment
  set outputVariable options.outputFolder (set scoresVariable options.scoresFolder environment)

end Options

end TuneGraph
