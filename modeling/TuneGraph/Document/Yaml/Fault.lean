import TuneGraph.Number.Numeral
import TuneGraph.Text.Quoted

/-! # Why a text is not YAML

A text that is not YAML is refused as a whole. In a text that is, a scalar may still announce a
value by its spelling or by its tag and not have it.
-/

namespace TuneGraph.Yaml

/-- The parts of a point in time. -/
inductive TimeField where
  | year
  | month
  | day
  | hour
  | minute
  | second
  deriving DecidableEq, Repr

/-- What is said of a part of a point in time that there is not. -/
def TimeField.message : TimeField → String
  | year => "year 0 is out of range"
  | month => "month must be in 1..12"
  | day => "day is out of range for month"
  | hour => "hour must be in 0..23"
  | minute => "minute must be in 0..59"
  | second => "second must be in 0..59"

/-- Why a scalar does not have the value that it announces. -/
inductive ScalarFault where
  /-- An integer of too many digits. -/
  | longInteger (digits : Nat)
  /-- Something else than digits of a base. -/
  | noInteger (base : Nat) (word : String)
  | noReal (word : String)
  /-- A point in time that there is not. -/
  | outOfRange (field : TimeField)
  /-- An offset from universal time, in minutes, of a day or more. -/
  | longOffset (minutes : Int)
  /-- A code beyond the last character. -/
  | noCharacter
  /-- A code that takes more than 31 bits. -/
  | hugeCode
  /-- A word, in lower case, under the tag of truth values. -/
  | noTruthValue (word : String)
  /-- Nothing at all under the tag of numbers. -/
  | noDigits
  /-- Something else under the tag of points in time. -/
  | noTime
  deriving DecidableEq, Repr

namespace ScalarFault

/-- A duration in minutes as days and seconds, those that are not zero. -/
def durationText (minutes : Int) : String :=
  let days := minutes / 1440
  let seconds := minutes % 1440 * 60
  ", ".intercalate ((if days = 0 then [] else ["days=" ++ toString days]) ++
    (if seconds = 0 then [] else ["seconds=" ++ toString seconds]))

/-- The wording of a fault. -/
def message : ScalarFault → String
  | longInteger digits => Numeral.tooLongMessage digits
  | noInteger base word =>
    "invalid literal for int() with base " ++ toString base ++ ": " ++ Text.quoted word
  | noReal word => "could not convert string to float: " ++ Text.quoted word
  | outOfRange field => field.message
  | longOffset minutes =>
    "offset must be a timedelta strictly between -timedelta(hours=24) and timedelta(hours=24), " ++
      "not datetime.timedelta(" ++ durationText minutes ++ ")."
  | noCharacter => "chr() arg not in range(0x110000)"
  | hugeCode => "Python int too large to convert to C int"
  | noTruthValue word => Text.quoted word
  | noDigits => "string index out of range"
  | noTime => "'NoneType' object has no attribute 'groupdict'"

/-- Whether a fault is one of a value that is written wrongly. A code that takes too many bits and a
tag that asks for another kind of value are not expected. -/
def isOfValue : ScalarFault → Bool
  | longInteger _ | noInteger .. | noReal _ | outOfRange _ | longOffset _ | noCharacter => true
  | hugeCode | noTruthValue _ | noDigits | noTime => false

end ScalarFault

/-- Why a text is refused. -/
inductive Fault where
  /-- A character that no YAML text may hold. -/
  | forbiddenCharacter
  /-- A character that no token starts with. -/
  | unexpectedCharacter
  /-- A quoted scalar without its closing quote. -/
  | unclosedQuote
  | unknownEscape
  /-- A document marker inside a quoted scalar. -/
  | markerInQuote
  | malformedName
  | malformedTag
  | malformedDirective
  | malformedBlockHeader
  /-- A key that has to be followed by a colon. -/
  | missingColon
  | misplacedEntry
  | misplacedKey
  | misplacedValue
  | unexpectedToken
  | undefinedAlias
  | repeatedAnchor
  | severalDocuments
  /-- A key that is a list or a mapping. -/
  | compositeKey
  | malformedMerge
  /-- A tag that does not fit its value or is unknown. -/
  | unsuitableTag
  /-- A scalar without the value that it announces. -/
  | scalar (fault : ScalarFault)
  deriving DecidableEq, Repr

/-- The wording of a fault. -/
def Fault.message : Fault → String
  | forbiddenCharacter => "special characters are not allowed"
  | unexpectedCharacter => "found a character that cannot start any token"
  | unclosedQuote => "found unexpected end of stream"
  | unknownEscape => "found unknown escape character"
  | markerInQuote => "found unexpected document separator"
  | malformedName => "expected alphabetic or numeric character"
  | malformedTag => "expected a tag"
  | malformedDirective => "expected a directive"
  | malformedBlockHeader => "expected chomping or indentation indicators"
  | missingColon => "could not find expected ':'"
  | misplacedEntry => "sequence entries are not allowed here"
  | misplacedKey => "mapping keys are not allowed here"
  | misplacedValue => "mapping values are not allowed here"
  | unexpectedToken => "expected the node content"
  | undefinedAlias => "found undefined alias"
  | repeatedAnchor => "found duplicate anchor"
  | severalDocuments => "expected a single document in the stream"
  | compositeKey => "found unhashable key"
  | malformedMerge => "expected a mapping or list of mappings for merging"
  | unsuitableTag => "could not determine a constructor for the tag"
  | scalar fault => fault.message

end TuneGraph.Yaml
