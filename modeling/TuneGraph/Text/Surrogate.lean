/-! # Lone surrogates

A text that was written with escapes may hold one half of a surrogate pair without the other.
Such a half is no character, but it is kept, compared and escaped like one; only where a text
has to be encoded as bytes is it refused. The last 2048 private-use characters stand for the
2048 surrogates, in their order, and for nothing else.
-/

namespace TuneGraph.Text

/-- The code of the first surrogate. -/
def firstSurrogate : Nat := 0xD800

/-- The code of the first character that stands for a surrogate. -/
def firstStandIn : Nat := 0x10F800

/-- Whether a character stands for a surrogate. -/
def isSurrogate (c : Char) : Bool := firstStandIn ≤ c.toNat

/-- The character that stands for the surrogate of a code. -/
def ofSurrogate (code : Nat) : Char := Char.ofNat (firstStandIn + (code - firstSurrogate))

/-- The code of a character, or of the surrogate that it stands for. -/
def code (c : Char) : Nat :=
  if isSurrogate c then firstSurrogate + (c.toNat - firstStandIn) else c.toNat

/-- Whether a character is one of the surrogates that stand for single bytes in the names of
files. -/
def isByte (c : Char) : Bool := isSurrogate c && 0xDC80 ≤ code c && code c ≤ 0xDCFF

/-- The lower-case hexadecimal digits of a number, padded with zeros to a width. -/
def hexadecimal (width n : Nat) : List Char :=
  let digits := Nat.toDigits 16 n
  List.replicate (width - digits.length) '0' ++ digits

/-- What is said of surrogates that cannot be encoded: where they begin, and what they are. -/
def surrogateMessage (start : Nat) : List Char → String
  | [c] => "'utf-8' codec can't encode character '\\u" ++ String.ofList (hexadecimal 4 (code c)) ++
      "' in position " ++ toString start ++ ": surrogates not allowed"
  | run => "'utf-8' codec can't encode characters in position " ++ toString start ++ "-" ++
      toString (start + run.length - 1) ++ ": surrogates not allowed"

/-- What is said of a text that cannot be encoded, because of the first character that stops it
and the surrogates after that. -/
def encodingFault? (stops : Char → Bool) (s : String) : Option String :=
  let cs := s.toList
  (cs.findIdx? stops).map fun start =>
    surrogateMessage start ((cs.drop start).takeWhile isSurrogate)

end TuneGraph.Text
