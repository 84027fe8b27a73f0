import TuneGraph.Text.Case
import TuneGraph.Text.PrintableTable
import TuneGraph.Text.Surrogate

/-! # Quoted texts

A text inside a message is quoted so that it can be told from its surroundings: between
single quotes, or double quotes when the text holds a single quote and no double one.
Backslashes and the quote in use are escaped, and so is every character without a printed
form, by its code in the shortest of three widths.
-/

namespace TuneGraph.Text

/-- Whether a character is printed as itself. -/
def isPrintable (c : Char) : Bool :=
  if c.toNat < 128 then 32 ≤ c.toNat && c.toNat < 127
  else !inRanges unprintableRanges c.toNat

/-- A character by its code: `\x`, `\u` or `\U` with two, four or eight digits. -/
def escapeCode (c : Char) : List Char :=
  let n := code c
  if n < 0x100 then '\\' :: 'x' :: hexadecimal 2 n
  else if n < 0x10000 then '\\' :: 'u' :: hexadecimal 4 n
  else '\\' :: 'U' :: hexadecimal 8 n

/-- One character of a quoted text. -/
def quoteChar (quote c : Char) : List Char :=
  if c = quote ∨ c = '\\' then ['\\', c]
  else if c = '\t' then ['\\', 't']
  else if c = '\n' then ['\\', 'n']
  else if c = '\r' then ['\\', 'r']
  else if isPrintable c then [c]
  else escapeCode c

/-- The quote that a text is written in. -/
def quoteMark (cs : List Char) : Char :=
  if cs.contains '\'' && !cs.contains '"' then '"' else '\''

/-- A text as it is quoted in messages. -/
def quoted (s : String) : String :=
  let cs := s.toList
  let quote := quoteMark cs
  String.ofList (quote :: cs.flatMap (quoteChar quote) ++ [quote])

end TuneGraph.Text
