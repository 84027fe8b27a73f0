/-! # Blank characters

Two classes are in use. White space is the Unicode property; blanks are white space
together with the four information separators. Trimming removes a class at both ends.
-/

namespace TuneGraph.Text

/-- White space: tab to carriage return, space, next line, and the separators of
Unicode. -/
def isWhiteSpace (c : Char) : Bool :=
  let n := c.toNat
  (9 ≤ n && n ≤ 13) || n == 32 || n == 0x85 || n == 0xA0 || n == 0x1680 ||
    (0x2000 ≤ n && n ≤ 0x200A) || n == 0x2028 || n == 0x2029 || n == 0x202F || n == 0x205F ||
    n == 0x3000

/-- Blanks: white space and the information separators 28 to 31. -/
def isBlank (c : Char) : Bool :=
  isWhiteSpace c || (28 ≤ c.toNat && c.toNat ≤ 31)

/-- The characters without those of a class at both ends. -/
def trim (drop : Char → Bool) (cs : List Char) : List Char :=
  ((cs.dropWhile drop).reverse.dropWhile drop).reverse

/-- A text without blanks at both ends. -/
def strip (s : String) : String := String.ofList (trim isBlank s.toList)

end TuneGraph.Text
