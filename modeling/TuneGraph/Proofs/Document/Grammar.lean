import TuneGraph.Document.Json.Printer
import Mathlib.Data.List.Basic

/-! # The grammar of JSON

What a strict reader accepts as a JSON text, as a grammar over characters (`Json.IsText`). It has no
names for numbers beyond the finite: outside of strings, a text of the grammar holds no capital I or
N (`Json.Forms.plain`).
-/

namespace TuneGraph.Json

/-- Whether characters are blanks between the tokens of a text. -/
def IsGap (cs : List Char) : Prop := ∀ c ∈ cs, c ∈ [' ', '\t', '\n', '\r']

/-- Whether characters are digits, at least one. -/
def IsDigits (cs : List Char) : Prop := cs ≠ [] ∧ ∀ c ∈ cs, c.isDigit = true

/-- The whole part of a number, in which a zero stands alone. -/
inductive IsWhole : List Char → Prop
  | zero : IsWhole ['0']
  | other {first : Char} {rest : List Char} (leads : first ≠ '0')
      (digits : IsDigits (first :: rest)) : IsWhole (first :: rest)

/-- The fraction of a number, if there is one. -/
inductive IsFraction : List Char → Prop
  | none : IsFraction []
  | some {cs : List Char} (digits : IsDigits cs) : IsFraction ('.' :: cs)

/-- The exponent of a number, if there is one. -/
inductive IsExponent : List Char → Prop
  | none : IsExponent []
  | some {mark : Char} {sign cs : List Char} (isMark : mark ∈ ['e', 'E'])
      (isSign : sign ∈ [[], ['+'], ['-']]) (digits : IsDigits cs) : IsExponent (mark :: sign ++ cs)

/-- A number. -/
inductive IsNumber : List Char → Prop
  | parts {sign whole fraction exponent : List Char} (isSign : sign ∈ [[], ['-']])
      (isWhole : IsWhole whole) (isFraction : IsFraction fraction)
      (isExponent : IsExponent exponent) : IsNumber (sign ++ whole ++ fraction ++ exponent)

/-- A character of a string, or an escape for one. -/
inductive IsLetter : List Char → Prop
  | plain {c : Char} (visible : 32 ≤ c.toNat) (noQuote : c ≠ '"') (noSlash : c ≠ '\\') :
      IsLetter [c]
  | short {c : Char} (known : c ∈ ['"', '\\', '/', 'b', 'f', 'n', 'r', 't']) : IsLetter ['\\', c]
  | unit {a b c d : Char}
      (digits : ∀ digit ∈ [a, b, c, d], digit ∈ "0123456789abcdefABCDEF".toList) :
      IsLetter ['\\', 'u', a, b, c, d]

/-- What stands between the quotes of a string. -/
inductive IsLetters : List Char → Prop
  | nil : IsLetters []
  | cons {letter rest : List Char} (first : IsLetter letter) (later : IsLetters rest) :
      IsLetters (letter ++ rest)

/-- A string. -/
inductive IsString : List Char → Prop
  | quoted {cs : List Char} (letters : IsLetters cs) : IsString ('"' :: cs ++ ['"'])

/-- What a grammar of JSON is about: values, and the items and the entries between brackets. -/
inductive Phrase where
  | value
  | items
  | entries

/-- Whether characters form a phrase. -/
inductive Forms : Phrase → List Char → Prop
  | word {cs : List Char} (known : cs ∈ ["null".toList, "true".toList, "false".toList]) :
      Forms .value cs
  | number {cs : List Char} (isNumber : IsNumber cs) : Forms .value cs
  | string {cs : List Char} (isString : IsString cs) : Forms .value cs
  | emptyList {gap : List Char} (isGap : IsGap gap) : Forms .value ('[' :: gap ++ [']'])
  | list {cs : List Char} (items : Forms .items cs) : Forms .value ('[' :: cs ++ [']'])
  | emptyMapping {gap : List Char} (isGap : IsGap gap) : Forms .value ('\x7b' :: gap ++ ['\x7d'])
  | mapping {cs : List Char} (entries : Forms .entries cs) : Forms .value ('\x7b' :: cs ++ ['\x7d'])
  | item {before cs after : List Char} (gap : IsGap before) (value : Forms .value cs)
      (gap' : IsGap after) : Forms .items (before ++ cs ++ after)
  | entry {before name middle gap cs after : List Char} (isGap : IsGap before)
      (isName : IsString name) (isGap' : IsGap middle) (gapAfter : IsGap gap)
      (value : Forms .value cs) (gapEnd : IsGap after) :
      Forms .entries (before ++ name ++ middle ++ ':' :: (gap ++ cs ++ after))
  | more {row : Phrase} {first rest : List Char} (isRow : row ≠ .value) (here : Forms row first)
      (later : Forms row rest) : Forms row (first ++ ',' :: rest)

/-- Whether a text is a JSON text: a value, with blanks around it. -/
def IsText (text : String) : Prop :=
  ∃ before value after, IsGap before ∧ Forms .value value ∧ IsGap after ∧
    text.toList = before ++ value ++ after

/-- Where a character of a text stands. -/
inductive Position where
  | bare
  /-- In a string, the quote at its end included. -/
  | inside
  /-- In a string, behind a backslash. -/
  | escaped

/-- Where the next character stands. -/
def Position.next : Position → Char → Position
  | bare, c => if c = '"' then inside else bare
  | inside, c => if c = '"' then bare else if c = '\\' then escaped else inside
  | escaped, _ => inside

/-- Where a character stands that follows on others. -/
def Position.after (start : Position) (cs : List Char) : Position := cs.foldl Position.next start

/-- The characters that are bare. -/
def bareFrom : Position → List Char → List Char
  | _, [] => []
  | .bare, c :: rest => c :: bareFrom (Position.bare.next c) rest
  | .inside, c :: rest => bareFrom (Position.inside.next c) rest
  | .escaped, c :: rest => bareFrom (Position.escaped.next c) rest

/-- Whether no string is left open. -/
def Closed (cs : List Char) : Prop := Position.bare.after cs = .bare

/-- Whether no string is left open, and no capital I or N is bare. -/
structure Plain (cs : List Char) : Prop where
  closed : Closed cs
  unnamed : ∀ c ∈ bareFrom .bare cs, c ∉ ['I', 'N']

variable {phrase : Phrase} {cs rest : List Char} {c : Char}

/-- What can be decided of each of some characters. -/
theorem forall_mem_of_all {holds : Char → Prop} [DecidablePred holds]
    (all : (cs.all fun c => decide (holds c)) = true) : ∀ c ∈ cs, holds c := by
  simpa using all

/-- The position behind two texts is that behind the second, from the first. -/
theorem Position.after_append (start : Position) (cs rest : List Char) :
    start.after (cs ++ rest) = (start.after cs).after rest := List.foldl_append

/-- The bare characters of two texts are those of both. -/
theorem bareFrom_append (start : Position) (cs rest : List Char) :
    bareFrom start (cs ++ rest) = bareFrom start cs ++ bareFrom (start.after cs) rest := by
  induction cs generalizing start with
  | nil => cases rest <;> rfl
  | cons c cs ih =>
      cases start with
      | bare => exact congrArg (c :: ·) (ih _)
      | inside => exact ih _
      | escaped => exact ih _

/-- Closed texts make a closed text. -/
theorem Closed.append (first : Closed cs) (second : Closed rest) : Closed (cs ++ rest) := by
  rw [Closed, Position.after_append, first, second]

/-- Behind a closed text, the bare characters are those of the rest alone. -/
theorem Closed.bareFrom_append (first : Closed cs) (rest : List Char) :
    bareFrom .bare (cs ++ rest) = bareFrom .bare cs ++ bareFrom .bare rest := by
  rw [Json.bareFrom_append, first]

/-- A character other than a quote is a closed text. -/
theorem Closed.single (c : Char) (other : c ≠ '"') : Closed [c] := if_neg other

/-- Without quotes, all characters are bare. -/
theorem bare_of_noQuote (noQuote : '"' ∉ cs) : Closed cs ∧ bareFrom .bare cs = cs := by
  induction cs with
  | nil => exact ⟨rfl, rfl⟩
  | cons c rest ih =>
      obtain ⟨here, later⟩ := not_or.mp (mt List.mem_cons.mpr noQuote)
      have stays : Position.bare.next c = .bare := if_neg (Ne.symm here)
      obtain ⟨closed, same⟩ := ih later
      constructor
      · rw [Closed, Position.after, List.foldl_cons, stays]
        exact closed
      · rw [bareFrom, stays, same]

/-- A letter of a string is passed inside it. -/
theorem IsLetter.inside (letter : IsLetter cs) :
    Position.inside.after cs = .inside ∧ bareFrom .inside cs = [] := by
  have stays : ∀ c, c ≠ '"' → c ≠ '\\' → Position.inside.next c = .inside :=
    fun c noQuote noSlash => (if_neg noQuote).trans (if_neg noSlash)
  cases letter with
  | plain _ noQuote noSlash => exact ⟨stays _ noQuote noSlash, rfl⟩
  | short known => exact ⟨rfl, rfl⟩
  | @unit a b c d digits =>
      have other : ∀ digit ∈ "0123456789abcdefABCDEF".toList, digit ≠ '"' ∧ digit ≠ '\\' :=
        forall_mem_of_all (by decide)
      have each : ∀ digit ∈ [a, b, c, d], Position.inside.next digit = .inside :=
        fun digit member => stays digit (other digit (digits digit member)).1
          (other digit (digits digit member)).2
      simp only [List.forall_mem_cons] at each
      obtain ⟨first, second, third, fourth, -⟩ := each
      have escape : Position.inside.next '\\' = .escaped := rfl
      have back : Position.escaped.next 'u' = .inside := rfl
      constructor
      · simp only [Position.after, List.foldl_cons, List.foldl_nil, escape, back, first, second,
          third, fourth]
      · simp only [bareFrom, escape, back, first, second, third]

/-- The letters of a string are passed inside it. -/
theorem IsLetters.inside (letters : IsLetters cs) :
    Position.inside.after cs = .inside ∧ bareFrom .inside cs = [] := by
  induction letters with
  | nil => exact ⟨rfl, rfl⟩
  | cons first _ ih =>
      obtain ⟨stays, none⟩ := first.inside
      rw [Position.after_append, bareFrom_append, stays, none]
      exact ih

/-- Of a string, only the quote at its beginning is bare. -/
theorem IsString.bare (string : IsString cs) : Closed cs ∧ bareFrom .bare cs = ['"'] := by
  cases string with
  | @quoted cs letters =>
      obtain ⟨stays, none⟩ := letters.inside
      constructor
      · show Position.inside.after (cs ++ ['"']) = .bare
        rw [Position.after_append, stays]
        rfl
      · show '"' :: bareFrom .inside (cs ++ ['"']) = ['"']
        rw [bareFrom_append, stays, none]
        rfl

/-- A number is made of digits, signs, a point and the mark of an exponent. -/
theorem IsNumber.chars (number : IsNumber cs) :
    ∀ c ∈ cs, c.isDigit = true ∨ c ∈ ['-', '+', '.', 'e', 'E'] := by
  have sign : ∀ sign ∈ [[], ['+'], ['-']],
      (sign.all fun c => decide (c ∈ ['-', '+', '.', 'e', 'E'])) = true := by decide
  obtain ⟨isSign, isWhole, isFraction, isExponent⟩ := number
  rename_i before whole fraction exponent
  simp only [List.forall_mem_append]
  refine ⟨⟨⟨fun c member => Or.inr (forall_mem_of_all (sign before ?_) c member), ?_⟩, ?_⟩, ?_⟩
  · exact List.mem_cons.mpr ((List.mem_cons.mp isSign).imp_right (List.mem_cons_of_mem _))
  · cases isWhole with
    | zero => exact forall_mem_of_all (by decide)
    | other _ digits => exact fun c member => Or.inl (digits.2 c member)
  · cases isFraction with
    | none => exact nofun
    | some digits =>
        exact List.forall_mem_cons.mpr ⟨Or.inr (by decide),
          fun c member => Or.inl (digits.2 c member)⟩
  · cases isExponent with
    | none => exact nofun
    | some isMark isSign digits =>
        have marks : ∀ mark ∈ ['e', 'E'], mark ∈ ['-', '+', '.', 'e', 'E'] :=
          forall_mem_of_all (by decide)
        exact List.forall_mem_append.mpr ⟨List.forall_mem_cons.mpr ⟨Or.inr (marks _ isMark),
          fun c member => Or.inr (forall_mem_of_all (sign _ isSign) c member)⟩,
          fun c member => Or.inl (digits.2 c member)⟩

namespace Plain

/-- Plain texts make a plain text. -/
theorem append (first : Plain cs) (second : Plain rest) : Plain (cs ++ rest) where
  closed := first.closed.append second.closed
  unnamed := by
    rw [first.closed.bareFrom_append]
    exact List.forall_mem_append.mpr ⟨first.unnamed, second.unnamed⟩

/-- Characters that begin no string and no name make a plain text. -/
theorem of_chars (chars : ∀ c ∈ cs, c ∉ ['"', 'I', 'N']) : Plain cs := by
  obtain ⟨closed, same⟩ := bare_of_noQuote fun quote => chars '"' quote (by decide)
  refine ⟨closed, fun c member named => ?_⟩
  rw [same] at member
  exact chars c member (List.mem_cons_of_mem _ named)

/-- A string is a plain text. -/
theorem of_string (string : IsString cs) : Plain cs := by
  obtain ⟨closed, same⟩ := string.bare
  refine ⟨closed, fun c member => ?_⟩
  rw [same] at member
  obtain rfl := List.mem_singleton.mp member
  decide

/-- A gap is a plain text. -/
theorem of_gap (gap : IsGap cs) : Plain cs := by
  have blanks : ∀ c ∈ [' ', '\t', '\n', '\r'], c ∉ ['"', 'I', 'N'] :=
    forall_mem_of_all (by decide)
  exact of_chars fun c member => blanks c (gap c member)

/-- A number is a plain text. -/
theorem of_number (number : IsNumber cs) : Plain cs := by
  have others : ∀ c ∈ ['"', 'I', 'N'],
      ¬(c.isDigit = true ∨ c ∈ ['-', '+', '.', 'e', 'E']) := forall_mem_of_all (by decide)
  exact of_chars fun c member special => others c special (number.chars c member)

end Plain

/-- No phrase has a bare capital I or N. -/
theorem Forms.plain (forms : Forms phrase cs) : Plain cs := by
  have char : ∀ c, c ∉ ['"', 'I', 'N'] → Plain [c] := fun c other =>
    .of_chars fun d same => List.mem_singleton.mp same ▸ other
  induction forms with
  | word known =>
      have words : ∀ cs ∈ ["null".toList, "true".toList, "false".toList],
          (cs.all fun c => decide (c ∉ ['"', 'I', 'N'])) = true := by decide
      exact .of_chars (forall_mem_of_all (words _ known))
  | number isNumber => exact .of_number isNumber
  | string isString => exact .of_string isString
  | emptyList gap =>
      exact ((char '[' (by decide)).append (.of_gap gap)).append (char ']' (by decide))
  | list _ ih => exact ((char '[' (by decide)).append ih).append (char ']' (by decide))
  | emptyMapping gap =>
      exact ((char '\x7b' (by decide)).append (.of_gap gap)).append (char '\x7d' (by decide))
  | mapping _ ih => exact ((char '\x7b' (by decide)).append ih).append (char '\x7d' (by decide))
  | item before _ after ih => exact ((Plain.of_gap before).append ih).append (.of_gap after)
  | entry before name middle gap _ after ih =>
      exact (((Plain.of_gap before).append (.of_string name)).append (.of_gap middle)).append
        ((char ':' (by decide)).append (((Plain.of_gap gap).append ih).append (.of_gap after)))
  | more _ _ _ first later => exact first.append ((char ',' (by decide)).append later)

end TuneGraph.Json
