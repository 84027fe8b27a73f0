import TuneGraph.Proofs.Document.Basic
import TuneGraph.Proofs.Document.Notation
import Mathlib.Data.Nat.Digits.Defs

/-! # Values as JSON texts

A value on one line is a text of the grammar exactly if all its real numbers are finite
(`Json.isText_write_iff`): any other number is written as a name that begins, bare, with a capital
I or N, possibly after a sign.
-/

namespace TuneGraph

namespace Datum

/-- Whether a scalar is no number beyond the finite. -/
def isFinite : Datum → Bool
  | .real value => value.isFinite
  | _ => true

/-- Whether all real numbers in a value are finite. -/
def allFinite (value : Datum) : Bool := value.allScalars isFinite

@[simp] theorem allFinite_null : null.allFinite = true := rfl

@[simp] theorem allFinite_boolean (value : Bool) : (boolean value).allFinite = true := rfl

@[simp] theorem allFinite_integer (value : Int) : (integer value).allFinite = true := rfl

@[simp] theorem allFinite_real (value : Binary64) : (real value).allFinite = value.isFinite := rfl

@[simp] theorem allFinite_text (value : String) : (text value).allFinite = true := rfl

@[simp] theorem allFinite_other (value : Foreign) : (other value).allFinite = true := rfl

/-- The numbers of a list are finite if those of its items are. -/
@[simp] theorem allFinite_list (items : List Datum) :
    (list items).allFinite = items.all allFinite := allInItems_eq isFinite items

/-- The numbers of a mapping are finite if those of its values are. -/
@[simp] theorem allFinite_mapping (entries : List (String × Datum)) :
    (mapping entries).allFinite = entries.all fun entry => entry.2.allFinite :=
  allInEntries_eq isFinite entries

/-- The numbers of a value that may be missing are finite if it is missing, or its own are. -/
@[simp] theorem allFinite_ofOption {α : Type} (embed : α → Datum) (value : Option α) :
    (ofOption embed value).allFinite = value.all fun value => (embed value).allFinite := by
  cases value <;> rfl

end Datum

namespace Json

open Datum

variable {style : Style} {phrase other row : Phrase} {finite later : Bool}
  {cs rest : List Char}

/-- There may be nothing between two phrases. -/
theorem isGap_nil : IsGap [] := nofun

/-- There may be a blank between two phrases. -/
theorem isGap_space : IsGap [' '] := forall_mem_of_all (by decide)

/-- Letters may follow letters. -/
theorem IsLetters.append (first : IsLetters cs) (second : IsLetters rest) :
    IsLetters (cs ++ rest) := by
  induction first with
  | nil => exact second
  | cons letter _ ih =>
      rw [List.append_assoc]
      exact .cons letter ih

/-- One letter is a row of letters. -/
theorem IsLetter.letters (letter : IsLetter cs) : IsLetters cs := by
  have letters := IsLetters.cons letter .nil
  rwa [List.append_nil] at letters

/-- A code unit has four hexadecimal digits. -/
theorem isLetter_escapeUnit {n : Nat} (unit : n < 0x10000) : IsLetter (escapeUnit n) := by
  have digits : ∀ digit ∈ Text.hexadecimal 4 n, digit ∈ "0123456789abcdefABCDEF".toList :=
    fun digit member => List.mem_append_left "ABCDEF".toList (Text.mem_hexadecimal member)
  have four : (Text.hexadecimal 4 n).length = 4 := Text.length_hexadecimal (by decide) unit
  unfold escapeUnit
  generalize Text.hexadecimal 4 n = written at digits four
  match written, four with
  | [a, b, c, d], _ => exact .unit digits

/-- The code of a character and that of a surrogate are in the range of Unicode. -/
theorem code_lt (c : Char) : Text.code c < 0x110000 := by
  have bound : c.toNat < 0x110000 := by
    cases c.valid with
    | inl small => exact Nat.lt_trans small (by decide)
    | inr large => exact large.2
  unfold Text.code
  split
  · simp only [Text.firstSurrogate, Text.firstStandIn]
    omega
  · exact bound

/-- A character beyond sixteen bits is a pair of code units. -/
theorem isLetters_escapeUnits (c : Char) : IsLetters (escapeUnits c) := by
  have bound := code_lt c
  simp only [escapeUnits]
  split
  next unit => exact (isLetter_escapeUnit unit).letters
  · exact (isLetter_escapeUnit (by omega)).letters.append (isLetter_escapeUnit (by omega)).letters

/-- A character is escaped by letters of a string. -/
theorem isLetters_escapeChar (ascii : Bool) (c : Char) : IsLetters (escapeChar ascii c) := by
  unfold escapeChar
  split
  next special =>
    refine (IsLetter.short ?_).letters
    cases special with
    | inl quote =>
        subst quote
        decide
    | inr slash =>
        subst slash
        decide
  next ordinary =>
    -- Five control characters have escapes of their own.
    iterate 5
      split
      · exact (IsLetter.short (by decide)).letters
    split
    next control => exact (isLetter_escapeUnit (by omega)).letters
    next visible =>
      split
      · exact isLetters_escapeUnits c
      · exact (IsLetter.plain (Nat.le_of_not_lt visible) (not_or.mp ordinary).1
          (not_or.mp ordinary).2).letters

/-- Every text is written as a string. -/
theorem isString_writeString (ascii : Bool) (s : String) :
    IsString (writeString ascii s).toList := by
  have letters : IsLetters (s.toList.flatMap (escapeChar ascii)) := by
    induction s.toList with
    | nil => exact .nil
    | cons c rest ih =>
        rw [List.flatMap_cons]
        exact (isLetters_escapeChar ascii c).append ih
  rw [writeString, String.toList_ofList]
  exact .quoted letters

/-- What is so of the characters that a phrase is written as: they form it if all real numbers in
it are finite, and otherwise a capital I or N is bare. -/
structure Renders (phrase : Phrase) (finite : Bool) (cs : List Char) : Prop where
  closed : Closed cs
  forms : finite = true → Forms phrase cs
  named : finite = false → ∃ c ∈ bareFrom .bare cs, c ∈ ['I', 'N']

namespace Renders

/-- A text of the grammar is closed, and it has no bare names. -/
theorem of_forms (forms : Forms phrase cs) : Renders phrase true cs where
  closed := forms.plain.closed
  forms := fun _ => forms
  named := nofun

/-- What stands around a phrase, with its strings closed, makes no other name bare. -/
theorem around (here : Renders phrase finite cs) {front : List Char} (before : Closed front)
    (back : List Char) (after : Closed back)
    (forms : Forms phrase cs → Forms other (front ++ cs ++ back)) :
    Renders other finite (front ++ cs ++ back) where
  closed := (before.append here.closed).append after
  forms := fun all => forms (here.forms all)
  named := by
    intro beyond
    obtain ⟨c, bare, named⟩ := here.named beyond
    refine ⟨c, ?_, named⟩
    rw [(before.append here.closed).bareFrom_append, before.bareFrom_append]
    exact List.mem_append_left _ (List.mem_append_right _ bare)

/-- A value is the last of some items, behind a gap. -/
theorem item (value : Renders .value finite cs) {gap : List Char} (isGap : IsGap gap) :
    Renders .items finite (gap ++ cs) := by
  have item := value.around (Plain.of_gap isGap).closed [] rfl fun value =>
    .item isGap value isGap_nil
  rwa [List.append_nil] at item

/-- A name with a value is the last of some entries, behind a gap. -/
theorem entry (value : Renders .value finite cs) {name gap : List Char} (isName : IsString name)
    (isGap : IsGap gap) : Renders .entries finite (gap ++ (name ++ ':' :: ' ' :: cs)) := by
  have colon : Closed [':', ' '] := rfl
  have before := ((Plain.of_gap isGap).append (.of_string isName)).closed.append colon
  have entry := value.around before [] rfl fun value => by
    have forms := Forms.entry isGap isName isGap_nil isGap_space value isGap_nil
    simpa using forms
  simpa using entry

/-- Items are a list between brackets. -/
theorem list (items : Renders .items finite cs) : Renders .value finite ('[' :: cs ++ [']']) :=
  items.around (Closed.single '[' (by decide)) _ (.single ']' (by decide)) .list

/-- Entries are a mapping between braces. -/
theorem mapping (entries : Renders .entries finite cs) :
    Renders .value finite ('\x7b' :: cs ++ ['\x7d']) :=
  entries.around (Closed.single '\x7b' (by decide)) _ (.single '\x7d' (by decide)) .mapping

/-- Two rows with a comma between them are finite if both are. -/
theorem more (isRow : row ≠ .value) (first : Renders row finite cs)
    (second : Renders row later rest) : Renders row (finite && later) (cs ++ ',' :: rest) where
  closed := by
    have comma : Closed [','] := rfl
    exact first.closed.append (comma.append second.closed)
  forms := by
    intro both
    obtain ⟨here, there⟩ := Bool.and_eq_true_iff.mp both
    exact .more isRow (first.forms here) (second.forms there)
  named := by
    intro beyond
    rw [first.closed.bareFrom_append]
    cases Bool.and_eq_false_iff.mp beyond with
    | inl here =>
        obtain ⟨c, bare, named⟩ := first.named here
        exact ⟨c, List.mem_append_left _ bare, named⟩
    | inr there =>
        obtain ⟨c, bare, named⟩ := second.named there
        exact ⟨c, List.mem_append_right _ (List.mem_cons_of_mem _ bare), named⟩

/-- A row of things that are written one after another. -/
theorem joined {α : Type} (isRow : row ≠ .value) (isFinite : α → Bool) (written : α → String)
    {things : List α} (some : things ≠ []) (each : ∀ thing ∈ things, ∀ gap, IsGap gap →
      Renders row (isFinite thing) (gap ++ (written thing).toList)) :
    ∀ gap, IsGap gap → Renders row (things.all isFinite)
      (gap ++ (", ".intercalate (things.map written)).toList) := by
  induction things with
  | nil => exact absurd rfl some
  | cons thing rest ih =>
      obtain ⟨here, there⟩ := List.forall_mem_cons.mp each
      intro gap isGap
      cases rest with
      | nil => simpa using here gap isGap
      | cons next rest =>
          have more :=
            (here gap isGap).more isRow (ih (List.cons_ne_nil _ _) there [' '] isGap_space)
          simpa using more

end Renders

/-- Numbers beyond the finite have three names. -/
theorem write_beyond {x : Binary64} (beyond : x.isFinite = false) :
    numberLayout.write x ∈ ["NaN", "Infinity", "-Infinity"] := by
  have full : (x.exponentField == 2047) = true := Bool.not_eq_false' _ ▸ beyond
  unfold Layout.write
  split
  · exact List.mem_cons_self
  next number =>
    have infinite : x.isInfinite = true := by
      rw [Binary64.isNaN, full, Bool.true_and, bne, Bool.not_eq_true, Bool.not_eq_false'] at number
      rw [Binary64.isInfinite, full, number]
      rfl
    simp only [infinite, if_true]
    split <;> decide

/-- A number is written as one if it is finite. -/
theorem renders_real (x : Binary64) : Renders .value x.isFinite (numberLayout.write x).toList := by
  cases finite : x.isFinite with
  | true => exact .of_forms (.number (isNumber_real finite))
  | false =>
      have named : ∀ name ∈ ["NaN", "Infinity", "-Infinity"], Renders .value false name.toList := by
        simp only [List.forall_mem_cons]
        exact ⟨⟨rfl, nofun, fun _ => ⟨'N', by decide, by decide⟩⟩,
          ⟨rfl, nofun, fun _ => ⟨'I', by decide, by decide⟩⟩,
          ⟨rfl, nofun, fun _ => ⟨'I', by decide, by decide⟩⟩, nofun⟩
      exact named _ (write_beyond finite)

/-- The items of a list are written one by one. -/
theorem writeItems_eq (style : Style) (level : Nat) (items : List Datum) :
    writeItems style level items = items.map (writeAt style level) := by
  induction items with
  | nil => rfl
  | cons item rest ih => exact congrArg (writeAt style level item :: ·) ih

/-- An entry is its name and its value, with a colon in between. -/
theorem writeEntries_eq (style : Style) (level : Nat) (entries : List (String × Datum)) :
    writeEntries style level entries = entries.map fun entry =>
      writeString style.ascii entry.1 ++ ": " ++ writeAt style level entry.2 := by
  induction entries with
  | nil => rfl
  | cons entry rest ih =>
      obtain ⟨name, value⟩ := entry
      exact congrArg ((writeString style.ascii name ++ ": " ++ writeAt style level value) :: ·) ih

section OneLine

variable (oneLine : style.indent = none)

include oneLine

/-- Without an indent, texts are enclosed on one line. -/
theorem enclose_eq (level : Nat) (opening closing : String) (texts : List String) :
    enclose style level opening closing texts =
      opening ++ ", ".intercalate texts ++ closing := by
  have unbroken : ∀ level, lineBreak style level = "" := by
    intro level
    rw [lineBreak, oneLine]
  have comma : separator style (level + 1) = ", " := by rw [separator, oneLine]
  cases texts with
  | nil => simp [enclose]
  | cons text rest => simp [enclose, unbroken, comma]

/-- A value on one line is a value of the grammar, unless a name of the numbers beyond the finite is
bare in it. -/
theorem renders_writeAt (value : Datum) : ∀ level,
    Renders .value value.allFinite (writeAt style level value).toList := by
  have word : ∀ cs ∈ ["null".toList, "true".toList, "false".toList], Renders .value true cs :=
    fun _ known => .of_forms (.word known)
  induction value using Datum.nested with
  | null => exact fun _ => word "null".toList (by decide)
  | boolean value =>
      cases value with
      | true => exact fun _ => word "true".toList (by decide)
      | false => exact fun _ => word "false".toList (by decide)
  | integer value => exact fun _ => .of_forms (.number (isNumber_integer value))
  | real value => exact fun _ => renders_real value
  | text value => exact fun _ => .of_forms (.string (isString_writeString style.ascii value))
  | list items ih =>
      intro level
      rw [Datum.allFinite_list, writeAt, enclose_eq oneLine, writeItems_eq]
      cases items with
      | nil =>
          have empty := Renders.of_forms (.emptyList isGap_nil)
          simpa using empty
      | cons item rest =>
          have isRow : Phrase.items ≠ .value := nofun
          have row :=
            Renders.joined isRow _ (writeAt style (level + 1)) (List.cons_ne_nil item rest)
            (fun item member _ isGap => (ih item member (level + 1)).item isGap) [] isGap_nil
          simpa using row.list
  | mapping entries ih =>
      intro level
      rw [Datum.allFinite_mapping, writeAt, enclose_eq oneLine, writeEntries_eq]
      cases entries with
      | nil =>
          have empty := Renders.of_forms (.emptyMapping isGap_nil)
          simpa using empty
      | cons entry rest =>
          have isRow : Phrase.entries ≠ .value := nofun
          have row := Renders.joined isRow (fun entry => entry.2.allFinite)
            (fun entry => writeString style.ascii entry.1 ++ ": " ++
              writeAt style (level + 1) entry.2) (List.cons_ne_nil entry rest)
            (fun entry member _ isGap => by
              have name := isString_writeString style.ascii entry.1
              simpa using (ih entry member (level + 1)).entry name isGap) [] isGap_nil
          simpa using row.mapping
  | other value => exact fun _ => word "null".toList (by decide)

/-- A value is written on one line as a JSON text exactly if all its real numbers are finite. -/
theorem isText_write_iff (value : Datum) :
    IsText (write style value) ↔ value.allFinite = true := by
  have rendered := renders_writeAt oneLine value 0
  constructor
  · rintro ⟨before, middle, after, gap, forms, gap', same⟩
    refine Bool.of_not_eq_false fun beyond => ?_
    obtain ⟨c, bare, named⟩ := rendered.named beyond
    have plain := ((Plain.of_gap gap).append forms.plain).append (.of_gap gap')
    rw [← same] at plain
    exact plain.unnamed c bare named
  · intro finite
    refine ⟨[], _, [], isGap_nil, rendered.forms finite, isGap_nil, ?_⟩
    rw [List.append_nil]
    rfl

end OneLine

end Json

end TuneGraph
