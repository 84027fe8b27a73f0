import TuneGraph.Document.Display
import TuneGraph.Proofs.Document.Basic
import TuneGraph.Proofs.Text.Normal

/-! # What becomes of values as texts

A value has a spelling unless an integer in it has too many digits (`Datum.isSome_literal?`). A
value that is not a text is spelled with a character that is not blank (`Datum.shows_display`), so
only a text can vanish when a value is taken as a name. A value that says something is never
spelled by the empty text (`Datum.display_ne_empty`).
-/

namespace TuneGraph

open Text (Shows)

namespace Layout

/-- The digits of a number show something. -/
theorem shows_writeDigits (digits : List Char) (place : Int) :
    Shows (standard.writeDigits digits place) := by
  unfold writeDigits
  by_cases plain : standard.firstPlain ≤ place ∧ place < standard.firstLarge
  · rw [if_pos plain]
    by_cases below : place < 0
    · refine ⟨'0', ?_, by decide⟩
      rw [if_pos below]
      simp
    · refine ⟨'.', ?_, by decide⟩
      rw [if_neg below]
      simp
  · refine ⟨'e', ?_, by decide⟩
    rw [if_neg plain]
    simp [standard]

/-- A number shows something, also if it is not finite. -/
theorem shows_write (x : Binary64) : Shows (standard.write x) := by
  unfold write
  by_cases nan : x.isNaN
  · rw [if_pos nan]
    exact ⟨'n', by decide, by decide⟩
  rw [if_neg nan]
  by_cases infinite : x.isInfinite
  · rw [if_pos infinite]
    exact Shows.append_right ⟨'i', by decide, by decide⟩ _
  rw [if_neg infinite]
  by_cases zero : x.isZero
  · rw [if_pos zero]
    exact Shows.append_right ⟨'0', by decide, by decide⟩ _
  · rw [if_neg zero]
    exact (shows_writeDigits _ _).append_right _

end Layout

/-- A natural number shows something. -/
theorem shows_natural (n : Nat) : Shows n.repr := by
  rw [Nat.repr_eq_ofList_toDigits]
  obtain ⟨digit, member⟩ := List.exists_mem_of_ne_nil _ (Nat.toDigits_ne_nil (n := n) (b := 10))
  refine ⟨digit, by simpa using member, ?_⟩
  have isDigit := Nat.isDigit_of_mem_toDigits (by decide) (by decide) member
  have bounds : 48 ≤ digit.toNat ∧ digit.toNat ≤ 57 := Char.isDigit_iff_toNat.mp isDigit
  simp [Text.isBlank, Text.isWhiteSpace]
  omega

/-- An integer shows something. -/
theorem shows_integer (value : Int) : Shows (toString value) := by
  rw [Int.toString_eq_repr, Int.repr_eq_if]
  split
  · exact shows_natural _
  · exact (shows_natural _).append_right _

namespace Datum

/-- Whether a scalar has a spelling. -/
def isSpelled : Datum → Bool
  | .integer value => Numeral.isShort value
  | .other value => value.literal?.isSome
  | _ => true

/-- A list has a spelling if each of its items has one. -/
theorem isSome_literals? {items : List Datum}
    (each : ∀ item ∈ items, item.literal?.isSome = item.allScalars isSpelled) :
    (literals? items).isSome = allInItems isSpelled items := by
  induction items with
  | nil => rfl
  | cons item rest ih =>
      rw [List.forall_mem_cons] at each
      rw [allInItems, ← each.1, ← ih each.2, literals?]
      cases item.literal? <;> cases literals? rest <;> rfl

/-- A mapping has a spelling if each of its values has one. -/
theorem isSome_literalEntries? {entries : List (String × Datum)}
    (each : ∀ entry ∈ entries, entry.2.literal?.isSome = entry.2.allScalars isSpelled) :
    (literalEntries? entries).isSome = allInEntries isSpelled entries := by
  induction entries with
  | nil => rfl
  | cons entry rest ih =>
      obtain ⟨name, value⟩ := entry
      rw [List.forall_mem_cons] at each
      rw [allInEntries, allInEntry, ← each.1, ← ih each.2, literalEntries?, literalEntry?]
      cases value.literal? <;> cases literalEntries? rest <;> rfl

/-- A value has a spelling exactly if every scalar in it has one. -/
theorem isSome_literal? (value : Datum) :
    value.literal?.isSome = value.allScalars isSpelled := by
  induction value using Datum.nested with
  | null => rfl
  | boolean value => cases value <;> rfl
  | integer value => exact Numeral.isSome_ofInt? value
  | real value => rfl
  | text value => rfl
  | list items ih => rw [literal?, Option.isSome_map, allScalars, isSome_literals? ih]
  | mapping entries ih => rw [literal?, Option.isSome_map, allScalars, isSome_literalEntries? ih]
  | other value => rfl

@[simp] theorem display?_text (value : String) : (Datum.text value).display? = some value := rfl

/-- Whether a value can be taken as a text, with a default in place of one that says nothing. -/
def isSayable (value : Datum) : Bool := !value.isTruthy || value.display?.isSome

/-- A value can be said if it can be taken as a text, or a default stands in for it. -/
theorem isSayable_iff {value : Datum} (default : String) :
    value.isSayable = true ↔ (value.orElse (.text default)).display?.isSome = true := by
  unfold isSayable orElse
  cases value.isTruthy <;> simp

/-- A value that is not a text cannot vanish when it is taken as one. -/
theorem shows_display {value : Datum} {spelling : String} (noText : value.text? = none)
    (spelled : value.display? = some spelling) : Shows spelling := by
  cases value with
  | null =>
      obtain rfl := Option.some.inj spelled
      exact ⟨'N', by decide, by decide⟩
  | boolean value => cases value <;> obtain rfl := Option.some.inj spelled <;>
      exact ⟨'e', by decide, by decide⟩
  | integer value =>
      obtain ⟨-, rfl⟩ := Numeral.ofInt?_eq_some_iff.mp spelled
      exact shows_integer value
  | real value =>
      obtain rfl := Option.some.inj spelled
      exact Layout.shows_write value
  | text value => cases noText
  | list items =>
      obtain ⟨parts, -, rfl⟩ := Option.map_eq_some_iff.mp spelled
      exact Shows.append_right ⟨']', by decide, by decide⟩ _
  | mapping entries =>
      obtain ⟨parts, -, rfl⟩ := Option.map_eq_some_iff.mp spelled
      exact Shows.append_right ⟨'\x7d', by decide, by decide⟩ _
  | other value => exact Text.strip_ne_empty_iff.mp (value.visible spelling spelled)

/-- A value that says something is not spelled by the empty text. -/
theorem display_ne_empty {value : Datum} {spelling : String} (truthy : value.isTruthy = true)
    (spelled : value.display? = some spelling) : spelling ≠ "" := by
  cases shape : value.text? with
  | none => exact (shows_display shape spelled).ne_empty
  | some said =>
      cases value with
      | text value =>
          obtain rfl := Option.some.inj spelled
          simpa [isTruthy] using truthy
      | _ => cases shape

/-- With a default that says something, no value is spelled by the empty text. -/
theorem display_orElse_ne_empty {value : Datum} {default spelling : String} (said : default ≠ "")
    (spelled : (value.orElse (.text default)).display? = some spelling) : spelling ≠ "" := by
  unfold orElse at spelled
  split at spelled
  next truthy => exact display_ne_empty truthy spelled
  next =>
    obtain rfl := Option.some.inj spelled
    exact said

end Datum

end TuneGraph
