import TuneGraph.Document.Basic

/-! # Values and their parts

Values are looked at through their parts: the entries of a mapping by name, the scalars of a list
or a mapping through those of its members (`Datum.allInItems_eq`, `Datum.allInEntries_eq`), and
all of a value by an induction with a hypothesis for every member (`Datum.nested`).
-/

namespace TuneGraph

namespace Datum

@[simp] theorem get_mapping (entries : List (String × Datum)) (name : String) :
    (Datum.mapping entries).get name = (find? name entries).getD .null := rfl

@[simp] theorem find?_nil (name : String) : find? name [] = none := rfl

@[simp] theorem find?_cons (name key : String) (value : Datum) (rest : List (String × Datum)) :
    find? name ((key, value) :: rest) = if key = name then some value else find? name rest := by
  unfold find?
  rw [List.find?_cons]
  split <;> simp_all

/-- A text that says something is not replaced. -/
theorem orElse_text {value : String} (said : value ≠ "") (default : Datum) :
    (Datum.text value).orElse default = .text value := by
  simp [orElse, isTruthy, said]

@[simp] theorem orElse_null (default : Datum) : Datum.null.orElse default = default := rfl

@[simp] theorem orElse_empty (value : String) :
    (Datum.text value).orElse (.text "") = .text value := by
  by_cases empty : value = ""
  · rw [empty]
    rfl
  · exact orElse_text empty _

/-- What is so of the scalars in a list is so of those in each item. -/
theorem allInItems_eq (isSo : Datum → Bool) (items : List Datum) :
    allInItems isSo items = items.all (allScalars isSo) := by
  induction items with
  | nil => rfl
  | cons item rest ih => exact congrArg (allScalars isSo item && ·) ih

/-- What is so of the scalars in a mapping is so of those in each value. -/
theorem allInEntries_eq (isSo : Datum → Bool) (entries : List (String × Datum)) :
    allInEntries isSo entries = entries.all fun entry => allScalars isSo entry.2 := by
  induction entries with
  | nil => rfl
  | cons entry rest ih =>
      obtain ⟨name, value⟩ := entry
      exact congrArg (allScalars isSo value && ·) ih

/-- Induction over a value, with a hypothesis for every item of a list and every value of a
mapping. -/
@[elab_as_elim] theorem nested {motive : Datum → Prop} (null : motive .null)
    (boolean : ∀ value, motive (.boolean value)) (integer : ∀ value, motive (.integer value))
    (real : ∀ value, motive (.real value)) (text : ∀ value, motive (.text value))
    (list : ∀ items, (∀ item ∈ items, motive item) → motive (.list items))
    (mapping : ∀ entries, (∀ entry ∈ entries, motive entry.2) → motive (.mapping entries))
    (other : ∀ value, motive (.other value)) :
    ∀ value, motive value
  | .null => null
  | .boolean value => boolean value
  | .integer value => integer value
  | .real value => real value
  | .text value => text value
  | .list items => list items fun item _ =>
      nested null boolean integer real text list mapping other item
  | .mapping entries => mapping entries fun entry _ =>
      nested null boolean integer real text list mapping other entry.2
  | .other value => other value
termination_by value => sizeOf value
decreasing_by
  · have := List.sizeOf_lt_of_mem ‹item ∈ items›
    rw [Datum.list.sizeOf_spec]
    omega
  · have := List.sizeOf_lt_of_mem ‹entry ∈ entries›
    have : sizeOf entry.2 < sizeOf entry := by
      obtain ⟨name, value⟩ := entry
      show sizeOf value < 1 + sizeOf name + sizeOf value
      omega
    rw [Datum.mapping.sizeOf_spec]
    omega

end Datum

end TuneGraph
