import Mathlib.Data.List.Forall2

/-! # Computations that can fail

A chain of steps returns if every step returns, and fails with the fault of the first step that
does not. A list is read if each of its items is. Two chains whose steps are in step with each other
are in step as a whole (`InStep`).
-/

namespace TuneGraph

variable {ε α β : Type}

/-- Two computations one after the other give a result if the first gives an input, and the second
the result from it. -/
theorem bind_eq_ok_iff {value : Except ε α} {next : α → Except ε β} {result : β} :
    value >>= next = .ok result ↔ ∃ input, value = .ok input ∧ next input = .ok result := by
  cases value with
  | ok input =>
      refine ⟨fun same => ⟨input, rfl, same⟩, ?_⟩
      rintro ⟨_, same, rest⟩
      cases same
      exact rest
  | error fault => exact ⟨nofun, fun ⟨_, same, _⟩ => nomatch same⟩

/-- Two computations one after the other fail if the first fails, or the second after it. -/
theorem bind_eq_error_iff {value : Except ε α} {next : α → Except ε β} {fault : ε} :
    value >>= next = .error fault ↔
      value = .error fault ∨ ∃ input, value = .ok input ∧ next input = .error fault := by
  cases value with
  | ok input =>
      refine ⟨fun same => Or.inr ⟨input, rfl, same⟩, ?_⟩
      rintro (same | ⟨_, same, rest⟩)
      · cases same
      · cases same
        exact rest
  | error first =>
      refine ⟨fun same => Or.inl (congrArg Except.error (Except.error.inj same)), ?_⟩
      rintro (same | ⟨_, same, -⟩)
      · cases same
        rfl
      · cases same

/-- Whether a computation has a result. -/
def Returns (value : Except ε α) : Prop := ∃ result, value = .ok result

/-- What is given returns. -/
@[simp] theorem returns_pure (result : α) : Returns (pure result : Except ε α) := ⟨result, rfl⟩

/-- What fails does not return. -/
@[simp] theorem not_returns_throw (fault : ε) : ¬Returns (throw fault : Except ε α) := nofun

/-- Two computations one after the other return if the first gives an input with which the second
returns. -/
theorem returns_bind_iff {value : Except ε α} {next : α → Except ε β} :
    Returns (value >>= next) ↔ ∃ input, value = .ok input ∧ Returns (next input) := by
  cases value with
  | ok input =>
      refine ⟨fun done => ⟨input, rfl, done⟩, ?_⟩
      rintro ⟨_, same, done⟩
      cases same
      exact done
  | error fault => exact ⟨nofun, fun ⟨_, same, _⟩ => nomatch same⟩

/-- Before a computation that always returns it is the first one that matters. -/
theorem returns_bind_iff_left {value : Except ε α} {next : α → Except ε β}
    (total : ∀ input, Returns (next input)) : Returns (value >>= next) ↔ Returns value := by
  rw [returns_bind_iff]
  exact ⟨fun ⟨input, same, _⟩ => ⟨input, same⟩, fun ⟨input, same⟩ => ⟨input, same, total input⟩⟩

/-- If the second computation returns or not whatever its input is, the first one need only return.
-/
theorem returns_bind_iff_and {value : Except ε α} {next : α → Except ε β} {holds : Prop}
    (same : ∀ input, Returns (next input) ↔ holds) :
    Returns (value >>= next) ↔ Returns value ∧ holds := by
  rw [returns_bind_iff]
  constructor
  · rintro ⟨input, isOk, done⟩
    exact ⟨⟨input, isOk⟩, (same input).mp done⟩
  · rintro ⟨⟨input, isOk⟩, done⟩
    exact ⟨input, isOk, (same input).mpr done⟩

/-- What is done to a result does not matter for whether there is one. -/
theorem returns_map_iff {value : Except ε α} {change : α → β} :
    Returns (change <$> value) ↔ Returns value := by
  cases value with
  | ok result => exact iff_of_true ⟨_, rfl⟩ ⟨_, rfl⟩
  | error fault => exact iff_of_false nofun nofun

/-- Whether two computations both return, with related results, or both fail, with related
faults. -/
inductive InStep {ε' : Type} (faults : ε → ε' → Prop) (results : α → β → Prop) :
    Except ε α → Except ε' β → Prop where
  | ok {result : α} {other : β} (related : results result other) :
      InStep faults results (.ok result) (.ok other)
  | error {fault : ε} {other : ε'} (related : faults fault other) :
      InStep faults results (.error fault) (.error other)

namespace InStep

variable {ε' γ δ : Type} {faults : ε → ε' → Prop} {results : α → β → Prop}
  {value : Except ε α} {other : Except ε' β}

/-- Two pairs of computations are in step if their first ones are, and their second ones behind
results that belong together. -/
theorem bind {after : γ → δ → Prop} {next : α → Except ε γ} {otherNext : β → Except ε' δ}
    (here : InStep faults results value other)
    (later : ∀ input otherInput, results input otherInput →
      InStep faults after (next input) (otherNext otherInput)) :
    InStep faults after (value >>= next) (other >>= otherNext) := by
  cases here with
  | ok related => exact later _ _ related
  | error related => exact .error related

/-- Folds are in step if every step keeps the states related. -/
theorem foldlM {step : α → γ → Except ε α} {otherStep : β → γ → Except ε' β} {items : List γ}
    (each : ∀ state otherState, results state otherState → ∀ item ∈ items,
      InStep faults results (step state item) (otherStep otherState item))
    {start : α} {otherStart : β} (starts : results start otherStart) :
    InStep faults results (items.foldlM step start) (items.foldlM otherStep otherStart) := by
  induction items generalizing start otherStart with
  | nil => exact .ok starts
  | cons item rest ih =>
      rw [List.foldlM_cons, List.foldlM_cons]
      refine (each start otherStart starts item List.mem_cons_self).bind
        fun state otherState related => ih ?_ related
      intro state otherState related item member
      exact each state otherState related item (List.mem_cons_of_mem _ member)

/-- Of two computations in step both return, or none. -/
theorem returns_iff (here : InStep faults results value other) : Returns value ↔ Returns other := by
  cases here with
  | ok => exact iff_of_true ⟨_, rfl⟩ ⟨_, rfl⟩
  | error => exact iff_of_false nofun nofun

/-- The results of computations in step belong together. -/
theorem of_ok {result : α} {otherResult : β}
    (here : InStep faults results (.ok result) (.ok otherResult)) : results result otherResult := by
  cases here with
  | ok related => exact related

end InStep

/-- A computation with something found has returned it. -/
theorem eq_ok_of_toOption {value : Except ε α} {result : α}
    (found : value.toOption = some result) : value = .ok result := by
  cases value with
  | ok input => exact congrArg Except.ok (Option.some.inj found)
  | error fault => cases found

/-- A run that fails has failed at one of its steps. -/
theorem exists_step_of_foldlM_error {step : β → α → Except ε β} {items : List α} {start : β}
    {fault : ε} (failed : items.foldlM step start = .error fault) :
    ∃ state item, step state item = .error fault := by
  induction items generalizing start with
  | nil => cases failed
  | cons item rest ih =>
      rw [List.foldlM_cons, bind_eq_error_iff] at failed
      rcases failed with here | ⟨state, -, later⟩
      · exact ⟨start, item, here⟩
      · exact ih later

/-- A list is read if each of its items is, to the results in order. -/
theorem mapM_eq_ok_iff {read : α → Except ε β} {items : List α} {results : List β} :
    items.mapM read = .ok results ↔
      List.Forall₂ (fun item result => read item = .ok result) items results := by
  induction items generalizing results with
  | nil => simp [pure, Except.pure, eq_comm]
  | cons item rest ih =>
      rw [List.mapM_cons, List.forall₂_cons_left_iff]
      simp only [bind_eq_ok_iff, ih]
      constructor
      · rintro ⟨result, here, others, later, same⟩
        exact ⟨result, others, here, later, (Except.ok.inj same).symm⟩
      · rintro ⟨result, others, here, later, rfl⟩
        exact ⟨result, here, others, later, rfl⟩

/-- A list is read if each of its items is. -/
theorem returns_mapM_iff {read : α → Except ε β} {items : List α} :
    Returns (items.mapM read) ↔ ∀ item ∈ items, Returns (read item) := by
  simp only [Returns, mapM_eq_ok_iff]
  induction items with
  | nil => simp
  | cons item rest ih =>
      rw [List.forall_mem_cons, ← ih]
      constructor
      · rintro ⟨_, both⟩
        cases both with
        | cons here later => exact ⟨⟨_, here⟩, ⟨_, later⟩⟩
      · rintro ⟨⟨result, here⟩, ⟨results, later⟩⟩
        exact ⟨result :: results, .cons here later⟩

/-- What is written of items is read back if it is so of each item. -/
theorem mapM_map_eq_ok {write : β → α} {read : α → Except ε β} {items : List β}
    (back : ∀ item ∈ items, read (write item) = .ok item) :
    (items.map write).mapM read = .ok items := by
  rw [mapM_eq_ok_iff, List.forall₂_map_left_iff, List.forall₂_same]
  exact back

/-- The items of a list are all there exactly if the list of them is. -/
theorem mapM_eq_some_iff {find : α → Option β} {items : List α} {results : List β} :
    items.mapM find = some results ↔ items.map find = results.map some := by
  induction items generalizing results with
  | nil => cases results <;> simp
  | cons item rest ih =>
      rw [List.mapM_cons, List.map_cons]
      simp only [bind, Option.bind_eq_some_iff, ih]
      cases results with
      | nil => simp
      | cons result others =>
          rw [List.map_cons, List.cons.injEq]
          constructor
          · rintro ⟨_, here, _, later, same⟩
            obtain ⟨rfl, rfl⟩ := List.cons.inj (Option.some.inj same)
            exact ⟨here, later⟩
          · rintro ⟨here, later⟩
            exact ⟨result, here, others, later, rfl⟩

/-- All items are found if each of them is. -/
theorem isSome_mapM_iff {find : α → Option β} {items : List α} :
    (items.mapM find).isSome = true ↔ ∀ item ∈ items, (find item).isSome = true := by
  induction items with
  | nil => simp
  | cons item rest ih =>
      rw [List.mapM_cons, List.forall_mem_cons, ← ih]
      cases find item <;> cases rest.mapM find <;> simp

/-- What a list is read as is what its items are read as. -/
theorem mem_iff_of_mapM_eq_ok {read : α → Except ε β} {items : List α} {results : List β}
    (done : items.mapM read = .ok results) {result : β} :
    result ∈ results ↔ ∃ item ∈ items, read item = .ok result := by
  rw [mapM_eq_ok_iff] at done
  induction done with
  | nil => simp
  | @cons item here rest others reads _ ih =>
      simp only [List.mem_cons, ih, exists_eq_or_imp, reads, Except.ok.injEq]
      rw [eq_comm]

/-- What is so of whatever is read from an item is so of all results. -/
theorem forall_of_mapM_eq_ok {read : α → Except ε β} {items : List α} {results : List β}
    {holds : β → Prop} (each : ∀ item result, read item = .ok result → holds result)
    (done : items.mapM read = .ok results) : ∀ result ∈ results, holds result := by
  intro result member
  obtain ⟨item, -, reads⟩ := (mem_iff_of_mapM_eq_ok done).mp member
  exact each item result reads

end TuneGraph
