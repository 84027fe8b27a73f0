import TuneGraph.Score.Basic
import Mathlib.Algebra.GroupWithZero.Nat
import Mathlib.Data.List.Perm.Basic

/-! # The parts of a tune

The parts of a tune hold the staves of its lines, sorted by staff index instead of by line, however
many staves each line has (`Tune.parts_perm`). Whatever is counted part by part can therefore be
counted line by line.
-/

namespace TuneGraph

/-- Whether a repeat begins at an event. -/
def Event.opens : Event → Bool
  | .note _ => false
  | .bar type => type.opens

theorem filterMap_getElem?_range {α : Type} (items : List α) {count : Nat}
    (enough : items.length ≤ count) : (List.range count).filterMap (items[·]?) = items := by
  induction items generalizing count with
  | nil => exact List.filterMap_eq_nil_iff.mpr fun _ _ => rfl
  | cons first rest ih =>
      cases count with
      | zero => exact absurd enough (Nat.not_succ_le_zero _)
      | succ count =>
          rw [List.range_succ_eq_map, List.filterMap_cons_some List.getElem?_cons_zero,
            List.filterMap_map]
          exact congrArg (first :: ·) (ih (Nat.le_of_succ_le_succ enough))

namespace Tune

/-- The staves of all lines. -/
def staves (tune : Tune) : List Staff := tune.lines.flatMap TuneLine.staves

/-- The voices of all staves. -/
def voices (tune : Tune) : List Voice := tune.staves.flatMap Staff.voices

/-- The number of bars at which a repeat begins. -/
def openingBars (tune : Tune) : Nat := tune.voices.flatten.countP Event.opens

theorem length_le_staffCount (tune : Tune) {line : TuneLine} (member : line ∈ tune.lines) :
    line.staves.length ≤ tune.staffCount := by
  have most : ∀ (lines : List TuneLine) (most : Nat),
      most ≤ lines.foldl (fun most line => max most line.staves.length) most ∧
        ∀ line ∈ lines, line.staves.length ≤
          lines.foldl (fun most line => max most line.staves.length) most := by
    intro lines
    induction lines with
    | nil => exact fun most => ⟨Nat.le_refl most, nofun⟩
    | cons line lines ih =>
        intro most
        obtain ⟨start, others⟩ := ih (max most line.staves.length)
        refine ⟨Nat.le_trans (Nat.le_max_left ..) start, List.forall_mem_cons.mpr ⟨?_, others⟩⟩
        exact Nat.le_trans (Nat.le_max_right ..) start
  exact (most tune.lines 0).2 line member

/-- The staves that lines have at each index are all their staves. -/
theorem flatMap_filterMap_perm (lines : List TuneLine) {count : Nat}
    (enough : ∀ line ∈ lines, line.staves.length ≤ count) :
    ((List.range count).flatMap fun index => lines.filterMap (·.staves[index]?)).Perm
      (lines.flatMap TuneLine.staves) := by
  induction lines with
  | nil =>
      rw [List.flatMap_nil]
      refine List.Perm.of_eq (List.flatMap_eq_nil_iff.mpr fun _ _ => rfl)
  | cons line lines ih =>
      obtain ⟨here, later⟩ := List.forall_mem_cons.mp enough
      have split : ∀ index : Nat, (line :: lines).filterMap (·.staves[index]?) =
          line.staves[index]?.toList ++ lines.filterMap (·.staves[index]?) := by
        intro index
        rw [List.filterMap_cons]
        cases line.staves[index]? <;> rfl
      simp only [split]
      refine (List.flatMap_append_perm ..).symm.trans ?_
      rw [← List.filterMap_eq_flatMap_toList, filterMap_getElem?_range line.staves here,
        List.flatMap_cons]
      exact (ih later).append_left line.staves

/-- The parts of a tune hold the staves of all its lines. -/
theorem parts_perm (tune : Tune) : tune.parts.flatten.Perm tune.staves := by
  rw [parts, ← List.flatMap_def]
  exact flatMap_filterMap_perm tune.lines fun line => tune.length_le_staffCount

theorem length_parts (tune : Tune) : tune.parts.length = tune.staffCount := by
  rw [parts, List.length_map, List.length_range]

theorem noteCount_eq (tune : Tune) :
    tune.noteCount = (tune.voices.map fun voice => voice.notes.length).sum := by
  rw [noteCount, voices, staves, ← List.length_flatMap]
  simp only [List.flatMap_assoc]
  rfl

end Tune

end TuneGraph
