import TuneGraph.Text.Blank
import TuneGraph.Text.Case
import Mathlib.Data.List.DropRight

/-! # Texts without blanks around them and in lower case

Stripping and lowering a text leave nothing for a second time (`strip_strip`, `lower_lower`). A
text is stripped to nothing only if it is blank throughout (`strip_eq_empty_iff`); lowering
loses no character (`lower_eq_empty_iff`).

That lower case is stable is a fact about the table of capitals: the image of a run of capitals
avoids every run (`CaseRun.avoids`, `lowerRuns_avoid`). The final form of sigma, which depends on
the text around it, arises from the capital only.
-/

namespace TuneGraph.Text

/-- To trim is to drop at the front and then at the back. -/
theorem trim_eq_rdropWhile (drop : Char → Bool) (cs : List Char) :
    trim drop cs = (cs.dropWhile drop).rdropWhile drop := rfl

/-- Nothing is left of what is dropped everywhere, and of nothing else. -/
theorem trim_eq_nil_iff {drop : Char → Bool} {cs : List Char} :
    trim drop cs = [] ↔ ∀ c ∈ cs, drop c = true := by
  rw [trim_eq_rdropWhile, List.rdropWhile_eq_nil_iff]
  constructor
  · intro blank
    have nothing : (cs.dropWhile drop).dropWhile drop = [] := List.dropWhile_eq_nil_iff.mpr blank
    rw [List.dropWhile_idempotent] at nothing
    exact List.dropWhile_eq_nil_iff.mp nothing
  · intro blank c member
    exact blank c ((List.dropWhile_suffix drop).subset member)

/-- What has been trimmed has nothing more to trim. -/
theorem trim_trim (drop : Char → Bool) (cs : List Char) :
    trim drop (trim drop cs) = trim drop cs := by
  -- What is cut off at the end does not uncover anything to cut off in front.
  have front : (trim drop cs).dropWhile drop = trim drop cs := by
    apply List.dropWhile_eq_self_iff.mpr
    intro inside
    have kept := (List.rdropWhile_prefix drop (cs.dropWhile drop)).getElem inside
    have first := List.dropWhile_eq_self_iff.mp (List.dropWhile_idempotent drop cs)
    exact fun dropped => first _ (kept ▸ dropped)
  rw [trim_eq_rdropWhile drop (trim drop cs), front]
  exact List.rdropWhile_idempotent drop _

/-- What has been stripped has no blanks to strip. -/
theorem strip_strip (s : String) : strip (strip s) = strip s := by
  simp only [strip, String.toList_ofList, trim_trim]

/-- A text is stripped to nothing if it is all blank. -/
theorem strip_eq_empty_iff {s : String} : strip s = "" ↔ ∀ c ∈ s.toList, isBlank c = true := by
  rw [strip, String.ofList_eq_empty_iff, trim_eq_nil_iff]

/-- Whether a text has something else than blanks in it. -/
def Shows (s : String) : Prop := ∃ c ∈ s.toList, isBlank c = false

/-- A text is not stripped to nothing if it shows something. -/
theorem strip_ne_empty_iff {s : String} : strip s ≠ "" ↔ Shows s := by
  simp only [ne_eq, strip_eq_empty_iff, Shows, not_forall, exists_prop, Bool.not_eq_true]

/-- A text that shows something is not empty. -/
theorem Shows.ne_empty {s : String} (shows : Shows s) : s ≠ "" := by
  obtain ⟨c, member, -⟩ := shows
  intro empty
  rw [empty] at member
  exact nomatch member

/-- A text shows something if it ends with one that does. -/
theorem Shows.append_right {t : String} (shows : Shows t) (s : String) : Shows (s ++ t) := by
  obtain ⟨c, member, visible⟩ := shows
  exact ⟨c, by simp [member], visible⟩

namespace CaseRun

/-- Whether a code point lies in a run. -/
def Holds (run : CaseRun) (n : Nat) : Prop :=
  run.first ≤ n ∧ n ≤ run.last ∧ (n - run.first) % run.step = 0

/-- The image of a code point under a run. -/
def image (run : CaseRun) (n : Nat) : Nat := ((n : Int) + run.distance).toNat

/-- A code point that has an image lies in a run, which gives the image. -/
theorem exists_of_image? {runs : List CaseRun} {n m : Nat} (mapped : image? runs n = some m) :
    ∃ run ∈ runs, run.Holds n ∧ m = run.image n := by
  obtain ⟨run, found, rfl⟩ := Option.map_eq_some_iff.mp mapped
  have holds := List.find?_some found
  simp only [Bool.and_eq_true, decide_eq_true_eq, beq_iff_eq] at holds
  exact ⟨run, List.mem_of_find?_eq_some found, ⟨holds.1.1, holds.1.2, holds.2⟩, rfl⟩

/-- A code point outside all runs has no image. -/
theorem image?_eq_none {runs : List CaseRun} {n : Nat} (outside : ∀ run ∈ runs, ¬run.Holds n) :
    image? runs n = none := by
  rw [image?, Option.map_eq_none_iff, List.find?_eq_none]
  intro run member holds
  simp only [Bool.and_eq_true, decide_eq_true_eq, beq_iff_eq] at holds
  exact outside run member ⟨holds.1.1, holds.1.2, holds.2⟩

/-- Whether the images of a run lie before or behind another run, or between its members. -/
def avoids (run other : CaseRun) : Bool :=
  (run.image run.last).blt other.first || other.last.blt (run.image run.first) ||
    (other.step == 2 && (run.step == 2 || run.first == run.last) &&
      (run.image run.first + other.first) % 2 == 1)

/-- The image of a code point does not lie in a run that the first run avoids. -/
theorem not_holds_image {run other : CaseRun} (apart : run.avoids other = true)
    (positive : 0 < run.image run.first) {n : Nat} (holds : run.Holds n) :
    ¬other.Holds (run.image n) := by
  obtain ⟨first, last, place⟩ := holds
  intro inside
  obtain ⟨otherFirst, otherLast, otherPlace⟩ := inside
  simp only [avoids, image, Bool.or_eq_true, Bool.and_eq_true, Nat.blt_eq, beq_iff_eq] at *
  rcases apart with (below | above) | ⟨⟨even, single⟩, odd⟩
  · omega
  · omega
  · rw [even] at otherPlace
    rcases single with step | same
    · rw [step] at place
      omega
    · omega

end CaseRun

/-- The capital with a dot, which is lowered to two characters. -/
def dottedCapital : CaseRun := ⟨304, 304, 1, 0⟩

/-- The runs of the capitals avoid each other, and none has its images among the plain capitals. -/
theorem lowerRuns_avoid : (lowerRuns.all fun run => Nat.ble 91 (run.image run.first) &&
    (dottedCapital :: lowerRuns).all run.avoids) = true := by
  decide +kernel

/-- A lower-case image is no capital. -/
theorem image?_lowerRuns {n m : Nat} (mapped : CaseRun.image? lowerRuns n = some m) :
    91 ≤ m ∧ m ≠ 304 ∧ CaseRun.image? lowerRuns m = none := by
  obtain ⟨run, member, holds, rfl⟩ := CaseRun.exists_of_image? mapped
  have checked := List.all_eq_true.mp lowerRuns_avoid run member
  obtain ⟨least, avoided⟩ := Bool.and_eq_true_iff.mp checked
  have least := Nat.le_of_ble_eq_true least
  have apart : ∀ other ∈ dottedCapital :: lowerRuns, ¬other.Holds (run.image n) :=
    fun other inside => CaseRun.not_holds_image (List.all_eq_true.mp avoided other inside)
      (by omega) holds
  obtain ⟨dotless, outside⟩ := List.forall_mem_cons.mp apart
  refine ⟨?_, ?_, CaseRun.image?_eq_none outside⟩
  · have := holds.1
    simp only [CaseRun.image] at least ⊢
    omega
  · intro dotted
    exact dotless (by rw [dotted]; exact ⟨Nat.le_refl _, Nat.le_refl _, rfl⟩)

/-- Whether lowering leaves a character alone, wherever it stands. -/
def IsLower (c : Char) : Prop := ∀ before after, lowerChar before c after = [c]

/-- The plain capitals become plain small letters, and the other plain characters stay. -/
theorem toLower_plain : ∀ n < 128,
    (Char.ofNat n).toLower.toNat < 128 ∧ (Char.ofNat n).toLower.toLower = (Char.ofNat n).toLower ∧
      (91 ≤ n → (Char.ofNat n).toLower = Char.ofNat n) := by
  decide +kernel

/-- A plain character that stays is no capital. -/
theorem isLower_of_plain {c : Char} (plain : c.toNat < 128) (same : c.toLower = c) :
    IsLower c := by
  intro before after
  rw [lowerChar, if_pos plain, same]

/-- What a plain character becomes is no capital. -/
theorem isLower_toLower {c : Char} (plain : c.toNat < 128) : IsLower c.toLower := by
  obtain ⟨small, same, -⟩ := toLower_plain c.toNat plain
  rw [Char.ofNat_toNat] at small same
  exact isLower_of_plain small same

/-- A character without an image is no capital, if it is neither plain nor the capital with a dot.
-/
theorem isLower_of_unmapped {c : Char} (foreign : ¬c.toNat < 128) (dotless : c.toNat ≠ 304)
    (unmapped : CaseRun.image? lowerRuns c.toNat = none) : IsLower c := by
  have notSigma : c ≠ 'Σ' := by
    rintro rfl
    exact absurd unmapped (by decide +kernel)
  have notDotted : c ≠ 'İ' := by
    rintro rfl
    exact dotless rfl
  intro before after
  rw [lowerChar, if_neg foreign, if_neg notSigma, if_neg notDotted, unmapped]

/-- A code point without an image is no capital, if it lies behind the plain capitals and is not the
capital with a dot. -/
theorem isLower_ofNat {m : Nat} (beyond : 91 ≤ m) (dotless : m ≠ 304)
    (unmapped : CaseRun.image? lowerRuns m = none) : IsLower (Char.ofNat m) := by
  by_cases valid : m.isValidChar
  · have number : (Char.ofNat m).toNat = m := by
      rw [Char.ofNat, dif_pos valid]
      rfl
    by_cases plain : m < 128
    · exact isLower_of_plain (by omega) ((toLower_plain m plain).2.2 beyond)
    · apply isLower_of_unmapped (by omega) (by omega)
      rw [number, unmapped]
  · -- A number that is no code point stands for the character zero.
    have zero : Char.ofNat m = Char.ofNat 0 := by
      rw [Char.ofNat, dif_neg valid]
      rfl
    rw [zero]
    exact isLower_of_plain (by decide) (by decide)

/-- What a character becomes holds no capital. -/
theorem lowerChar_isLower {before after : List Char} {c d : Char}
    (member : d ∈ lowerChar before c after) : IsLower d := by
  unfold lowerChar at member
  split at member
  next plain =>
    rw [List.mem_singleton.mp member]
    exact isLower_toLower plain
  next foreign =>
    split at member
    next =>
      rw [List.mem_singleton.mp member]
      split
      · exact isLower_of_unmapped (by decide) (by decide) (by decide +kernel)
      · exact isLower_of_unmapped (by decide) (by decide) (by decide +kernel)
    next =>
      split at member
      next =>
        rcases List.mem_pair.mp member with rfl | rfl
        · exact isLower_of_plain (by decide) (by decide)
        · exact isLower_of_unmapped (by decide) (by decide) (by decide +kernel)
      next notDotted =>
        split at member
        next m mapped =>
          rw [List.mem_singleton.mp member]
          obtain ⟨beyond, dotless, unmapped⟩ := image?_lowerRuns mapped
          exact isLower_ofNat beyond dotless unmapped
        next unmapped =>
          rw [List.mem_singleton.mp member]
          refine isLower_of_unmapped foreign ?_ unmapped
          intro dotted
          apply notDotted
          rw [← Char.ofNat_toNat c, dotted]

/-- No character vanishes. -/
theorem lowerChar_ne_nil (before : List Char) (c : Char) (after : List Char) :
    lowerChar before c after ≠ [] := by
  unfold lowerChar
  repeat' split
  all_goals exact List.cons_ne_nil _ _

/-- What characters become holds no capital. -/
theorem lowerFrom_isLower {before cs : List Char} : ∀ d ∈ lowerFrom before cs, IsLower d := by
  induction cs generalizing before with
  | nil => simp [lowerFrom]
  | cons c after ih =>
    intro d member
    rcases List.mem_append.mp member with here | later
    · exact lowerChar_isLower here
    · exact ih d later

/-- Characters stay if none of them is a capital. -/
theorem lowerFrom_eq_self {before cs : List Char} (low : ∀ c ∈ cs, IsLower c) :
    lowerFrom before cs = cs := by
  induction cs generalizing before with
  | nil => rfl
  | cons c after ih =>
    obtain ⟨head, rest⟩ := List.forall_mem_cons.mp low
    rw [lowerFrom, head before after, ih rest, List.singleton_append]

/-- What has been lowered has nothing more to lower. -/
theorem lower_lower (s : String) : lower (lower s) = lower s := by
  simp only [lower, String.toList_ofList]
  rw [lowerFrom_eq_self lowerFrom_isLower]

/-- A text is lowered to nothing only if it is empty. -/
theorem lower_eq_empty_iff {s : String} : lower s = "" ↔ s = "" := by
  rw [lower, String.ofList_eq_empty_iff, ← String.toList_eq_nil_iff]
  cases s.toList with
  | nil => simp [lowerFrom]
  | cons c after => simp [lowerFrom, lowerChar_ne_nil]

end TuneGraph.Text
