import TuneGraph.Score.Review
import TuneGraph.Proofs.Compile.Assemble
import TuneGraph.Proofs.Text.Digits

/-! # What the review says about dropped repeats

The review numbers the lines of a part and reads its bars as the compiler does
(`Review.snd_voices`), and it accepts the same markers. Only a range that lies behind the last line
escapes it: the compiler drops it because it has no line to begin on, and the review accepts it
because a range without lines overlaps nothing (`RepeatMarker.partiallyOverlaps_of_empty`). All
other dropped markers are reported, in order (`Tune.review_reports_dropped`).
-/

namespace TuneGraph

/-- Whether an issue is about a repeat of a staff that is never closed or that overlaps another. -/
def Issue.isRepeatWarning (staff : Nat) (issue : Issue) : Bool :=
  (issue.code == "UNCLOSED_REPEAT" || issue.code == "OVERLAPPING_REPEAT") &&
    issue.location == some (VoicePlace.staffText staff)

/-- The warnings about repeats of a staff. -/
def Report.repeatWarnings (report : Report) (staff : Nat) : List Issue :=
  report.warnings.filter (·.isRepeatWarning staff)

namespace RepeatMarker

/-- What there is to say about a marker for which no repeat is made. -/
def remark (staff : Nat) (marker : RepeatMarker) : Remark :=
  if marker.isResolved then .overlappingRepeat staff marker
  else .unclosedRepeat staff marker.startLine

/-- Whether a marker is open or begins on one of the lines. -/
def isSeen (lines : Nat) (marker : RepeatMarker) : Bool :=
  !marker.isResolved || marker.startLine < lines

/-- A range that ends before it begins overlaps nothing. -/
theorem partiallyOverlaps_of_empty {a b : RepeatMarker}
    (empty : a.startLine = a.endLine + 1 ∨ b.startLine = b.endLine + 1) :
    a.partiallyOverlaps b = false := by
  simp only [partiallyOverlaps, runsOver, Bool.or_eq_false_iff, Bool.and_eq_false_iff,
    decide_eq_false_iff_not]
  omega

end RepeatMarker

/-- Staves with different indices are at different places. -/
theorem VoicePlace.staffText_inj {a b : Nat} : staffText a = staffText b ↔ a = b := by
  refine ⟨fun same => ?_, congrArg staffText⟩
  refine Text.toDigits_inj.mp ?_
  simpa [staffText] using congrArg String.toList same

/-- Whether a remark is about a repeat of a staff that is dropped. -/
def Remark.isOnRepeat (staff : Nat) : Remark → Bool
  | unclosedRepeat place _ => place == staff
  | overlappingRepeat place _ => place == staff
  | _ => false

theorem Remark.isRepeatWarning_issue (staff : Nat) (remark : Remark) :
    (remark.issue.isRepeatWarning staff && remark.issue.severity == .warning) =
      remark.isOnRepeat staff := by
  cases remark <;>
    simp [issue, Issue.isRepeatWarning, isOnRepeat, VoicePlace.staffText_inj]

/-- Whether a remark is about the notes of a voice. -/
def Remark.isOnNotes : Remark → Bool
  | emptyVoice _ | emptyPitches _ _ | chordTruncated _ _ _ | unclosedTriplet _ => true
  | _ => false

/-- The warnings of a kind are the remarks of that kind. -/
theorem Tune.filter_warnings_review (tune : Tune) {keep : Issue → Bool} {kind : Remark → Bool}
    (same : ∀ remark : Remark, (keep remark.issue && remark.issue.severity == .warning) =
      kind remark) :
    tune.review.warnings.filter keep = (tune.remarks.filter kind).map Remark.issue := by
  rw [Report.warnings, Report.ofSeverity, Tune.review, List.filter_filter, List.filter_map]
  congr 2
  funext remark
  exact same remark

namespace Review

theorem snd_voices (line : Int) (markers : List RepeatMarker)
    (placed : List (VoicePlace × Voice)) :
    (voices line markers placed).2 =
      RepeatMarker.afterVoices line markers (placed.map Prod.snd) := by
  induction placed generalizing line markers with
  | nil => rfl
  | cons first rest ih => exact ih _ _

theorem map_snd_placedVoices (staff : Nat) (lines : List Staff) :
    (placedVoices staff lines).map Prod.snd = voicesOf lines := by
  have unplaced : ∀ place : Staff × Nat,
      (place.1.voices.zipIdx.map fun voice =>
        ((⟨staff, place.2, voice.2⟩ : VoicePlace), voice.1)).map Prod.snd = place.1.voices := by
    intro place
    rw [List.map_map]
    exact List.zipIdx_map_fst 0 place.1.voices
  have lined : lines.zipIdx.map Prod.fst = lines := List.zipIdx_map_fst 0 lines
  rw [voicesOf, placedVoices, List.map_flatMap]
  refine (congrArg (lines.zipIdx.flatMap ·) (funext unplaced)).trans ?_
  rw [← lined, List.flatMap_map, lined]

theorem part_eq (staff : Nat) (lines : List Staff) : part staff lines =
    (if (lines.head?.bind Staff.meter).isNone then [.missingMeter staff] else []) ++
      (voices 0 [] (placedVoices staff lines)).1 ++
        markers staff [] (voices 0 [] (placedVoices staff lines)).2 := rfl

section Remarks

variable {place : VoicePlace}

theorem isOnNotes_notesFrom (notes : List Note) (index : Nat) :
    ∀ remark ∈ notesFrom place index notes, remark.isOnNotes = true := by
  induction notes generalizing index with
  | nil => exact nofun
  | cons first rest ih =>
      refine List.forall_mem_append.mpr ⟨?_, ih (index + 1)⟩
      unfold note
      split <;> simp [Remark.isOnNotes]

/-- What the review says about the notes of a voice is about nothing else. -/
theorem isOnNotes_voice (events : Voice) :
    ∀ remark ∈ voice place events, remark.isOnNotes = true := by
  refine List.forall_mem_append.mpr ⟨List.forall_mem_append.mpr
    ⟨?_, isOnNotes_notesFrom _ 0⟩, ?_⟩ <;>
    split <;> simp [Remark.isOnNotes]

/-- What the review says about the bars of a voice is that they close nothing. -/
theorem eq_of_mem_bars (line : Int) (markers : List RepeatMarker) (events : Voice) :
    ∀ remark ∈ bars place line markers events, remark = .unmatchedClose place := by
  induction events generalizing markers with
  | nil => exact nofun
  | cons event rest ih =>
      cases event with
      | note note => exact ih markers
      | bar type =>
          refine List.forall_mem_append.mpr ⟨?_, ih _⟩
          split <;> simp

/-- What the review says about voices is not about dropped repeats. -/
theorem not_isOnRepeat_voices (staff : Nat) (line : Int) (markers : List RepeatMarker)
    (placed : List (VoicePlace × Voice)) :
    ∀ remark ∈ (voices line markers placed).1, remark.isOnRepeat staff = false := by
  induction placed generalizing line markers with
  | nil => exact nofun
  | cons first rest ih =>
      refine List.forall_mem_append.mpr ⟨List.forall_mem_append.mpr ⟨?_, ?_⟩, ih _ _⟩
      · intro remark member
        have onNotes := isOnNotes_voice _ remark member
        cases remark <;> first | rfl | cases onNotes
      · intro remark member
        rw [eq_of_mem_bars _ _ _ remark member]
        rfl

end Remarks

/-- The review reports the refused markers, except for ranges behind the last line. -/
theorem markers_eq {lines staff : Nat} {markers seen accepted : List RepeatMarker}
    (ends : ∀ marker ∈ markers, marker.isResolved = true → 0 ≤ marker.startLine ∧
      0 ≤ marker.endLine ∧ marker.endLine < lines ∧ marker.startLine ≤ marker.endLine + 1)
    (same : ∀ marker : RepeatMarker,
      seen.any marker.partiallyOverlaps = accepted.any marker.partiallyOverlaps) :
    Review.markers staff seen markers =
      ((RepeatMarker.refusedAfter lines accepted markers).filter (·.isSeen lines)).map
        (·.remark staff) := by
  induction markers generalizing seen accepted with
  | nil => rfl
  | cons marker rest ih =>
      obtain ⟨here, later⟩ := List.forall_mem_cons.mp ends
      rw [Review.markers, RepeatMarker.refusedAfter, RepeatMarker.isAcceptable]
      by_cases resolved : marker.isResolved = true
      · obtain ⟨first, last, inside, meets⟩ := here resolved
        by_cases begins : marker.startLine < lines
        · have within : marker.isWithin lines = true :=
            RepeatMarker.isWithin_iff.mpr ⟨first, begins, last, inside⟩
          have seen' : marker.isSeen lines = true := by simp [RepeatMarker.isSeen, begins]
          by_cases overlaps : accepted.any marker.partiallyOverlaps = true
          · simp [resolved, within, overlaps, same, seen', RepeatMarker.remark, ih later same]
          · have both : ∀ other : RepeatMarker, (seen ++ [marker]).any other.partiallyOverlaps =
                (accepted ++ [marker]).any other.partiallyOverlaps := by
              simp [List.any_append, same]
            simp [resolved, within, overlaps, same, ih later both]
        · -- The range has no lines, so it makes no difference to what is accepted later.
          have empty : marker.startLine = marker.endLine + 1 := by omega
          have within : marker.isWithin lines = false := by
            rw [Bool.eq_false_iff, Ne, RepeatMarker.isWithin_iff]
            exact fun both => begins both.2.1
          have alone : seen.any marker.partiallyOverlaps = false := by
            rw [List.any_eq_false]
            intro other _
            rw [RepeatMarker.partiallyOverlaps_of_empty (Or.inl empty)]
            exact Bool.false_ne_true
          have still : ∀ other : RepeatMarker, (seen ++ [marker]).any other.partiallyOverlaps =
              accepted.any other.partiallyOverlaps := by
            intro other
            rw [List.any_append, List.any_cons, List.any_nil,
              RepeatMarker.partiallyOverlaps_of_empty (Or.inr empty), same, Bool.or_false,
              Bool.or_false]
          simp [resolved, within, alone, begins, RepeatMarker.isSeen, ih later still]
      · have unresolved : marker.isResolved = false := by simpa using resolved
        simp [unresolved, RepeatMarker.isSeen, RepeatMarker.remark, ih later same]

theorem isOnRepeat_remark (staff index : Nat) (marker : RepeatMarker) :
    (marker.remark index).isOnRepeat staff = (index == staff) := by
  unfold RepeatMarker.remark
  split <;> rfl

/-- What is said about the dropped repeats of a part. -/
theorem filter_part (staff index : Nat) (lines : List Staff) :
    (part index lines).filter (·.isOnRepeat staff) = if index = staff then
      ((refusedOf lines).filter (·.isSeen (voicesOf lines).length)).map (·.remark index)
      else [] := by
  have final : (voices 0 [] (placedVoices index lines)).2 =
      RepeatMarker.ofVoices (voicesOf lines) := by
    rw [snd_voices, map_snd_placedVoices]
    rfl
  have ends : ∀ marker ∈ RepeatMarker.ofVoices (voicesOf lines), marker.isResolved = true →
      0 ≤ marker.startLine ∧ 0 ≤ marker.endLine ∧ marker.endLine < (voicesOf lines).length ∧
        marker.startLine ≤ marker.endLine + 1 := by
    intro marker member resolved
    have queue := RepeatMarker.Queue.ofVoices (voicesOf lines)
    have starts := queue.starts marker member
    have ended := queue.ends marker member resolved
    omega
  have meter : ∀ remark ∈ if (lines.head?.bind Staff.meter).isNone then
      [Remark.missingMeter index] else [], ¬remark.isOnRepeat staff = true := by
    split <;> simp [Remark.isOnRepeat]
  have quiet : ∀ remark ∈ (voices 0 [] (placedVoices index lines)).1,
      ¬remark.isOnRepeat staff = true := fun remark member =>
    Bool.eq_false_iff.mp (not_isOnRepeat_voices staff 0 [] _ remark member)
  rw [part_eq, final, markers_eq ends fun _ => rfl, List.filter_append, List.filter_append,
    List.filter_eq_nil_iff.mpr meter, List.filter_eq_nil_iff.mpr quiet, List.filter_map]
  simp only [Function.comp_def, isOnRepeat_remark, List.nil_append, refusedOf]
  by_cases here : index = staff
  · simp [here, RepeatMarker.refused]
  · simp [here]

end Review

/-- Of lists that are joined, only the one at a place may hold anything of a kind. -/
theorem filter_flatMap_zipIdx {α β : Type} {keep : β → Bool} {emit : α × Nat → List β}
    {place : Nat} (elsewhere : ∀ item index, index ≠ place →
      (emit (item, index)).filter keep = []) (items : List α) (start : Nat) :
    ((items.zipIdx start).flatMap emit).filter keep =
      if start ≤ place then
        (items[place - start]?.elim [] fun item => (emit (item, place)).filter keep)
      else [] := by
  induction items generalizing start with
  | nil => simp
  | cons first rest ih =>
      rw [List.zipIdx_cons, List.flatMap_cons, List.filter_append, ih]
      by_cases here : start = place
      · subst here
        simp
      · rw [elsewhere first start here, List.nil_append]
        by_cases later : start + 1 ≤ place
        · have next : place - start = (place - (start + 1)) + 1 := by omega
          rw [if_pos later, if_pos (by omega), next, List.getElem?_cons_succ]
        · rw [if_neg later, if_neg (by omega)]

namespace Tune

variable {tune : Tune} {settings : Settings} {startId : Int} {compilation : Compilation}

theorem lines_ne_nil_of_part {index : Nat} {part : List Staff}
    (inside : tune.parts[index]? = some part) : tune.lines ≠ [] := by
  intro empty
  simp [parts, staffCount, empty] at inside

/-- If only one part can give rise to remarks of a kind, these are all of that kind. -/
theorem filter_remarks {kind : Remark → Bool} {index : Nat} {part : List Staff}
    (inside : tune.parts[index]? = some part) (quiet : kind .defaultTitle = false)
    (elsewhere : ∀ (lines : List Staff) (number : Nat), number ≠ index →
      (Review.part number lines).filter kind = []) :
    tune.remarks.filter kind = (Review.part index part).filter kind := by
  have title : ((if tune.title = "title" then [Remark.defaultTitle] else []).filter kind) = [] := by
    split <;> simp [quiet]
  rw [remarks, if_neg (by simpa using lines_ne_nil_of_part inside), List.filter_append, title,
    List.nil_append, filter_flatMap_zipIdx elsewhere, if_pos (Nat.zero_le index), Nat.sub_zero,
    inside, Option.elim_some]

/-- The warnings about repeats of a staff are about the refused markers of its part. -/
theorem repeatWarnings_eq {index : Nat} {part : List Staff}
    (inside : tune.parts[index]? = some part) :
    tune.review.repeatWarnings index =
      ((refusedOf part).filter (·.isSeen (voicesOf part).length)).map fun marker =>
        (marker.remark index).issue := by
  have elsewhere : ∀ (lines : List Staff) (number : Nat), number ≠ index →
      (Review.part number lines).filter (·.isOnRepeat index) = [] := fun lines number other => by
    rw [Review.filter_part, if_neg other]
  rw [Report.repeatWarnings, tune.filter_warnings_review (Remark.isRepeatWarning_issue index),
    filter_remarks inside rfl elsewhere, Review.filter_part, if_pos rfl, List.map_map]
  rfl

/-- The review reports the markers that the compiler drops from a staff, in order, except for
ranges behind its last line. -/
theorem review_reports_dropped (compiled : tune.compile settings startId = .ok compilation) :
    ∃ staves, tune.assemblies settings startId = .ok staves ∧
      staves.length = tune.parts.length ∧
      compilation.dropped = staves.flatMap StaffAssembly.dropped ∧
      ∀ index staff, staves[index]? = some staff →
        tune.review.repeatWarnings index =
          (staff.dropped.filter (·.isSeen staff.lineCount)).map fun marker =>
            (marker.remark index).issue := by
  obtain ⟨staves, assembled, dropped, -, each⟩ := exists_assemblies compiled
  have length : staves.length = tune.parts.length := by
    rw [← each.length_eq, List.length_zipIdx]
  refine ⟨staves, assembled, length, dropped, ?_⟩
  intro index staff found
  obtain ⟨inside, rfl⟩ := List.getElem?_eq_some_iff.mp found
  obtain ⟨first, rest, base, part, result⟩ :=
    (List.forall₂_iff_get.mp each).2 index (by rw [List.length_zipIdx]; omega) inside
  simp only [List.get_eq_getElem, List.getElem_zipIdx, Nat.zero_add] at part result
  have lines := (Compile.staff_assembled result).2.2.lines
  have place : tune.parts[index]? = some (first :: rest) :=
    List.getElem?_eq_some_iff.mpr ⟨_, part⟩
  rw [repeatWarnings_eq place, Compile.dropped_of_staff result, StaffAssembly.lineCount, lines]

/-- A tune with two repeats that overlap and one that is never closed. -/
def threeRepeats : Tune := ofVoices [[.bar .repeatOpen, .note {}],
  [.bar .repeatOpen, .note {}, .bar .repeatClose], [.note {}, .bar .repeatClose, .bar .repeatOpen]]

theorem review_reports_threeRepeats : ∃ compilation,
    threeRepeats.compile .standard 0 = .ok compilation ∧
    ∃ staves, threeRepeats.assemblies .standard 0 = .ok staves ∧ staves.length = 1 ∧
      compilation.dropped = staves.flatMap StaffAssembly.dropped ∧
      ∀ index staff, staves[index]? = some staff →
        threeRepeats.review.repeatWarnings index =
          (staff.dropped.filter (·.isSeen staff.lineCount)).map fun marker =>
            (marker.remark index).issue := by
  obtain ⟨compilation, compiled⟩ := (compile_returns threeRepeats standard_labelsFill
    (Int.le_refl 0)).1 (by decide)
  exact ⟨compilation, compiled, review_reports_dropped compiled⟩

/-- A repeat that is opened and closed behind the last note of a tune is dropped without a
warning. -/
theorem silent_repeat_behind_tune : ∃ compilation,
    (ofVoices [[.note {}, .bar .repeatOpen, .bar .repeatClose]]).compile .standard 0 =
      .ok compilation ∧ compilation.dropped = [⟨1, 0⟩] ∧
    (ofVoices [[.note {}, .bar .repeatOpen, .bar .repeatClose]]).review.repeatWarnings 0 = [] := by
  obtain ⟨compilation, compiled⟩ := (compile_returns
    (ofVoices [[.note {}, .bar .repeatOpen, .bar .repeatClose]]) standard_labelsFill
    (Int.le_refl 0)).1 (by decide)
  refine ⟨compilation, compiled, ?_, by decide +kernel⟩
  rw [dropped_eq compiled]
  decide

end Tune

end TuneGraph
