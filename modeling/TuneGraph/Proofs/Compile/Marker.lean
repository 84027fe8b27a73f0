import TuneGraph.Compile.Marker

/-! # The queue of repeat markers

Bars are read in order, opening bars append a marker and closing bars resolve the earliest open
one. The markers of a staff are therefore ordered by their first lines, the resolved ones stand
in front and are ordered by their last lines, and a range lacks at most one line to be none
(`RepeatMarker.Queue`). A range that is not dropped is beside every earlier one, or shares its
first or its last line (`RepeatMarker.Beside`).
-/

namespace TuneGraph

namespace RepeatMarker

/-- The markers after some voices, the first of which is on a given line. -/
def afterVoices (line : Int) (markers : List RepeatMarker) : List Voice → List RepeatMarker
  | [] => markers
  | voice :: rest => afterVoices (line + 1) (afterVoice line markers voice) rest

/-- The markers of the voices of a staff. -/
def ofVoices (voices : List Voice) : List RepeatMarker := afterVoices 0 [] voices

/-- Whether both ends of a range are among the first lines of a staff. -/
def isWithin (lines : Nat) (marker : RepeatMarker) : Bool :=
  0 ≤ marker.startLine && marker.startLine < lines && 0 ≤ marker.endLine && marker.endLine < lines

/-- Whether a marker becomes a repeat of a staff that has some already. -/
def isAcceptable (lines : Nat) (accepted : List RepeatMarker) (marker : RepeatMarker) : Bool :=
  marker.isResolved && marker.isWithin lines && !accepted.any marker.partiallyOverlaps

/-- The markers that become repeats, in order, after those that did so before. -/
def acceptedAfter (lines : Nat) (accepted : List RepeatMarker) :
    List RepeatMarker → List RepeatMarker
  | [] => accepted
  | marker :: rest =>
    acceptedAfter lines
      (if marker.isAcceptable lines accepted then accepted ++ [marker] else accepted) rest

/-- The markers of a staff that become repeats: the resolved ones with both ends among its lines
that do not partially overlap an earlier one. -/
def accepted (lines : Nat) (markers : List RepeatMarker) : List RepeatMarker :=
  acceptedAfter lines [] markers

/-- Whether a marker starts no later than another one, and ends no later if that one ends. -/
def Precedes (earlier later : RepeatMarker) : Prop :=
  earlier.startLine ≤ later.startLine ∧
    (later.isResolved = true → earlier.isResolved = true ∧ earlier.endLine ≤ later.endLine)

/-- Markers in the order of a queue whose last bars opened at one line and closed at another. -/
structure Queue (opening closing : Int) (markers : List RepeatMarker) : Prop where
  ordered : markers.Pairwise Precedes
  starts : ∀ marker ∈ markers, 0 ≤ marker.startLine ∧ marker.startLine ≤ opening
  ends : ∀ marker ∈ markers, marker.isResolved = true →
    0 ≤ marker.endLine ∧ marker.endLine ≤ closing ∧ marker.startLine ≤ marker.endLine + 1

/-- Whether a range ends before a later one starts, or shares an end with it. -/
def Beside (earlier later : RepeatMarker) : Prop :=
  earlier.startLine ≤ later.startLine ∧ earlier.endLine ≤ later.endLine ∧
    (earlier.startLine = later.startLine ∨ earlier.endLine < later.startLine ∨
      earlier.endLine = later.endLine)

/-- The last voice is run through last. -/
theorem afterVoices_concat (line : Int) (markers : List RepeatMarker) (voices : List Voice)
    (voice : Voice) : afterVoices line markers (voices ++ [voice]) =
      afterVoice (line + voices.length) (afterVoices line markers voices) voice := by
  induction voices generalizing line markers with
  | nil => simp only [List.nil_append, afterVoices, List.length_nil, Int.natCast_zero, Int.add_zero]
  | cons first rest ih =>
      rw [List.cons_append, afterVoices, ih, afterVoices, List.length_cons]
      congr 1
      omega

namespace Queue

variable {opening closing line : Int} {markers : List RepeatMarker}

/-- Without markers there is a queue. -/
theorem empty (opening closing : Int) : Queue opening closing [] where
  ordered := List.Pairwise.nil
  starts := fun _ member => (List.not_mem_nil member).elim
  ends := fun _ member => (List.not_mem_nil member).elim

/-- A queue stays one when time goes on. -/
theorem mono (queue : Queue opening closing markers) {opening' closing' : Int}
    (later : opening ≤ opening') (after : closing ≤ closing') :
    Queue opening' closing' markers where
  ordered := queue.ordered
  starts := fun marker member =>
    ⟨(queue.starts marker member).1, Int.le_trans (queue.starts marker member).2 later⟩
  ends := fun marker member resolved =>
    have ended := queue.ends marker member resolved
    ⟨ended.1, Int.le_trans ended.2.1 after, ended.2.2⟩

/-- A marker that is opened comes last in the queue. -/
theorem openAt (queue : Queue opening closing markers) (later : opening ≤ line)
    (nonneg : 0 ≤ line) : Queue line closing (openAt line markers) := by
  unfold RepeatMarker.openAt
  have unresolved : ¬({ startLine := line } : RepeatMarker).isResolved = true := Bool.false_ne_true
  refine ⟨?_, ?_, ?_⟩
  · refine List.pairwise_append.mpr ⟨queue.ordered, List.pairwise_singleton .., ?_⟩
    intro marker member new isNew
    obtain rfl := List.mem_singleton.mp isNew
    exact ⟨Int.le_trans (queue.starts marker member).2 later,
      fun resolved => (unresolved resolved).elim⟩
  · intro marker member
    rcases List.mem_append.mp member with old | new
    · exact ⟨(queue.starts marker old).1, Int.le_trans (queue.starts marker old).2 later⟩
    · obtain rfl := List.mem_singleton.mp new
      exact ⟨nonneg, Int.le_refl line⟩
  · intro marker member resolved
    rcases List.mem_append.mp member with old | new
    · exact queue.ends marker old resolved
    · obtain rfl := List.mem_singleton.mp new
      exact (unresolved resolved).elim

/-- What a closing bar leaves was there before, or is an open marker that it resolved. -/
theorem mem_closeAt {marker : RepeatMarker} (member : marker ∈ closeAt line markers) :
    marker ∈ markers ∨ ∃ opened ∈ markers, ¬opened.isResolved = true ∧
      marker = { opened with endLine := line } := by
  induction markers with
  | nil => exact (List.not_mem_nil member).elim
  | cons first rest ih =>
      rw [closeAt] at member
      split at member
      · rcases List.mem_cons.mp member with rfl | inside
        · exact Or.inl List.mem_cons_self
        · rcases ih inside with old | ⟨opened, present, unresolved, rfl⟩
          · exact Or.inl (List.mem_cons_of_mem _ old)
          · exact Or.inr ⟨opened, List.mem_cons_of_mem _ present, unresolved, rfl⟩
      · rename_i unresolved
        rcases List.mem_cons.mp member with rfl | inside
        · exact Or.inr ⟨first, List.mem_cons_self, unresolved, rfl⟩
        · exact Or.inl (List.mem_cons_of_mem _ inside)

/-- A closing bar keeps the order: it resolves the first marker that is not resolved, and ends it
no earlier than any marker before. -/
theorem closeAt_ordered (ordered : markers.Pairwise Precedes)
    (ends : ∀ marker ∈ markers, marker.isResolved = true → marker.endLine ≤ line) :
    (closeAt line markers).Pairwise Precedes := by
  induction markers with
  | nil => exact List.Pairwise.nil
  | cons first rest ih =>
      obtain ⟨head, tail⟩ := List.pairwise_cons.mp ordered
      rw [closeAt]
      split
      · rename_i resolved
        refine List.pairwise_cons.mpr
          ⟨?_, ih tail fun marker member => ends marker (List.mem_cons_of_mem _ member)⟩
        intro marker member
        rcases mem_closeAt member with old | ⟨opened, present, -, rfl⟩
        · exact head marker old
        · have ended := ends first List.mem_cons_self resolved
          exact ⟨(head opened present).1, fun _ => ⟨resolved, ended⟩⟩
      · rename_i unresolved
        refine List.pairwise_cons.mpr ⟨?_, tail⟩
        intro marker member
        refine ⟨(head marker member).1, fun resolved => ?_⟩
        exact (unresolved ((head marker member).2 resolved).1).elim

/-- A closing bar resolves a marker that started on its line or the next at the latest. -/
theorem closeAt (queue : Queue opening closing markers) (after : closing ≤ line)
    (nonneg : 0 ≤ line) (near : opening ≤ line + 1) :
    Queue opening line (closeAt line markers) where
  ordered := closeAt_ordered queue.ordered fun marker member resolved =>
    Int.le_trans (queue.ends marker member resolved).2.1 after
  starts := by
    intro marker member
    rcases mem_closeAt member with old | ⟨opened, present, -, rfl⟩
    · exact queue.starts marker old
    · exact queue.starts opened present
  ends := by
    intro marker member resolved
    rcases mem_closeAt member with old | ⟨opened, present, -, rfl⟩
    · have ended := queue.ends marker old resolved
      exact ⟨ended.1, Int.le_trans ended.2.1 after, ended.2.2⟩
    · exact ⟨nonneg, Int.le_refl line, Int.le_trans (queue.starts opened present).2 near⟩

/-- Where a bar opens: on its line if notes follow, and on the next line otherwise. -/
def anchor (line : Int) (notesFollow : Bool) : Int := if notesFollow then line else line + 1

/-- A repeat is anchored on the line of its bar or on the next one. -/
theorem anchor_bounds (line : Int) (notesFollow : Bool) :
    line ≤ anchor line notesFollow ∧ anchor line notesFollow ≤ line + 1 := by
  unfold anchor
  split <;> omega

/-- A bar keeps the queue. -/
theorem atBar {notesFollow : Bool} (queue : Queue (anchor line notesFollow) line markers)
    (nonneg : 0 ≤ line) (type : BarType) :
    Queue (anchor line notesFollow) line (atBar type line notesFollow markers) := by
  have bounds := anchor_bounds line notesFollow
  have closed : Queue (anchor line notesFollow) line
      (if type.closes then RepeatMarker.closeAt line markers else markers) := by
    split
    · exact queue.closeAt (Int.le_refl line) nonneg bounds.2
    · exact queue
  unfold RepeatMarker.atBar
  dsimp only
  split
  · exact closed.openAt (Int.le_refl _) (Int.le_trans nonneg bounds.1)
  · exact closed

/-- The bars of a voice keep the queue, since the bars that no note follows come last. -/
theorem afterVoice {voice : Voice} (nonneg : 0 ≤ line)
    (queue : Queue (anchor line (voice.any Event.isNote)) line markers) :
    Queue (line + 1) line (afterVoice line markers voice) := by
  induction voice generalizing markers with
  | nil => exact queue
  | cons event rest ih =>
      cases event with
      | note note =>
          have here : Queue line line markers := queue
          exact ih (here.mono (anchor_bounds line _).1 (Int.le_refl line))
      | bar type =>
          have same : Queue (anchor line (rest.any Event.isNote)) line markers := queue
          exact ih (same.atBar nonneg type)

/-- Voices keep the queue, with each voice on the next line. -/
theorem afterVoices {voices : List Voice} (nonneg : 0 ≤ line)
    (queue : Queue line (line - 1) markers) :
    Queue (line + voices.length) (line + voices.length - 1) (afterVoices line markers voices) := by
  induction voices generalizing line markers with
  | nil =>
      rw [RepeatMarker.afterVoices, List.length_nil]
      exact queue.mono (by omega) (by omega)
  | cons voice rest ih =>
      have begun := queue.mono (anchor_bounds line (voice.any Event.isNote)).1
        (Int.sub_le_self line (by decide))
      have ended := begun.afterVoice nonneg
      have next := ih (by omega) (ended.mono (Int.le_refl (line + 1)) (by omega))
      rw [RepeatMarker.afterVoices, List.length_cons]
      exact next.mono (by omega) (by omega)

/-- The markers of a staff are a queue. -/
theorem ofVoices (voices : List Voice) :
    Queue voices.length (voices.length - 1) (ofVoices voices) := by
  have whole : Queue (0 + voices.length) (0 + voices.length - 1) (RepeatMarker.ofVoices voices) :=
    afterVoices (Int.le_refl 0) (empty 0 (0 - 1))
  rwa [Int.zero_add] at whole

end Queue

/-- A marker is within a staff if both of its ends are. -/
theorem isWithin_iff {lines : Nat} {marker : RepeatMarker} : marker.isWithin lines = true ↔
    0 ≤ marker.startLine ∧ marker.startLine < lines ∧ 0 ≤ marker.endLine ∧
      marker.endLine < lines := by
  simp only [isWithin, Bool.and_eq_true, decide_eq_true_eq, and_assoc]

/-- Resolved markers of a queue that do not overlap partially are beside each other. -/
theorem Precedes.beside {earlier later : RepeatMarker} (order : Precedes earlier later)
    (resolved : later.isResolved = true) (apart : later.partiallyOverlaps earlier = false) :
    Beside earlier later := by
  have ended := (order.2 resolved).2
  refine ⟨order.1, ended, ?_⟩
  have starts := order.1
  simp only [partiallyOverlaps, runsOver, Bool.or_eq_false_iff, Bool.and_eq_false_iff,
    decide_eq_false_iff_not] at apart
  omega

end RepeatMarker

end TuneGraph
