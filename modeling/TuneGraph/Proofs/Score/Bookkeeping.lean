import TuneGraph.Proofs.Score.Parts
import TuneGraph.Proofs.Score.Review

/-! # The bookkeeping of repeat markers

The events of a staff are read in order, each with the line that it is on and with whether it stands
before the last note of its voice. After any number of them the markers are a queue
(`RepeatMarker.Account`): one for every opening bar, the resolved ones in front, each of them ended
by the closing bar that found it open. The compiler keeps these markers, and the review warns of the
other closing bars (`RepeatMarker.bookkeeping`).
-/

namespace TuneGraph

namespace Voice

/-- The positions of the notes of a voice. -/
def notePositions (voice : Voice) : List Int :=
  voice.zipIdx.filterMap fun (event, position) =>
    if event.isNote then some (position : Int) else none

/-- The position of the last note of a voice, or `-1` if there is none. -/
def lastNote (voice : Voice) : Int := voice.notePositions.max?.getD (-1)

/-- The positions of the notes are the places at which a voice has one. -/
theorem mem_notePositions {voice : Voice} {place : Int} : place ∈ voice.notePositions ↔
    ∃ index : Nat, place = index ∧ ∃ event, voice[index]? = some event ∧ event.isNote = true := by
  rw [notePositions, List.mem_filterMap]
  constructor
  · rintro ⟨⟨event, index⟩, member, found⟩
    rw [Option.ite_none_right_eq_some, Option.some.injEq] at found
    exact ⟨index, found.2.symm, event, List.mk_mem_zipIdx_iff_getElem?.mp member, found.1⟩
  · rintro ⟨index, rfl, event, found, isNote⟩
    exact ⟨(event, index), List.mk_mem_zipIdx_iff_getElem?.mpr found, if_pos isNote⟩

/-- A note follows behind a position if one of the positions is later. -/
theorem any_drop_iff {voice : Voice} {position : Nat} :
    (voice.drop (position + 1)).any Event.isNote = true ↔
      ∃ place ∈ voice.notePositions, position < place := by
  rw [List.any_eq_true]
  constructor
  · rintro ⟨event, member, isNote⟩
    obtain ⟨distance, found⟩ := List.mem_iff_getElem?.mp member
    rw [List.getElem?_drop] at found
    exact ⟨_, mem_notePositions.mpr ⟨_, rfl, event, found, isNote⟩, by omega⟩
  · rintro ⟨place, member, before⟩
    obtain ⟨index, rfl, event, found, isNote⟩ := mem_notePositions.mp member
    refine ⟨event, List.mem_iff_getElem?.mpr ⟨index - (position + 1), ?_⟩, isNote⟩
    rwa [List.getElem?_drop, Nat.add_sub_cancel' (Int.ofNat_lt.mp before)]

/-- A position is before the last note if a note comes after it. -/
theorem lt_lastNote_iff {voice : Voice} {position : Nat} :
    position < voice.lastNote ↔ (voice.drop (position + 1)).any Event.isNote = true := by
  rw [any_drop_iff, lastNote]
  cases last : voice.notePositions.max? with
  | none =>
      rw [List.max?_eq_none_iff.mp last, Option.getD_none]
      exact ⟨fun before => by omega, fun ⟨_, member, _⟩ => (List.not_mem_nil member).elim⟩
  | some place =>
      obtain ⟨member, most⟩ := List.max?_eq_some_iff.mp last
      rw [Option.getD_some]
      exact ⟨fun before => ⟨place, member, before⟩,
        fun ⟨other, inside, before⟩ => Int.lt_of_lt_of_le before (most other inside)⟩

end Voice

/-- An event of a staff: on a line of the staff, before the last note of its voice or not. -/
structure StaffEvent where
  line : Int
  event : Event
  notesFollow : Bool

namespace StaffEvent

/-- The events of the voice on a line. -/
def ofVoice (line : Int) (voice : Voice) : List StaffEvent :=
  voice.zipIdx.map fun (event, position) => ⟨line, event, position < voice.lastNote⟩

/-- The events of the voices of a staff, whose lines are numbered from zero. -/
def ofVoices (voices : List Voice) : List StaffEvent :=
  voices.zipIdx.flatMap fun (voice, line) => ofVoice line voice

/-- Whether a repeat begins at an event. -/
def opens (event : StaffEvent) : Bool := event.event.opens

/-- Whether a repeat ends at an event. -/
def closes (event : StaffEvent) : Bool :=
  match event.event with
  | .note _ => false
  | .bar type => type.closes

/-- The line on which a repeat that begins at an event starts. -/
def anchor (event : StaffEvent) : Int := RepeatMarker.Queue.anchor event.line event.notesFollow

/-- Whether an event is on no later line than another one, and a repeat starts no later there. -/
structure Before (earlier later : StaffEvent) : Prop where
  line : earlier.line ≤ later.line
  anchor : earlier.anchor ≤ later.anchor

section Reading

variable {line : Int} {event : Event} {voice : Voice}

/-- The first event of a voice comes first, with the notes behind it. -/
theorem ofVoice_cons (line : Int) (event : Event) (rest : Voice) :
    ofVoice line (event :: rest) = ⟨line, event, rest.any Event.isNote⟩ :: ofVoice line rest := by
  have follow : ∀ (voice : Voice) (position : Nat),
      decide (position < voice.lastNote) = (voice.drop (position + 1)).any Event.isNote :=
    fun voice position => by rw [Bool.eq_iff_iff, decide_eq_true_iff, Voice.lt_lastNote_iff]
  simp only [ofVoice, follow, List.zipIdx_cons', List.map_cons, List.map_map]
  rfl

/-- The events of a voice are on its line. -/
theorem line_of_mem_ofVoice {item : StaffEvent} (member : item ∈ ofVoice line voice) :
    item.line = line := by
  obtain ⟨place, -, rfl⟩ := List.mem_map.mp member
  rfl

/-- Notes follow only in a voice that has some. -/
theorem any_isNote_of_mem {item : StaffEvent} (member : item ∈ ofVoice line voice)
    (follow : item.notesFollow = true) : voice.any Event.isNote = true := by
  obtain ⟨⟨event, position⟩, -, rfl⟩ := List.mem_map.mp member
  have later := Voice.lt_lastNote_iff.mp (of_decide_eq_true follow)
  obtain ⟨note, inside, isNote⟩ := List.any_eq_true.mp later
  exact List.any_eq_true.mpr ⟨note, List.mem_of_mem_drop inside, isNote⟩

/-- The events of a voice are its own. -/
theorem map_event_ofVoice (line : Int) (voice : Voice) :
    (ofVoice line voice).map StaffEvent.event = voice := by
  rw [ofVoice, List.map_map]
  exact List.zipIdx_map_fst 0 voice

/-- The events of a staff are those of its voices, in order. -/
theorem map_event_ofVoices (voices : List Voice) :
    (ofVoices voices).map StaffEvent.event = voices.flatten := by
  have lined : voices.zipIdx.map Prod.fst = voices := List.zipIdx_map_fst 0 voices
  simp only [ofVoices, List.map_flatMap, map_event_ofVoice]
  rw [List.flatMap_def, lined]

/-- No event is on a negative line. -/
theorem line_nonneg {voices : List Voice} {item : StaffEvent} (member : item ∈ ofVoices voices) :
    0 ≤ item.line := by
  obtain ⟨⟨voice, number⟩, -, inside⟩ := List.mem_flatMap.mp member
  rw [line_of_mem_ofVoice inside]
  exact Int.natCast_nonneg number

/-- In a voice the bars that no note follows come last. -/
theorem pairwise_ofVoice (line : Int) (voice : Voice) : (ofVoice line voice).Pairwise Before := by
  induction voice with
  | nil => exact .nil
  | cons event rest ih =>
      rw [ofVoice_cons]
      refine List.pairwise_cons.mpr ⟨fun later member => ?_, ih⟩
      have same := line_of_mem_ofVoice member
      refine ⟨Int.le_of_eq same.symm, ?_⟩
      unfold anchor
      rw [same]
      by_cases follow : later.notesFollow = true
      · rw [any_isNote_of_mem member follow, follow]
      · rw [Bool.eq_false_iff.mpr follow]
        exact (RepeatMarker.Queue.anchor_bounds line _).2

/-- The events of a staff come in the order of their lines, and so do the repeats they begin. -/
theorem pairwise_ofVoices (voices : List Voice) : (ofVoices voices).Pairwise Before := by
  refine List.pairwise_flatMap.mpr ⟨fun place _ => pairwise_ofVoice place.2 place.1, ?_⟩
  have numbered : (voices.zipIdx.map Prod.snd).Pairwise (· < ·) := by
    rw [List.zipIdx_map_snd]
    exact List.pairwise_lt_range'
  refine (List.pairwise_map.mp numbered).imp ?_
  intro first second less earlier inside later member
  have here := line_of_mem_ofVoice inside
  have there := line_of_mem_ofVoice member
  have upper := (RepeatMarker.Queue.anchor_bounds earlier.line earlier.notesFollow).2
  have lower := (RepeatMarker.Queue.anchor_bounds later.line later.notesFollow).1
  exact ⟨by omega, by unfold anchor; omega⟩

end Reading

end StaffEvent

namespace RepeatMarker

open StaffEvent

/-- Markers after an event. -/
def step (markers : List RepeatMarker) (event : StaffEvent) : List RepeatMarker :=
  match event.event with
  | .note _ => markers
  | .bar type => atBar type event.line event.notesFollow markers

/-- The markers after some events. -/
def replay (events : List StaffEvent) : List RepeatMarker := events.foldl step []

/-- The closing events that find an open marker, given the markers before. -/
def matchedFrom (markers : List RepeatMarker) : List StaffEvent → List StaffEvent
  | [] => []
  | event :: rest =>
    if event.closes && !markers.all isResolved then event :: matchedFrom (step markers event) rest
    else matchedFrom (step markers event) rest

/-- The closing events that find an open marker. -/
def matched (events : List StaffEvent) : List StaffEvent := matchedFrom [] events

section Replay

variable {line opening closing : Int} {markers : List RepeatMarker} {event : StaffEvent}
  {events : List StaffEvent}

/-- What the compiler does with a voice is done event by event. -/
theorem foldl_step_ofVoice (line : Int) (markers : List RepeatMarker) (voice : Voice) :
    (ofVoice line voice).foldl step markers = afterVoice line markers voice := by
  induction voice generalizing markers with
  | nil => rfl
  | cons event rest ih =>
      rw [ofVoice_cons, List.foldl_cons, ih]
      cases event <;> rfl

/-- To replay the events of a staff is to run through its voices. -/
theorem replay_ofVoices (voices : List Voice) :
    replay (StaffEvent.ofVoices voices) = ofVoices voices := by
  have run : ∀ (line : Nat) (markers : List RepeatMarker),
      ((voices.zipIdx line).flatMap fun (voice, line) => ofVoice line voice).foldl step markers =
        afterVoices line markers voices := by
    induction voices with
    | nil => exact fun _ _ => rfl
    | cons voice rest ih =>
        intro line markers
        rw [List.zipIdx_cons, List.flatMap_cons, List.foldl_append, foldl_step_ofVoice, ih]
        rfl
  exact run 0 []

/-- To close a marker does not change where markers start. -/
theorem map_startLine_closeAt (line : Int) (markers : List RepeatMarker) :
    (closeAt line markers).map startLine = markers.map startLine := by
  induction markers with
  | nil => rfl
  | cons marker rest ih =>
      rw [closeAt]
      split
      · exact congrArg (marker.startLine :: ·) ih
      · rfl

/-- An opening event leaves a marker that starts where the repeat does; no other marker moves. -/
theorem map_startLine_step (markers : List RepeatMarker) (event : StaffEvent) :
    (step markers event).map startLine =
      markers.map startLine ++ if event.opens then [event.anchor] else [] := by
  obtain ⟨line, event, notesFollow⟩ := event
  cases event with
  | note note => exact (List.append_nil _).symm
  | bar type =>
      cases type <;>
        simp [step, atBar, BarType.closes, BarType.opens, StaffEvent.opens, Event.opens, openAt,
          anchor, Queue.anchor, map_startLine_closeAt]

/-- A run over events adds one start for each opening bar, and keeps the others. -/
theorem map_startLine_foldl (markers : List RepeatMarker) (events : List StaffEvent) :
    (events.foldl step markers).map startLine =
      markers.map startLine ++ (events.filter StaffEvent.opens).map anchor := by
  induction events generalizing markers with
  | nil => exact (List.append_nil _).symm
  | cons event rest ih =>
      rw [List.foldl_cons, ih, map_startLine_step, List.filter_cons, List.append_assoc]
      split <;> rfl

/-- A marker that ends on a line is resolved. -/
theorem isResolved_of_ends {marker : RepeatMarker} (nonneg : 0 ≤ line)
    (ends : marker.endLine = line) : marker.isResolved = true := by
  rw [isResolved, bne_iff_ne, ends, unresolved]
  omega

/-- After an open marker there is no resolved one. -/
theorem filter_isResolved_eq_nil {marker : RepeatMarker}
    (ordered : ∀ other ∈ markers, Precedes marker other) (opened : ¬marker.isResolved = true) :
    markers.filter isResolved = [] :=
  List.filter_eq_nil_iff.mpr fun other member ended =>
    opened ((ordered other member).2 ended).1

/-- A closing bar ends the first open marker, which comes after all that have ended. -/
theorem map_endLine_closeAt (ordered : markers.Pairwise Precedes) (nonneg : 0 ≤ line) :
    ((closeAt line markers).filter isResolved).map endLine =
      (markers.filter isResolved).map endLine ++
        if !markers.all isResolved then [line] else [] := by
  induction markers with
  | nil => rfl
  | cons marker rest ih =>
      obtain ⟨head, tail⟩ := List.pairwise_cons.mp ordered
      rw [closeAt]
      by_cases resolved : marker.isResolved = true
      · rw [if_pos resolved, List.filter_cons_of_pos resolved, List.filter_cons_of_pos resolved,
          List.map_cons, List.map_cons, ih tail, List.all_cons, resolved, Bool.true_and]
        rfl
      · rw [if_neg resolved, List.filter_cons_of_pos (isResolved_of_ends nonneg rfl),
          List.filter_cons_of_neg resolved, filter_isResolved_eq_nil head resolved,
          List.all_cons, Bool.eq_false_iff.mpr resolved]
        rfl

/-- An event ends a marker exactly if it closes and there is an open one. -/
theorem map_endLine_step (ordered : markers.Pairwise Precedes) (nonneg : 0 ≤ event.line) :
    ((step markers event).filter isResolved).map endLine =
      (markers.filter isResolved).map endLine ++
        if event.closes && !markers.all isResolved then [event.line] else [] := by
  obtain ⟨line, event, notesFollow⟩ := event
  have opened : ∀ (start : Int) (markers : List RepeatMarker),
      (openAt start markers).filter isResolved = markers.filter isResolved := by
    intro start markers
    rw [openAt, List.filter_append]
    exact List.append_nil _
  cases event with
  | note note => exact (List.append_nil _).symm
  | bar type =>
      cases type <;>
        simp [step, atBar, BarType.closes, BarType.opens, closes, opened,
          map_endLine_closeAt ordered nonneg]

namespace Queue

/-- An event that comes later keeps the queue. -/
theorem step (queue : Queue opening closing markers) (nonneg : 0 ≤ event.line)
    (later : opening ≤ event.anchor ∧ closing ≤ event.line) :
    Queue event.anchor event.line (step markers event) := by
  have here := queue.mono later.1 later.2
  obtain ⟨line, event, notesFollow⟩ := event
  cases event with
  | note note => exact here
  | bar type => exact here.atBar nonneg type

/-- Events in order keep the queue, and the matched ones among them end its markers. -/
theorem foldl_step (queue : Queue opening closing markers)
    (nonneg : ∀ event ∈ events, 0 ≤ event.line)
    (later : ∀ event ∈ events, opening ≤ event.anchor ∧ closing ≤ event.line)
    (ordered : events.Pairwise Before) :
    (∃ last final, Queue last final (events.foldl RepeatMarker.step markers)) ∧
    ((events.foldl RepeatMarker.step markers).filter isResolved).map endLine =
      (markers.filter isResolved).map endLine ++
        (matchedFrom markers events).map StaffEvent.line := by
  induction events generalizing opening closing markers with
  | nil => exact ⟨⟨opening, closing, queue⟩, (List.append_nil _).symm⟩
  | cons event rest ih =>
      obtain ⟨here, others⟩ := List.forall_mem_cons.mp nonneg
      obtain ⟨first, ordered⟩ := List.pairwise_cons.mp ordered
      obtain ⟨kept, ended⟩ := ih (queue.step here (later event List.mem_cons_self)) others
        (fun next member => ⟨(first next member).anchor, (first next member).line⟩) ordered
      refine ⟨kept, ?_⟩
      rw [List.foldl_cons, ended, map_endLine_step queue.ordered here, matchedFrom,
        List.append_assoc]
      split <;> rfl

end Queue

/-- Of ordered markers the resolved ones come first. -/
theorem filter_isResolved_isPrefix (ordered : markers.Pairwise Precedes) :
    markers.filter isResolved <+: markers := by
  induction markers with
  | nil => exact List.prefix_refl []
  | cons marker rest ih =>
      obtain ⟨head, tail⟩ := List.pairwise_cons.mp ordered
      by_cases resolved : marker.isResolved = true
      · rw [List.filter_cons_of_pos resolved]
        exact (List.prefix_cons_inj marker).mpr (ih tail)
      · rw [List.filter_cons_of_neg resolved, filter_isResolved_eq_nil head resolved]
        exact List.nil_prefix

end Replay

/-- The markers that events leave behind: one for every opening event, in order, the resolved ones
in front, and these ended by the closing events that found an open marker, in order. -/
structure Account (events : List StaffEvent) (markers : List RepeatMarker) : Prop where
  starts : markers.map startLine = (events.filter StaffEvent.opens).map anchor
  starts_le : markers.Pairwise fun earlier later => earlier.startLine ≤ later.startLine
  front : markers.filter isResolved <+: markers
  ends : (markers.filter isResolved).map endLine = (matched events).map StaffEvent.line
  ends_le : (markers.filter isResolved).Pairwise fun earlier later =>
    earlier.endLine ≤ later.endLine
  near : ∀ marker ∈ markers, marker.isResolved = true → marker.startLine ≤ marker.endLine + 1

/-- A run over ordered events has the account of a queue. -/
theorem account_replay {events : List StaffEvent} (nonneg : ∀ event ∈ events, 0 ≤ event.line)
    (ordered : events.Pairwise Before) : Account events (replay events) := by
  have later : ∀ event ∈ events, (0 : Int) ≤ event.anchor ∧ (0 : Int) ≤ event.line :=
    fun event member => ⟨Int.le_trans (nonneg event member) (Queue.anchor_bounds ..).1,
      nonneg event member⟩
  obtain ⟨⟨opening, closing, queue⟩, ends⟩ :=
    (Queue.empty 0 0).foldl_step nonneg later ordered
  have resolved := (queue.ordered.sublist List.filter_sublist).imp_of_mem
    fun {earlier next} _ member precedes => (precedes.2 (List.mem_filter.mp member).2).2
  exact {
    starts := map_startLine_foldl [] events
    starts_le := queue.ordered.imp fun precedes => precedes.1
    front := filter_isResolved_isPrefix queue.ordered
    ends
    ends_le := resolved
    near := fun marker member isEnded => (queue.ends marker member isEnded).2.2 }

/-- The number of open markers. -/
def openCount (markers : List RepeatMarker) : Nat := markers.countP fun marker => !marker.isResolved

/-- The number of closing bars that find no open repeat, given how many are open before. -/
def strayCloses (openRepeats : Nat) : List Event → Nat
  | [] => 0
  | .note _ :: rest => strayCloses openRepeats rest
  | .bar type :: rest =>
    (if type.closes && openRepeats == 0 then 1 else 0) +
      strayCloses (openRepeats - (if type.closes then 1 else 0) + if type.opens then 1 else 0) rest

section Counts

variable {line : Int} {events : List StaffEvent}

/-- All markers are resolved if none is open. -/
theorem all_isResolved_eq (markers : List RepeatMarker) :
    markers.all isResolved = (openCount markers == 0) := by
  rw [Bool.eq_iff_iff, List.all_eq_true, beq_iff_eq, openCount, List.countP_eq_zero]
  simp only [Bool.not_eq_true', Bool.not_eq_false]

/-- A closing bar closes one marker if one is open. -/
theorem openCount_closeAt (nonneg : 0 ≤ line) (markers : List RepeatMarker) :
    openCount (closeAt line markers) = openCount markers - 1 := by
  induction markers with
  | nil => rfl
  | cons marker rest ih =>
      unfold openCount at ih ⊢
      rw [closeAt]
      by_cases resolved : marker.isResolved = true
      · rw [if_pos resolved, List.countP_cons, List.countP_cons, ih, resolved]
        rfl
      · rw [if_neg resolved, List.countP_cons, List.countP_cons, isResolved_of_ends nonneg rfl,
          Bool.eq_false_iff.mpr resolved]
        rfl

/-- A bar closes an open marker if it closes, and then opens one if it opens. -/
theorem openCount_atBar (nonneg : 0 ≤ line) (type : BarType) (notesFollow : Bool)
    (markers : List RepeatMarker) : openCount (atBar type line notesFollow markers) =
      openCount markers - (if type.closes then 1 else 0) + if type.opens then 1 else 0 := by
  have opened : ∀ (start : Int) (markers : List RepeatMarker),
      openCount (openAt start markers) = openCount markers + 1 := by
    intro start markers
    rw [openAt, openCount, List.countP_append]
    rfl
  cases type <;>
    simp [atBar, BarType.closes, BarType.opens, opened, openCount_closeAt nonneg]

/-- Every closing event ends a marker or is stray. -/
theorem countP_closes (nonneg : ∀ event ∈ events, 0 ≤ event.line) (markers : List RepeatMarker) :
    events.countP StaffEvent.closes = (matchedFrom markers events).length +
      strayCloses (openCount markers) (events.map StaffEvent.event) := by
  induction events generalizing markers with
  | nil => rfl
  | cons event rest ih =>
      obtain ⟨here, others⟩ := List.forall_mem_cons.mp nonneg
      have later := ih others (step markers event)
      obtain ⟨line, event, notesFollow⟩ := event
      cases event with
      | note note => exact later
      | bar type =>
          have next : openCount (step markers ⟨line, .bar type, notesFollow⟩) =
              openCount markers - (if type.closes then 1 else 0) + if type.opens then 1 else 0 :=
            openCount_atBar here type notesFollow markers
          rw [next] at later
          have kind : closes ⟨line, .bar type, notesFollow⟩ = type.closes := rfl
          rw [List.countP_cons, later, List.map_cons, strayCloses, matchedFrom, all_isResolved_eq,
            kind, apply_ite List.length, List.length_cons]
          generalize strayCloses _ (rest.map StaffEvent.event) = stray
          generalize (matchedFrom _ rest).length = found
          cases type.closes <;> cases openCount markers == 0 <;>
            simp only [Bool.not_true, Bool.not_false, Bool.and_true, Bool.and_false, Bool.and_self,
              Bool.false_eq_true, ↓reduceIte] <;> omega

/-- Whether closing bars are stray depends on the bars before them only. -/
theorem strayCloses_append {line : Int} (nonneg : 0 ≤ line) (markers : List RepeatMarker)
    (voice : Voice) (rest : List Event) : strayCloses (openCount markers) (voice ++ rest) =
      strayCloses (openCount markers) voice +
        strayCloses (openCount (afterVoice line markers voice)) rest := by
  induction voice generalizing markers with
  | nil => exact (Nat.zero_add _).symm
  | cons event voice ih =>
      cases event with
      | note note => exact ih markers
      | bar type =>
          have next := ih (atBar type line (voice.any Event.isNote) markers)
          rw [openCount_atBar nonneg] at next
          rw [List.cons_append, strayCloses, strayCloses, next, afterVoice, Nat.add_assoc]

end Counts

end RepeatMarker

/-- Whether a remark is about a closing bar of a staff that has nothing to close. -/
def Remark.isUnmatchedClose (staff : Nat) : Remark → Bool
  | unmatchedClose place => place.staff == staff
  | _ => false

/-- Whether an issue is about a closing bar of a staff that has nothing to close. -/
def Issue.isUnmatchedClose (staff : Nat) (issue : Issue) : Bool :=
  issue.code == "UNMATCHED_REPEAT_CLOSE" && issue.location.any fun place =>
    (VoicePlace.staffText staff ++ "/").toList.isPrefixOf place.toList

/-- The warnings about closing bars of a staff that have nothing to close. -/
def Report.unmatchedCloses (report : Report) (staff : Nat) : List Issue :=
  report.warnings.filter (·.isUnmatchedClose staff)

/-- The location of a voice begins with its staff. -/
theorem VoicePlace.isPrefixOf_text (staff : Nat) (place : VoicePlace) :
    (staffText staff ++ "/").toList.isPrefixOf place.text.toList = (place.staff == staff) := by
  have front : (staffText staff ++ "/").toList =
      "staff/".toList ++ (Nat.toDigits 10 staff ++ ['/']) := by
    simp [staffText]
  obtain ⟨rest, whole⟩ : ∃ rest, place.text.toList =
      "staff/".toList ++ (Nat.toDigits 10 place.staff ++ '/' :: rest) :=
    ⟨_, by simp [text, staffText]; rfl⟩
  rw [Bool.eq_iff_iff, List.isPrefixOf_iff_prefix, beq_iff_eq, front, whole,
    List.prefix_append_right_inj]
  constructor
  · rintro ⟨tail, same⟩
    rw [List.append_assoc, List.singleton_append] at same
    exact (Text.toDigits_append_inj rfl same).1.symm
  · rintro rfl
    exact ⟨rest, List.append_assoc ..⟩

/-- An issue is of an unmatched close exactly if its remark is. -/
theorem Remark.isUnmatchedClose_issue (staff : Nat) (remark : Remark) :
    (remark.issue.isUnmatchedClose staff && remark.issue.severity == .warning) =
      remark.isUnmatchedClose staff := by
  cases remark with
  | unmatchedClose place =>
      simp only [issue, Issue.isUnmatchedClose, isUnmatchedClose, Option.any_some,
        VoicePlace.isPrefixOf_text, BEq.rfl, Bool.true_and, Bool.and_true]
  | _ => simp [issue, Issue.isUnmatchedClose, isUnmatchedClose]

namespace Review

open RepeatMarker

/-- The review warns of every stray closing bar of a voice. -/
theorem bars_eq (place : VoicePlace) {line : Int} (nonneg : 0 ≤ line) (markers : List RepeatMarker)
    (events : Voice) : bars place line markers events =
      List.replicate (strayCloses (openCount markers) events) (.unmatchedClose place) := by
  refine List.eq_replicate_iff.mpr ⟨?_, eq_of_mem_bars line markers events⟩
  induction events generalizing markers with
  | nil => rfl
  | cons event rest ih =>
      cases event with
      | note note => exact ih markers
      | bar type =>
          rw [bars, List.length_append, ih, strayCloses, all_isResolved_eq, openCount_atBar nonneg]
          split <;> rfl

/-- The warnings about closing bars in some voices of a staff. -/
theorem countP_voices {staff number : Nat} {line : Int} (nonneg : 0 ≤ line)
    (markers : List RepeatMarker) {placed : List (VoicePlace × Voice)}
    (here : ∀ place ∈ placed, place.1.staff = number) :
    (voices line markers placed).1.countP (·.isUnmatchedClose staff) =
      if number = staff then strayCloses (openCount markers) (placed.map Prod.snd).flatten
      else 0 := by
  induction placed generalizing line markers with
  | nil => exact (ite_self 0).symm
  | cons first rest ih =>
      obtain ⟨place, events⟩ := first
      obtain ⟨own, others⟩ := List.forall_mem_cons.mp here
      obtain rfl : place.staff = number := own
      have later := ih (Int.le_add_one nonneg) (afterVoice line markers events) others
      have silent : (voice place events).countP (·.isUnmatchedClose staff) = 0 := by
        refine List.countP_eq_zero.mpr fun remark member isClose => ?_
        have onNotes := isOnNotes_voice events remark member
        cases remark <;> first | cases isClose | cases onNotes
      rw [voices, List.countP_append, List.countP_append, later, silent, bars_eq place nonneg,
        List.countP_replicate, List.map_cons, List.flatten_cons, strayCloses_append nonneg]
      by_cases same : place.staff = staff <;> simp [Remark.isUnmatchedClose, same]

/-- No remark about the markers is of an unmatched close. -/
theorem not_isUnmatchedClose_markers (staff number : Nat) (accepted list : List RepeatMarker) :
    ∀ remark ∈ markers number accepted list, ¬remark.isUnmatchedClose staff = true := by
  induction list generalizing accepted with
  | nil => exact nofun
  | cons marker rest ih =>
      rw [markers]
      split
      · exact List.forall_mem_cons.mpr ⟨Bool.false_ne_true, ih accepted⟩
      · split
        · exact List.forall_mem_cons.mpr ⟨Bool.false_ne_true, ih accepted⟩
        · exact ih _

/-- The warnings about closing bars of a part. -/
theorem countP_part (staff number : Nat) (lines : List Staff) :
    (part number lines).countP (·.isUnmatchedClose staff) =
      if number = staff then strayCloses 0 (voicesOf lines).flatten else 0 := by
  have meter : (if (lines.head?.bind Staff.meter).isNone then [Remark.missingMeter number]
      else []).countP (·.isUnmatchedClose staff) = 0 := by
    split <;> rfl
  have placed : ∀ place ∈ placedVoices number lines, place.1.staff = number := by
    intro place member
    obtain ⟨line, -, inside⟩ := List.mem_flatMap.mp member
    obtain ⟨voice, -, rfl⟩ := List.mem_map.mp inside
    rfl
  rw [part_eq, List.countP_append, List.countP_append, meter,
    countP_voices (Int.le_refl 0) [] placed,
    List.countP_eq_zero.mpr (not_isUnmatchedClose_markers staff number [] _),
    map_snd_placedVoices, Nat.zero_add, Nat.add_zero]
  rfl

end Review

/-- The review warns of every stray closing bar of a staff. -/
theorem Tune.length_unmatchedCloses {tune : Tune} {index : Nat} {part : List Staff}
    (inside : tune.parts[index]? = some part) :
    (tune.review.unmatchedCloses index).length =
      RepeatMarker.strayCloses 0 (voicesOf part).flatten := by
  have elsewhere : ∀ (lines : List Staff) (number : Nat), number ≠ index →
      (Review.part number lines).filter (·.isUnmatchedClose index) = [] := by
    intro lines number other
    have none := Review.countP_part index number lines
    rw [if_neg other, List.countP_eq_length_filter, List.length_eq_zero_iff] at none
    exact none
  rw [Report.unmatchedCloses, tune.filter_warnings_review (Remark.isUnmatchedClose_issue index),
    List.length_map, filter_remarks inside rfl elsewhere, ← List.countP_eq_length_filter,
    Review.countP_part, if_pos rfl]

namespace RepeatMarker

variable {part : List Staff} {events : List StaffEvent}

/-- The markers that the compiler has after the lines of a part. -/
theorem markers_of_lines {settings : Settings} {title voiceName instrument : String}
    {key : KeySignature} {meter : Meter} {index : Nat} {base : Int} {begun staff : StaffAssembly}
    (began : StaffAssembly.begin base title voiceName meter key instrument = .ok begun)
    (added : part.foldlM (fun staff line => Compile.addVoices settings index meter line staff)
      begun = .ok staff) : staff.markers = replay (StaffEvent.ofVoices (voicesOf part)) := by
  have lined : staff.Lined base settings.repeatCount (voicesOf part) :=
    Compile.lined_of_begin began added
  rw [replay_ofVoices]
  exact lined.markers

/-- Whatever events of a part have been read, there is one marker for every opening bar among them,
in order and with first lines that do not go back. The resolved markers come first, end on the lines
of the closing bars that found an open marker, in order, and begin behind their end by one line at
most. The compiler has these markers after all events of the part. The closing bars are as many as
the resolved markers and the warnings of the review about bars that have nothing to close, for a
tune with a staff of these events. -/
theorem bookkeeping (read : events <+: StaffEvent.ofVoices (voicesOf part)) :
    Account events (replay events) ∧
    (∀ (settings : Settings) (title voiceName instrument : String) (key : KeySignature)
      (meter : Meter) (index : Nat) (base : Int) (begun staff : StaffAssembly),
      StaffAssembly.begin base title voiceName meter key instrument = .ok begun →
        part.foldlM (fun staff line => Compile.addVoices settings index meter line staff) begun =
          .ok staff →
        staff.markers = replay (StaffEvent.ofVoices (voicesOf part))) ∧
    ∀ (tune : Tune) (index : Nat) (other : List Staff), tune.parts[index]? = some other →
      (voicesOf other).flatten = events.map StaffEvent.event →
        events.countP StaffEvent.closes =
          (replay events).countP isResolved + (tune.review.unmatchedCloses index).length := by
  have nonneg : ∀ event ∈ events, 0 ≤ event.line := fun event member =>
    StaffEvent.line_nonneg (read.subset member)
  have account := account_replay nonneg ((StaffEvent.pairwise_ofVoices _).sublist read.sublist)
  refine ⟨account, fun _ _ _ _ _ _ _ _ _ _ => markers_of_lines, ?_⟩
  intro tune index other inside same
  have ends := congrArg List.length account.ends
  rw [List.length_map, List.length_map, ← List.countP_eq_length_filter] at ends
  rw [countP_closes nonneg [], Tune.length_unmatchedCloses inside, same, ends]
  rfl

/-- A part that closes a repeat before it opens one. -/
def strayPart : List Staff :=
  [{ voices := [[.bar .repeatClose, .bar .repeatOpen, .note {}], [.note {}, .bar .doubleRepeat],
    [.bar .repeatClose]] }]

/-- A tune that ends before the last bar of that part. -/
def strayTune : Tune :=
  .ofVoices [[.bar .repeatClose, .bar .repeatOpen, .note {}], [.note {}, .bar .doubleRepeat]]

theorem bookkeeping_strayPart :
    (StaffEvent.ofVoices (voicesOf strayPart)).take 5 <+:
      StaffEvent.ofVoices (voicesOf strayPart) ∧
    Account ((StaffEvent.ofVoices (voicesOf strayPart)).take 5)
      (replay ((StaffEvent.ofVoices (voicesOf strayPart)).take 5)) ∧
    (∃ begun staff, StaffAssembly.begin 0 "title" "Voice 1" .common {} "guitar" = .ok begun ∧
      strayPart.foldlM (fun staff line => Compile.addVoices .standard 0 .common line staff) begun =
        .ok staff ∧
      staff.markers = replay (StaffEvent.ofVoices (voicesOf strayPart))) ∧
    ((StaffEvent.ofVoices (voicesOf strayPart)).take 5).countP StaffEvent.closes =
      (replay ((StaffEvent.ofVoices (voicesOf strayPart)).take 5)).countP isResolved +
        (strayTune.review.unmatchedCloses 0).length ∧
    (StaffEvent.ofVoices (voicesOf strayPart)).countP StaffEvent.closes =
      (replay (StaffEvent.ofVoices (voicesOf strayPart))).countP isResolved +
        (({ name := "tune", lines := [{ staves := strayPart }] } : Tune).review.unmatchedCloses
          0).length := by
  have read := List.take_prefix 5 (StaffEvent.ofVoices (voicesOf strayPart))
  obtain ⟨account, compiled, closes⟩ := bookkeeping read
  obtain ⟨begun, began⟩ : ∃ begun,
      StaffAssembly.begin 0 "title" "Voice 1" .common {} "guitar" = .ok begun := ⟨_, rfl⟩
  obtain ⟨staff, added⟩ := Compile.exists_foldlM_addVoices Tune.standard_labelsFill 0 .common
    strayPart begun
  exact ⟨read, account, ⟨begun, staff, began, added, compiled _ _ _ _ _ _ _ _ _ _ began added⟩,
    closes strayTune 0 _ rfl rfl, (bookkeeping List.prefix_rfl).2.2 _ 0 strayPart rfl
      (StaffEvent.map_event_ofVoices _).symm⟩

end RepeatMarker

end TuneGraph
