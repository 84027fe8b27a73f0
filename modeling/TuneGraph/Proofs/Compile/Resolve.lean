import TuneGraph.Proofs.Compile.Splice

/-! # Resolving the markers of a staff

The markers of a staff are resolved one after another. Those that are accepted become repeats in
that order (`StaffAssembly.Lined.resolveRepeats`), save that a marker which ends on the line
before it begins, with its first line in the staff, has no node that it could be spliced behind
(`StaffAssembly.Lined.resolveRepeats_backward`).
-/

namespace TuneGraph

open TuneGraph.Graph

/-- Whether a range is closed on the line before its first one, which is a line of the staff. -/
def RepeatMarker.isBackward (lines : Nat) (marker : RepeatMarker) : Bool :=
  marker.isResolved && marker.startLine == marker.endLine + 1 && marker.startLine < lines

namespace StaffAssembly

variable {base times : Int} {voices : List Voice} {staff : StaffAssembly} {marker : RepeatMarker}

namespace Lined

/-- Entering the first line links the instrument-setter with its call. -/
theorem linkOf_enterFirstLine (lined : Lined base times voices staff) (id : Int) (slot : Nat) :
    linkOf staff.enterFirstLine.nodes id slot =
      if id = staff.instrument ∧ slot = Slot.instrumentBody then staff.callOf 0
      else linkOf staff.nodes id slot := by
  unfold enterFirstLine
  rw [callOf_zero]
  cases staff.calls.head? with
  | some first => exact linkOf_relink lined.sound.kindOf_instrument (by decide) slot
  | none =>
      by_cases here : id = staff.instrument ∧ slot = Slot.instrumentBody
      · rw [if_pos here, here.1, here.2]
        exact lined.body
      · rw [if_neg here]

/-- The first line is entered without a new call. -/
theorem calls_enterFirstLine : staff.enterFirstLine.calls = staff.calls := by
  unfold enterFirstLine
  cases staff.calls.head? <;> rfl

/-- The first line is entered with the same instrument. -/
theorem instrument_enterFirstLine : staff.enterFirstLine.instrument = staff.instrument := by
  unfold enterFirstLine
  cases staff.calls.head? <;> rfl

/-- The first line is entered with the same call for each line. -/
theorem callOf_enterFirstLine (line : Int) :
    staff.enterFirstLine.callOf line = staff.callOf line := by
  rw [StaffAssembly.callOf, calls_enterFirstLine, StaffAssembly.callOf]

/-- There are no repeats when the first line is entered. -/
theorem ranges_enterFirstLine (lined : Lined base times voices staff) :
    staff.enterFirstLine.ranges = [] := by
  unfold enterFirstLine
  cases staff.calls.head? <;> exact lined.ranges

/-- A lined staff is sound when its first line has been entered. -/
theorem sound_enterFirstLine (lined : Lined base times voices staff) :
    Sound base times staff.enterFirstLine := by
  unfold enterFirstLine
  cases known : staff.calls.head? with
  | none => exact lined.sound
  | some first =>
      refine lined.sound.setLink lined.sound.kindOf_instrument rfl fun held same => ?_
      obtain rfl := Option.some.inj same
      exact Sound.mem_chainIds_of_call (List.mem_of_head? known)

/-- Entering the first line leaves the still nodes. -/
theorem stillNodes_enterFirstLine (lined : Lined base times voices staff) :
    stillNodes staff.enterFirstLine.nodes = stillNodes staff.nodes := by
  unfold enterFirstLine
  cases staff.calls.head? with
  | none => rfl
  | some first =>
      exact stillNodes_relink lined.sound.nodup lined.sound.kindOf_instrument (Or.inr rfl) _

/-- The first call is held by the instrument-setter without a link back. -/
theorem reciprocal_enterFirstLine (lined : Lined base times voices staff) :
    Reciprocal staff.enterFirstLine.nodes staff.enterFirstLine.direct := by
  have direct : staff.enterFirstLine.direct =
      ((staff.callOf 0).map (staff.instrument, ·)).toList := by
    rw [StaffAssembly.direct, lined.ranges_enterFirstLine, callOf_enterFirstLine,
      instrument_enterFirstLine]
    rfl
  rw [direct, callOf_zero]
  unfold enterFirstLine
  have before := lined.reciprocal
  rw [Reciprocal, List.append_nil] at before
  cases known : staff.calls.head? with
  | none => exact lined.reciprocal
  | some first =>
      have forward : 1 ≤ Slot.instrumentBody := by decide
      have held := heldPairs_relink lined.sound.nodup lined.sound.kindOf_instrument forward
        (by decide) (some first)
      rw [lined.body, Option.map_none, Option.toList_none, List.append_nil] at held
      have back : previousPairs (relink staff.nodes staff.instrument Slot.instrumentBody
          (some first)) = previousPairs staff.nodes :=
        previousPairs_relink_forward forward (some first)
      rw [← back] at before
      exact held.trans (before.append_right _)

/-- The call of a line is not the instrument. -/
theorem call_ne_instrument (lined : Lined base times voices staff) {line call : Int}
    (known : staff.callOf line = some call) : call ≠ staff.instrument := by
  rintro rfl
  have called := lined.sound.kindOf_call (callOf_mem known)
  rw [lined.sound.kindOf_instrument] at called
  cases called

/-- Without repeats, the calls of a staff are the whole chain. -/
theorem spliced (lined : Lined base times voices staff) :
    Spliced base times staff.enterFirstLine.ranges staff.enterFirstLine := by
  have link := lined.linkOf_enterFirstLine
  have ranges : staff.enterFirstLine.ranges = [] := lined.ranges_enterFirstLine
  have entry : ∀ line, staff.enterFirstLine.entry [] line = staff.callOf line := fun line =>
    (entry_of_unopened rfl).trans (callOf_enterFirstLine line)
  have nothing : ∀ {P : Int × RepeatMarker → Prop}, ∀ range ∈ staff.enterFirstLine.ranges,
      P range := by
    intro P range member
    rw [ranges] at member
    exact (List.not_mem_nil member).elim
  have whole : ∀ before (range : Int × RepeatMarker) after,
      staff.enterFirstLine.ranges ≠ before ++ range :: after := by
    intro before range after split
    rw [ranges] at split
    simp at split
  refine
    { sound := lined.sound_enterFirstLine
      reciprocal := lined.reciprocal_enterFirstLine
      closed := List.Subset.refl _
      ordered := by rw [ranges]; exact List.Pairwise.nil
      inside := nothing
      body := by rw [instrument_enterFirstLine, link, if_pos ⟨rfl, rfl⟩, ranges, entry]
      callNext := fun line call known => ?_
      repeatNext := nothing
      repeatBody := fun before range after split => (whole before range after split).elim
      repeatCount := nothing
      entryPrevious := fun line id known => ?_
      innerPrevious := fun before range after split => (whole before range after split).elim }
  · rw [callOf_enterFirstLine] at known
    rw [link, if_neg fun both => lined.call_ne_instrument known both.1, ranges, entry,
      lined.next line call known, if_pos closer_nil]
  · rw [ranges, entry] at known
    rw [link, if_neg fun both => lined.call_ne_instrument known both.1, ranges,
      if_neg fun both => both.2 opener_nil, exit_of_unclosed closer_nil, callOf_enterFirstLine,
      lined.previous line id known]

end Lined

/-- What becomes of a marker depends on whether it is acceptable. -/
theorem resolveMarker_eq (count : Int) :
    resolveMarker count staff marker =
      if marker.isAcceptable staff.calls.length (staff.ranges.map Prod.snd) = true then
        match staff.callOf marker.startLine with
        | some first => staff.spliceRepeat count marker first
        | none => .ok staff
      else .ok { staff with dropped := staff.dropped ++ [marker] } := by
  have within : marker.isWithin staff.calls.length =
      ((staff.callOf marker.startLine).isSome && (staff.callOf marker.endLine).isSome) := by
    rw [Bool.eq_iff_iff, RepeatMarker.isWithin_iff, Bool.and_eq_true, isSome_callOf, isSome_callOf]
    omega
  have dropped : staff.isDropped marker =
      !marker.isAcceptable staff.calls.length (staff.ranges.map Prod.snd) := by
    rw [isDropped, RepeatMarker.isAcceptable, within, List.any_map]
    cases staff.callOf marker.startLine <;> cases staff.callOf marker.endLine <;>
      cases marker.isResolved <;> simp [Function.comp_def]
  rw [resolveMarker, dropped]
  cases known : staff.callOf marker.startLine with
  | some first =>
      cases marker.isAcceptable staff.calls.length (staff.ranges.map Prod.snd) <;> rfl
  | none =>
      have unacceptable : marker.isAcceptable staff.calls.length (staff.ranges.map Prod.snd) =
          false := by
        rw [RepeatMarker.isAcceptable, within, known]
        simp
      rw [unacceptable]
      rfl

/-- To drop markers keeps a staff spliced. -/
theorem Spliced.drop (spliced : Spliced base times staff.ranges staff)
    (dropped : List RepeatMarker) :
    Spliced base times staff.ranges { staff with dropped } :=
  { spliced with sound := { spliced.sound with } }

/-- A range that ends before it begins has no node to be spliced behind. -/
theorem Spliced.spliceRepeat_backward (spliced : Spliced base times staff.ranges staff)
    (early : ∀ range ∈ staff.ranges, range.2.endLine ≤ marker.endLine)
    (backward : marker.startLine = marker.endLine + 1) {first : Int}
    (called : staff.callOf marker.startLine = some first) :
    staff.spliceRepeat times marker first = .error (.unknownNode staff.next) := by
  have inside := isSome_callOf.mp (Option.isSome_iff_exists.mpr ⟨first, called⟩)
  have elsewhere : ∀ range ∈ staff.ranges, range.2.startLine ≠ marker.startLine := by
    intro range member here
    have within := spliced.inside range member
    have := early range member
    omega
  obtain ⟨firstNode, firstFound⟩ := exists_node (spliced.sound.kindOf_call (callOf_mem called))
  obtain ⟨top, head, climbed, known, topFound⟩ := spliced.climb inside
    (fun range member here => (elsewhere range member here).elim) staff.ranges []
    (staff.ranges.length + 1) rfl (Nat.lt_succ_self _) called firstFound
  obtain rfl : first = head := by
    rw [entry_of_unopened (opener_eq_none_iff.mpr elsewhere), called] at known
    exact Option.some.inj known
  obtain ⟨holder, slot, entrance⟩ : ∃ holder slot, Entrance staff.ranges staff _ holder slot :=
    exists_entrance inside
  have entered := spliced.enterRepeat entrance known topFound
  have left : (staff.rerouted holder slot first).leaveRepeat staff.next marker =
      .error (.unknownNode staff.next) := by
    have firstKnown : kindOf (staff.rerouted holder slot first).nodes first = some .lineCall :=
      Spliced.kindOf_rerouted (spliced.sound.kindOf_call (callOf_mem called))
    obtain ⟨node, found⟩ := exists_node firstKnown
    have fresh : staff.next ∉ (staff.rerouted holder slot first).nodes.map Node.id := by
      have same : (staff.rerouted holder slot first).nodes.map Node.id =
          staff.nodes.map Node.id := (map_id_relink ..).trans (map_id_relink ..)
      rw [same, spliced.sound.mem_ids_iff]
      omega
    rw [backward] at called
    refine leaveRepeat_lost called found ?_ fresh
    rw [Node.previous, link_of_findNode? found, spliced.previous_rerouted_head known]
  simp only [StaffAssembly.spliceRepeat, node_eq firstFound, climbed, entered, left, bind,
    Except.bind]

/-- Markers that are still to be resolved, given the repeats that are there. -/
structure Awaiting (staff : StaffAssembly) (markers : List RepeatMarker) : Prop where
  ordered : markers.Pairwise RepeatMarker.Precedes
  front : ∀ range ∈ staff.ranges, ∀ marker ∈ markers, range.2.Precedes marker
  ends : ∀ marker ∈ markers, marker.isResolved = true →
    0 ≤ marker.startLine ∧ 0 ≤ marker.endLine ∧ marker.startLine ≤ marker.endLine + 1

/-- The markers behind the first one still wait if no range has come. -/
theorem Awaiting.of_ranges {markers : List RepeatMarker} {other : StaffAssembly}
    (awaiting : staff.Awaiting (marker :: markers)) (subset : other.ranges ⊆ staff.ranges) :
    other.Awaiting markers where
  ordered := (List.pairwise_cons.mp awaiting.ordered).2
  front := fun range member marker inside =>
    awaiting.front range (subset member) marker (List.mem_cons_of_mem _ inside)
  ends := fun marker inside => awaiting.ends marker (List.mem_cons_of_mem _ inside)

/-- The markers behind the first one still wait if its range has come. -/
theorem Awaiting.of_concat {markers : List RepeatMarker} {other : StaffAssembly} {id : Int}
    (awaiting : staff.Awaiting (marker :: markers))
    (ranges : other.ranges = staff.ranges ++ [(id, marker)]) : other.Awaiting markers where
  ordered := (List.pairwise_cons.mp awaiting.ordered).2
  front := by
    rw [ranges]
    refine List.forall_mem_append.mpr ⟨fun range member later inside => ?_,
      List.forall_mem_singleton.mpr (List.pairwise_cons.mp awaiting.ordered).1⟩
    exact awaiting.front range member later (List.mem_cons_of_mem _ inside)
  ends := fun marker inside => awaiting.ends marker (List.mem_cons_of_mem _ inside)

/-- An accepted range is beside all earlier ones. -/
theorem Awaiting.beside {markers : List RepeatMarker} {lines : Nat}
    (awaiting : staff.Awaiting (marker :: markers))
    (acceptable : marker.isAcceptable lines (staff.ranges.map Prod.snd) = true) :
    ∀ range ∈ staff.ranges, range.2.Beside marker := by
  intro range member
  rw [RepeatMarker.isAcceptable, Bool.and_eq_true, Bool.and_eq_true] at acceptable
  have apart := acceptable.2
  rw [Bool.not_eq_true', List.any_eq_false] at apart
  refine (awaiting.front range member marker List.mem_cons_self).beside acceptable.1.1 ?_
  exact Bool.eq_false_iff.mpr (apart range.2 (List.mem_map_of_mem member))

namespace Spliced

variable {markers : List RepeatMarker}

/-- A marker in order becomes a repeat exactly if it is acceptable. -/
theorem resolveMarker_forward (spliced : Spliced base times staff.ranges staff)
    (awaiting : staff.Awaiting (marker :: markers))
    (forward : ¬marker.isBackward staff.calls.length = true) :
    ∃ next, resolveMarker times staff marker = .ok next ∧ Spliced base times next.ranges next ∧
      next.Awaiting markers ∧ next.calls = staff.calls ∧
      stillNodes next.nodes = stillNodes staff.nodes ∧ next.ranges.map Prod.snd =
        if marker.isAcceptable staff.calls.length (staff.ranges.map Prod.snd) = true then
          staff.ranges.map Prod.snd ++ [marker] else staff.ranges.map Prod.snd := by
  rw [resolveMarker_eq]
  by_cases acceptable : marker.isAcceptable staff.calls.length (staff.ranges.map Prod.snd) = true
  · have beside := awaiting.beside acceptable
    rw [if_pos acceptable, if_pos acceptable]
    rw [RepeatMarker.isAcceptable, Bool.and_eq_true, Bool.and_eq_true,
      RepeatMarker.isWithin_iff] at acceptable
    obtain ⟨⟨resolved, within⟩, -⟩ := acceptable
    have ends := awaiting.ends marker List.mem_cons_self resolved
    have inOrder : marker.startLine ≤ marker.endLine := by
      rw [RepeatMarker.isBackward, resolved] at forward
      simp only [Bool.true_and, Bool.and_eq_true, beq_iff_eq, decide_eq_true_eq] at forward
      omega
    obtain ⟨first, called⟩ : ∃ first, staff.callOf marker.startLine = some first :=
      exists_callOf ⟨within.1, within.2.1⟩
    obtain ⟨final, result, done, ranges, calls, -, -, still⟩ :=
      spliced.spliceRepeat beside ⟨within.1, inOrder, within.2.2.2⟩ called
    rw [called]
    refine ⟨final, result, done, awaiting.of_concat ranges, calls, still, ?_⟩
    rw [ranges, List.map_append]
    rfl
  · rw [if_neg acceptable, if_neg acceptable]
    exact ⟨_, rfl, spliced.drop _, awaiting.of_ranges (List.Subset.refl _), rfl, rfl, rfl⟩

/-- A marker that ends on the line before it begins is not spliced. -/
theorem resolveMarker_backward (spliced : Spliced base times staff.ranges staff)
    (awaiting : staff.Awaiting (marker :: markers))
    (backward : marker.isBackward staff.calls.length = true) :
    resolveMarker times staff marker = .error (.unknownNode staff.next) := by
  rw [RepeatMarker.isBackward, Bool.and_eq_true, Bool.and_eq_true, beq_iff_eq,
    decide_eq_true_iff] at backward
  obtain ⟨⟨resolved, meets⟩, inside⟩ := backward
  have ends := awaiting.ends marker List.mem_cons_self resolved
  have acceptable : marker.isAcceptable staff.calls.length (staff.ranges.map Prod.snd) = true := by
    have within : marker.isWithin staff.calls.length = true := by
      rw [RepeatMarker.isWithin_iff]
      omega
    have apart : (staff.ranges.map Prod.snd).any marker.partiallyOverlaps = false := by
      rw [List.any_eq_false]
      intro other _
      simp only [RepeatMarker.partiallyOverlaps, RepeatMarker.runsOver, Bool.or_eq_true,
        Bool.and_eq_true, decide_eq_true_eq]
      omega
    rw [RepeatMarker.isAcceptable, resolved, within, apart]
    rfl
  have early : ∀ range ∈ staff.ranges, range.2.endLine ≤ marker.endLine := fun range member =>
    ((awaiting.front range member marker List.mem_cons_self).2 resolved).2
  obtain ⟨first, called⟩ : ∃ first, staff.callOf marker.startLine = some first :=
    exists_callOf ⟨ends.1, inside⟩
  rw [resolveMarker_eq, if_pos acceptable, called]
  exact spliced.spliceRepeat_backward early meets called

/-- Markers in order become repeats exactly if they are accepted. -/
theorem foldlM_resolveMarker (spliced : Spliced base times staff.ranges staff)
    (awaiting : staff.Awaiting markers)
    (forward : ∀ marker ∈ markers, ¬marker.isBackward staff.calls.length = true) :
    ∃ final, markers.foldlM (resolveMarker times) staff = .ok final ∧
      Spliced base times final.ranges final ∧ final.calls = staff.calls ∧
      stillNodes final.nodes = stillNodes staff.nodes ∧ final.ranges.map Prod.snd =
        RepeatMarker.acceptedAfter staff.calls.length (staff.ranges.map Prod.snd) markers := by
  induction markers generalizing staff with
  | nil => exact ⟨staff, rfl, spliced, rfl, rfl, rfl⟩
  | cons marker markers ih =>
      obtain ⟨here, later⟩ := List.forall_mem_cons.mp forward
      obtain ⟨next, result, done, waiting, calls, still, ranges⟩ :=
        spliced.resolveMarker_forward awaiting here
      obtain ⟨final, results, finished, same, kept, accepted⟩ := ih done waiting (calls ▸ later)
      refine ⟨final, ?_, finished, same.trans calls, kept.trans still, ?_⟩
      · rw [List.foldlM_cons, result]
        exact results
      · rw [accepted, calls, ranges, RepeatMarker.acceptedAfter]

/-- A single marker that ends on the line before it begins spoils the staff. -/
theorem foldlM_resolveMarker_backward (spliced : Spliced base times staff.ranges staff)
    (awaiting : staff.Awaiting markers)
    (backward : ∃ marker ∈ markers, marker.isBackward staff.calls.length = true) :
    ∃ id, markers.foldlM (resolveMarker times) staff = .error (.unknownNode id) := by
  induction markers generalizing staff with
  | nil =>
      obtain ⟨marker, member, -⟩ := backward
      exact (List.not_mem_nil member).elim
  | cons marker markers ih =>
      rw [List.foldlM_cons]
      by_cases here : marker.isBackward staff.calls.length = true
      · rw [spliced.resolveMarker_backward awaiting here]
        exact ⟨staff.next, rfl⟩
      · obtain ⟨next, result, done, waiting, calls, -⟩ :=
          spliced.resolveMarker_forward awaiting here
        rw [result]
        refine ih done waiting ?_
        obtain ⟨other, member, isBackward⟩ := backward
        rcases List.mem_cons.mp member with rfl | inside
        · exact (here isBackward).elim
        · exact ⟨other, inside, calls ▸ isBackward⟩

end Spliced

namespace Lined

/-- When the first line has been entered, the markers are those of the voices. -/
theorem markers_enterFirstLine (lined : Lined base times voices staff) :
    staff.enterFirstLine.markers = RepeatMarker.ofVoices voices := by
  unfold enterFirstLine
  cases staff.calls.head? <;> exact lined.markers

/-- When the first line has been entered, there is a call for each voice. -/
theorem length_calls_enterFirstLine (lined : Lined base times voices staff) :
    staff.enterFirstLine.calls.length = voices.length := by
  rw [calls_enterFirstLine, lined.lines]

/-- The markers of a staff are awaiting their resolution when all its lines are there. -/
theorem awaiting (lined : Lined base times voices staff) :
    staff.enterFirstLine.Awaiting (RepeatMarker.ofVoices voices) where
  ordered := (RepeatMarker.Queue.ofVoices voices).ordered
  front := by
    rw [lined.ranges_enterFirstLine]
    exact fun range member => (List.not_mem_nil member).elim
  ends := fun marker member resolved =>
    have queue := RepeatMarker.Queue.ofVoices voices
    have ended := queue.ends marker member resolved
    ⟨(queue.starts marker member).1, ended.1, ended.2.2⟩

/-- A staff whose markers are in order gets the repeats that are accepted. -/
theorem resolveRepeats (lined : Lined base times voices staff)
    (forward : ∀ marker ∈ RepeatMarker.ofVoices voices, ¬marker.isBackward voices.length = true) :
    ∃ final, staff.enterFirstLine.resolveRepeats times = .ok final ∧
      Spliced base times final.ranges final ∧ final.calls.length = voices.length ∧
      stillNodes final.nodes = stillNodes staff.nodes ∧ final.ranges.map Prod.snd =
        RepeatMarker.accepted voices.length (RepeatMarker.ofVoices voices) := by
  have length := lined.length_calls_enterFirstLine
  obtain ⟨final, result, spliced, calls, still, ranges⟩ :=
    lined.spliced.foldlM_resolveMarker lined.awaiting (length ▸ forward)
  refine ⟨final, ?_, spliced, calls ▸ length, still.trans lined.stillNodes_enterFirstLine, ?_⟩
  · rw [StaffAssembly.resolveRepeats, lined.markers_enterFirstLine, result]
  · rw [ranges, length, lined.ranges_enterFirstLine]
    rfl

/-- A staff with a marker that ends on the line before it begins is not assembled. -/
theorem resolveRepeats_backward (lined : Lined base times voices staff)
    (backward : ∃ marker ∈ RepeatMarker.ofVoices voices,
      marker.isBackward voices.length = true) :
    ∃ id, staff.enterFirstLine.resolveRepeats times = .error (.unknownNode id) := by
  rw [StaffAssembly.resolveRepeats, lined.markers_enterFirstLine]
  exact lined.spliced.foldlM_resolveMarker_backward lined.awaiting
    (lined.length_calls_enterFirstLine ▸ backward)

end Lined

end StaffAssembly

end TuneGraph
