import TuneGraph.Compile.Repeat
import TuneGraph.Proofs.Except
import TuneGraph.Proofs.Graph.Parallel

/-! # Staves that are assembled in parallel

Two staves are parallel if their nodes are, if calls and repeats have ids that differ by the same
distance, and if all line numbers agree (`StaffAssembly.Parallel`). No step of an assembly looks at
an id except to find it again, and none looks at a payload. Every step is therefore taken by
parallel staves together: it fails for both, at ids that differ by the distance, or it leads from
parallel staves to parallel staves (`StaffAssembly.Parallel.resolveRepeats`).
-/

namespace TuneGraph

open TuneGraph.Graph

/-- An error with a distance added to the id that it names. -/
def CompileError.shift (distance : Int) : CompileError → CompileError
  | unknownNode id => unknownNode (id + distance)
  | fault => fault

/-- Whether two steps of compilations return related results or fail alike, at ids that differ by
a distance. -/
abbrev Together {α β : Type} (distance : Int) (results : α → β → Prop) :
    Except CompileError α → Except CompileError β → Prop :=
  InStep (fun fault other => other = fault.shift distance) results

/-- Whether a staff is another one at ids that differ by a distance. -/
structure StaffAssembly.Parallel (distance : Int)
    (alike : Option (List (String × Datum)) → Option (List (String × Datum)) → Prop)
    (staff other : StaffAssembly) : Prop where
  nodes : List.Forall₂ (Node.Parallel distance alike) staff.nodes other.nodes
  instrument : other.instrument = staff.instrument + distance
  next : other.next = staff.next + distance
  calls : other.calls = staff.calls.map (· + distance)
  markers : other.markers = staff.markers
  ranges : other.ranges = staff.ranges.map (Prod.map (· + distance) id)
  dropped : other.dropped = staff.dropped

namespace StaffAssembly.Parallel

variable {distance : Int}
  {alike : Option (List (String × Datum)) → Option (List (String × Datum)) → Prop}
  {staff other : StaffAssembly} (parallel : staff.Parallel distance alike other)

include parallel

/-- A node is looked up in both staves, or in none. -/
theorem node (id : Int) : Together distance (Node.Parallel distance alike) (staff.node id)
    (other.node (id + distance)) := by
  have found := findNode?_parallel parallel.nodes id
  unfold StaffAssembly.node
  generalize findNode? staff.nodes id = here, findNode? other.nodes (id + distance) = there at *
  cases found with
  | some nodes => exact .ok nodes
  | none => exact .error rfl

/-- The call of a line is shifted. -/
theorem callOf (line : Int) : other.callOf line = (staff.callOf line).map (· + distance) := by
  unfold StaffAssembly.callOf
  split
  · rw [parallel.calls, List.getElem?_map]
  · rfl

/-- A line has a call in both staves, or in none. -/
theorem isNone_callOf (line : Int) :
    (other.callOf line).isNone = (staff.callOf line).isNone := by
  rw [parallel.callOf, Option.isNone_map]

/-- The last call is shifted. -/
theorem lastCall : other.lastCall = staff.lastCall.map (· + distance) := by
  rw [StaffAssembly.lastCall, parallel.calls, List.getLast?_map, StaffAssembly.lastCall]

/-- Both staves have the same number of lines. -/
theorem lineCount : other.lineCount = staff.lineCount := by
  rw [StaffAssembly.lineCount, parallel.calls, List.length_map, StaffAssembly.lineCount]

/-- Both staves have the same number of notes. -/
theorem noteCount : other.noteCount = staff.noteCount :=
  countP_parallel parallel.nodes .noteRoot

/-- Both staves have the same number of repeats. -/
theorem length_ranges : other.ranges.length = staff.ranges.length := by
  rw [parallel.ranges, List.length_map]

/-- The range of a repeat is the same in both staves. -/
theorem rangeOf (id : Int) :
    Together distance Eq (staff.rangeOf id) (other.rangeOf (id + distance)) := by
  have found : other.ranges.lookup (id + distance) = staff.ranges.lookup id := by
    rw [parallel.ranges]
    induction staff.ranges with
    | nil => rfl
    | cons range rest ih =>
        have same : (id + distance == range.1 + distance) = (id == range.1) := by
          rw [Bool.eq_iff_iff, beq_iff_eq, beq_iff_eq, Int.add_left_inj]
        rw [List.map_cons, List.lookup_cons, List.lookup_cons, ih]
        simp only [Prod.map_fst, Prod.map_snd, same, id_eq]
  unfold StaffAssembly.rangeOf
  rw [found]
  cases staff.ranges.lookup id with
  | some range => exact .ok rfl
  | none => exact .error rfl

/-- To set a link keeps staves parallel. -/
theorem setLink (id : Int) (slot : Nat) (target : Option Int) :
    (staff.setLink id slot target).Parallel distance alike
      (other.setLink (id + distance) slot (target.map (· + distance))) :=
  { parallel with nodes := relink_parallel parallel.nodes id slot target }

/-- Climbing from parallel nodes ends at parallel nodes. -/
theorem climb (marker : RepeatMarker) (fuel : Nat) {head otherHead : Node}
    (heads : head.Parallel distance alike otherHead) :
    Together distance (Node.Parallel distance alike) (staff.climb marker fuel head)
      (other.climb marker fuel otherHead) := by
  induction fuel generalizing head otherHead with
  | zero => exact .ok heads
  | succ fuel ih =>
      rw [StaffAssembly.climb, StaffAssembly.climb, heads.previous]
      cases head.previous with
      | none => exact .ok heads
      | some id =>
          refine (parallel.node id).bind fun parent otherParent parents => ?_
          have body : otherParent.link Slot.repeatBody = some otherHead.id ↔
              parent.link Slot.repeatBody = some head.id := by
            rw [parents.link, heads.id]
            exact (map_add_injective distance).eq_iff (b := some head.id)
          simp only [parents.kind, ne_eq, body]
          split
          · exact .ok heads
          · refine (parallel.rangeOf id).bind fun range _ same => ?_
            subst same
            cases marker.contains range with
            | true => exact ih parents
            | false => exact .ok heads

/-- A repeat encloses a marker in both staves, or in none. -/
theorem isEnclosing (marker : RepeatMarker) {tail otherTail : Node}
    (tails : tail.Parallel distance alike otherTail) :
    Together distance Eq (staff.isEnclosing marker tail) (other.isEnclosing marker otherTail) := by
  unfold StaffAssembly.isEnclosing
  rw [tails.kind, tails.id]
  split
  · exact .ok rfl
  · refine (parallel.rangeOf tail.id).bind fun range _ same => ?_
    subst same
    exact .ok rfl

/-- A repeat is entered in both staves alike. -/
theorem enterRepeat (id : Int) {head otherHead : Node}
    (heads : head.Parallel distance alike otherHead) :
    Together distance (fun entered otherEntered =>
        entered.1.Parallel distance alike otherEntered.1 ∧
          otherEntered.2 = entered.2 + distance)
      (staff.enterRepeat id head) (other.enterRepeat (id + distance) otherHead) := by
  unfold StaffAssembly.enterRepeat
  have before : otherHead.previous.getD other.instrument =
      head.previous.getD staff.instrument + distance := by
    rw [heads.previous, parallel.instrument]
    cases head.previous <;> rfl
  rw [before, heads.id]
  refine (parallel.node _).bind fun holder otherHolder holders => .ok ⟨?_, holders.id⟩
  have slot := holders.slotOf (some head.id) 1
  rw [Option.map_some] at slot
  rw [slot, holders.id]
  cases holder.slotOf (some head.id) with
  | some slot => exact (parallel.setLink holder.id slot (some id)).setLink _ _ (some id)
  | none => exact parallel.setLink _ _ (some id)

/-- A repeat is left in both staves alike. -/
theorem leaveRepeat (id : Int) (marker : RepeatMarker) :
    Together distance (fun left otherLeft =>
        left.1.Parallel distance alike otherLeft.1 ∧
          otherLeft.2 = left.2.map (· + distance))
      (staff.leaveRepeat id marker) (other.leaveRepeat (id + distance) marker) := by
  unfold StaffAssembly.leaveRepeat
  rw [parallel.callOf]
  cases staff.callOf (marker.endLine + 1) with
  | none => exact .ok ⟨parallel, rfl⟩
  | some following =>
      refine (parallel.node following).bind fun call otherCall calls => ?_
      rw [calls.previous]
      cases call.previous with
      | none => exact .ok ⟨parallel, rfl⟩
      | some before =>
          refine (parallel.node before).bind fun tail otherTail tails => ?_
          refine (parallel.isEnclosing marker tails).bind fun enclosing _ same => ?_
          subst same
          cases enclosing with
          | true => exact .ok ⟨parallel, rfl⟩
          | false =>
              have slot : nextSlot otherTail = nextSlot tail := by
                rw [nextSlot, tails.kind, nextSlot]
              refine .ok ⟨?_, rfl⟩
              rw [slot, tails.id]
              exact (parallel.setLink tail.id (nextSlot tail) none).setLink following _ (some id)

/-- A marker is dropped in both staves, or in none. -/
theorem isDropped (marker : RepeatMarker) : other.isDropped marker = staff.isDropped marker := by
  unfold StaffAssembly.isDropped
  rw [parallel.isNone_callOf, parallel.isNone_callOf, parallel.ranges, List.any_map]
  rfl

/-- To drop a marker keeps staves parallel. -/
theorem drop (marker : RepeatMarker) :
    ({ staff with dropped := staff.dropped ++ [marker] } : StaffAssembly).Parallel distance alike
      { other with dropped := other.dropped ++ [marker] } :=
  { parallel with dropped := by rw [parallel.dropped] }

section Resolve

variable {count otherCount : Int} (bare : alike none none)
  (counted : alike (valuePayload (.integer count)) (valuePayload (.integer otherCount)))

include bare counted

/-- A repeat is spliced into both staves alike. -/
theorem spliceRepeat (marker : RepeatMarker) (first : Int) :
    Together distance (StaffAssembly.Parallel distance alike)
      (staff.spliceRepeat count marker first)
      (other.spliceRepeat otherCount marker (first + distance)) := by
  unfold StaffAssembly.spliceRepeat
  rw [parallel.length_ranges, parallel.next]
  refine (parallel.node first).bind fun call otherCall calls => ?_
  refine (parallel.climb marker _ calls).bind fun head otherHead heads => ?_
  refine (parallel.enterRepeat staff.next heads).bind ?_
  rintro ⟨entered, holder⟩ ⟨otherEntered, otherHolder⟩ ⟨enters, rfl⟩
  refine (enters.leaveRepeat staff.next marker).bind ?_
  rintro ⟨left, after⟩ ⟨otherLeft, otherAfter⟩ ⟨leaves, rfl⟩
  have next : staff.next + distance + 1 = staff.next + 1 + distance := by omega
  refine .ok { leaves with
    nodes := List.rel_append leaves.nodes (.cons ?_ (.cons ?_ .nil))
    next := ?_
    ranges := ?_ }
  · refine ⟨rfl, rfl, ?_, rfl, bare⟩
    simp only [heads.id, next, List.map_cons, Option.map_some, List.map_nil]
  · exact ⟨next, rfl, rfl, rfl, counted⟩
  · show staff.next + distance + 2 = staff.next + 2 + distance
    omega
  · rw [leaves.ranges, List.map_append]
    rfl

/-- A marker is resolved in both staves alike. -/
theorem resolveMarker (marker : RepeatMarker) :
    Together distance (StaffAssembly.Parallel distance alike)
      (StaffAssembly.resolveMarker count staff marker)
      (StaffAssembly.resolveMarker otherCount other marker) := by
  unfold StaffAssembly.resolveMarker
  rw [parallel.callOf, parallel.isDropped]
  cases staff.callOf marker.startLine with
  | none => exact .ok (parallel.drop marker)
  | some first =>
      cases staff.isDropped marker with
      | true => exact .ok (parallel.drop marker)
      | false => exact parallel.spliceRepeat bare counted marker first

/-- Parallel staves get parallel repeats, or meet the same obstacle. -/
theorem resolveRepeats : Together distance (StaffAssembly.Parallel distance alike)
    (staff.resolveRepeats count) (other.resolveRepeats otherCount) := by
  unfold StaffAssembly.resolveRepeats
  rw [parallel.markers]
  refine InStep.foldlM (fun state otherState states marker _ => ?_) parallel
  exact states.resolveMarker bare counted marker

end Resolve

/-- To enter the first line keeps staves parallel. -/
theorem enterFirstLine :
    staff.enterFirstLine.Parallel distance alike other.enterFirstLine := by
  unfold StaffAssembly.enterFirstLine
  rw [parallel.calls, List.head?_map, parallel.instrument]
  cases staff.calls.head? with
  | none => exact parallel
  | some first => exact parallel.setLink staff.instrument Slot.instrumentBody (some first)

/-- Parallel lines continue parallel staves. -/
theorem appendLine {label otherLabel : String} {notes otherNotes : List EncodedNote}
    (markers : List RepeatMarker)
    (chains : List.Forall₂ (Node.Parallel distance alike) (staff.chainOf label notes)
      (other.chainOf otherLabel otherNotes)) :
    (staff.appendLine label notes markers).Parallel distance alike
      (other.appendLine otherLabel otherNotes markers) := by
  have continued : ∀ {linked otherLinked : StaffAssembly},
      linked.Parallel distance alike otherLinked → StaffAssembly.Parallel distance alike
        { linked with
          nodes := linked.nodes ++ staff.chainOf label notes
          next := staff.next + (staff.chainOf label notes).length
          calls := staff.calls ++ [staff.next]
          markers }
        { otherLinked with
          nodes := otherLinked.nodes ++ other.chainOf otherLabel otherNotes
          next := other.next + (other.chainOf otherLabel otherNotes).length
          calls := other.calls ++ [other.next]
          markers } := fun linked =>
    { linked with
      nodes := List.rel_append linked.nodes chains
      next := by
        show other.next + _ = staff.next + _ + distance
        rw [parallel.next, chains.length_eq]
        omega
      calls := by
        show other.calls ++ [other.next] = (staff.calls ++ [staff.next]).map _
        rw [parallel.calls, parallel.next, List.map_append]
        rfl
      markers := rfl }
  have linked := fun last => parallel.setLink last Slot.callNext (some staff.next)
  rw [Option.map_some, ← parallel.next] at linked
  unfold StaffAssembly.appendLine
  rw [parallel.lastCall]
  cases staff.lastCall with
  | none => exact continued parallel
  | some last => exact continued (linked last)

end StaffAssembly.Parallel

end TuneGraph
