import TuneGraph.Compile.Staff

/-! # Repeats

Once all lines of a staff are there, every marker that can be honoured becomes a repeat
and its count, spliced into the chain of line-calls:

* whatever leads to the first line of the range leads to the repeat instead;
* the repeat's body is that line, with all repeats inside the range that start there;
* after the repeat comes the line after the range.

Markers without an end, markers beyond the lines of the staff, and markers that partially
overlap an earlier one are dropped.
-/

namespace TuneGraph

namespace StaffAssembly

/-- The range of an emitted repeat. -/
def rangeOf (staff : StaffAssembly) (id : Int) : Except CompileError RepeatMarker :=
  match staff.ranges.lookup id with
  | some range => pure range
  | none => throw (.unknownNode id)

/-- The outermost node that a repeat over `marker` wraps, climbing from `head` through the
repeats whose body it is as long as they lie inside the range. The fuel bounds the number
of repeats to climb through. -/
def climb (staff : StaffAssembly) (marker : RepeatMarker) : Nat → Node → Except CompileError Node
  | 0, head => pure head
  | fuel + 1, head =>
    match head.previous with
    | none => pure head
    | some id => do
      let parent ← staff.node id
      if parent.kind ≠ .repetition ∨ parent.link Slot.repeatBody ≠ some head.id then return head
      if !marker.contains (← staff.rangeOf id) then return head
      staff.climb marker fuel parent

/-- The slot that leads on from a node of the chain. -/
def nextSlot (node : Node) : Nat :=
  if node.kind = .repetition then Slot.repeatNext else Slot.callNext

/-- A repeat and its count. -/
def repeatNodes (id : Int) (count : Int) (holder head : Int) (after : Option Int) : List Node :=
  [{ id, kind := .repetition, links := [some holder, some (id + 1), some head, after] },
   { id := id + 1, kind := .repeatCount, links := [some id]
     payload := valuePayload (.integer count) }]

/-- A staff in which the node before `head` leads to the repeat `id` instead, with the id
of that node. -/
def enterRepeat (staff : StaffAssembly) (id : Int) (head : Node) :
    Except CompileError (StaffAssembly × Int) := do
  let holder ← staff.node (head.previous.getD staff.instrument)
  let entered := match holder.slotOf (some head.id) with
    | some slot => staff.setLink holder.id slot (some id)
    | none => staff
  return (entered.setLink head.id Slot.previous (some id), holder.id)

/-- Whether the repeat that ends on the line before belongs around this marker. -/
def isEnclosing (staff : StaffAssembly) (marker : RepeatMarker) (tail : Node) :
    Except CompileError Bool := do
  if tail.kind ≠ .repetition then return false
  return (← staff.rangeOf tail.id).startLine < marker.startLine

/-- A staff in which the line after the range follows the repeat `id`, with that line if
there is one. An enclosing repeat that ends on the same line keeps it. -/
def leaveRepeat (staff : StaffAssembly) (id : Int) (marker : RepeatMarker) :
    Except CompileError (StaffAssembly × Option Int) := do
  match staff.callOf (marker.endLine + 1) with
  | none => return (staff, none)
  | some following =>
    match (← staff.node following).previous with
    | none => return (staff, none)
    | some before =>
      let tail ← staff.node before
      if ← staff.isEnclosing marker tail then return (staff, none)
      return ((staff.setLink tail.id (nextSlot tail) none).setLink following Slot.previous
        (some id), some following)

/-- Whether no repeat is emitted for a marker. -/
def isDropped (staff : StaffAssembly) (marker : RepeatMarker) : Bool :=
  !marker.isResolved || (staff.callOf marker.startLine).isNone ||
    (staff.callOf marker.endLine).isNone ||
    staff.ranges.any fun range => marker.partiallyOverlaps range.2

/-- A staff with the repeat of a marker. -/
def spliceRepeat (staff : StaffAssembly) (count : Int) (marker : RepeatMarker) (first : Int) :
    Except CompileError StaffAssembly := do
  let id := staff.next
  let head ← staff.climb marker (staff.ranges.length + 1) (← staff.node first)
  let (entered, holder) ← staff.enterRepeat id head
  let (left, after) ← entered.leaveRepeat id marker
  return { left with
    nodes := left.nodes ++ repeatNodes id count holder head.id after
    next := id + 2
    ranges := left.ranges ++ [(id, marker)] }

/-- A staff after one of its markers. -/
def resolveMarker (count : Int) (staff : StaffAssembly) (marker : RepeatMarker) :
    Except CompileError StaffAssembly :=
  match staff.callOf marker.startLine with
  | some first =>
    if staff.isDropped marker then pure { staff with dropped := staff.dropped ++ [marker] }
    else staff.spliceRepeat count marker first
  | none => pure { staff with dropped := staff.dropped ++ [marker] }

/-- A staff with the repeats of all its markers, in the order of their creation. -/
def resolveRepeats (staff : StaffAssembly) (count : Int) : Except CompileError StaffAssembly :=
  staff.markers.foldlM (resolveMarker count) staff

/-- The nodes of the emitted repeats and their counts. -/
def emitted (staff : StaffAssembly) : List Node :=
  staff.nodes.filter fun node => node.kind == .repetition || node.kind == .repeatCount

end StaffAssembly

end TuneGraph
