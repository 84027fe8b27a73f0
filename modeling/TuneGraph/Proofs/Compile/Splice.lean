import TuneGraph.Proofs.Compile.Leave
import TuneGraph.Proofs.Graph.Walk

/-! # Splicing a repeat

A marker whose range is in order and beside the earlier ones becomes a repeat, and the chain stays
linked as the ranges tell (`StaffAssembly.Spliced.spliceRepeat`): climbing from the first call
ends at the entry of the line (`StaffAssembly.Spliced.climb`), and what leads there and what
comes after the range are found.
-/

namespace TuneGraph

open TuneGraph.Graph

namespace StaffAssembly

variable {base times : Int} {staff : StaffAssembly} {marker : RepeatMarker}
  {id head holder line : Int} {slot : Nat} {node top : Node} {range : Int × RepeatMarker}

theorem node_eq (found : findNode? staff.nodes id = some node) : staff.node id = .ok node := by
  rw [StaffAssembly.node, found]
  rfl

theorem link_of_findNode? (found : findNode? staff.nodes id = some node) (slot : Nat) :
    node.link slot = linkOf staff.nodes id slot := by
  rw [linkOf, found, Option.bind_some]

theorem kind_of_findNode? {kind : NodeKind} (found : findNode? staff.nodes id = some node)
    (known : kindOf staff.nodes id = some kind) : node.kind = kind := by
  rw [kindOf, found] at known
  exact Option.some.inj known

theorem exists_node {kind : NodeKind} (known : kindOf staff.nodes id = some kind) :
    ∃ node, findNode? staff.nodes id = some node := exists_findNode? (mem_ids_of_kindOf known)

/-- The range of a repeat is found by its id. -/
theorem rangeOf_eq (unique : (staff.ranges.map Prod.fst).Nodup) (member : range ∈ staff.ranges) :
    staff.rangeOf range.1 = .ok range.2 := by
  have found : staff.ranges.lookup range.1 = some range.2 := by
    obtain ⟨before, after, split⟩ := List.append_of_mem member
    refine List.lookup_eq_some_iff.mpr ⟨before, after, split, fun earlier inside => ?_⟩
    rw [split, List.map_append, List.map_cons] at unique
    have apart := (List.nodup_cons.mp (List.nodup_middle.mp unique)).1
    rw [bne_iff_ne]
    intro same
    exact apart (List.mem_append_left _ (List.mem_map.mpr ⟨earlier, inside, same.symm⟩))
  rw [rangeOf, found]
  rfl

/-- A slot is found if no other one holds the same. -/
theorem slotOf_eq {target : Int} (forward : 1 ≤ slot) (held : node.link slot = some target)
    (only : ∀ other, 1 ≤ other → node.link other = some target → other = slot) :
    node.slotOf (some target) = some slot := by
  obtain ⟨other, found⟩ := Option.isSome_iff_exists.mp
    (node.isSome_slotOf_iff.mpr ⟨slot, forward, held⟩)
  obtain ⟨positive, link⟩ := node.of_slotOf_eq_some found
  rw [found, only other positive link]

section Climb

variable {fuel : Nat} {above : Int} {parent : Node}

/-- Climbing stops below a node whose body is something else. -/
theorem climb_stop (previous : node.previous = some above)
    (found : findNode? staff.nodes above = some parent)
    (other : parent.kind = .repetition → parent.link Slot.repeatBody ≠ some node.id) :
    staff.climb marker (fuel + 1) node = .ok node := by
  have stops : parent.kind ≠ .repetition ∨ parent.link Slot.repeatBody ≠ some node.id :=
    or_iff_not_imp_left.mpr fun repetition => other (not_not.mp repetition)
  simp only [climb, previous, node_eq found, bind, Except.bind, if_pos stops]
  rfl

/-- Climbing goes on to a repeat whose body the node is and that lies inside the range. -/
theorem climb_up (previous : node.previous = some above)
    (found : findNode? staff.nodes above = some parent) (kind : parent.kind = .repetition)
    (body : parent.link Slot.repeatBody = some node.id) {inner : RepeatMarker}
    (known : staff.rangeOf above = .ok inner) (contains : marker.contains inner = true) :
    staff.climb marker (fuel + 1) node = staff.climb marker fuel parent := by
  have goesOn : ¬(parent.kind ≠ .repetition ∨ parent.link Slot.repeatBody ≠ some node.id) := by
    rintro (other | other)
    · exact other kind
    · exact other body
  simp only [climb, previous, node_eq found, bind, Except.bind, if_neg goesOn, known, contains]
  rfl

end Climb

section Leave

variable {left : StaffAssembly} {following tail : Int} {followingNode tailNode : Node}

/-- Nothing follows a repeat that ends with the last line. -/
theorem leaveRepeat_last (final : left.callOf (marker.endLine + 1) = none) :
    left.leaveRepeat id marker = .ok (left, none) := by
  simp only [leaveRepeat, final]
  rfl

/-- The line after a range follows the repeat unless an enclosing one keeps it. -/
theorem leaveRepeat_next (called : left.callOf (marker.endLine + 1) = some following)
    (followingFound : findNode? left.nodes following = some followingNode)
    (previous : followingNode.previous = some tail)
    (tailFound : findNode? left.nodes tail = some tailNode) {enclosing : Bool}
    (decided : left.isEnclosing marker tailNode = .ok enclosing) :
    left.leaveRepeat id marker = .ok (if enclosing then (left, none) else
      ((left.setLink tail (nextSlot tailNode) none).setLink following Slot.previous (some id),
        some following)) := by
  simp only [leaveRepeat, called, node_eq followingFound, previous, node_eq tailFound, decided,
    bind, Except.bind, id_of_findNode? tailFound]
  cases enclosing <;> rfl

/-- The line after a range cannot leave a node that is not there. -/
theorem leaveRepeat_lost (called : left.callOf (marker.endLine + 1) = some following)
    (followingFound : findNode? left.nodes following = some followingNode)
    (previous : followingNode.previous = some tail) (missing : tail ∉ left.nodes.map Node.id) :
    left.leaveRepeat id marker = .error (.unknownNode tail) := by
  have lost : left.node tail = .error (.unknownNode tail) := by
    cases found : findNode? left.nodes tail with
    | some node =>
        have known : tail ∈ left.nodes.map Node.id :=
          List.mem_map.mpr ⟨node, mem_of_findNode? found, id_of_findNode? found⟩
        exact (missing known).elim
    | none =>
        rw [StaffAssembly.node, found]
        rfl
  simp only [leaveRepeat, called, node_eq followingFound, previous, lost, bind, Except.bind]

end Leave

/-- A staff in which the next id stands in the place of a node that a slot of another one holds. -/
def rerouted (staff : StaffAssembly) (holder : Int) (slot : Nat) (head : Int) : StaffAssembly :=
  (staff.setLink holder slot (some staff.next)).setLink head Slot.previous (some staff.next)

namespace Spliced

/-- Climbing ends at the entry of a line: what is in front of it leads to the line from outside. -/
theorem climb_entry (spliced : Spliced base times staff.ranges staff)
    (inside : 0 ≤ marker.startLine ∧ marker.startLine < staff.calls.length) (fuel : Nat)
    (known : staff.entry staff.ranges marker.startLine = some id)
    (found : findNode? staff.nodes id = some node) :
    staff.climb marker (fuel + 1) node = .ok node := by
  cases previous : node.previous with
  | none =>
      rw [StaffAssembly.climb, previous]
      rfl
  | some above =>
      obtain ⟨holder, slot, entrance⟩ := exists_entrance inside
      obtain ⟨kind, holderKnown, -⟩ := spliced.kindOf_entrance entrance
      have behind := spliced.previous_entrance entrance known
      rw [← link_of_findNode? found, ← Node.previous, previous] at behind
      obtain rfl : above = holder := by
        split at behind
        · cases behind
        · exact Option.some.inj behind
      obtain ⟨parent, parentFound⟩ := exists_node holderKnown
      refine climb_stop previous parentFound fun repetition body => ?_
      have repeated : above ∈ staff.ranges.map Prod.fst := spliced.sound.repeats ▸
        mem_idsOf.mpr ⟨parent, mem_of_findNode? parentFound, repetition,
          id_of_findNode? parentFound⟩
      obtain ⟨range, member, same⟩ := List.mem_map.mp repeated
      rw [link_of_findNode? parentFound, id_of_findNode? found, ← same] at body
      exact spliced.body_entrance entrance member same known body

/-- Climbing from the entry that a line had after some repeats ends at the entry that it has after
all of them. -/
theorem climb (spliced : Spliced base times staff.ranges staff)
    (inside : 0 ≤ marker.startLine ∧ marker.startLine < staff.calls.length)
    (holds : ∀ range ∈ staff.ranges, range.2.startLine = marker.startLine →
      marker.contains range.2 = true) (rest before : List (Int × RepeatMarker)) (fuel : Nat)
    (split : staff.ranges = before ++ rest) (enough : rest.length < fuel)
    (known : staff.entry before marker.startLine = some id)
    (found : findNode? staff.nodes id = some node) :
    ∃ top head, staff.climb marker fuel node = .ok top ∧
      staff.entry staff.ranges marker.startLine = some head ∧
        findNode? staff.nodes head = some top := by
  -- One step for each range that is still to come: those that begin here are climbed over.
  induction rest generalizing before fuel id node with
  | nil =>
      obtain ⟨fuel, rfl⟩ := Nat.exists_eq_succ_of_ne_zero (Nat.ne_of_gt enough)
      rw [List.append_nil] at split
      rw [← split] at known
      exact ⟨node, id, spliced.climb_entry inside fuel known found, known, found⟩
  | cons range rest ih =>
      have member : range ∈ staff.ranges := mem_of_split split
      by_cases here : range.2.startLine = marker.startLine
      · have remains : fuel ≠ 0 := Nat.ne_of_gt (Nat.zero_lt_of_lt enough)
        obtain ⟨fuel, rfl⟩ := Nat.exists_eq_succ_of_ne_zero remains
        rw [← here] at known
        have repeated := spliced.sound.kindOf_repeat (List.mem_map_of_mem member)
        obtain ⟨parent, parentFound⟩ := exists_node repeated
        have previous : node.previous = some range.1 := by
          rw [Node.previous, link_of_findNode? found,
            spliced.innerPrevious before range rest split id known]
        have body : parent.link Slot.repeatBody = some node.id := by
          rw [link_of_findNode? parentFound, spliced.repeatBody before range rest split, known,
            id_of_findNode? found]
        have next := ih (before ++ [range]) fuel (by rw [split, List.append_assoc]; rfl)
          (Nat.lt_of_succ_lt_succ enough) (by rw [entry_concat, if_pos here]) parentFound
        rw [climb_up previous parentFound
          (kind_of_findNode? parentFound repeated) body
          (rangeOf_eq spliced.sound.ranges_nodup member) (holds range member here)]
        exact next
      · refine ih (before ++ [range]) fuel (by rw [split, List.append_assoc]; rfl)
          (Nat.lt_of_succ_lt enough) ?_ found
        rw [entry_concat, if_neg here, known]

/-- The slot that leads to the entry of a line is the only one of its node that does. -/
theorem slotOf_entrance (spliced : Spliced base times staff.ranges staff)
    (entrance : Entrance staff.ranges staff line holder slot)
    (known : staff.entry staff.ranges line = some head)
    (found : findNode? staff.nodes holder = some node) :
    node.slotOf (some head) = some slot := by
  obtain ⟨kind, holderKnown, chained⟩ := spliced.kindOf_entrance entrance
  have link := link_of_findNode? found
  have kindEq := kind_of_findNode? found holderKnown
  refine slotOf_eq (one_le_of_isChainSlot chained) ((link slot).trans
    ((spliced.link_entrance entrance).trans known)) fun other forward held => ?_
  have tiered := spliced.sound.tiered node (mem_of_findNode? found) other head forward held
  split at tiered
  · rename_i otherChained
    cases entrance with
    | instrument =>
        rw [kind_of_findNode? found spliced.sound.kindOf_instrument] at otherChained
        exact beq_iff_eq.mp otherChained
    | call unclosed called =>
        rw [kind_of_findNode? found (spliced.sound.kindOf_call (callOf_mem called))] at otherChained
        exact beq_iff_eq.mp otherChained
    | @repetition _ range closed =>
        have member := (spliced.closer_mem_ranges closed).1
        have repeated := spliced.sound.kindOf_repeat (List.mem_map_of_mem member)
        rw [kind_of_findNode? found repeated] at otherChained
        rcases Bool.or_eq_true _ _ ▸ otherChained with body | next
        · obtain rfl := beq_iff_eq.mp body
          rw [link] at held
          exact (spliced.body_entrance (.repetition closed) member rfl known held).elim
        · exact beq_iff_eq.mp next
  · exact (tiered.1 (mem_chainIds_of_entry (List.Subset.refl _) known)).elim

/-- What leads to the entry of the first line leads to the new repeat before that is emitted. -/
theorem enterRepeat (spliced : Spliced base times staff.ranges staff)
    (entrance : Entrance staff.ranges staff line holder slot)
    (known : staff.entry staff.ranges line = some head)
    (found : findNode? staff.nodes head = some top) :
    staff.enterRepeat staff.next top = .ok (staff.rerouted holder slot head, holder) := by
  obtain ⟨kind, holderKnown, -⟩ := spliced.kindOf_entrance entrance
  obtain ⟨node, holderFound⟩ := exists_node holderKnown
  have before : top.previous.getD staff.instrument = holder := by
    rw [Node.previous, link_of_findNode? found, spliced.previous_entrance entrance known]
    split
    · rename_i first
      exact ((spliced.instrument_entrance_iff entrance).mpr first.1).1
    · rfl
  have slotFound := spliced.slotOf_entrance entrance known holderFound
  simp only [StaffAssembly.enterRepeat, before, node_eq holderFound, bind, Except.bind,
    id_of_findNode? found, id_of_findNode? holderFound, slotFound]
  rfl

/-- Whether a repeat keeps the line after a range is told from where it begins. -/
theorem isEnclosing (spliced : Spliced base times staff.ranges staff)
    (within : 0 ≤ marker.endLine) {tail : Int}
    (entrance : Entrance staff.ranges staff (marker.endLine + 1) tail slot)
    (left : StaffAssembly) (ranges : left.ranges = staff.ranges) (same : node.id = tail)
    (known : kindOf staff.nodes tail = some node.kind) :
    nextSlot node = slot ∧ ∃ enclosing, left.isEnclosing marker node = .ok enclosing ∧
      (enclosing = true ↔ ¬Unenclosed staff.ranges marker) := by
  generalize lineEq : marker.endLine + 1 = line at entrance
  cases entrance with
  | instrument => omega
  | @call before _ unclosed called =>
      obtain rfl : marker.endLine = before := by omega
      have kind := Option.some.inj
        (known.symm.trans (spliced.sound.kindOf_call (callOf_mem called)))
      have free : Unenclosed staff.ranges marker := by
        rintro outer closed
        rw [unclosed] at closed
        cases closed
      refine ⟨by rw [nextSlot, kind]; rfl, false, ?_, by simp [free]⟩
      rw [StaffAssembly.isEnclosing, kind]
      rfl
  | @repetition before outer closed =>
      obtain rfl : marker.endLine = before := by omega
      have member := (spliced.closer_mem_ranges closed).1
      have kind := Option.some.inj
        (known.symm.trans (spliced.sound.kindOf_repeat (List.mem_map_of_mem member)))
      have range : left.rangeOf node.id = .ok outer.2 := by
        rw [same]
        have unique : (left.ranges.map Prod.fst).Nodup := ranges ▸ spliced.sound.ranges_nodup
        exact rangeOf_eq unique (ranges ▸ member)
      refine ⟨by rw [nextSlot, kind]; rfl, decide (outer.2.startLine < marker.startLine), ?_, ?_⟩
      · simp only [StaffAssembly.isEnclosing, kind, range, bind, Except.bind]
        rfl
      · rw [decide_eq_true_iff, Unenclosed, closed]
        simp

/-- The node of a new repeat is not among the earlier ones. -/
theorem relink_repeatNodes_of_old (spliced : Spliced base times staff.ranges staff)
    {kind : NodeKind} (old : kindOf staff.nodes id = some kind) (count : Int) {after : Option Int}
    (slot : Nat) (target : Option Int) :
    relink (repeatNodes staff.next count holder head after) id slot target =
      repeatNodes staff.next count holder head after := by
  apply relink_of_notMem
  have early := (spliced.sound.lt_next old).2
  simp only [repeatNodes, List.map_cons, List.map_nil, List.mem_cons, List.not_mem_nil, or_false]
  omega

theorem kindOf_rerouted {kind : NodeKind} (known : kindOf staff.nodes id = some kind) :
    kindOf (staff.rerouted holder slot head).nodes id = some kind :=
  (kindOf_relink ..).trans ((kindOf_relink ..).trans known)

theorem nodes_entering (spliced : Spliced base times staff.ranges staff)
    (entrance : Entrance staff.ranges staff line holder slot)
    (known : staff.entry staff.ranges line = some head) :
    (staff.entering times marker holder slot head).nodes =
      (staff.rerouted holder slot head).nodes ++
        repeatNodes staff.next times holder head none := by
  obtain ⟨headKind, headKnown, -⟩ := spliced.kindOf_entry (List.Subset.refl _) known
  obtain ⟨holderKind, holderKnown, -⟩ := spliced.kindOf_entrance entrance
  have nodes : (staff.entering times marker holder slot head).nodes =
      relink (relink (staff.nodes ++ repeatNodes staff.next times holder head none) holder slot
        (some staff.next)) head Slot.previous (some staff.next) := rfl
  rw [nodes, relink_append, relink_append, spliced.relink_repeatNodes_of_old holderKnown,
    spliced.relink_repeatNodes_of_old headKnown]
  rfl

theorem nodes_leaving_entering (spliced : Spliced base times staff.ranges staff)
    (entrance : Entrance staff.ranges staff line holder slot)
    (known : staff.entry staff.ranges line = some head) {tail following : Int} {place : Nat}
    {tailKind followingKind : NodeKind} (tailKnown : kindOf staff.nodes tail = some tailKind)
    (followingKnown : kindOf staff.nodes following = some followingKind) :
    ((staff.entering times marker holder slot head).leaving staff.next tail place following).nodes =
      (((staff.rerouted holder slot head).setLink tail place none).setLink following
          Slot.previous (some staff.next)).nodes ++
        repeatNodes staff.next times holder head (some following) := by
  have fresh : staff.next ∉ (((staff.rerouted holder slot head).setLink tail place none).setLink
      following Slot.previous (some staff.next)).nodes.map Node.id := by
    have same : (((staff.rerouted holder slot head).setLink tail place none).setLink following
        Slot.previous (some staff.next)).nodes.map Node.id = staff.nodes.map Node.id :=
      (map_id_relink ..).trans ((map_id_relink ..).trans
        ((map_id_relink ..).trans (map_id_relink ..)))
    rw [same, spliced.sound.mem_ids_iff]
    omega
  have linked : relink (repeatNodes staff.next times holder head none) staff.next Slot.repeatNext
      (some following) = repeatNodes staff.next times holder head (some following) := by
    have other : staff.next + 1 ≠ staff.next := by omega
    simp only [relink, repeatNodes, List.map_cons, List.map_nil, ↓reduceIte, other]
    rfl
  rw [nodes_leaving, spliced.nodes_entering entrance known, relink_append, relink_append,
    relink_append, spliced.relink_repeatNodes_of_old tailKnown,
    spliced.relink_repeatNodes_of_old followingKnown, linked]
  congr 1
  exact relink_of_notMem fresh _

/-- What the new repeat takes the place of has it in front. -/
theorem previous_rerouted_head (spliced : Spliced base times staff.ranges staff)
    (known : staff.entry staff.ranges line = some head) :
    linkOf (staff.rerouted holder slot head).nodes head Slot.previous = some staff.next := by
  obtain ⟨headKind, headKnown, -⟩ := spliced.kindOf_entry (List.Subset.refl _) known
  refine (linkOf_relink ((kindOf_relink ..).trans headKnown) headKind.arity_pos _).trans ?_
  rw [if_pos ⟨rfl, rfl⟩]

/-- What is in front of a line that is not entered through the new repeat stays there. -/
theorem previous_rerouted (spliced : Spliced base times staff.ranges staff)
    (entrance : Entrance staff.ranges staff line holder slot)
    (known : staff.entry staff.ranges line = some head) (different : id ≠ head) :
    linkOf (staff.rerouted holder slot head).nodes id Slot.previous =
      linkOf staff.nodes id Slot.previous := by
  obtain ⟨headKind, headKnown, -⟩ := spliced.kindOf_entry (List.Subset.refl _) known
  obtain ⟨holderKind, holderKnown, chained⟩ := spliced.kindOf_entrance entrance
  have forward := one_le_of_isChainSlot chained
  refine (linkOf_relink ((kindOf_relink ..).trans headKnown) headKind.arity_pos _).trans ?_
  rw [if_neg fun both => different both.1]
  refine (linkOf_relink holderKnown (lt_arity_of_isChainSlot chained) _).trans ?_
  rw [if_neg fun both => absurd both.2 (Nat.ne_of_lt forward)]

/-- The line after the range leaves what it followed, unless an enclosing repeat keeps it. -/
theorem leaveRepeat_rerouted (spliced : Spliced base times staff.ranges staff)
    (entrance : Entrance staff.ranges staff line holder slot)
    (known : staff.entry staff.ranges line = some head) (within : 0 ≤ marker.endLine)
    (apart : line ≠ marker.endLine + 1) {following tail : Int} {place : Nat}
    (called : staff.callOf (marker.endLine + 1) = some following)
    (unopened : opener staff.ranges (marker.endLine + 1) = none)
    (exit : Entrance staff.ranges staff (marker.endLine + 1) tail place) :
    ∃ enclosing, (staff.rerouted holder slot head).leaveRepeat staff.next marker =
      .ok (if enclosing then (staff.rerouted holder slot head, none) else
        (((staff.rerouted holder slot head).setLink tail place none).setLink following
          Slot.previous (some staff.next), some following)) ∧
      (enclosing = true ↔ ¬Unenclosed staff.ranges marker) := by
  obtain ⟨tailKind, tailKnown, -⟩ := spliced.kindOf_entrance exit
  have followingKnown := spliced.sound.kindOf_call (callOf_mem called)
  have entered : staff.entry staff.ranges (marker.endLine + 1) = some following :=
    (entry_of_unopened unopened).trans called
  obtain ⟨followingNode, followingFound⟩ :
      ∃ node, findNode? (staff.rerouted holder slot head).nodes following = some node :=
    exists_node (kindOf_rerouted followingKnown)
  obtain ⟨tailNode, tailFound⟩ :
      ∃ node, findNode? (staff.rerouted holder slot head).nodes tail = some node :=
    exists_node (kindOf_rerouted tailKnown)
  have different : following ≠ head := by
    rintro rfl
    exact apart (spliced.sound.standsAt_unique (standsAt_of_entry (List.Subset.refl _) known)
      (standsAt_of_entry (List.Subset.refl _) entered))
  have previous : followingNode.previous = some tail := by
    rw [Node.previous, link_of_findNode? followingFound,
      spliced.previous_rerouted entrance known different, spliced.previous_entrance exit entered,
      if_neg (by omega)]
  have kind : kindOf staff.nodes tail = some tailNode.kind := by
    rw [tailKnown, kind_of_findNode? tailFound (kindOf_rerouted tailKnown)]
  have kept : (staff.rerouted holder slot head).callOf (marker.endLine + 1) = some following :=
    called
  obtain ⟨next, enclosing, decided, iff⟩ := spliced.isEnclosing within exit
    (staff.rerouted holder slot head) rfl (id_of_findNode? tailFound) kind
  refine ⟨enclosing, ?_, iff⟩
  rw [leaveRepeat_next kept followingFound previous tailFound decided, next]

/-- A repeat is spliced by climbing, entering and leaving. -/
theorem spliceRepeat_eq {first : Int} {firstNode : Node}
    (firstFound : findNode? staff.nodes first = some firstNode)
    (climbed : staff.climb marker (staff.ranges.length + 1) firstNode = .ok top)
    (topFound : findNode? staff.nodes head = some top)
    (entered : staff.enterRepeat staff.next top = .ok (staff.rerouted holder slot head, holder))
    {left : StaffAssembly} {after : Option Int}
    (leaves : (staff.rerouted holder slot head).leaveRepeat staff.next marker = .ok (left, after)) :
    staff.spliceRepeat times marker first = .ok { left with
      nodes := left.nodes ++ repeatNodes staff.next times holder head after
      next := staff.next + 2
      ranges := left.ranges ++ [(staff.next, marker)] } := by
  simp only [StaffAssembly.spliceRepeat, node_eq firstFound, climbed, entered, leaves, bind,
    Except.bind, id_of_findNode? topFound]
  rfl

/-- A marker in order becomes a repeat. -/
theorem spliceRepeat (spliced : Spliced base times staff.ranges staff)
    (beside : ∀ range ∈ staff.ranges, range.2.Beside marker)
    (within : 0 ≤ marker.startLine ∧ marker.startLine ≤ marker.endLine ∧
      marker.endLine < staff.calls.length) {first : Int}
    (called : staff.callOf marker.startLine = some first) :
    ∃ final, staff.spliceRepeat times marker first = .ok final ∧
      Spliced base times final.ranges final ∧
      final.ranges = staff.ranges ++ [(staff.next, marker)] ∧ final.calls = staff.calls ∧
      final.instrument = staff.instrument ∧ final.dropped = staff.dropped ∧
      stillNodes final.nodes = stillNodes staff.nodes := by
  have inside : 0 ≤ marker.startLine ∧ marker.startLine < staff.calls.length := by omega
  have holds : ∀ range ∈ staff.ranges, range.2.startLine = marker.startLine →
      marker.contains range.2 = true := by
    intro range member here
    rw [RepeatMarker.contains, here]
    simpa using (beside range member).2.1
  obtain ⟨firstNode, firstFound⟩ := exists_node (spliced.sound.kindOf_call (callOf_mem called))
  obtain ⟨top, head, climbed, known, topFound⟩ := spliced.climb inside holds staff.ranges []
    (staff.ranges.length + 1) rfl (Nat.lt_succ_self _) called firstFound
  obtain ⟨holder, slot, entrance⟩ : ∃ holder slot, Entrance staff.ranges staff _ holder slot :=
    exists_entrance inside
  have entered := spliced.enterRepeat entrance known topFound
  have after := spliced.entering entrance known beside within
  have still : stillNodes (staff.entering times marker holder slot head).nodes = _ :=
    spliced.stillNodes_entering entrance known
  have nodes : (staff.entering times marker holder slot head).nodes = _ :=
    spliced.nodes_entering entrance known
  have ranges : (staff.entering times marker holder slot head).ranges =
      staff.ranges ++ [(staff.next, marker)] := rfl
  -- Without anything to follow it, the repeat is as it was emitted.
  have alone : (staff.rerouted holder slot head).leaveRepeat staff.next marker =
      .ok (staff.rerouted holder slot head, none) → staff.spliceRepeat times marker first =
        .ok (staff.entering times marker holder slot head) := by
    intro left
    rw [spliceRepeat_eq firstFound climbed topFound entered left, ← nodes]
    rfl
  cases following : staff.callOf (marker.endLine + 1) with
  | none =>
      refine ⟨_, alone (leaveRepeat_last following), ?_, ranges, rfl, rfl, rfl, still⟩
      by_cases unenclosed : Unenclosed staff.ranges marker
      · exact after.leave_last ranges unenclosed following
      · exact after.leave_enclosed ranges unenclosed
  | some next =>
      have nextKnown := spliced.sound.kindOf_call (callOf_mem following)
      have unopened : opener staff.ranges (marker.endLine + 1) = none :=
        opener_eq_none_iff.mpr fun range member here => by
          have := (beside range member).1
          omega
      obtain ⟨tail, place, exit⟩ : ∃ tail place,
          Entrance staff.ranges staff (marker.endLine + 1) tail place :=
        exists_entrance (isSome_callOf.mp (Option.isSome_iff_exists.mpr ⟨next, following⟩))
      obtain ⟨tailKind, tailKnown, -⟩ := spliced.kindOf_entrance exit
      obtain ⟨enclosing, left, iff⟩ := spliced.leaveRepeat_rerouted entrance known (by omega)
        (by omega) following unopened exit
      cases enclosing with
      | true =>
          have enclosed := after.leave_enclosed ranges (iff.mp rfl)
          exact ⟨_, alone left, enclosed, ranges, rfl, rfl, rfl, still⟩
      | false =>
          have unenclosed : Unenclosed staff.ranges marker :=
            not_not.mp fun enclosed => Bool.false_ne_true (iff.mpr enclosed)
          refine ⟨(staff.entering times marker holder slot head).leaving staff.next tail place next,
            ?_, ?_, ranges, rfl, rfl, rfl, ?_⟩
          · rw [spliceRepeat_eq firstFound climbed topFound entered left,
              ← spliced.nodes_leaving_entering entrance known tailKnown nextKnown]
            rfl
          · exact after.leaving ranges unenclosed (spliced.linkOf_entering_new entrance known _)
              (exit.of_eq rfl rfl) ((after.entry_after_last ranges).trans following)
          · rw [after.stillNodes_leaving (exit.of_eq rfl rfl)
              ((after.entry_after_last ranges).trans following) (after.kindOf_last ranges), still]

end Spliced

end StaffAssembly

end TuneGraph
