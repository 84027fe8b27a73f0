import TuneGraph.Proofs.Compile.Staves
import TuneGraph.Proofs.Compile.Unroll
import TuneGraph.Proofs.Graph.Play

/-! # Play order

What is heard from the instrument-setter of a staff on are the lines of its part, with the
accepted repeats unrolled, and what is reached from the body of a repeat are the lines of its range
(`Tune.played_in_order`).
-/

namespace TuneGraph

open TuneGraph.Graph StaffAssembly RepeatMarker

namespace Graph

section Part

variable {graph nodes : List Node}

theorem findNode?_of_subset (unique : (graph.map Node.id).Nodup) (part : nodes ⊆ graph) {id : Int}
    {node : Node} (found : findNode? nodes id = some node) : findNode? graph id = some node := by
  obtain rfl := id_of_findNode? found
  exact findNode?_of_mem unique (part (mem_of_findNode? found))

theorem linkOf_of_subset (unique : (graph.map Node.id).Nodup) (part : nodes ⊆ graph) {id : Int}
    {kind : NodeKind} (known : kindOf nodes id = some kind) (slot : Nat) :
    linkOf graph id slot = linkOf nodes id slot := by
  obtain ⟨node, found, -⟩ := Option.map_eq_some_iff.mp known
  rw [linkOf, findNode?_of_subset unique part found, linkOf, found]

theorem Plays.of_subset (unique : (graph.map Node.id).Nodup) (part : nodes ⊆ graph)
    {link : Option Int} {heard : List Int} (plays : Plays nodes link heard) :
    Plays graph link heard := by
  induction plays with
  | silence => exact .silence
  | call found kind _ ih => exact .call (findNode?_of_subset unique part found) kind ih
  | repetition found kind counted counterFound counterKind value _ _ innerIh nextIh =>
      exact .repetition (findNode?_of_subset unique part found) kind counted
        (findNode?_of_subset unique part counterFound) counterKind value innerIh nextIh

end Part

end Graph

namespace StaffAssembly

variable {base times : Int} {staff : StaffAssembly}

/-- From the instrument-setter on, all lines are heard, unrolled. -/
theorem Spliced.plays (spliced : Spliced base times staff.ranges staff) :
    Plays staff.nodes (linkOf staff.nodes staff.instrument Slot.instrumentBody)
      ((unroll times.toNat (staff.ranges.map Prod.snd) 0 staff.calls.length).filterMap
        staff.callOf) := by
  rw [spliced.body]
  by_cases empty : staff.calls.length = 0
  · have silent : staff.entry staff.ranges 0 = none := by
      refine Option.eq_none_iff_forall_ne_some.mpr fun id known => ?_
      have := spliced.entry_inside (List.Subset.refl _) known
      omega
    rw [silent, empty, unroll]
    exact .silence
  · have within := spliced.within_staff (Nat.pos_of_ne_zero empty)
    exact spliced.plays_within _ within (by omega)

/-- What is heard from the body of a repeat on are the lines of its range. -/
theorem Spliced.exists_plays_body (spliced : Spliced base times staff.ranges staff)
    (often : 1 ≤ times) {range : Int × RepeatMarker} (member : range ∈ staff.ranges) :
    ∃ heard, Plays staff.nodes (linkOf staff.nodes range.1 Slot.repeatBody) heard ∧
      ∀ call, call ∈ heard ↔ ∃ line : Nat, range.2.startLine ≤ line ∧ line ≤ range.2.endLine ∧
        staff.calls[line]? = some call := by
  obtain ⟨before, after, split⟩ := List.append_of_mem member
  have inside := spliced.inside range member
  -- Of the ranges that begin with the same line, those that came earlier are inside the body.
  obtain ⟨available, shared⟩ : ∃ available, available =
      ((before.map Prod.snd).filter fun marker => marker.startLine = range.2.startLine) ++
        (staff.ranges.map Prod.snd).filter fun marker => range.2.startLine < marker.startLine :=
    ⟨_, rfl⟩
  have within : Within staff before (range :: after) available range.2.startLine
      range.2.endLine := by
    refine spliced.within_body split (fun marker begins _ => ?_) fun marker later _ _ => ?_
    · have kept : ((before.map Prod.snd).filter fun marker =>
          marker.startLine = range.2.startLine).count marker =
            (before.map Prod.snd).count marker := List.count_filter (by simpa using begins)
      rw [shared, List.count_append, kept, Nat.add_eq_left]
      refine List.count_eq_zero.mpr fun present => ?_
      have := of_decide_eq_true (List.mem_filter.mp present).2
      omega
    · have kept : ((staff.ranges.map Prod.snd).filter fun marker =>
          range.2.startLine < marker.startLine).count marker =
            (staff.ranges.map Prod.snd).count marker := List.count_filter (by simpa using later)
      rw [shared, List.count_append, kept, Nat.add_eq_right]
      refine List.count_eq_zero.mpr fun present => ?_
      have := of_decide_eq_true (List.mem_filter.mp present).2
      omega
  obtain ⟨count, size⟩ : ∃ count : Nat, range.2.endLine = range.2.startLine + count - 1 :=
    ⟨(range.2.endLine - range.2.startLine + 1).toNat, by omega⟩
  have plays := spliced.plays_within count within size
  rw [← spliced.repeatBody before range after split] at plays
  refine ⟨_, plays, fun call => ?_⟩
  rw [List.mem_filterMap]
  have repeated : 1 ≤ times.toNat := by omega
  constructor
  · rintro ⟨line, heard, called⟩
    obtain ⟨first, last⟩ := (mem_unroll repeated).mp heard
    obtain ⟨nonneg, known⟩ := callOf_eq_some_iff.mp called
    exact ⟨line.toNat, by omega, by omega, known⟩
  · rintro ⟨line, first, last, known⟩
    exact ⟨line, (mem_unroll repeated).mpr (by omega), (callOf_natCast line).trans known⟩

end StaffAssembly

/-- How the staff of a part is played, whose calls are those of its lines: the instrument-setter
plays all lines, with the accepted repeats unrolled, and nothing else, and from the body of a
repeat the calls of its lines are reached, and no others. -/
structure PlayedInOrder (times : Nat) (graph : List Node) (part : List Staff)
    (staff : List Node) : Prop where
  lines : (idsOf .lineCall staff).length = (voicesOf part).length
  order : ∃ setter heard, idsOf .instrumentSetter staff = [setter] ∧
    heard.map some = (unroll times (acceptedOf part) 0 (voicesOf part).length).map
      (fun line => (idsOf .lineCall staff)[line.toNat]?) ∧
    ∀ played, Plays graph (linkOf graph setter Slot.instrumentBody) played ↔ played = heard
  bodies : List.Forall₂ (fun (id : Int) (marker : RepeatMarker) =>
      ∀ call, kindOf graph call = some .lineCall →
        (Reached graph (linkOf graph id Slot.repeatBody) call ↔
          ∃ line : Nat, marker.startLine ≤ line ∧ line ≤ marker.endLine ∧
            (idsOf .lineCall staff)[line]? = some call))
    (idsOf .repetition staff) (acceptedOf part)

theorem map_some_filterMap_callOf {staff : StaffAssembly} {lines : List Int}
    (inside : ∀ line ∈ lines, 0 ≤ line ∧ line < staff.calls.length) :
    (lines.filterMap staff.callOf).map some =
      lines.map fun line => staff.calls[line.toNat]? := by
  induction lines with
  | nil => rfl
  | cons line lines ih =>
      obtain ⟨here, later⟩ := List.forall_mem_cons.mp inside
      obtain ⟨call, known⟩ := exists_callOf here
      rw [List.filterMap_cons_some known, List.map_cons, List.map_cons, ih later,
        (callOf_eq_some_iff.mp known).2]

theorem Assembled.playedInOrder {base times : Int} {part : List Staff} {staff : StaffAssembly}
    (assembled : Assembled base times part staff) (often : 1 ≤ times) {graph : List Node}
    (unique : (graph.map Node.id).Nodup) (subset : staff.nodes ⊆ graph)
    (counters : ∀ node ∈ graph, node.kind = .repeatCount → node.value = .integer times) :
    PlayedInOrder times.toNat graph part staff.nodes := by
  have spliced := assembled.spliced
  have sound := spliced.sound
  have calls := sound.calls
  have plays := spliced.plays.of_subset unique subset
  rw [assembled.accepted, assembled.lines,
    ← linkOf_of_subset unique subset sound.kindOf_instrument] at plays
  have known : ∀ line ∈ unroll times.toNat (acceptedOf part) 0 (voicesOf part).length,
      0 ≤ line ∧ line < staff.calls.length := by
    intro line member
    have := (mem_unroll (by omega)).mp member
    have := assembled.lines
    omega
  refine ⟨?_, ⟨staff.instrument, _, sound.setters, ?_, fun played =>
    ⟨fun also => also.unique plays, fun same => same.symm ▸ plays⟩⟩, ?_⟩
  · rw [calls, assembled.lines]
  · rw [calls]
    exact map_some_filterMap_callOf known
  · rw [sound.repeats, ← assembled.accepted, List.forall₂_map_left_iff,
      List.forall₂_map_right_iff, List.forall₂_same, calls]
    intro range member call isCall
    have known := sound.kindOf_repeat (List.mem_map_of_mem member)
    obtain ⟨heard, plays, lines⟩ := spliced.exists_plays_body often member
    have whole := plays.of_subset unique subset
    rw [linkOf_of_subset unique subset known, ← lines call,
      whole.mem_iff_reached unique ?_ isCall]
    intro counter inside kind played value
    rw [counters counter inside kind] at value
    cases value
    exact often

namespace Tune

variable {tune : Tune} {settings : Settings} {startId : Int} {compilation : Compilation}

/-- The staves of a compilation play the parts of the tune in order. -/
theorem played_in_order (compiled : tune.compile settings startId = .ok compilation) :
    List.Forall₂ (PlayedInOrder settings.repeatCount.toNat compilation.graph.nodes)
      tune.parts compilation.graph.staves := by
  obtain ⟨staves, same, forest, counters, all⟩ := exists_assembled compiled
  rw [same, List.forall₂_map_right_iff]
  refine all.imp fun part staff ⟨subset, base, assembled⟩ => ?_
  exact assembled.playedInOrder settings.repeatCount_pos forest.unique subset counters

theorem played_repeat_of_two_lines : ∃ compilation,
    (ofVoices [[.bar .repeatOpen, .note {}], [.note {}, .bar .repeatClose]]).compile .standard 0 =
      .ok compilation ∧
    List.Forall₂ (PlayedInOrder 2 compilation.graph.nodes)
      [[{ voices := [[.bar .repeatOpen, .note {}], [.note {}, .bar .repeatClose]] }]]
      compilation.graph.staves := by
  obtain ⟨compilation, compiled⟩ := (compile_returns
    (ofVoices [[.bar .repeatOpen, .note {}], [.note {}, .bar .repeatClose]])
    standard_labelsFill (Int.le_refl 0)).1 (by decide)
  exact ⟨compilation, compiled, played_in_order compiled⟩

end Tune

end TuneGraph
