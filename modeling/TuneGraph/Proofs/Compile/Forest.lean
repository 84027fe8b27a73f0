import TuneGraph.Proofs.Compile.Resolve

/-! # Staves as forests

A staff with its repeats is a doubly linked forest (`StaffAssembly.Spliced.interlinked`). Forward
links end: a call and a repeat lead to later lines or, through the body, to an earlier repeat that
begins on the same line, and all other nodes lead to greater ids.
-/

namespace TuneGraph

open TuneGraph.Graph

namespace StaffAssembly

variable {base times : Int} {staff : StaffAssembly} {line id held : Int}

namespace Spliced

/-- A slot of a node of a known kind leads on only within its kind's arity. -/
theorem slot_of_leads (spliced : Spliced base times staff.ranges staff) {kind : NodeKind}
    (known : kindOf staff.nodes id = some kind) (leads : Leads staff.nodes id held) :
    ∃ slot, 1 ≤ slot ∧ slot < kind.arity ∧ linkOf staff.nodes id slot = some held := by
  obtain ⟨slot, holds⟩ := leads
  obtain ⟨forward, link⟩ := (holds_iff_linkOf spliced.sound.nodup).mp holds
  obtain ⟨node, found⟩ := exists_node known
  have inside := node.lt_arity_of_link ((link_of_findNode? found slot).trans link)
  rw [kind_of_findNode? found known] at inside
  exact ⟨slot, forward, inside, link⟩

/-- Only lines of the staff are entered. -/
theorem entry_inside (spliced : Spliced base times staff.ranges staff)
    {ranges : List (Int × RepeatMarker)} (subset : ranges ⊆ staff.ranges)
    (known : staff.entry ranges line = some id) : 0 ≤ line ∧ line < staff.calls.length := by
  rcases standsAt_of_entry subset known with call | ⟨range, member, -, rfl⟩
  · exact isSome_callOf.mp (Option.isSome_iff_exists.mpr ⟨id, call⟩)
  · have within := spliced.inside range member
    omega

/-- The count of a repeat leads nowhere. -/
theorem acc_count (spliced : Spliced base times staff.ranges staff)
    (known : kindOf staff.nodes id = some .repeatCount) :
    Acc (fun held holder => Leads staff.nodes holder held) id := by
  refine Acc.intro _ fun held leads => ?_
  obtain ⟨slot, forward, inside, -⟩ := spliced.slot_of_leads known leads
  exact absurd inside (Nat.not_lt_of_le forward)

/-- Below a line there is an end: its call leads to the next line, and a repeat that begins there
to its count, to what the line was entered through before, and to a later line. -/
theorem acc_entry (spliced : Spliced base times staff.ranges staff) (distance : Nat)
    (near : staff.calls.length - line ≤ distance) (before after : List (Int × RepeatMarker))
    (split : staff.ranges = before ++ after) (known : staff.entry before line = some id) :
    Acc (fun held holder => Leads staff.nodes holder held) id := by
  induction distance generalizing line before after id with
  | zero =>
      have inside := spliced.entry_inside (split ▸ List.subset_append_left ..) known
      omega
  | succ distance later =>
      have next : ∀ {line held : Int}, staff.calls.length - line ≤ distance →
          staff.entry staff.ranges line = some held →
            Acc (fun held holder => Leads staff.nodes holder held) held := fun near entered =>
        later near staff.ranges [] (List.append_nil _).symm entered
      induction before using List.reverseRecOn generalizing after id with
      | nil =>
          have call : staff.callOf line = some id := known
          refine Acc.intro _ fun held leads => ?_
          obtain ⟨slot, forward, inside, link⟩ :=
            spliced.slot_of_leads (spliced.sound.kindOf_call (callOf_mem call)) leads
          obtain rfl : slot = Slot.callNext := Nat.le_antisymm (Nat.le_of_lt_succ inside) forward
          rw [spliced.callNext line id call] at link
          split at link
          · exact next (by omega) link
          · cases link
      | append_singleton before range earlier =>
          have split' : staff.ranges = before ++ range :: after := by
            rw [split, List.append_assoc]
            rfl
          rw [entry_concat] at known
          split at known
          · rename_i here
            obtain rfl := Option.some.inj known
            have member : range ∈ staff.ranges := mem_of_split split'
            have within := spliced.inside range member
            refine Acc.intro _ fun held leads => ?_
            obtain ⟨slot, forward, inside, link⟩ :=
              spliced.slot_of_leads (spliced.sound.kindOf_repeat (List.mem_map_of_mem member)) leads
            rcases Slot.repeat_cases forward inside with rfl | rfl | rfl
            · obtain ⟨counted, counter⟩ := spliced.repeatCount range member
              rw [counted] at link
              obtain rfl := Option.some.inj link
              exact spliced.acc_count counter
            · rw [spliced.repeatBody before range after split', here] at link
              exact earlier _ split' link
            · rw [spliced.repeatNext range member] at link
              split at link
              · exact next (by omega) link
              · cases link
          · exact earlier _ split' known

theorem acc_chain (spliced : Spliced base times staff.ranges staff)
    (member : id ∈ staff.chainIds) :
    Acc (fun held holder => Leads staff.nodes holder held) id := by
  rcases List.mem_append.mp member with call | repeated
  · obtain ⟨line, known⟩ := exists_callOf_of_mem call
    exact spliced.acc_entry _ (Int.self_le_toNat _) [] _ rfl known
  · obtain ⟨range, inside, rfl⟩ := List.mem_map.mp repeated
    obtain ⟨before, after, split⟩ := List.append_of_mem inside
    have known : staff.entry (before ++ [range]) range.2.startLine = some range.1 := by
      rw [entry_concat, if_pos rfl]
    refine spliced.acc_entry _ (Int.self_le_toNat _) (before ++ [range]) after ?_ known
    rw [split, List.append_assoc]
    rfl

/-- Below every node there is an end: the nodes that are not in the chain hold greater ids. -/
theorem wellFounded (spliced : Spliced base times staff.ranges staff) :
    WellFounded fun held holder => Leads staff.nodes holder held := by
  have all : ∀ (distance : Nat) (id : Int), staff.next - id ≤ distance →
      Acc (fun held holder => Leads staff.nodes holder held) id := by
    intro distance
    induction distance with
    | zero =>
        rintro id near
        refine Acc.intro _ fun held ⟨slot, _, node, member, same, _⟩ => ?_
        have := (spliced.sound.mem_ids_iff.mp (List.mem_map_of_mem member)).2
        omega
    | succ distance ih =>
        rintro id near
        refine Acc.intro _ fun held ⟨slot, forward, node, member, same, link⟩ => ?_
        have tiered := spliced.sound.tiered node member slot held forward link
        split at tiered
        · exact spliced.acc_chain tiered
        · exact ih held (by omega)
  exact ⟨fun id => all _ id (Int.self_le_toNat _)⟩

/-- The direct pair belongs to an instrument-setter that holds a call without a link back. -/
theorem heldDirectly_of_mem_direct (spliced : Spliced base times staff.ranges staff)
    {pair : Int × Int} (member : pair ∈ staff.direct) :
    HeldDirectly staff.nodes pair.1 pair.2 := by
  unfold direct at member
  split at member
  · cases member
  · rename_i unopened
    have unopened : opener staff.ranges 0 = none := Option.not_isSome_iff_eq_none.mp unopened
    obtain ⟨call, called, rfl⟩ := Option.map_eq_some_iff.mp (Option.mem_toList.mp member)
    have entered : staff.entry staff.ranges 0 = some call :=
      (entry_of_unopened unopened).trans called
    have callKnown := spliced.sound.kindOf_call (callOf_mem called)
    obtain ⟨setter, setterFound⟩ := exists_node spliced.sound.kindOf_instrument
    obtain ⟨node, found⟩ := exists_node callKnown
    refine ⟨setter, mem_of_findNode? setterFound, id_of_findNode? setterFound,
      kind_of_findNode? setterFound spliced.sound.kindOf_instrument, ?_, node,
      mem_of_findNode? found, id_of_findNode? found, kind_of_findNode? found callKnown, ?_⟩
    · rw [link_of_findNode? setterFound, spliced.body, entered]
    · rw [Node.previous, link_of_findNode? found, spliced.previous_entrance .instrument entered,
        if_pos ⟨rfl, unopened⟩]

/-- The first call has something in front of it once a repeat begins there. -/
theorem unopened_of_free (spliced : Spliced base times staff.ranges staff) {call : Int}
    (called : staff.callOf 0 = some call)
    (free : linkOf staff.nodes call Slot.previous = none) : opener staff.ranges 0 = none := by
  refine opener_eq_none_iff.mpr fun range member here => ?_
  have found : (staff.ranges.find? fun range => range.2.startLine = 0).isSome = true :=
    List.find?_isSome.mpr ⟨range, member, decide_eq_true here⟩
  obtain ⟨first, isFirst⟩ := Option.isSome_iff_exists.mp found
  obtain ⟨begins, before, after, split, none⟩ := List.find?_eq_some_iff_append.mp isFirst
  have unopened : opener before 0 = Option.none := opener_eq_none_iff.mpr fun earlier inside => by
    simpa using none earlier inside
  have behind := spliced.innerPrevious before first after split call
  rw [of_decide_eq_true begins, entry_of_unopened unopened, free] at behind
  exact Option.some_ne_none _ (behind called).symm

/-- A staff with its repeats is a doubly linked forest. -/
theorem interlinked (spliced : Spliced base times staff.ranges staff) :
    Interlinked staff.nodes where
  unique := spliced.sound.nodup
  reciprocal := by
    refine ⟨staff.direct, spliced.reciprocal, ?_, fun pair => spliced.heldDirectly_of_mem_direct⟩
    unfold direct
    split
    · exact List.nodup_nil
    · cases staff.callOf 0 <;> simp
  root_previous := spliced.sound.root_previous
  rooted := by
    intro node member free
    refine (spliced.sound.rooted node member free).imp_right fun first => ?_
    have called : staff.callOf 0 = some node.id := callOf_zero.trans first
    have link : linkOf staff.nodes node.id Slot.previous = none :=
      (linkOf_of_mem spliced.sound.nodup member Slot.previous).trans free
    have unopened := spliced.unopened_of_free called link
    have pair : (staff.instrument, node.id) ∈ staff.direct := by
      rw [direct, unopened, called]
      exact List.mem_singleton_self _
    exact ⟨staff.instrument, spliced.heldDirectly_of_mem_direct pair⟩
  chained := by
    intro holder holderIn held heldIn slot forward link
    have tiered := spliced.sound.tiered holder holderIn slot held.id forward link
    rw [spliced.sound.mem_chainIds_iff heldIn] at tiered
    split at tiered
    · rename_i chained
      rw [tiered, chained]
    · rename_i loose
      rw [Bool.eq_false_iff.mpr tiered.1, Bool.eq_false_iff.mpr loose]
  wellFounded := spliced.wellFounded

end Spliced

end StaffAssembly

end TuneGraph
