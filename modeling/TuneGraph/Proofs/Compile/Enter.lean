import TuneGraph.Proofs.Compile.Chain
import TuneGraph.Proofs.Graph.Still

/-! # Entering a repeat

A repeat is spliced into the chain in two steps. It first takes the place of the entry of its first
line (`StaffAssembly.Spliced.entering`); the line after its range follows it later, so that the
closers are still those of the repeats before.
-/

namespace TuneGraph

open TuneGraph.Graph

namespace StaffAssembly

variable {base times : Int} {closing : List (Int × RepeatMarker)} {staff : StaffAssembly}

/-- A staff with one more repeat that no node leads to yet. -/
def withRepeat (staff : StaffAssembly) (count : Int) (marker : RepeatMarker) (holder head : Int) :
    StaffAssembly :=
  { staff with
    nodes := staff.nodes ++ repeatNodes staff.next count holder head none
    next := staff.next + 2
    ranges := staff.ranges ++ [(staff.next, marker)] }

/-- A staff with one more repeat, in the place of a node that a slot of another one holds. -/
def entering (staff : StaffAssembly) (count : Int) (marker : RepeatMarker) (holder : Int)
    (slot : Nat) (head : Int) : StaffAssembly :=
  ((staff.withRepeat count marker holder head).setLink holder slot (some staff.next)).setLink head
    Slot.previous (some staff.next)

section RepeatNodes

variable (id count holder head : Int)

/-- The first node of a repeat is found under its id. -/
theorem findNode?_repeatNodes_repeat : findNode? (repeatNodes id count holder head none) id =
    some { id, kind := .repetition, links := [some holder, some (id + 1), some head, none] } :=
  List.find?_cons_of_pos (beq_self_eq_true id)

/-- A repeat has its holder, its count and its head in its first slots, and nothing next. -/
theorem linkOf_repeatNodes (slot : Nat) : linkOf (repeatNodes id count holder head none) id slot =
    ([some holder, some (id + 1), some head, none][slot]?).join := by
  rw [linkOf, findNode?_repeatNodes_repeat, Option.bind_some, Node.link]

/-- A repeat holds its count and its head. -/
theorem heldPairs_repeatNodes : heldPairs (repeatNodes id count holder head none) =
    [(id, id + 1), (id, head)] := rfl

/-- A repeat is behind its holder, and its count is behind it. -/
theorem previousPairs_repeatNodes : previousPairs (repeatNodes id count holder head none) =
    [(holder, id), (id, id + 1)] := rfl

end RepeatNodes

section Enter

variable {holder head id : Int} {slot : Nat} {marker : RepeatMarker} {kind : NodeKind}

/-- A sound staff is sound with the nodes of one more repeat, before the repeat is linked. -/
theorem Sound.withRepeat (sound : Sound base times staff) (chained : head ∈ staff.chainIds) :
    Sound base times (staff.withRepeat times marker holder head) := by
  have early := sound.chainIds_lt chained
  refine sound.extend rfl rfl rfl (List.append_nil _).symm ?_ ⟨rfl, rfl, trivial⟩ ⟨rfl, rfl⟩
    ?_ ?_ ?_ ?_
  · exact List.map_append
  · exact List.forall_mem_cons.mpr ⟨nofun, List.forall_mem_singleton.mpr fun _ => rfl⟩
  · refine List.forall_mem_cons.mpr ⟨?_, List.forall_mem_singleton.mpr ?_⟩
    · intro slot held forward link
      have inside := Node.lt_arity_of_link _ link
      rcases Slot.repeat_cases forward inside with rfl | rfl | rfl
      · obtain rfl : staff.next + 1 = held := Option.some.inj link
        refine ⟨fun member => ?_, Int.lt_succ _, Int.add_lt_add_left (by decide) _⟩
        rcases List.mem_append.mp member with call | range
        · exact absurd (sound.lt_next (sound.kindOf_call call)).2 (by omega)
        · obtain ⟨range, member, same⟩ := List.mem_map.mp range
          rcases List.mem_append.mp member with old | new
          · have known := sound.kindOf_repeat (List.mem_map_of_mem old)
            exact absurd (sound.lt_next known).2 (by omega)
          · obtain rfl := List.mem_singleton.mp new
            exact absurd same (by omega)
      · obtain rfl : head = held := Option.some.inj link
        rcases List.mem_append.mp chained with call | range
        · exact List.mem_append_left _ call
        · exact List.mem_append_right _ (List.map_subset _ (List.subset_append_left ..) range)
      · cases link
    · intro slot held forward link
      exact absurd (Node.lt_arity_of_link _ link) (Nat.not_lt.mpr forward)
  · exact List.forall_mem_cons.mpr ⟨nofun, List.forall_mem_singleton.mpr nofun⟩
  · exact List.forall_mem_cons.mpr ⟨nofun, List.forall_mem_singleton.mpr nofun⟩

namespace Spliced

/-- The entry of a line is on the chain. -/
theorem mem_chainIds_of_entry {ranges : List (Int × RepeatMarker)} {line : Int}
    (subset : ranges ⊆ staff.ranges) (known : staff.entry ranges line = some head) :
    head ∈ staff.chainIds := by
  rcases standsAt_of_entry subset known with call | ⟨range, member, rfl, -⟩
  · exact List.mem_append_left _ (callOf_mem call)
  · exact List.mem_append_right _ (List.mem_map_of_mem member)

/-- The entry of a line is no root. -/
theorem kindOf_entry (spliced : Spliced base times closing staff)
    {ranges : List (Int × RepeatMarker)} {line : Int} (subset : ranges ⊆ staff.ranges)
    (known : staff.entry ranges line = some head) :
    ∃ kind, kindOf staff.nodes head = some kind ∧ isRootKind kind = false := by
  rcases standsAt_of_entry subset known with call | ⟨range, member, rfl, -⟩
  · exact ⟨_, spliced.sound.kindOf_call (callOf_mem call), rfl⟩
  · exact ⟨_, spliced.sound.kindOf_repeat (List.mem_map_of_mem member), rfl⟩

variable {line : Int}

/-- A spliced staff is sound with the nodes of one more repeat at the entry of a line. -/
theorem sound_withRepeat (spliced : Spliced base times closing staff)
    (known : staff.entry staff.ranges line = some head) :
    Sound base times (staff.withRepeat times marker holder head) :=
  spliced.sound.withRepeat (mem_chainIds_of_entry (List.Subset.refl _) known)

/-- The nodes of a repeat leave the kinds of the earlier nodes as they are. -/
theorem kindOf_withRepeat (known : kindOf staff.nodes id = some kind) :
    kindOf (staff.withRepeat times marker holder head).nodes id = some kind :=
  (kindOf_append_left (mem_ids_of_kindOf known)).trans known

/-- The nodes of a repeat leave the links of the earlier nodes as they are. -/
theorem linkOf_withRepeat (known : kindOf staff.nodes id = some kind) (query : Nat) :
    linkOf (staff.withRepeat times marker holder head).nodes id query =
      linkOf staff.nodes id query :=
  linkOf_append_left (mem_ids_of_kindOf known) query

/-- The count of a repeat comes behind it. -/
theorem kindOf_withRepeat_count (spliced : Spliced base times closing staff) :
    kindOf (staff.withRepeat times marker holder head).nodes (staff.next + 1) =
      some .repeatCount := by
  have fresh : staff.next + 1 ∉ staff.nodes.map Node.id := by
    rw [spliced.sound.mem_ids_iff]
    omega
  refine (kindOf_append_right fresh).trans ?_
  rw [kindOf, findNode?, repeatNodes, List.find?_cons_of_neg (by simp), List.find?_cons_of_pos
    (by simp)]
  rfl

/-- Entering changes the slot that held the entry of the line and what is in front of it. -/
theorem linkOf_entering (spliced : Spliced base times closing staff)
    (entrance : Entrance closing staff line holder slot)
    (known : staff.entry staff.ranges line = some head) (id : Int) (query : Nat) :
    linkOf (staff.entering times marker holder slot head).nodes id query =
      if id = head ∧ query = Slot.previous then some staff.next
      else if id = holder ∧ query = slot then some staff.next
      else linkOf (staff.withRepeat times marker holder head).nodes id query := by
  obtain ⟨headKind, headKnown, -⟩ := spliced.kindOf_entry (List.Subset.refl _) known
  obtain ⟨holderKind, holderKnown, chained⟩ := spliced.kindOf_entrance entrance
  have first : kindOf (relink (staff.withRepeat times marker holder head).nodes holder slot
      (some staff.next)) head = some headKind :=
    (kindOf_relink ..).trans (kindOf_withRepeat headKnown)
  refine (linkOf_relink first headKind.arity_pos query).trans ?_
  congr 1
  exact linkOf_relink (kindOf_withRepeat holderKnown) (lt_arity_of_isChainSlot chained) query

/-- Entering does not change the links of the repeat. -/
theorem linkOf_entering_new (spliced : Spliced base times closing staff)
    (entrance : Entrance closing staff line holder slot)
    (known : staff.entry staff.ranges line = some head) (query : Nat) :
    linkOf (staff.entering times marker holder slot head).nodes staff.next query =
      ([some holder, some (staff.next + 1), some head, none][query]?).join := by
  obtain ⟨headKind, headKnown, -⟩ := spliced.kindOf_entry (List.Subset.refl _) known
  obtain ⟨holderKind, holderKnown, -⟩ := spliced.kindOf_entrance entrance
  have headEarly := (spliced.sound.lt_next headKnown).2
  have holderEarly := (spliced.sound.lt_next holderKnown).2
  have fresh : staff.next ∉ staff.nodes.map Node.id := by
    rw [spliced.sound.mem_ids_iff]
    omega
  rw [spliced.linkOf_entering entrance known, if_neg (by omega), if_neg (by omega)]
  exact (linkOf_append_right fresh query).trans (linkOf_repeatNodes ..)

/-- A spliced staff is sound after entering. -/
theorem sound_entering (spliced : Spliced base times closing staff)
    (entrance : Entrance closing staff line holder slot)
    (known : staff.entry staff.ranges line = some head) :
    Sound base times (staff.entering times marker holder slot head) := by
  obtain ⟨headKind, headKnown, inner⟩ := spliced.kindOf_entry (List.Subset.refl _) known
  obtain ⟨holderKind, holderKnown, chained⟩ := spliced.kindOf_entrance entrance
  have sound : Sound base times (staff.withRepeat times marker holder head) :=
    spliced.sound_withRepeat known
  refine (sound.setLink (kindOf_withRepeat holderKnown) chained ?_).setPrevious ?_ inner
  · intro held same
    obtain rfl := Option.some.inj same
    refine List.mem_append_right _ (List.mem_map.mpr ⟨(staff.next, marker), ?_, rfl⟩)
    exact List.mem_append_right _ (List.mem_singleton_self _)
  · exact (kindOf_relink ..).trans (kindOf_withRepeat headKnown)

/-- Entering leaves the still nodes. -/
theorem stillNodes_entering (spliced : Spliced base times closing staff)
    (entrance : Entrance closing staff line holder slot)
    (known : staff.entry staff.ranges line = some head) :
    stillNodes (staff.entering times marker holder slot head).nodes = stillNodes staff.nodes := by
  obtain ⟨headKind, headKnown, chain⟩ :=
    spliced.sound.kindOf_chainIds (mem_chainIds_of_entry (List.Subset.refl _) known)
  obtain ⟨holderKind, holderKnown, chained⟩ := spliced.kindOf_entrance entrance
  have sound : Sound base times (staff.withRepeat times marker holder head) :=
    spliced.sound_withRepeat known
  have unique : ((relink (staff.withRepeat times marker holder head).nodes holder slot
      (some staff.next)).map Node.id).Nodup := by
    rw [map_id_relink]
    exact sound.nodup
  have middle : kindOf (relink (staff.withRepeat times marker holder head).nodes holder slot
      (some staff.next)) head = some headKind :=
    (kindOf_relink ..).trans (kindOf_withRepeat headKnown)
  have nodes : (staff.entering times marker holder slot head).nodes =
      relink (relink (staff.withRepeat times marker holder head).nodes holder slot
        (some staff.next)) head Slot.previous (some staff.next) := rfl
  rw [nodes, stillNodes_relink unique middle (Or.inl chain),
    stillNodes_relink sound.nodup (kindOf_withRepeat holderKnown) (Or.inr chained)]
  exact stillNodes_append.trans (List.append_nil _)

/-- The pair that entering answers is the direct one, or the one that it leaves unanswered. -/
theorem direct_entering (spliced : Spliced base times closing staff)
    (entrance : Entrance closing staff marker.startLine holder slot)
    (known : staff.entry staff.ranges marker.startLine = some head) :
    (staff.direct ++ ((linkOf staff.nodes head Slot.previous).map (·, head)).toList).Perm
      ((staff.entering times marker holder slot head).direct ++ [(holder, head)]) := by
  have after : (staff.entering times marker holder slot head).direct =
      if marker.startLine = 0 then [] else staff.direct := by
    unfold direct
    have same : (staff.entering times marker holder slot head).ranges =
        staff.ranges ++ [(staff.next, marker)] := rfl
    rw [same, opener_concat]
    split
    · rfl
    · rfl
  rw [after, spliced.previous_entrance entrance known]
  by_cases first : marker.startLine = 0
  · rw [if_pos first]
    cases opened : opener staff.ranges 0 with
    | none =>
        have here : holder = staff.instrument :=
          ((spliced.instrument_entrance_iff entrance).mpr first).1.symm
        rw [first, entry_of_unopened opened] at known
        rw [if_pos ⟨first, rfl⟩, direct, opened, known, here]
        exact List.Perm.refl _
    | some range =>
        rw [if_neg (by simp), direct, opened]
        exact List.Perm.refl _
  · rw [if_neg first, if_neg fun both => first both.1]
    exact List.Perm.refl _

/-- Links are reciprocal after entering, if the body of the instrument is left aside. -/
theorem reciprocal_entering (spliced : Spliced base times closing staff)
    (entrance : Entrance closing staff marker.startLine holder slot)
    (known : staff.entry staff.ranges marker.startLine = some head) :
    Reciprocal (staff.entering times marker holder slot head).nodes
      (staff.entering times marker holder slot head).direct := by
  obtain ⟨headKind, headKnown, -⟩ := spliced.kindOf_entry (List.Subset.refl _) known
  obtain ⟨holderKind, holderKnown, chained⟩ := spliced.kindOf_entrance entrance
  have sound : Sound base times (staff.withRepeat times marker holder head) :=
    spliced.sound_withRepeat known
  have forward := one_le_of_isChainSlot chained
  have inside := lt_arity_of_isChainSlot chained
  have middle : kindOf (relink (staff.withRepeat times marker holder head).nodes holder slot
      (some staff.next)) head = some headKind :=
    (kindOf_relink ..).trans (kindOf_withRepeat headKnown)
  have unique : ((relink (staff.withRepeat times marker holder head).nodes holder slot
      (some staff.next)).map Node.id).Nodup := by
    rw [map_id_relink]
    exact sound.nodup
  have forwards := heldPairs_relink sound.nodup (kindOf_withRepeat holderKnown) forward inside
    (some staff.next)
  have back := previousPairs_relink unique middle (some staff.next) headKind.arity_pos
  have direct : (staff.direct ++ _).Perm
      ((staff.entering times marker holder slot head).direct ++ _) :=
    spliced.direct_entering entrance known
  rw [linkOf_withRepeat holderKnown, spliced.link_entrance entrance, known] at forwards
  rw [previousPairs_relink_forward forward, linkOf_relink (kindOf_withRepeat holderKnown) inside,
    if_neg fun both => absurd both.2 (Nat.ne_of_lt forward), linkOf_withRepeat headKnown] at back
  have nodes : (staff.entering times marker holder slot head).nodes =
      relink (relink (staff.withRepeat times marker holder head).nodes holder slot
        (some staff.next)) head Slot.previous (some staff.next) := rfl
  have heldBefore : heldPairs (staff.withRepeat times marker holder head).nodes = _ :=
    heldPairs_append ..
  have previousBefore : previousPairs (staff.withRepeat times marker holder head).nodes = _ :=
    previousPairs_append ..
  rw [heldBefore, heldPairs_repeatNodes] at forwards
  rw [previousBefore, previousPairs_repeatNodes] at back
  rw [Reciprocal, nodes, heldPairs_relink_previous]
  apply List.perm_iff_count.mpr
  intro pair
  have agreed := spliced.reciprocal.count_eq pair
  have forwardsCount := forwards.count_eq pair
  have backCount := back.count_eq pair
  have directCount := direct.count_eq pair
  simp only [List.count_append, List.count_cons, List.count_nil, Option.map_some,
    Option.toList_some] at agreed forwardsCount backCount directCount ⊢
  omega

/-- Entering changes one forward link of the earlier nodes: the slot that held the entry. -/
theorem forward_entering (spliced : Spliced base times closing staff)
    (entrance : Entrance closing staff line holder slot)
    (known : staff.entry staff.ranges line = some head) (old : kindOf staff.nodes id = some kind)
    {query : Nat} (forward : 1 ≤ query) :
    linkOf (staff.entering times marker holder slot head).nodes id query =
      if id = holder ∧ query = slot then some staff.next else linkOf staff.nodes id query := by
  rw [spliced.linkOf_entering entrance known, if_neg fun both => absurd both.2
    (Nat.ne_of_gt forward), linkOf_withRepeat old]

/-- Entering changes one link back of the earlier nodes: that of the entry. -/
theorem back_entering (spliced : Spliced base times closing staff)
    (entrance : Entrance closing staff line holder slot)
    (known : staff.entry staff.ranges line = some head) (old : kindOf staff.nodes id = some kind) :
    linkOf (staff.entering times marker holder slot head).nodes id Slot.previous =
      if id = head then some staff.next else linkOf staff.nodes id Slot.previous := by
  obtain ⟨holderKind, holderKnown, chained⟩ := spliced.kindOf_entrance entrance
  have forward := one_le_of_isChainSlot chained
  rw [spliced.linkOf_entering entrance known, linkOf_withRepeat old]
  simp only [and_true]
  congr 1
  exact if_neg fun both => absurd both.2 (Nat.ne_of_lt forward)

section Fields

variable (spliced : Spliced base times staff.ranges staff)
  (entrance : Entrance staff.ranges staff marker.startLine holder slot)
  (known : staff.entry staff.ranges marker.startLine = some head)

include spliced entrance known

/-- After entering, the body of the instrument is the entry of the first line. -/
theorem body_entering :
    linkOf (staff.entering times marker holder slot head).nodes staff.instrument
        Slot.instrumentBody =
      staff.entry (staff.ranges ++ [(staff.next, marker)]) 0 := by
  refine (spliced.forward_entering entrance known spliced.sound.kindOf_instrument
    (by decide)).trans ?_
  rw [spliced.body, entry_concat]
  exact if_congr (spliced.instrument_entrance_iff entrance) rfl rfl

/-- After entering, a call is followed by the entry of the next line unless a range ends on its
line. -/
theorem callNext_entering {line call : Int} (called : staff.callOf line = some call) :
    linkOf (staff.entering times marker holder slot head).nodes call Slot.callNext =
      if closer staff.ranges line = none then
        staff.entry (staff.ranges ++ [(staff.next, marker)]) (line + 1) else none := by
  have old := spliced.sound.kindOf_call (callOf_mem called)
  rw [entry_concat, spliced.forward_entering entrance known old (by decide),
    spliced.callNext line call called, ← ite_and_ite]
  refine if_congr ((spliced.call_entrance_iff entrance called).trans ?_) rfl rfl
  exact and_congr_left fun _ => eq_comm

/-- After entering, the last repeat that ends on a line is followed by the entry of the next line,
and the others are followed by nothing. -/
theorem repeatNext_entering {range : Int × RepeatMarker}
    (member : range ∈ staff.ranges ++ [(staff.next, marker)]) :
    linkOf (staff.entering times marker holder slot head).nodes range.1 Slot.repeatNext =
      if closer staff.ranges range.2.endLine = some range then
        staff.entry (staff.ranges ++ [(staff.next, marker)]) (range.2.endLine + 1) else none := by
  rcases List.mem_append.mp member with old | new
  · have kind := spliced.sound.kindOf_repeat (List.mem_map_of_mem old)
    rw [entry_concat, spliced.forward_entering entrance known kind (by decide),
      spliced.repeatNext range old, ← ite_and_ite]
    refine if_congr ((spliced.repeat_entrance_iff entrance old).trans ?_) rfl rfl
    exact and_congr_left fun _ => eq_comm
  · obtain rfl := List.mem_singleton.mp new
    rw [spliced.linkOf_entering_new entrance known, if_neg]
    · rfl
    · intro closed
      have old := spliced.sound.kindOf_repeat (List.mem_map_of_mem (closer_mem closed).1)
      exact Int.lt_irrefl _ (spliced.sound.lt_next old).2

/-- After entering, the body of a repeat is what was the entry of its first line before it. -/
theorem repeatBody_entering {before after : List (Int × RepeatMarker)}
    {range : Int × RepeatMarker}
    (split : staff.ranges ++ [(staff.next, marker)] = before ++ range :: after) :
    linkOf (staff.entering times marker holder slot head).nodes range.1 Slot.repeatBody =
      staff.entry before range.2.startLine := by
  rcases split_concat split with ⟨rfl, rfl, -⟩ | ⟨inner, earlier, -⟩
  · rw [spliced.linkOf_entering_new entrance known]
    exact known.symm
  · have member := mem_of_split earlier
    have old := spliced.sound.kindOf_repeat (List.mem_map_of_mem member)
    rw [spliced.forward_entering entrance known old (by decide),
      if_neg (spliced.repeat_entrance_next entrance member (by decide))]
    exact spliced.repeatBody before range inner earlier

/-- After entering, a repeat has its count in the id behind its own. -/
theorem repeatCount_entering {range : Int × RepeatMarker}
    (member : range ∈ staff.ranges ++ [(staff.next, marker)]) :
    linkOf (staff.entering times marker holder slot head).nodes range.1 Slot.repeatCount =
        some (range.1 + 1) ∧
      kindOf (staff.entering times marker holder slot head).nodes (range.1 + 1) =
        some .repeatCount := by
  rcases List.mem_append.mp member with old | new
  · have kind := spliced.sound.kindOf_repeat (List.mem_map_of_mem old)
    obtain ⟨counted, counter⟩ := spliced.repeatCount range old
    refine ⟨?_, ?_⟩
    · rw [spliced.forward_entering entrance known kind (by decide),
        if_neg (spliced.repeat_entrance_next entrance old (by decide)), counted]
    · exact (kindOf_relink ..).trans ((kindOf_relink ..).trans (kindOf_withRepeat counter))
  · obtain rfl := List.mem_singleton.mp new
    refine ⟨spliced.linkOf_entering_new entrance known _, ?_⟩
    exact (kindOf_relink ..).trans ((kindOf_relink ..).trans spliced.kindOf_withRepeat_count)

/-- After entering, the entry of a line is behind the exit of the line before, and the first entry
behind the instrument if it is a repeat. -/
theorem entryPrevious_entering {line id : Int}
    (entered : staff.entry (staff.ranges ++ [(staff.next, marker)]) line = some id) :
    linkOf (staff.entering times marker holder slot head).nodes id Slot.previous =
      if line = 0 ∧ opener (staff.ranges ++ [(staff.next, marker)]) 0 ≠ none then
        some staff.instrument else staff.exit staff.ranges (line - 1) := by
  rw [entry_concat] at entered
  rw [opener_concat]
  split at entered
  · rename_i here
    subst here
    obtain rfl := Option.some.inj entered
    rw [spliced.linkOf_entering_new entrance known]
    show some holder = _
    by_cases first : marker.startLine = 0
    · rw [if_pos first, if_pos ⟨first, Option.some_ne_none _⟩]
      exact congrArg some ((spliced.instrument_entrance_iff entrance).mpr first).1.symm
    · rw [if_neg fun both => first both.1]
      exact (exit_entrance entrance first).symm
  · rename_i elsewhere
    obtain ⟨kind, old, -⟩ := spliced.kindOf_entry (List.Subset.refl _) entered
    have different : id ≠ head := by
      rintro rfl
      exact elsewhere (spliced.sound.standsAt_unique
        (standsAt_of_entry (List.Subset.refl _) known)
        (standsAt_of_entry (List.Subset.refl _) entered))
    rw [spliced.back_entering entrance known old, if_neg different,
      spliced.entryPrevious line id entered]
    refine if_congr (and_congr_right fun first => ?_) rfl rfl
    rw [if_neg fun same => elsewhere (same.trans first.symm)]

/-- After entering, the body of a repeat is behind the repeat. -/
theorem innerPrevious_entering {before after : List (Int × RepeatMarker)}
    {range : Int × RepeatMarker} {id : Int}
    (split : staff.ranges ++ [(staff.next, marker)] = before ++ range :: after)
    (entered : staff.entry before range.2.startLine = some id) :
    linkOf (staff.entering times marker holder slot head).nodes id Slot.previous =
      some range.1 := by
  rcases split_concat split with ⟨rfl, rfl, -⟩ | ⟨inner, earlier, -⟩
  · obtain rfl := Option.some.inj (known.symm.trans entered)
    obtain ⟨kind, old, -⟩ := spliced.kindOf_entry (List.Subset.refl _) known
    rw [spliced.back_entering entrance known old, if_pos rfl]
  · have subset : before ⊆ staff.ranges := by
      rw [earlier]
      exact List.subset_append_left ..
    have behind := spliced.innerPrevious before range inner earlier id entered
    obtain ⟨kind, old, -⟩ := spliced.kindOf_entry subset entered
    rw [spliced.back_entering entrance known old, if_neg, behind]
    -- What leads to the entry of a line is no repeat that begins with the line.
    rintro rfl
    have here := spliced.sound.standsAt_unique (standsAt_of_entry subset entered)
      (standsAt_of_entry (List.Subset.refl _) known)
    rw [spliced.previous_entrance entrance known] at behind
    split at behind
    · cases behind
    · exact spliced.beginning_entrance entrance (mem_of_split earlier) here
        (Option.some.inj behind).symm

end Fields

/-- A repeat takes the place of the entry of its first line. -/
theorem entering (spliced : Spliced base times staff.ranges staff)
    (entrance : Entrance staff.ranges staff marker.startLine holder slot)
    (known : staff.entry staff.ranges marker.startLine = some head)
    (beside : ∀ range ∈ staff.ranges, range.2.Beside marker)
    (within : 0 ≤ marker.startLine ∧ marker.startLine ≤ marker.endLine ∧
      marker.endLine < staff.calls.length) :
    Spliced base times staff.ranges (staff.entering times marker holder slot head) where
  sound := spliced.sound_entering entrance known
  reciprocal := spliced.reciprocal_entering entrance known
  closed := List.subset_append_left ..
  ordered := by
    have ranges : (staff.entering times marker holder slot head).ranges.map Prod.snd =
        staff.ranges.map Prod.snd ++ [marker] := List.map_append
    rw [ranges]
    refine List.pairwise_append.mpr ⟨spliced.ordered, List.pairwise_singleton .., ?_⟩
    intro earlier member later isNew
    obtain ⟨range, old, rfl⟩ := List.mem_map.mp member
    obtain rfl := List.mem_singleton.mp isNew
    exact beside range old
  inside := List.forall_mem_append.mpr ⟨spliced.inside, List.forall_mem_singleton.mpr within⟩
  body := spliced.body_entering entrance known
  callNext := fun _ _ => spliced.callNext_entering entrance known
  repeatNext := fun _ => spliced.repeatNext_entering entrance known
  repeatBody := fun _ _ _ => spliced.repeatBody_entering entrance known
  repeatCount := fun _ => spliced.repeatCount_entering entrance known
  entryPrevious := fun _ _ => spliced.entryPrevious_entering entrance known
  innerPrevious := fun _ _ _ split _ => spliced.innerPrevious_entering entrance known split

end Spliced

end Enter

end StaffAssembly

end TuneGraph
