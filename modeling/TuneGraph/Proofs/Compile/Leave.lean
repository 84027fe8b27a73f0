import TuneGraph.Proofs.Compile.Enter

/-! # Leaving a repeat

After a repeat has taken the place of its first line, the line after its range follows it
(`StaffAssembly.Spliced.leaving`). Nothing changes if there is no such line
(`StaffAssembly.Spliced.leave_last`) or if an enclosing repeat that ends with the range
keeps it (`StaffAssembly.Spliced.leave_enclosed`).
-/

namespace TuneGraph

open TuneGraph.Graph

namespace StaffAssembly

variable {base times : Int} {closing : List (Int × RepeatMarker)} {staff : StaffAssembly}
  {marker : RepeatMarker} {id tail following line other : Int} {slot : Nat} {kind : NodeKind}

/-- A staff in which a line follows a repeat, and no longer the node whose slot held it. -/
def leaving (staff : StaffAssembly) (id tail : Int) (slot : Nat) (following : Int) :
    StaffAssembly :=
  ((staff.setLink tail slot none).setLink following Slot.previous (some id)).setLink id
    Slot.repeatNext (some following)

/-- Leaving changes three links of the nodes. -/
theorem nodes_leaving : (staff.leaving id tail slot following).nodes =
    relink (relink (relink staff.nodes tail slot none) following Slot.previous (some id)) id
      Slot.repeatNext (some following) := rfl

/-- Whether no earlier repeat that ends with a range begins before it. -/
def Unenclosed (closing : List (Int × RepeatMarker)) (marker : RepeatMarker) : Prop :=
  ∀ outer ∈ closer closing marker.endLine, marker.startLine ≤ outer.2.startLine

/-- A new last range that no other one encloses closes its last line. -/
theorem closer_of_unenclosed {ranges : List (Int × RepeatMarker)}
    (last : ranges = closing ++ [(id, marker)]) (unenclosed : Unenclosed closing marker)
    (line : Int) : closer ranges line =
      if line = marker.endLine then some (id, marker) else closer closing line := by
  rw [last, closer_concat, closerAfter]
  by_cases here : line = marker.endLine
  · subst here
    rw [if_pos ⟨rfl, unenclosed⟩, if_pos rfl]
  · rw [if_neg fun both => here both.1.symm, if_neg here]

/-- A new last range that another one encloses closes no line. -/
theorem closer_of_enclosed {ranges : List (Int × RepeatMarker)}
    (last : ranges = closing ++ [(id, marker)]) (enclosed : ¬Unenclosed closing marker)
    (line : Int) : closer ranges line = closer closing line := by
  rw [last, closer_concat, closerAfter, if_neg]
  rintro ⟨rfl, unenclosed⟩
  exact enclosed unenclosed

namespace Spliced

/-- A repeat that an enclosing one keeps from the next line is linked as it should be. -/
theorem leave_enclosed (spliced : Spliced base times closing staff)
    (last : staff.ranges = closing ++ [(id, marker)]) (enclosed : ¬Unenclosed closing marker) :
    Spliced base times staff.ranges staff := by
  have same := closer_of_enclosed last enclosed
  exact
    { spliced with
      closed := List.Subset.refl _
      callNext := fun line call known => by rw [same, spliced.callNext line call known]
      repeatNext := fun range member => by rw [same, spliced.repeatNext range member]
      entryPrevious := fun line id known => by
        rw [exit, same, spliced.entryPrevious line id known, exit] }

/-- No repeat begins after the last one. -/
theorem startLine_le_last (spliced : Spliced base times closing staff)
    (last : staff.ranges = closing ++ [(id, marker)]) :
    ∀ range ∈ staff.ranges, range.2.startLine ≤ marker.startLine := by
  have ordered := spliced.ordered
  rw [last, List.map_append] at ordered
  rw [last]
  refine List.forall_mem_append.mpr ⟨fun range member => ?_, List.forall_mem_singleton.mpr
    (Int.le_refl _)⟩
  have beside := (List.pairwise_append.mp ordered).2.2 range.2 (List.mem_map_of_mem member) marker
    (List.mem_singleton_self _)
  exact beside.1

/-- The last range lies within the staff. -/
theorem last_inside (spliced : Spliced base times closing staff)
    (last : staff.ranges = closing ++ [(id, marker)]) : 0 ≤ marker.startLine ∧
      marker.startLine ≤ marker.endLine ∧ marker.endLine < staff.calls.length := by
  exact spliced.inside (id, marker) (mem_of_split last)

/-- The line after the last range is entered through its call. -/
theorem entry_after_last (spliced : Spliced base times closing staff)
    (last : staff.ranges = closing ++ [(id, marker)]) :
    staff.entry staff.ranges (marker.endLine + 1) = staff.callOf (marker.endLine + 1) := by
  apply entry_of_unopened
  refine opener_eq_none_iff.mpr fun range member here => ?_
  have before := spliced.startLine_le_last last range member
  have within := spliced.last_inside last
  omega

/-- A repeat that ends with the last line is linked as it should be. -/
theorem leave_last (spliced : Spliced base times closing staff)
    (last : staff.ranges = closing ++ [(id, marker)]) (unenclosed : Unenclosed closing marker)
    (final : staff.callOf (marker.endLine + 1) = none) :
    Spliced base times staff.ranges staff := by
  have nothing := (spliced.entry_after_last last).trans final
  have closers := closer_of_unenclosed last unenclosed
  refine
    { spliced with
      closed := List.Subset.refl _
      callNext := fun line call known => ?_
      repeatNext := fun range member => ?_
      entryPrevious := fun line id known => ?_ }
  · rw [closers, spliced.callNext line call known]
    by_cases here : line = marker.endLine
    · rw [here, nothing, if_pos rfl, if_neg (Option.some_ne_none _), ite_self]
    · rw [if_neg here]
  · rw [closers, spliced.repeatNext range member]
    by_cases here : range.2.endLine = marker.endLine
    · rw [here, nothing, ite_self, ite_self]
    · rw [if_neg here]
  · have elsewhere : line - 1 ≠ marker.endLine := by
      intro here
      obtain rfl : line = marker.endLine + 1 := by omega
      rw [nothing] at known
      cases known
    rw [exit, closers, if_neg elsewhere]
    exact spliced.entryPrevious line id known

/-- Leaving changes two forward links: the repeat holds what follows, and its tail holds nothing. -/
theorem forward_leaving (spliced : Spliced base times closing staff)
    (entrance : Entrance closing staff line tail slot)
    (known : staff.entry staff.ranges line = some following)
    (repeated : kindOf staff.nodes id = some .repetition) {query : Nat} (forward : 1 ≤ query) :
    linkOf (staff.leaving id tail slot following).nodes other query =
      if other = id ∧ query = Slot.repeatNext then some following
      else if other = tail ∧ query = slot then none else linkOf staff.nodes other query := by
  obtain ⟨tailKind, tailKnown, chained⟩ := spliced.kindOf_entrance entrance
  obtain ⟨followingKind, followingKnown, -⟩ := spliced.kindOf_entry (List.Subset.refl _) known
  have inner : query ≠ Slot.previous := Nat.ne_of_gt forward
  rw [nodes_leaving,
    linkOf_relink ((kindOf_relink ..).trans ((kindOf_relink ..).trans repeated)) (by decide)]
  congr 1
  rw [linkOf_relink ((kindOf_relink ..).trans followingKnown) followingKind.arity_pos,
    if_neg fun both => inner both.2, linkOf_relink tailKnown (lt_arity_of_isChainSlot chained)]

/-- Leaving changes one link back: what follows is behind the repeat. -/
theorem back_leaving (spliced : Spliced base times closing staff)
    (entrance : Entrance closing staff line tail slot)
    (known : staff.entry staff.ranges line = some following)
    (repeated : kindOf staff.nodes id = some .repetition) :
    linkOf (staff.leaving id tail slot following).nodes other Slot.previous =
      if other = following then some id else linkOf staff.nodes other Slot.previous := by
  obtain ⟨tailKind, tailKnown, chained⟩ := spliced.kindOf_entrance entrance
  obtain ⟨followingKind, followingKnown, -⟩ := spliced.kindOf_entry (List.Subset.refl _) known
  have forward := one_le_of_isChainSlot chained
  rw [nodes_leaving,
    linkOf_relink ((kindOf_relink ..).trans ((kindOf_relink ..).trans repeated)) (by decide),
    if_neg fun both => absurd both.2 (by decide),
    linkOf_relink ((kindOf_relink ..).trans followingKnown) followingKind.arity_pos]
  simp only [and_true]
  congr 1
  rw [linkOf_relink tailKnown (lt_arity_of_isChainSlot chained),
    if_neg fun both => absurd both.2 (Nat.ne_of_lt forward)]

/-- A spliced staff is sound after leaving. -/
theorem sound_leaving (spliced : Spliced base times closing staff)
    (entrance : Entrance closing staff line tail slot)
    (known : staff.entry staff.ranges line = some following)
    (repeated : kindOf staff.nodes id = some .repetition) :
    Sound base times (staff.leaving id tail slot following) := by
  obtain ⟨tailKind, tailKnown, chained⟩ := spliced.kindOf_entrance entrance
  obtain ⟨followingKind, followingKnown, inner⟩ := spliced.kindOf_entry (List.Subset.refl _) known
  have nothing : ∀ held, (none : Option Int) = some held → held ∈ staff.chainIds :=
    fun _ same => absurd same (Option.some_ne_none _).symm
  have loosened := spliced.sound.setLink tailKnown chained nothing
  have answered : Sound base times ((staff.setLink tail slot none).setLink following
      Slot.previous (some id)) :=
    loosened.setPrevious ((kindOf_relink ..).trans followingKnown) inner
  refine answered.setLink ((kindOf_relink ..).trans ((kindOf_relink ..).trans repeated)) rfl ?_
  intro held same
  obtain rfl := Option.some.inj same
  exact mem_chainIds_of_entry (List.Subset.refl _) known

/-- Leaving leaves the still nodes. -/
theorem stillNodes_leaving (spliced : Spliced base times closing staff)
    (entrance : Entrance closing staff line tail slot)
    (known : staff.entry staff.ranges line = some following)
    (repeated : kindOf staff.nodes id = some .repetition) :
    stillNodes (staff.leaving id tail slot following).nodes = stillNodes staff.nodes := by
  obtain ⟨tailKind, tailKnown, chained⟩ := spliced.kindOf_entrance entrance
  obtain ⟨followingKind, followingKnown, chain⟩ :=
    spliced.sound.kindOf_chainIds (mem_chainIds_of_entry (List.Subset.refl _) known)
  have unique : ((relink staff.nodes tail slot none).map Node.id).Nodup := by
    rw [map_id_relink]
    exact spliced.sound.nodup
  have unique' : ((relink (relink staff.nodes tail slot none) following Slot.previous
      (some id)).map Node.id).Nodup := by
    rw [map_id_relink]
    exact unique
  rw [nodes_leaving, stillNodes_relink unique' ((kindOf_relink ..).trans ((kindOf_relink ..).trans
      repeated)) (Or.inl rfl),
    stillNodes_relink unique ((kindOf_relink ..).trans followingKnown) (Or.inl chain),
    stillNodes_relink spliced.sound.nodup tailKnown (Or.inr chained)]

/-- The pair of the line after the range and what was in front of it makes way for another one. -/
theorem reciprocal_leaving (spliced : Spliced base times closing staff)
    (entrance : Entrance closing staff line tail slot) (later : line ≠ 0)
    (known : staff.entry staff.ranges line = some following)
    (repeated : kindOf staff.nodes id = some .repetition)
    (free : linkOf staff.nodes id Slot.repeatNext = none) :
    Reciprocal (staff.leaving id tail slot following).nodes
      (staff.leaving id tail slot following).direct := by
  obtain ⟨tailKind, tailKnown, chained⟩ := spliced.kindOf_entrance entrance
  obtain ⟨followingKind, followingKnown, -⟩ := spliced.kindOf_entry (List.Subset.refl _) known
  have forward := one_le_of_isChainSlot chained
  have inside := lt_arity_of_isChainSlot chained
  have before := spliced.previous_entrance entrance known
  rw [if_neg fun both => later both.1] at before
  have loosened := heldPairs_relink spliced.sound.nodup tailKnown forward inside none
  rw [spliced.link_entrance entrance, known] at loosened
  have unique : ((relink staff.nodes tail slot none).map Node.id).Nodup := by
    rw [map_id_relink]
    exact spliced.sound.nodup
  have answered := previousPairs_relink unique ((kindOf_relink ..).trans followingKnown) (some id)
    followingKind.arity_pos
  rw [previousPairs_relink_forward forward, linkOf_relink tailKnown inside,
    if_neg fun both => absurd both.2 (Nat.ne_of_lt forward), before] at answered
  have unique' : ((relink (relink staff.nodes tail slot none) following Slot.previous
      (some id)).map Node.id).Nodup := by
    rw [map_id_relink]
    exact unique
  have next : 1 ≤ Slot.repeatNext := by decide
  have followed := heldPairs_relink unique' ((kindOf_relink ..).trans ((kindOf_relink ..).trans
    repeated)) next (by decide) (some following)
  rw [heldPairs_relink_previous, linkOf_relink ((kindOf_relink ..).trans followingKnown)
    followingKind.arity_pos, if_neg fun both => absurd both.2 (by decide),
    linkOf_relink tailKnown inside, free, ite_self] at followed
  have direct : (staff.leaving id tail slot following).direct = staff.direct := rfl
  rw [Reciprocal, nodes_leaving, previousPairs_relink_forward next, direct]
  apply List.perm_iff_count.mpr
  intro pair
  have agreed := spliced.reciprocal.count_eq pair
  have loosenedCount := loosened.count_eq pair
  have answeredCount := answered.count_eq pair
  have followedCount := followed.count_eq pair
  simp only [List.count_append, List.count_cons, List.count_nil, Option.map_some, Option.map_none,
    Option.toList_none, Option.toList_some] at agreed loosenedCount answeredCount followedCount ⊢
  omega

section Fields

variable (spliced : Spliced base times closing staff)
  (last : staff.ranges = closing ++ [(id, marker)])
  (entrance : Entrance closing staff (marker.endLine + 1) tail slot)
  (known : staff.entry staff.ranges (marker.endLine + 1) = some following)

include spliced last

/-- The last range has a repeat. -/
theorem kindOf_last : kindOf staff.nodes id = some .repetition :=
  spliced.sound.kindOf_repeat (List.mem_map_of_mem (mem_of_split last))

include entrance known

/-- Forward links are those of before, save for the slot that held the line and the repeat's. -/
theorem forward_leave (other : Int) {query : Nat} (forward : 1 ≤ query) :
    linkOf (staff.leaving id tail slot following).nodes other query =
      if other = id ∧ query = Slot.repeatNext then some following
      else if other = tail ∧ query = slot then none else linkOf staff.nodes other query :=
  spliced.forward_leaving entrance known (spliced.kindOf_last last) forward

/-- Leaving does not change the body and the count of a repeat. -/
theorem inner_leave {range : Int × RepeatMarker} (old : range ∈ staff.ranges) {query : Nat}
    (forward : 1 ≤ query) (inner : query ≠ Slot.repeatNext) :
    linkOf (staff.leaving id tail slot following).nodes range.1 query =
      linkOf staff.nodes range.1 query := by
  rw [spliced.forward_leave last entrance known _ forward, if_neg fun both => inner both.2,
    if_neg (spliced.repeat_entrance_next entrance old inner)]

/-- After leaving, the body of the instrument is the entry of the first line. -/
theorem body_leaving :
    linkOf (staff.leaving id tail slot following).nodes staff.instrument Slot.instrumentBody =
      staff.entry staff.ranges 0 := by
  have within := spliced.last_inside last
  have elsewhere : ¬(staff.instrument = tail ∧ Slot.instrumentBody = slot) := by
    rw [spliced.instrument_entrance_iff entrance]
    omega
  refine (spliced.forward_leave last entrance known _ (by decide)).trans ?_
  rw [if_neg fun both => absurd both.2 (by decide), if_neg elsewhere, spliced.body]

/-- After leaving, a call is followed by the entry of the next line unless a range ends on its line.
-/
theorem callNext_leaving (unenclosed : Unenclosed closing marker) {line call : Int}
    (called : staff.callOf line = some call) :
    linkOf (staff.leaving id tail slot following).nodes call Slot.callNext =
      if closer staff.ranges line = none then staff.entry staff.ranges (line + 1) else none := by
  rw [spliced.forward_leave last entrance known _ (by decide),
    if_neg fun both => absurd both.2 (by decide), closer_of_unenclosed last unenclosed,
    if_congr (spliced.call_entrance_iff entrance called) rfl rfl,
    spliced.callNext line call called]
  by_cases here : line = marker.endLine
  · rw [here, if_pos rfl, if_neg (Option.some_ne_none _)]
    by_cases unclosed : closer closing marker.endLine = none
    · rw [if_pos ⟨rfl, unclosed⟩]
    · rw [if_neg fun both => unclosed both.2, if_neg unclosed]
  · rw [if_neg here, if_neg fun both => here ((Int.add_left_inj 1).mp both.1)]

/-- After leaving, the last repeat that ends on a line is followed by the entry of the next line,
and the others are followed by nothing. -/
theorem repeatNext_leaving (unenclosed : Unenclosed closing marker)
    {range : Int × RepeatMarker} (old : range ∈ staff.ranges) :
    linkOf (staff.leaving id tail slot following).nodes range.1 Slot.repeatNext =
      if closer staff.ranges range.2.endLine = some range then
        staff.entry staff.ranges (range.2.endLine + 1) else none := by
  rw [spliced.forward_leave last entrance known _ (by decide),
    closer_of_unenclosed last unenclosed,
    if_congr (spliced.repeat_entrance_iff entrance old) rfl rfl, spliced.repeatNext range old]
  by_cases same : range.1 = id
  · obtain rfl : range = (id, marker) :=
      List.inj_on_of_nodup_map spliced.sound.ranges_nodup old (mem_of_split last) same
    rw [if_pos ⟨rfl, rfl⟩, if_pos rfl, if_pos rfl]
    exact known.symm
  · have different : some (id, marker) ≠ some range := by
      intro equal
      exact same (congrArg Prod.fst (Option.some.inj equal)).symm
    rw [if_neg fun both => same both.1]
    by_cases here : range.2.endLine = marker.endLine
    · rw [here, if_pos rfl, if_neg different]
      by_cases closed : closer closing marker.endLine = some range
      · rw [if_pos ⟨rfl, closed⟩]
      · rw [if_neg fun both => closed both.2, if_neg closed]
    · rw [if_neg here, if_neg fun both => here ((Int.add_left_inj 1).mp both.1)]

/-- After leaving, a repeat has its count in the id behind its own. -/
theorem repeatCount_leaving {range : Int × RepeatMarker} (old : range ∈ staff.ranges) :
    linkOf (staff.leaving id tail slot following).nodes range.1 Slot.repeatCount =
        some (range.1 + 1) ∧
      kindOf (staff.leaving id tail slot following).nodes (range.1 + 1) =
        some .repeatCount := by
  obtain ⟨counted, counter⟩ := spliced.repeatCount range old
  refine ⟨?_, ?_⟩
  · rw [spliced.inner_leave last entrance known old (by decide) (by decide), counted]
  · rw [nodes_leaving, kindOf_relink, kindOf_relink, kindOf_relink, counter]

/-- After leaving, the entry of a line is behind the exit of the line before, and the first entry
behind the instrument if it is a repeat. -/
theorem entryPrevious_leaving (unenclosed : Unenclosed closing marker) {line other : Int}
    (entered : staff.entry staff.ranges line = some other) :
    linkOf (staff.leaving id tail slot following).nodes other Slot.previous =
      if line = 0 ∧ opener staff.ranges 0 ≠ none then some staff.instrument
      else staff.exit staff.ranges (line - 1) := by
  have within := spliced.last_inside last
  have later : marker.endLine + 1 ≠ 0 := by omega
  rw [spliced.back_leaving entrance known (spliced.kindOf_last last)]
  by_cases here : line = marker.endLine + 1
  · have same : other = following := by
      rw [here, known] at entered
      exact (Option.some.inj entered).symm
    have closed : closer staff.ranges (line - 1) = some (id, marker) := by
      rw [closer_of_unenclosed last unenclosed, if_pos (by omega)]
    rw [if_pos same, if_neg fun both => later (here.symm.trans both.1)]
    exact (exit_of_closer closed).symm
  · have different : other ≠ following := by
      rintro rfl
      exact here (spliced.sound.standsAt_unique
        (standsAt_of_entry (List.Subset.refl _) entered)
        (standsAt_of_entry (List.Subset.refl _) known))
    have kept : closer staff.ranges (line - 1) = closer closing (line - 1) := by
      rw [closer_of_unenclosed last unenclosed, if_neg (by omega)]
    rw [if_neg different, spliced.entryPrevious line other entered, exit, exit, kept]

/-- After leaving, the body of a repeat is behind the repeat. -/
theorem innerPrevious_leaving {before after : List (Int × RepeatMarker)}
    {range : Int × RepeatMarker} {other : Int}
    (split : staff.ranges = before ++ range :: after)
    (entered : staff.entry before range.2.startLine = some other) :
    linkOf (staff.leaving id tail slot following).nodes other Slot.previous = some range.1 := by
  have old := mem_of_split split
  have subset : before ⊆ staff.ranges := by
    rw [split]
    exact List.subset_append_left ..
  have early := spliced.startLine_le_last last range old
  have within := spliced.last_inside last
  rw [spliced.back_leaving entrance known (spliced.kindOf_last last), if_neg,
    spliced.innerPrevious before range after split other entered]
  rintro rfl
  have here := spliced.sound.standsAt_unique (standsAt_of_entry subset entered)
    (standsAt_of_entry (List.Subset.refl _) known)
  omega

end Fields

/-- The line after the range follows the repeat. -/
theorem leaving (spliced : Spliced base times closing staff)
    (last : staff.ranges = closing ++ [(id, marker)]) (unenclosed : Unenclosed closing marker)
    (free : linkOf staff.nodes id Slot.repeatNext = none)
    (entrance : Entrance closing staff (marker.endLine + 1) tail slot)
    (known : staff.entry staff.ranges (marker.endLine + 1) = some following) :
    Spliced base times staff.ranges (staff.leaving id tail slot following) where
  sound := spliced.sound_leaving entrance known (spliced.kindOf_last last)
  reciprocal := by
    have within := spliced.last_inside last
    exact spliced.reciprocal_leaving entrance (by omega) known (spliced.kindOf_last last) free
  closed := List.Subset.refl _
  ordered := spliced.ordered
  inside := spliced.inside
  body := spliced.body_leaving last entrance known
  callNext := fun _ _ => spliced.callNext_leaving last entrance known unenclosed
  repeatNext := fun _ => spliced.repeatNext_leaving last entrance known unenclosed
  repeatBody := by
    intro before range after split
    have old : range ∈ staff.ranges := mem_of_split split
    rw [spliced.inner_leave last entrance known old (by decide) (by decide)]
    exact spliced.repeatBody before range after split
  repeatCount := fun _ => spliced.repeatCount_leaving last entrance known
  entryPrevious := fun _ _ => spliced.entryPrevious_leaving last entrance known unenclosed
  innerPrevious := fun _ _ _ split _ => spliced.innerPrevious_leaving last entrance known split

end Spliced

end StaffAssembly

end TuneGraph
