import TuneGraph.Compile.Repeat
import TuneGraph.Proofs.Compile.Ranges
import TuneGraph.Proofs.Graph.Play

/-! # The chain of a staff with repeats

While repeats are spliced into the chain of calls, every link of the chain is determined by the
ranges of the repeats that are there (`StaffAssembly.Spliced`): a line is entered through its
opener (`StaffAssembly.entry`) and left through its closer (`StaffAssembly.exit`), and the body of
a repeat is what its first line was entered through before it was emitted. Every line has one
slot through which it is entered from outside (`StaffAssembly.Entrance`).
-/

namespace TuneGraph

open TuneGraph.Graph

namespace StaffAssembly

variable {base times : Int} {closing : List (Int × RepeatMarker)} {staff : StaffAssembly}

/-- The node through which a line is entered, given the repeats emitted so far. -/
def entry (staff : StaffAssembly) (ranges : List (Int × RepeatMarker)) (line : Int) : Option Int :=
  ((opener ranges line).map Prod.fst).or (staff.callOf line)

/-- The node through which a line is left, given the repeats that are linked with what follows. -/
def exit (staff : StaffAssembly) (closing : List (Int × RepeatMarker)) (line : Int) : Option Int :=
  ((closer closing line).map Prod.fst).or (staff.callOf line)

/-- The first call, while no repeat begins with it: the instrument-setter holds it directly. -/
def direct (staff : StaffAssembly) : List (Int × Int) :=
  if (opener staff.ranges 0).isSome then [] else ((staff.callOf 0).map (staff.instrument, ·)).toList

/-- A choice between two targets of a slot that may be empty. -/
theorem ite_and_ite {p q : Prop} [Decidable p] [Decidable q] (a b : Option Int) :
    (if p ∧ q then a else if q then b else none) = if q then (if p then a else b) else none := by
  by_cases first : p <;> by_cases second : q <;> simp only [first, second, and_true, and_false,
    and_self, ↓reduceIte]

/-- A staff whose chain is linked as the ranges of its repeats tell. -/
structure Spliced (base times : Int) (closing : List (Int × RepeatMarker))
    (staff : StaffAssembly) : Prop where
  sound : Sound base times staff
  reciprocal : Reciprocal staff.nodes staff.direct
  closed : closing ⊆ staff.ranges
  ordered : (staff.ranges.map Prod.snd).Pairwise RepeatMarker.Beside
  inside : ∀ range ∈ staff.ranges, 0 ≤ range.2.startLine ∧
    range.2.startLine ≤ range.2.endLine ∧ range.2.endLine < staff.calls.length
  body : linkOf staff.nodes staff.instrument Slot.instrumentBody = staff.entry staff.ranges 0
  callNext : ∀ line call, staff.callOf line = some call →
    linkOf staff.nodes call Slot.callNext =
      if closer closing line = none then staff.entry staff.ranges (line + 1) else none
  repeatNext : ∀ range ∈ staff.ranges, linkOf staff.nodes range.1 Slot.repeatNext =
    if closer closing range.2.endLine = some range then
      staff.entry staff.ranges (range.2.endLine + 1) else none
  repeatBody : ∀ before range after, staff.ranges = before ++ range :: after →
    linkOf staff.nodes range.1 Slot.repeatBody = staff.entry before range.2.startLine
  repeatCount : ∀ range ∈ staff.ranges, linkOf staff.nodes range.1 Slot.repeatCount =
    some (range.1 + 1) ∧ kindOf staff.nodes (range.1 + 1) = some .repeatCount
  entryPrevious : ∀ line id, staff.entry staff.ranges line = some id →
    linkOf staff.nodes id Slot.previous =
      if line = 0 ∧ opener staff.ranges 0 ≠ none then some staff.instrument
      else staff.exit closing (line - 1)
  innerPrevious : ∀ before range after, staff.ranges = before ++ range :: after →
    ∀ id, staff.entry before range.2.startLine = some id →
      linkOf staff.nodes id Slot.previous = some range.1

/-- The slot through which a line is entered, and the node that has it. -/
inductive Entrance (closing : List (Int × RepeatMarker)) (staff : StaffAssembly) :
    Int → Int → Nat → Prop where
  | instrument : Entrance closing staff 0 staff.instrument Slot.instrumentBody
  | call {line call : Int} (unclosed : closer closing line = none)
      (known : staff.callOf line = some call) :
      Entrance closing staff (line + 1) call Slot.callNext
  | repetition {line : Int} {range : Int × RepeatMarker}
      (closed : closer closing line = some range) :
      Entrance closing staff (line + 1) range.1 Slot.repeatNext

/-- Where lines are entered depends on the calls and the instrument-setter only. -/
theorem Entrance.of_eq {other : StaffAssembly} {line holder : Int} {slot : Nat}
    (entrance : Entrance closing staff line holder slot) (calls : other.calls = staff.calls)
    (instrument : other.instrument = staff.instrument) :
    Entrance closing other line holder slot := by
  cases entrance with
  | instrument => exact instrument ▸ .instrument
  | @call before call unclosed known =>
      have same : other.callOf before = staff.callOf before := by
        rw [callOf, calls, callOf]
      exact .call unclosed (same.trans known)
  | repetition closed => exact .repetition closed

section Lines

variable {ranges : List (Int × RepeatMarker)} {range : Int × RepeatMarker} {line other id : Int}

/-- Whether a node is the call of a line or a repeat with that line on one side of its range. -/
def StandsAt (staff : StaffAssembly) (side : RepeatMarker → Int) (id line : Int) : Prop :=
  staff.callOf line = some id ∨ ∃ range ∈ staff.ranges, range.1 = id ∧ side range.2 = line

/-- A call or a repeat stands at one line only. -/
theorem Sound.standsAt_unique (sound : Sound base times staff) {side : RepeatMarker → Int}
    (left : staff.StandsAt side id line) (right : staff.StandsAt side id other) : line = other := by
  have apart : ∀ {line : Int} {range : Int × RepeatMarker}, range ∈ staff.ranges →
      staff.callOf line ≠ some range.1 := by
    intro line range member call
    have repeated := sound.kindOf_repeat (List.mem_map_of_mem member)
    have called := sound.kindOf_call (callOf_mem call)
    rw [repeated] at called
    cases called
  rcases left with call | ⟨range, member, rfl, rfl⟩
  · rcases right with also | ⟨range, member, rfl, rfl⟩
    · exact callOf_inj sound.calls_nodup call also
    · exact (apart member call).elim
  · rcases right with call | ⟨range', member', same, rfl⟩
    · exact (apart member call).elim
    · rw [List.inj_on_of_nodup_map sound.ranges_nodup member' member same]

theorem entry_concat : staff.entry (ranges ++ [range]) line =
    if range.2.startLine = line then some range.1 else staff.entry ranges line := by
  rw [entry, opener_concat]
  split
  · rfl
  · rfl

theorem entry_of_opener (known : opener ranges line = some range) :
    staff.entry ranges line = some range.1 := by
  rw [entry, known, Option.map_some, Option.some_or]

theorem entry_of_unopened (known : opener ranges line = none) :
    staff.entry ranges line = staff.callOf line := by
  rw [entry, known, Option.map_none, Option.none_or]

theorem exit_of_closer (known : closer closing line = some range) :
    staff.exit closing line = some range.1 := by
  rw [exit, known, Option.map_some, Option.some_or]

theorem exit_of_unclosed (known : closer closing line = none) :
    staff.exit closing line = staff.callOf line := by
  rw [exit, known, Option.map_none, Option.none_or]

/-- A line is entered through its call or through a repeat that begins there. -/
theorem standsAt_of_entry (subset : ranges ⊆ staff.ranges)
    (known : staff.entry ranges line = some id) :
    staff.StandsAt RepeatMarker.startLine id line := by
  cases opened : opener ranges line with
  | none => exact Or.inl ((entry_of_unopened opened).symm.trans known)
  | some range =>
      obtain ⟨member, here⟩ := opener_mem opened
      rw [entry_of_opener opened] at known
      exact Or.inr ⟨range, subset member, Option.some.inj known, here⟩

end Lines

namespace Spliced

variable {line holder head id : Int} {slot : Nat} {range : Int × RepeatMarker}

theorem closer_mem_ranges (spliced : Spliced base times closing staff)
    (known : closer closing line = some range) :
    range ∈ staff.ranges ∧ range.2.endLine = line :=
  ⟨spliced.closed (closer_mem known).1, (closer_mem known).2⟩

/-- Every line is entered through some slot. -/
theorem exists_entrance (inside : 0 ≤ line ∧ line < staff.calls.length) :
    ∃ holder slot, Entrance closing staff line holder slot := by
  by_cases first : line = 0
  · subst first
    exact ⟨_, _, .instrument⟩
  · obtain ⟨before, rfl⟩ : ∃ before, line = before + 1 := ⟨line - 1, by omega⟩
    cases known : closer closing before with
    | none =>
        have earlier : 0 ≤ before ∧ before < staff.calls.length := by omega
        obtain ⟨call, called⟩ := exists_callOf earlier
        exact ⟨call, _, .call known called⟩
    | some range => exact ⟨range.1, _, .repetition known⟩

/-- The slot through which a line is entered belongs to the chain. -/
theorem kindOf_entrance (spliced : Spliced base times closing staff)
    (entrance : Entrance closing staff line holder slot) :
    ∃ kind, kindOf staff.nodes holder = some kind ∧ isChainSlot kind slot = true := by
  cases entrance with
  | instrument => exact ⟨_, spliced.sound.kindOf_instrument, rfl⟩
  | call unclosed known => exact ⟨_, spliced.sound.kindOf_call (callOf_mem known), rfl⟩
  | repetition closed =>
      have member := (spliced.closer_mem_ranges closed).1
      exact ⟨_, spliced.sound.kindOf_repeat (List.mem_map_of_mem member), rfl⟩

/-- The slot through which a line is entered holds its entry. -/
theorem link_entrance (spliced : Spliced base times closing staff)
    (entrance : Entrance closing staff line holder slot) :
    linkOf staff.nodes holder slot = staff.entry staff.ranges line := by
  cases entrance with
  | instrument => exact spliced.body
  | call unclosed known => rw [spliced.callNext _ _ known, if_pos unclosed]
  | repetition closed =>
      obtain ⟨member, rfl⟩ := spliced.closer_mem_ranges closed
      rw [spliced.repeatNext _ member, if_pos closed]

/-- The instrument-setter leads to the first line only. -/
theorem instrument_entrance_iff (spliced : Spliced base times closing staff)
    (entrance : Entrance closing staff line holder slot) :
    (staff.instrument = holder ∧ Slot.instrumentBody = slot) ↔ line = 0 := by
  cases entrance with
  | instrument => exact ⟨fun _ => rfl, fun _ => ⟨rfl, rfl⟩⟩
  | call unclosed known =>
      have nonneg := (callOf_eq_some_iff.mp known).1
      exact ⟨fun same => absurd same.2 (by decide), fun first => by omega⟩
  | repetition closed =>
      obtain ⟨member, rfl⟩ := spliced.closer_mem_ranges closed
      have within := spliced.inside _ member
      exact ⟨fun same => absurd same.2 (by decide), fun first => by omega⟩

/-- A call leads to the next line unless a repeat ends with it. -/
theorem call_entrance_iff (spliced : Spliced base times closing staff)
    (entrance : Entrance closing staff line holder slot) {before call : Int}
    (known : staff.callOf before = some call) :
    (call = holder ∧ Slot.callNext = slot) ↔
      before + 1 = line ∧ closer closing before = none := by
  cases entrance with
  | instrument =>
      have nonneg := (callOf_eq_some_iff.mp known).1
      exact ⟨fun same => absurd same.2 (by decide), fun both => by omega⟩
  | call unclosed known' =>
      constructor
      · rintro ⟨rfl, -⟩
        obtain rfl := callOf_inj spliced.sound.calls_nodup known known'
        exact ⟨rfl, unclosed⟩
      · rintro ⟨same, -⟩
        obtain rfl := (Int.add_left_inj 1).mp same
        exact ⟨Option.some.inj (known.symm.trans known'), rfl⟩
  | repetition closed =>
      refine ⟨fun same => absurd same.2 (by decide), ?_⟩
      rintro ⟨same, unclosed⟩
      obtain rfl := (Int.add_left_inj 1).mp same
      rw [unclosed] at closed
      cases closed

/-- A repeat leads to the next line if it is the one that its last line is left through. -/
theorem repeat_entrance_iff (spliced : Spliced base times closing staff)
    (entrance : Entrance closing staff line holder slot) (member : range ∈ staff.ranges) :
    (range.1 = holder ∧ Slot.repeatNext = slot) ↔
      range.2.endLine + 1 = line ∧ closer closing range.2.endLine = some range := by
  cases entrance with
  | instrument =>
      have within := spliced.inside _ member
      exact ⟨fun same => absurd same.2 (by decide), fun both => by omega⟩
  | call unclosed known =>
      refine ⟨fun same => absurd same.2 (by decide), ?_⟩
      rintro ⟨same, closed⟩
      obtain rfl := (Int.add_left_inj 1).mp same
      rw [unclosed] at closed
      cases closed
  | repetition closed =>
      obtain ⟨member', rfl⟩ := spliced.closer_mem_ranges closed
      constructor
      · rintro ⟨same, -⟩
        obtain rfl := List.inj_on_of_nodup_map spliced.sound.ranges_nodup member member' same
        exact ⟨rfl, closed⟩
      · rintro ⟨same, closed'⟩
        rw [(Int.add_left_inj 1).mp same] at closed'
        obtain rfl := Option.some.inj (closed'.symm.trans closed)
        exact ⟨rfl, rfl⟩

/-- No line is entered through another slot of a repeat from outside. -/
theorem repeat_entrance_next (spliced : Spliced base times closing staff)
    (entrance : Entrance closing staff line holder slot) (member : range ∈ staff.ranges)
    {query : Nat} (inner : query ≠ Slot.repeatNext) : ¬(range.1 = holder ∧ query = slot) := by
  have repeated := spliced.sound.kindOf_repeat (List.mem_map_of_mem member)
  rintro ⟨same, here⟩
  rw [same] at repeated
  cases entrance with
  | instrument =>
      rw [spliced.sound.kindOf_instrument] at repeated
      cases repeated
  | call unclosed known =>
      rw [spliced.sound.kindOf_call (callOf_mem known)] at repeated
      cases repeated
  | repetition closed => exact inner here

/-- No line is entered from outside through a repeat that begins with it. -/
theorem beginning_entrance (spliced : Spliced base times closing staff)
    (entrance : Entrance closing staff line holder slot) (member : range ∈ staff.ranges)
    (here : range.2.startLine = line) : range.1 ≠ holder := by
  intro same
  by_cases next : Slot.repeatNext = slot
  · have ends := ((spliced.repeat_entrance_iff entrance member).mp ⟨same, next⟩).1
    have within := spliced.inside range member
    omega
  · exact spliced.repeat_entrance_next entrance member (Ne.symm next) ⟨same, rfl⟩

/-- The body of a repeat is no line that is entered through that repeat from outside. -/
theorem body_entrance (spliced : Spliced base times closing staff)
    (entrance : Entrance closing staff line holder slot) (member : range ∈ staff.ranges)
    (same : range.1 = holder) (known : staff.entry staff.ranges line = some head) :
    linkOf staff.nodes range.1 Slot.repeatBody ≠ some head := by
  intro body
  obtain ⟨before, after, split⟩ := List.append_of_mem member
  have subset : before ⊆ staff.ranges := by
    rw [split]
    exact List.subset_append_left ..
  rw [spliced.repeatBody before range after split] at body
  have here := spliced.sound.standsAt_unique (standsAt_of_entry subset body)
    (standsAt_of_entry (List.Subset.refl _) known)
  exact spliced.beginning_entrance entrance member here same

/-- After the first line, a line is entered through what the line before is left through. -/
theorem exit_entrance (entrance : Entrance closing staff line holder slot) (later : line ≠ 0) :
    staff.exit closing (line - 1) = some holder := by
  cases entrance with
  | instrument => exact absurd rfl later
  | call unclosed known => rw [Int.add_sub_cancel, exit_of_unclosed unclosed, known]
  | repetition closed => rw [Int.add_sub_cancel, exit_of_closer closed]

/-- What a line is entered through has in front of it what leads there, save that the
instrument-setter holds a call directly. -/
theorem previous_entrance (spliced : Spliced base times closing staff)
    (entrance : Entrance closing staff line holder slot)
    (known : staff.entry staff.ranges line = some head) :
    linkOf staff.nodes head Slot.previous =
      if line = 0 ∧ opener staff.ranges 0 = none then none else some holder := by
  rw [spliced.entryPrevious line head known]
  by_cases first : line = 0
  · subst first
    have here := ((spliced.instrument_entrance_iff entrance).mpr rfl).1
    by_cases opened : opener staff.ranges 0 = none
    · have nothing : closer closing (0 - 1) = none := by
        refine closer_eq_none_iff.mpr fun range member ends => ?_
        have within := spliced.inside range (spliced.closed member)
        omega
      rw [if_neg (by simp [opened]), if_pos ⟨rfl, opened⟩, exit_of_unclosed nothing]
      exact callOf_eq_none (Or.inl (by decide))
    · rw [if_pos ⟨rfl, opened⟩, if_neg (by simp [opened]), here]
  · rw [if_neg (by simp [first]), if_neg (by simp [first]), exit_entrance entrance first]

end Spliced

end StaffAssembly

end TuneGraph
