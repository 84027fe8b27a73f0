import TuneGraph.Proofs.Compile.Forest
import Mathlib.Data.Set.Finite.Lemmas

/-! # Unrolling repeats

`RepeatMarker.unroll` is the order in which the lines of a staff are heard, read off the ranges
alone: the widest range that begins with a line and fits is played as a block, as often as
asked, with the other ranges unrolled inside it, and what comes after the block follows. The chain
of a staff plays exactly that (`StaffAssembly.Spliced.plays`).
-/

namespace TuneGraph

namespace RepeatMarker

/-- The ranges that begin with a line and end no later than another one. -/
def fitting (ranges : List RepeatMarker) (line last : Int) : List RepeatMarker :=
  ranges.filter fun range =>
    range.startLine = line ∧ line ≤ range.endLine ∧ range.endLine ≤ last

/-- The widest of the ranges that begin with a line and end no later than another one. -/
def widest (ranges : List RepeatMarker) (line last : Int) : Option RepeatMarker :=
  (fitting ranges line last).find? fun range =>
    (fitting ranges line last).all fun other => other.endLine ≤ range.endLine

theorem mem_fitting {ranges : List RepeatMarker} {line last : Int} {range : RepeatMarker} :
    range ∈ fitting ranges line last ↔ range ∈ ranges ∧ range.startLine = line ∧
      line ≤ range.endLine ∧ range.endLine ≤ last := by
  simp only [fitting, List.mem_filter, decide_eq_true_eq]

/-- A widest range is one of the ranges, begins with the line and fits. -/
theorem widest_spec {ranges : List RepeatMarker} {line last : Int} {range : RepeatMarker}
    (found : widest ranges line last = some range) : range ∈ ranges ∧ range.startLine = line ∧
      line ≤ range.endLine ∧ range.endLine ≤ last :=
  mem_fitting.mp (List.mem_of_find?_eq_some found)

/-- If some range fits, there is a widest one, and it ends no earlier. -/
theorem exists_widest {ranges : List RepeatMarker} {line last : Int} {range : RepeatMarker}
    (fits : range ∈ fitting ranges line last) :
    ∃ most, widest ranges line last = some most ∧ range.endLine ≤ most.endLine := by
  obtain ⟨most, member, greatest⟩ : ∃ most ∈ fitting ranges line last,
      ∀ other ∈ fitting ranges line last, other.endLine ≤ most.endLine := by
    generalize fitting ranges line last = candidates at fits
    have finite := List.finite_toSet candidates
    obtain ⟨most, member, greatest⟩ := Set.exists_max_image _ endLine finite ⟨range, fits⟩
    exact ⟨most, member, greatest⟩
  have present : (widest ranges line last).isSome = true :=
    List.find?_isSome.mpr ⟨most, member, List.all_eq_true.mpr fun other inside =>
      decide_eq_true (greatest other inside)⟩
  obtain ⟨found, known⟩ := Option.isSome_iff_exists.mp present
  have all := List.find?_some known
  rw [List.all_eq_true] at all
  exact ⟨found, known, of_decide_eq_true (all range fits)⟩

/-- The lines that are heard from a line on, for a number of lines, where every range is played
as a block a number of times. -/
def unroll (times : Nat) (ranges : List RepeatMarker) (line : Int) : Nat → List Int
  | 0 => []
  | count + 1 =>
    match _found : widest ranges line (line + count) with
    | none => line :: unroll times ranges (line + 1) count
    | some range =>
      (List.replicate times
        (unroll times (ranges.erase range) line (range.endLine - line + 1).toNat)).flatten ++
        unroll times ranges (range.endLine + 1) (line + count - range.endLine).toNat
termination_by count => (ranges.length, count)
decreasing_by
  · exact Prod.Lex.right _ (Nat.lt_succ_self count)
  · have member := (widest_spec _found).1
    have shorter := List.length_erase_of_mem member
    have positive := List.length_pos_of_mem member
    exact Prod.Lex.left _ _ (by omega)
  · have spec := widest_spec _found
    exact Prod.Lex.right _ (by omega)

/-- Every line is heard, and only lines from the first one on are. -/
theorem mem_unroll {times : Nat} (often : 1 ≤ times) {ranges : List RepeatMarker} {line : Int}
    {count : Nat} {heard : Int} : heard ∈ unroll times ranges line count ↔
      line ≤ heard ∧ heard < line + count := by
  fun_induction unroll times ranges line count with
  | case1 => simp only [List.not_mem_nil, false_iff]; omega
  | case2 ranges line count found ih =>
      rw [List.mem_cons, ih]
      omega
  | case3 ranges line count range found inner rest =>
      have spec := widest_spec found
      rw [List.mem_append, mem_flatten_replicate (Nat.ne_of_gt often), inner, rest]
      omega

example : unroll 2 [⟨0, 1⟩, ⟨1, 1⟩] 0 3 = [0, 1, 1, 0, 1, 1, 2] := by cbv

end RepeatMarker

namespace StaffAssembly

open TuneGraph.Graph RepeatMarker

variable {base times : Int} {staff : StaffAssembly}
  {before after : List (Int × RepeatMarker)} {available : List RepeatMarker}
  {range : Int × RepeatMarker} {line last : Int}

/-- A stretch of lines that is played on its own: up to the last line of the staff or of a repeat
around it. It is entered through the repeats that come before some point; what is still available
to be unrolled there is those of them that begin with the first line, and all that begin later. -/
structure Within (staff : StaffAssembly) (before after : List (Int × RepeatMarker))
    (available : List RepeatMarker) (line last : Int) : Prop where
  split : staff.ranges = before ++ after
  bounds : 0 ≤ line ∧ line ≤ last ∧ last < staff.calls.length
  here : ∀ range ∈ before, range.2.startLine = line → range.2.endLine ≤ last
  later : ∀ range ∈ staff.ranges, line < range.2.startLine → range.2.startLine ≤ last →
    range.2.endLine ≤ last
  count_here : ∀ marker : RepeatMarker, marker.startLine = line → marker.endLine ≤ last →
    available.count marker = (before.map Prod.snd).count marker
  count_later : ∀ marker : RepeatMarker, line < marker.startLine → marker.startLine ≤ last →
    marker.endLine ≤ last → available.count marker = (staff.ranges.map Prod.snd).count marker
  around : ∀ range ∈ staff.ranges, range.2.startLine < line → line ≤ range.2.endLine →
    last ≤ range.2.endLine
  around_here : ∀ range ∈ after, range.2.startLine = line → last ≤ range.2.endLine
  ends : last = staff.calls.length - 1 ∨ ∃ range ∈ staff.ranges, range.2.endLine = last ∧
    (range.2.startLine < line ∨ range ∈ after ∧ range.2.startLine = line)

namespace Spliced

theorem beside_before (spliced : Spliced base times staff.ranges staff)
    (split : staff.ranges = before ++ range :: after) :
    ∀ earlier ∈ before, earlier.2.Beside range.2 := by
  intro earlier member
  have ordered := spliced.ordered
  rw [split, List.map_append, List.map_cons] at ordered
  exact (List.pairwise_append.mp ordered).2.2 _ (List.mem_map_of_mem member) _ List.mem_cons_self

theorem beside_after (spliced : Spliced base times staff.ranges staff)
    (split : staff.ranges = before ++ range :: after) :
    ∀ later ∈ after, range.2.Beside later.2 := by
  intro later member
  have ordered := spliced.ordered
  rw [split, List.map_append, List.map_cons] at ordered
  exact (List.pairwise_cons.mp (List.pairwise_append.mp ordered).2.1).1 _
    (List.mem_map_of_mem member)

/-- The whole staff is played from its first line on. -/
theorem within_staff (spliced : Spliced base times staff.ranges staff)
    (nonempty : 0 < staff.calls.length) : Within staff staff.ranges [] (staff.ranges.map Prod.snd) 0
      (staff.calls.length - 1) where
  split := (List.append_nil _).symm
  bounds := by omega
  here := fun range member _ => by have := spliced.inside range member; omega
  later := fun range member _ _ => by have := spliced.inside range member; omega
  count_here := fun _ _ _ => rfl
  count_later := fun _ _ _ _ => rfl
  around := fun range member before => by have := spliced.inside range member; omega
  around_here := fun _ member => (List.not_mem_nil member).elim
  ends := Or.inl rfl

/-- The body of a repeat is played from its first line to its last. -/
theorem within_body (spliced : Spliced base times staff.ranges staff)
    (split : staff.ranges = before ++ range :: after)
    (count_here : ∀ marker : RepeatMarker, marker.startLine = range.2.startLine →
      marker.endLine ≤ range.2.endLine →
        available.count marker = (before.map Prod.snd).count marker)
    (count_later : ∀ marker : RepeatMarker, range.2.startLine < marker.startLine →
      marker.startLine ≤ range.2.endLine → marker.endLine ≤ range.2.endLine →
        available.count marker = (staff.ranges.map Prod.snd).count marker) :
    Within staff before (range :: after) available range.2.startLine range.2.endLine := by
  have front := spliced.beside_before split
  have back := spliced.beside_after split
  have member : range ∈ staff.ranges := mem_of_split split
  have within := spliced.inside range member
  have sides : ∀ other ∈ staff.ranges, other.2.Beside range.2 ∨ other = range ∨
      range.2.Beside other.2 := by
    rw [split]
    intro other inside
    rcases List.mem_append.mp inside with left | right
    · exact Or.inl (front other left)
    · rcases List.mem_cons.mp right with same | right
      · exact Or.inr (Or.inl same)
      · exact Or.inr (Or.inr (back other right))
  refine
    { split := split
      bounds := within
      here := fun other inside _ => (front other inside).2.1
      later := fun other inside begins reaches => ?_
      count_here := count_here
      count_later := count_later
      around := fun other inside begins reaches => ?_
      around_here := fun other inside begins => ?_
      ends := Or.inr ⟨range, member, rfl, Or.inr ⟨List.mem_cons_self, rfl⟩⟩ }
  · rcases sides other inside with ⟨_, _, _⟩ | rfl | ⟨_, _, _⟩ <;> omega
  · rcases sides other inside with ⟨_, _, _⟩ | rfl | ⟨_, _, _⟩ <;> omega
  · rcases List.mem_cons.mp inside with rfl | right
    · exact Int.le_refl _
    · exact (back other right).2.1

end Spliced

namespace Within

theorem split_cons {inner : List (Int × RepeatMarker)}
    (within : Within staff (before ++ range :: inner) after available line last) :
    staff.ranges = before ++ range :: (inner ++ after) := by
  rw [within.split, List.append_assoc]
  rfl

/-- After a line that no repeat begins with, the next line is played. -/
theorem after_line (within : Within staff before after available line last)
    (unopened : opener before line = none) (more : line < last) :
    Within staff staff.ranges [] available (line + 1) last where
  split := (List.append_nil _).symm
  bounds := by have := within.bounds; omega
  here := fun range member begins => within.later range member (by omega) (by omega)
  later := fun range member begins => within.later range member (by omega)
  count_here := fun marker begins => within.count_later marker (by omega) (by omega)
  count_later := fun marker begins => within.count_later marker (by omega)
  around := by
    intro range member begins reaches
    by_cases earlier : range.2.startLine < line
    · exact within.around range member earlier (by omega)
    · have same : range.2.startLine = line := by omega
      rw [within.split] at member
      rcases List.mem_append.mp member with left | right
      · exact (opener_eq_none_iff.mp unopened range left same).elim
      · exact within.around_here range right same
  around_here := fun _ member => (List.not_mem_nil member).elim
  ends := within.ends.imp_right fun ⟨range, member, ends, begins⟩ =>
    ⟨range, member, ends, Or.inl (by omega)⟩

section Block

variable {inner : List (Int × RepeatMarker)}

/-- The block of a repeat is played with one range less. -/
theorem block (spliced : Spliced base times staff.ranges staff)
    (within : Within staff (before ++ range :: inner) after available line last)
    (begins : range.2.startLine = line)
    (outermost : ∀ other ∈ inner, other.2.startLine ≠ line) :
    Within staff before (range :: (inner ++ after)) (available.erase range.2)
      range.2.startLine range.2.endLine := by
  have split := within.split_cons
  have fits := within.here range (List.mem_append_right _ List.mem_cons_self) begins
  have bounds := within.bounds
  refine spliced.within_body split (fun marker starts reaches => ?_)
    fun marker starts stays reaches => ?_
  · have counted := within.count_here marker (starts.trans begins) (by omega)
    have none : (inner.map Prod.snd).count marker = 0 := by
      refine List.count_eq_zero.mpr fun member => ?_
      obtain ⟨other, inside, rfl⟩ := List.mem_map.mp member
      exact outermost other inside (starts.trans begins)
    rw [List.map_append, List.map_cons, List.count_append, List.count_cons, none] at counted
    rw [List.count_erase, counted]
    omega
  · have different : ¬(range.2 == marker) = true := by
      rw [beq_iff_eq]
      rintro rfl
      exact Int.lt_irrefl _ starts
    rw [List.count_erase, if_neg different]
    exact within.count_later marker (by omega) (by omega) (by omega)

/-- After a block, the next line is played. -/
theorem after_block (spliced : Spliced base times staff.ranges staff)
    (within : Within staff (before ++ range :: inner) after available line last)
    (begins : range.2.startLine = line)
    (outermost : ∀ other ∈ inner, other.2.startLine ≠ line) (more : range.2.endLine < last) :
    Within staff staff.ranges [] available (range.2.endLine + 1) last := by
  have split := within.split_cons
  have front := spliced.beside_before split
  have back := spliced.beside_after split
  have inside := spliced.inside range (mem_of_split split)
  have bounds := within.bounds
  refine
    { split := (List.append_nil _).symm
      bounds := by omega
      here := fun other member starts => within.later other member (by omega) (by omega)
      later := fun other member starts => within.later other member (by omega)
      count_here := fun marker starts => within.count_later marker (by omega) (by omega)
      count_later := fun marker starts => within.count_later marker (by omega)
      around := fun other member starts reaches => ?_
      around_here := fun _ member => (List.not_mem_nil member).elim
      ends := within.ends.imp_right fun ⟨other, member, ends, starts⟩ =>
        ⟨other, member, ends, Or.inl (by omega)⟩ }
  by_cases earlier : other.2.startLine < line
  · exact within.around other member earlier (by omega)
  · rw [split] at member
    rcases List.mem_append.mp member with left | right
    · have := front other left
      have := this.2.1
      omega
    · rcases List.mem_cons.mp right with rfl | right
      · omega
      · obtain ⟨starts', _, apart⟩ := back other right
        rcases List.mem_append.mp right with inner | outer
        · have := outermost other inner
          omega
        · by_cases same : other.2.startLine = line
          · exact within.around_here other outer same
          · omega

end Block

/-- What is available for the first line are the repeats that it is entered through. -/
theorem mem_available_iff (within : Within staff before after available line last)
    {marker : RepeatMarker} (begins : marker.startLine = line) (fits : marker.endLine ≤ last) :
    marker ∈ available ↔ marker ∈ before.map Prod.snd := by
  rw [← List.count_pos_iff, within.count_here marker begins fits, List.count_pos_iff]

/-- The widest available range is that of the repeat that the line is entered through. -/
theorem widest_eq (spliced : Spliced base times staff.ranges staff)
    (within : Within staff before after available line last) :
    widest available line last = (opener before line).map Prod.snd := by
  cases opened : opener before line with
  | none =>
      refine Option.eq_none_iff_forall_ne_some.mpr fun marker found => ?_
      obtain ⟨member, begins, -, ends⟩ := widest_spec found
      obtain ⟨range, inside, rfl⟩ :=
        List.mem_map.mp ((within.mem_available_iff begins ends).mp member)
      exact opener_eq_none_iff.mp opened range inside begins
  | some range =>
      obtain ⟨front, inner, rfl, begins, outermost⟩ := opener_eq_some_iff.mp opened
      have split := within.split_cons
      have member : range ∈ front ++ range :: inner :=
        List.mem_append_right _ List.mem_cons_self
      have inside := spliced.inside range (mem_of_split split)
      have fits := within.here range member begins
      have candidate : range.2 ∈ fitting available line last :=
        mem_fitting.mpr ⟨(within.mem_available_iff begins fits).mpr (List.mem_map_of_mem member),
          begins, by omega, fits⟩
      obtain ⟨marker, found, most⟩ := exists_widest candidate
      obtain ⟨present, starts, -, ends⟩ := widest_spec found
      obtain ⟨other, inFront, rfl⟩ :=
        List.mem_map.mp ((within.mem_available_iff starts ends).mp present)
      have least : other.2.endLine ≤ range.2.endLine := by
        rcases List.mem_append.mp inFront with left | right
        · exact (spliced.beside_before split other left).2.1
        · rcases List.mem_cons.mp right with rfl | right
          · exact Int.le_refl _
          · exact (outermost other right starts).elim
      have same : other.2 = range.2 := by
        cases first : other.2
        cases second : range.2
        simp only [first, second] at *
        congr 1 <;> omega
      rw [found, same, Option.map_some]

/-- Nothing is entered after the last line of the staff. -/
theorem entry_after_staff (spliced : Spliced base times staff.ranges staff)
    (final : last = staff.calls.length - 1) : staff.entry staff.ranges (last + 1) = none := by
  refine Option.eq_none_iff_forall_ne_some.mpr fun id known => ?_
  have := spliced.entry_inside (List.Subset.refl _) known
  omega

/-- The next line follows a line that no repeat begins with, unless a stretch ends there. -/
theorem next_after_line (spliced : Spliced base times staff.ranges staff)
    (within : Within staff before after available line last)
    (unopened : opener before line = none) {call : Int} (called : staff.callOf line = some call) :
    linkOf staff.nodes call Slot.callNext =
      if line < last then staff.entry staff.ranges (line + 1) else none := by
  rw [spliced.callNext line call called]
  by_cases more : line < last
  · have unclosed : closer staff.ranges line = none := by
      refine closer_eq_none_iff.mpr fun range member ends => ?_
      have inside := spliced.inside range member
      by_cases earlier : range.2.startLine < line
      · have := within.around range member earlier (by omega)
        omega
      · have same : range.2.startLine = line := by omega
        rw [within.split] at member
        rcases List.mem_append.mp member with left | right
        · exact opener_eq_none_iff.mp unopened range left same
        · have := within.around_here range right same
          omega
    rw [if_pos more, if_pos unclosed]
  · obtain rfl : line = last := Int.le_antisymm within.bounds.2.1 (Int.not_lt.mp more)
    rw [if_neg more]
    rcases within.ends with final | ⟨range, member, ends, -⟩
    · rw [entry_after_staff spliced final, ite_self]
    · exact if_neg fun unclosed => closer_eq_none_iff.mp unclosed range member ends

/-- The next line follows a block, unless a stretch ends there. -/
theorem next_after_block (spliced : Spliced base times staff.ranges staff)
    {inner : List (Int × RepeatMarker)}
    (within : Within staff (before ++ range :: inner) after available line last)
    (begins : range.2.startLine = line)
    (outermost : ∀ other ∈ inner, other.2.startLine ≠ line) :
    linkOf staff.nodes range.1 Slot.repeatNext =
      if range.2.endLine < last then staff.entry staff.ranges (range.2.endLine + 1) else none := by
  have split := within.split_cons
  have member : range ∈ staff.ranges := mem_of_split split
  have inside := spliced.inside range member
  have fits := within.here range (List.mem_append_right _ List.mem_cons_self) begins
  rw [spliced.repeatNext range member]
  by_cases more : range.2.endLine < last
  · have closed : closer staff.ranges range.2.endLine = some range := by
      refine closer_eq_some_iff.mpr ⟨before, inner ++ after, split, rfl, ?_, ?_⟩
      · intro earlier left ends
        by_contra starts
        have present : earlier ∈ staff.ranges := by
          rw [split]
          exact List.mem_append_left _ left
        have := within.around earlier present (by omega) (by omega)
        omega
      · intro later right ends
        have starts := (spliced.beside_after split later right).1
        rcases List.mem_append.mp right with near | far
        · have := outermost later near
          omega
        · have := within.around_here later far
          omega
    rw [if_pos more, if_pos closed]
  · have final : range.2.endLine = last := Int.le_antisymm fits (Int.not_lt.mp more)
    rw [if_neg more]
    rcases within.ends with whole | ⟨other, present, ends, starts⟩
    · rw [final, entry_after_staff spliced whole, ite_self]
    · refine if_neg fun closed => ?_
      obtain ⟨front, back, split', -, all, rest⟩ := closer_eq_some_iff.mp closed
      have unique := List.Nodup.of_map _ spliced.sound.ranges_nodup
      obtain ⟨rfl, rfl⟩ := split_unique unique split' split
      rcases starts with earlier | ⟨far, same⟩
      · rw [split] at present
        rcases List.mem_append.mp present with left | right
        · have := all other left (by omega)
          omega
        · rcases List.mem_cons.mp right with rfl | right
          · omega
          · have := rest other right (by omega)
            omega
      · have := rest other (List.mem_append_right _ far) (by omega)
        omega

end Within

namespace Spliced

/-- What is played from a link on, stretch by stretch: the entry of a line plays the lines of its
stretch, unrolled. The induction follows the unrolling; a call plays itself and the rest of the
stretch, and a repeat plays its body as a stretch of its own. -/
theorem plays_within (spliced : Spliced base times staff.ranges staff) (count : Nat)
    (within : Within staff before after available line last) (size : last = line + count - 1) :
    Plays staff.nodes (staff.entry before line)
      ((unroll times.toNat available line count).filterMap staff.callOf) := by
  fun_induction unroll times.toNat available line count generalizing before after last with
  | case1 => have := within.bounds; omega
  | case2 ranges line count found ih =>
      obtain rfl : last = line + count := by omega
      have unopened : opener before line = none := by
        rw [within.widest_eq spliced] at found
        exact Option.map_eq_none_iff.mp found
      have bounds := within.bounds
      obtain ⟨call, called⟩ : ∃ call, staff.callOf line = some call := exists_callOf (by omega)
      have known := spliced.sound.kindOf_call (callOf_mem called)
      obtain ⟨node, nodeFound⟩ := exists_node known
      have next := within.next_after_line spliced unopened called
      rw [entry_of_unopened unopened, called, List.filterMap_cons_some called]
      refine .call nodeFound (kind_of_findNode? nodeFound known) ?_
      rw [link_of_findNode? nodeFound, next]
      by_cases more : line < line + count
      · rw [if_pos more]
        exact ih (within.after_line unopened more) (by omega)
      · obtain rfl : count = 0 := by omega
        rw [if_neg more, unroll]
        exact .silence
  | case3 ranges line count marker found inner rest =>
      obtain rfl : last = line + count := by omega
      rw [within.widest_eq spliced] at found
      obtain ⟨range, opened, rfl⟩ := Option.map_eq_some_iff.mp found
      obtain ⟨front, behind, rfl, begins, outermost⟩ := opener_eq_some_iff.mp opened
      have split := within.split_cons
      have member : range ∈ staff.ranges := mem_of_split split
      have inside := spliced.inside range member
      have known := spliced.sound.kindOf_repeat (List.mem_map_of_mem member)
      obtain ⟨counted, counterKnown⟩ := spliced.repeatCount range member
      obtain ⟨node, nodeFound⟩ := exists_node known
      obtain ⟨counter, counterFound⟩ := exists_node counterKnown
      have counterKind := kind_of_findNode? counterFound counterKnown
      have stretch := within.block spliced begins outermost
      rw [begins] at stretch
      have body := inner stretch (by omega)
      have next := within.next_after_block spliced begins outermost
      rw [entry_of_opener opened, List.filterMap_append, List.filterMap_flatten,
        List.map_replicate]
      refine .repetition nodeFound (kind_of_findNode? nodeFound known)
        ((link_of_findNode? nodeFound _).trans counted) counterFound counterKind
        (spliced.sound.counters counter (mem_of_findNode? counterFound) counterKind) ?_ ?_
      · rw [link_of_findNode? nodeFound, spliced.repeatBody front range _ split, begins]
        exact body
      · rw [link_of_findNode? nodeFound, next]
        by_cases more : range.2.endLine < line + count
        · rw [if_pos more]
          exact rest (within.after_block spliced begins outermost more) (by omega)
        · have ended : (line + count - range.2.endLine).toNat = 0 := by omega
          rw [if_neg more, ended, unroll]
          exact .silence

end Spliced

end StaffAssembly

end TuneGraph
