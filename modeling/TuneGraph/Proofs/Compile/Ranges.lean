import TuneGraph.Proofs.Compile.Staff

/-! # Where repeats begin and end

Several repeats of a staff may begin on one line, and several may end on one line. From outside,
a line is entered through the last emitted repeat that begins there
(`StaffAssembly.opener`) and left through the outermost repeat that ends there
(`StaffAssembly.closer`): through the first of those that end there, or through the last one over
the same range.
-/

namespace TuneGraph

namespace StaffAssembly

variable {ranges : List (Int × RepeatMarker)} {range : Int × RepeatMarker} {line : Int}

/-- The outermost repeat that begins on a line. -/
def opener (ranges : List (Int × RepeatMarker)) (line : Int) : Option (Int × RepeatMarker) :=
  ranges.reverse.find? fun range => range.2.startLine = line

/-- The outermost repeat that ends on a line, after one more repeat. -/
def closerAfter (line : Int) (found : Option (Int × RepeatMarker)) (range : Int × RepeatMarker) :
    Option (Int × RepeatMarker) :=
  if range.2.endLine = line ∧ ∀ outer ∈ found, range.2.startLine ≤ outer.2.startLine then some range
  else found

/-- The outermost repeat that ends on a line. -/
def closer (ranges : List (Int × RepeatMarker)) (line : Int) : Option (Int × RepeatMarker) :=
  ranges.foldl (closerAfter line) none

@[simp] theorem opener_nil : opener [] line = none := rfl

@[simp] theorem closer_nil : closer [] line = none := rfl

/-- A range that splits the ranges is one of them. -/
theorem mem_of_split {before after : List (Int × RepeatMarker)}
    (split : ranges = before ++ range :: after) : range ∈ ranges := by
  rw [split]
  exact List.mem_append_right _ List.mem_cons_self

/-- A place in a longer list of repeats is the new last one, or an earlier one. -/
theorem split_concat {last : Int × RepeatMarker} {before after : List (Int × RepeatMarker)}
    (split : ranges ++ [last] = before ++ range :: after) :
    (before = ranges ∧ range = last ∧ after = []) ∨
      ∃ inner, ranges = before ++ range :: inner ∧ after = inner ++ [last] := by
  rcases List.eq_nil_or_concat after with rfl | ⟨inner, final, rfl⟩
  · obtain ⟨same, single⟩ := List.append_inj' split rfl
    exact Or.inl ⟨same.symm, (List.singleton_inj.mp single).symm, rfl⟩
  · rw [List.concat_eq_append, ← List.cons_append, ← List.append_assoc] at split
    obtain ⟨earlier, single⟩ := List.append_inj' split rfl
    rw [List.concat_eq_append, List.singleton_inj.mp single]
    exact Or.inr ⟨inner, earlier, rfl⟩

/-- A range has one place among ranges that are all different. -/
theorem split_unique (unique : ranges.Nodup) {before after front back : List (Int × RepeatMarker)}
    (split : ranges = before ++ range :: after) (other : ranges = front ++ range :: back) :
    before = front ∧ after = back := by
  rw [split] at unique
  have apart := (List.nodup_cons.mp (List.nodup_middle.mp unique)).1
  rw [List.mem_append, not_or] at apart
  have places := (List.append_cons_inj_of_notMem apart.1 apart.2).mp (split.symm.trans other)
  exact ⟨places.1, places.2.2⟩

/-- A range that comes last opens its first line. -/
theorem opener_concat : opener (ranges ++ [range]) line =
    if range.2.startLine = line then some range else opener ranges line := by
  rw [opener, List.reverse_append, List.reverse_singleton, List.singleton_append, List.find?_cons]
  by_cases here : range.2.startLine = line <;> simp [here, opener]

/-- A range that comes last closes its last line unless an earlier one encloses it. -/
theorem closer_concat :
    closer (ranges ++ [range]) line = closerAfter line (closer ranges line) range := by
  rw [closer, List.foldl_append, List.foldl_cons, List.foldl_nil, closer]

/-- The opener of a line is the last range that starts on it. -/
theorem opener_eq_some_iff : opener ranges line = some range ↔
    ∃ before after, ranges = before ++ range :: after ∧ range.2.startLine = line ∧
      ∀ later ∈ after, later.2.startLine ≠ line := by
  rw [opener, List.find?_eq_some_iff_append, decide_eq_true_iff]
  constructor
  · rintro ⟨here, after, before, split, none⟩
    refine ⟨before.reverse, after.reverse, ?_, here, fun later member => ?_⟩
    · rw [← List.reverse_reverse ranges, split, List.reverse_append, List.reverse_cons,
        List.append_assoc, List.singleton_append]
    · simpa using none later (List.mem_reverse.mp member)
  · rintro ⟨before, after, rfl, here, none⟩
    refine ⟨here, after.reverse, before.reverse, ?_, fun later member => ?_⟩
    · rw [List.reverse_append, List.reverse_cons, List.append_assoc, List.singleton_append]
    · simpa using none later (List.mem_reverse.mp member)

/-- The opener of a line is a range that starts on it. -/
theorem opener_mem (known : opener ranges line = some range) :
    range ∈ ranges ∧ range.2.startLine = line := by
  obtain ⟨before, after, rfl, here, -⟩ := opener_eq_some_iff.mp known
  exact ⟨List.mem_append_right _ List.mem_cons_self, here⟩

/-- A line without an opener is not the first line of a range. -/
theorem opener_eq_none_iff : opener ranges line = none ↔
    ∀ range ∈ ranges, range.2.startLine ≠ line := by
  rw [opener, List.find?_eq_none]
  simp only [List.mem_reverse, decide_eq_true_eq, ne_eq]

/-- A line without a closer is not the last line of a range. -/
theorem closer_eq_none_iff : closer ranges line = none ↔
    ∀ range ∈ ranges, range.2.endLine ≠ line := by
  induction ranges using List.reverseRecOn with
  | nil => simp only [closer_nil, List.not_mem_nil, false_implies, implies_true]
  | append_singleton ranges last ih =>
      rw [closer_concat, closerAfter, List.forall_mem_append, List.forall_mem_singleton]
      split
      · rename_i ends
        exact ⟨nofun, fun both => (both.2 ends.1).elim⟩
      · rename_i inner
        rw [ih]
        refine ⟨fun none => ⟨none, fun ends => inner ⟨ends, ?_⟩⟩, And.left⟩
        rw [ih.mpr none]
        exact fun _ member => nomatch member

/-- The outermost repeat that ends on a line begins before all later ones that end there, and no
later than any earlier one. -/
theorem closer_eq_some_iff : closer ranges line = some range ↔
    ∃ before after, ranges = before ++ range :: after ∧ range.2.endLine = line ∧
      (∀ earlier ∈ before, earlier.2.endLine = line →
        range.2.startLine ≤ earlier.2.startLine) ∧
      ∀ later ∈ after, later.2.endLine = line → range.2.startLine < later.2.startLine := by
  induction ranges using List.reverseRecOn generalizing range with
  | nil => simp
  | append_singleton ranges last ih =>
      rw [closer_concat, closerAfter]
      constructor
      · intro known
        split at known
        · rename_i outermost
          obtain rfl := Option.some.inj known
          refine ⟨ranges, [], rfl, outermost.1, fun earlier member ends => ?_, nofun⟩
          cases found : closer ranges line with
          | none => exact (closer_eq_none_iff.mp found earlier member ends).elim
          | some outer =>
              have first := outermost.2 outer found
              obtain ⟨before, after, rfl, -, all, rest⟩ := ih.mp found
              rcases List.mem_append.mp member with front | back
              · exact Int.le_trans first (all earlier front ends)
              · rcases List.mem_cons.mp back with rfl | back
                · exact first
                · exact Int.le_trans first (Int.le_of_lt (rest earlier back ends))
        · rename_i inner
          obtain ⟨before, after, rfl, ends, all, rest⟩ := ih.mp known
          refine ⟨before, after ++ [last], by simp, ends, all, fun later member lasts => ?_⟩
          rcases List.mem_append.mp member with old | new
          · exact rest later old lasts
          · obtain rfl := List.mem_singleton.mp new
            by_contra outermost
            refine inner ⟨lasts, ?_⟩
            rw [known]
            rintro outer ⟨⟩
            exact Int.not_lt.mp outermost
      · rintro ⟨before, after, split, ends, all, rest⟩
        rcases split_concat split with ⟨rfl, rfl, rfl⟩ | ⟨inner, rfl, rfl⟩
        · refine if_pos ⟨ends, fun outer found => ?_⟩
          obtain ⟨before, after, rfl, sameEnd, -⟩ := ih.mp found
          exact all outer (List.mem_append_right _ List.mem_cons_self) sameEnd
        · have known : closer (before ++ range :: inner) line = some range :=
            ih.mpr ⟨before, inner, rfl, ends, all, fun later member =>
              rest later (List.mem_append_left _ member)⟩
          rw [known, if_neg]
          rintro ⟨lasts, outermost⟩
          have := rest last (List.mem_append_right _ (List.mem_singleton_self _)) lasts
          have := outermost range rfl
          omega

/-- The closer of a line is a range that ends on it. -/
theorem closer_mem (known : closer ranges line = some range) :
    range ∈ ranges ∧ range.2.endLine = line := by
  obtain ⟨before, after, rfl, ends, -⟩ := closer_eq_some_iff.mp known
  exact ⟨List.mem_append_right _ List.mem_cons_self, ends⟩

end StaffAssembly

end TuneGraph
