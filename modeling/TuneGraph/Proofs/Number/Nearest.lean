import TuneGraph.Number.Approximation
import Mathlib.Algebra.Order.Field.Rat
import Mathlib.Algebra.Order.Ring.Abs
import Mathlib.Data.Rat.Lemmas
import Mathlib.Tactic.FieldSimp
import Mathlib.Tactic.Linarith
import Mathlib.Tactic.LinearCombination
import Mathlib.Tactic.Ring

/-! # Nearest fractions

The fraction that `approximate` finds for a number is one of the nearest among those with a
denominator within the bound (`approximate_nearest`). Two convergents, or a convergent and a
semiconvergent, are neighbours: their cross difference is one, so that a fraction between them has
at least the sum of their denominators (`Convergent.denominators_le_of_between`). The expansion
ends with a pair of neighbours around the number whose denominators together exceed the bound, and
one of the two ends is therefore nearest.

Nearest fractions grow with the number (`approximate_mono`), and a number has a positive one exactly
if it is more than half of the least positive fraction (`approximate_pos_iff`).
-/

namespace TuneGraph

theorem abs_eq_abs (x : Rat) : x.abs = |x| := by
  unfold Rat.abs
  split
  · exact (abs_of_nonneg ‹_›).symm
  · exact (abs_of_neg (not_le.mp ‹_›)).symm

/-- Which of two numbers is nearer to a third depends on the side of their midpoint. -/
theorem abs_sub_le_abs_sub_iff {a b x : Rat} :
    |a - x| ≤ |b - x| ↔ (a - b) * (a + b - 2 * x) ≤ 0 := by
  have difference : (a - x) ^ 2 - (b - x) ^ 2 = (a - b) * (a + b - 2 * x) := by ring
  rw [← sq_le_sq, ← sub_nonpos, difference]

namespace Convergent

variable {a b : Convergent} {x y : Rat} {n : Int} {d bound : Nat}

/-- The cross difference of two convergents: the numerator of their difference. -/
def cross (a b : Convergent) : Int :=
  b.numerator * a.denominator - a.numerator * b.denominator

theorem cross_swap (a b : Convergent) : b.cross a = -a.cross b := by
  unfold cross
  ring

theorem toRat_eq (a : Convergent) : a.toRat = a.numerator / a.denominator :=
  Rat.mkRat_eq_div a.numerator a.denominator

theorem den_toRat_le (positive : 0 < a.denominator) : a.toRat.den ≤ a.denominator := by
  have divides : (a.toRat.den : Int) ∣ a.denominator := by
    rw [toRat, Rat.mkRat_eq_divInt]
    exact Rat.den_dvd a.numerator a.denominator
  exact Nat.le_of_dvd positive (Int.natCast_dvd_natCast.mp divides)

/-- A convergent is not above a fraction if its numerator is not, over the common denominator. -/
theorem toRat_le_iff (positive : 0 < a.denominator) :
    a.toRat ≤ y ↔ a.numerator * y.den ≤ y.num * a.denominator := by
  have den : (0 : Rat) < a.denominator := by exact_mod_cast positive
  have denOther : (0 : Rat) < y.den := by exact_mod_cast y.den_pos
  have divided : a.toRat ≤ y ↔ (a.numerator : Rat) / a.denominator ≤ y.num / y.den := by
    rw [toRat_eq, Rat.num_div_den]
  rw [divided, div_le_div_iff₀ den denOther]
  exact_mod_cast Iff.rfl

theorem le_toRat_iff (positive : 0 < a.denominator) :
    y ≤ a.toRat ↔ y.num * a.denominator ≤ a.numerator * y.den := by
  have den : (0 : Rat) < a.denominator := by exact_mod_cast positive
  have denOther : (0 : Rat) < y.den := by exact_mod_cast y.den_pos
  have divided : y ≤ a.toRat ↔ (y.num : Rat) / y.den ≤ a.numerator / a.denominator := by
    rw [toRat_eq, Rat.num_div_den]
  rw [divided, div_le_div_iff₀ denOther den]
  exact_mod_cast Iff.rfl

/-- A fraction strictly between neighbours has at least their denominators taken together. -/
theorem denominators_le_of_between (left : 0 < a.denominator) (right : 0 < b.denominator)
    (neighbours : a.cross b = 1) (above : a.toRat < y) (below : y < b.toRat) :
    a.denominator + b.denominator ≤ y.den := by
  have fromLeft := not_le.mp fun lower => absurd above (not_lt.mpr ((le_toRat_iff left).mpr lower))
  have toRight := not_le.mp fun upper => absurd below (not_lt.mpr ((toRat_le_iff right).mpr upper))
  have weighted : (y.num * a.denominator - a.numerator * y.den) * b.denominator +
      (b.numerator * y.den - y.num * b.denominator) * a.denominator = (y.den : Int) := by
    unfold cross at neighbours
    linear_combination (y.den : Int) * neighbours
  have first : (b.denominator : Int) ≤
      (y.num * a.denominator - a.numerator * y.den) * b.denominator :=
    le_mul_of_one_le_left (Int.natCast_nonneg _) (by omega)
  have second : (a.denominator : Int) ≤
      (b.numerator * y.den - y.num * b.denominator) * a.denominator :=
    le_mul_of_one_le_left (Int.natCast_nonneg _) (by omega)
  omega

/-- Around a number, one of two neighbours is at least as near as any fraction with less than their
denominators taken together. -/
theorem nearer_end (left : 0 < a.denominator) (right : 0 < b.denominator)
    (neighbours : a.cross b = 1) (above : a.toRat ≤ x) (below : x ≤ b.toRat)
    (small : y.den < a.denominator + b.denominator) :
    |a.toRat - x| ≤ |y - x| ∨ |b.toRat - x| ≤ |y - x| := by
  rcases le_or_gt y a.toRat with outside | inside
  · left
    rw [abs_of_nonpos (sub_nonpos.mpr above), abs_of_nonpos (sub_nonpos.mpr (outside.trans above))]
    linarith
  · rcases le_or_gt b.toRat y with outside | between
    · right
      rw [abs_of_nonneg (sub_nonneg.mpr below),
        abs_of_nonneg (sub_nonneg.mpr (below.trans outside))]
      linarith
    · exact absurd (denominators_le_of_between left right neighbours inside between)
        (Nat.not_le.mpr small)

/-- A state of the expansion of `x`: the convergents weighted with the two remainders give `x`, and
they are neighbours. Only the first remainder may be negative. -/
structure Expands (x : Rat) (n : Int) (d : Nat) (previous current : Convergent) : Prop where
  numerator : previous.numerator * d + current.numerator * n = x.num
  denominator : previous.denominator * d + current.denominator * n = (x.den : Int)
  neighbours : previous.cross current = 1 ∨ previous.cross current = -1
  remainder : 0 ≤ n ∨ current.denominator = 0

theorem expands_start (x : Rat) : Expands x x.num x.den ⟨0, 1⟩ ⟨1, 0⟩ where
  numerator := by ring
  denominator := by
    push_cast
    ring
  neighbours := Or.inl rfl
  remainder := Or.inr rfl

namespace Expands

variable {previous current : Convergent}

/-- The multiple of a denominator by a partial quotient is the same over the natural numbers. -/
theorem quotient_mul (state : Expands x n d previous current) :
    (((n / d).toNat : Nat) : Int) * current.denominator = n / d * current.denominator := by
  rcases state.remainder with nonneg | zero
  · rw [Int.toNat_of_nonneg (Int.ediv_nonneg nonneg (Int.natCast_nonneg d))]
  · rw [zero, Nat.cast_zero, mul_zero, mul_zero]

/-- The next state of the expansion. -/
theorem step (state : Expands x n d previous current) (proper : d ≠ 0) :
    Expands x d (n % d).toNat current (following previous current (n / d)) := by
  have rest : (((n % d).toNat : Nat) : Int) = n % d :=
    Int.toNat_of_nonneg (Int.emod_nonneg n (Int.natCast_ne_zero.mpr proper))
  have division := Int.emod_add_mul_ediv n d
  have quotient := state.quotient_mul
  refine ⟨?_, ?_, ?_, Or.inl (Int.natCast_nonneg d)⟩
  · have numerator := state.numerator
    unfold following
    rw [rest]
    linear_combination numerator + current.numerator * division
  · have denominator := state.denominator
    unfold following
    rw [rest]
    push_cast
    linear_combination denominator + current.denominator * division + (d : Int) * quotient
  · have turned : current.cross (following previous current (n / d)) = -previous.cross current := by
      unfold cross following
      push_cast
      linear_combination -current.numerator * quotient
    rw [turned]
    have neighbours := state.neighbours
    omega

/-- A number whose expansion has ended is the last convergent. -/
theorem eq_of_ended (state : Expands x n 0 previous current) :
    0 < current.denominator ∧ x = current.toRat := by
  have numerator := state.numerator
  have denominator := state.denominator
  rw [Nat.cast_zero, mul_zero, zero_add] at numerator denominator
  have positive : 0 < current.denominator := by
    refine Nat.pos_of_ne_zero fun zero => x.den_nz ?_
    rw [zero, Nat.cast_zero, zero_mul] at denominator
    exact_mod_cast denominator.symm
  have crossed : x.num * current.denominator = current.numerator * x.den := by
    linear_combination (current.numerator : Int) * denominator - current.denominator * numerator
  exact ⟨positive, le_antisymm ((le_toRat_iff positive).mpr crossed.le)
    ((toRat_le_iff positive).mpr crossed.ge)⟩

/-- A number is between the convergents of a state, whichever of them is the lesser. -/
theorem between (state : Expands x n d previous current) (nonneg : 0 ≤ n)
    (left : 0 < previous.denominator) (right : 0 < current.denominator) :
    (previous.cross current = 1 ∧ previous.toRat ≤ x ∧ x ≤ current.toRat) ∨
      (current.cross previous = 1 ∧ current.toRat ≤ x ∧ x ≤ previous.toRat) := by
  have numerator := state.numerator
  have denominator := state.denominator
  have fromPrevious : x.num * previous.denominator - previous.numerator * x.den =
      n * previous.cross current := by
    unfold cross
    linear_combination previous.numerator * denominator - previous.denominator * numerator
  have toCurrent : current.numerator * x.den - x.num * current.denominator =
      d * previous.cross current := by
    unfold cross
    linear_combination current.denominator * numerator - current.numerator * denominator
  rcases state.neighbours with up | down
  · rw [up] at fromPrevious toCurrent
    exact Or.inl ⟨up, (toRat_le_iff left).mpr (by omega), (le_toRat_iff right).mpr (by omega)⟩
  · rw [down] at fromPrevious toCurrent
    refine Or.inr ⟨by rw [cross_swap, down, neg_neg], (toRat_le_iff right).mpr (by omega),
      (le_toRat_iff left).mpr (by omega)⟩

/-- A semiconvergent stands for the earlier convergent in a state of its own, as long as its
multiplier is within the partial quotient. -/
theorem semiconvergent (state : Expands x n d previous current) (steps : Nat)
    (within : steps * (d : Int) ≤ n) :
    Expands x (n - steps * d) d (following previous current steps) current := by
  have numerator := state.numerator
  have denominator := state.denominator
  refine ⟨?_, ?_, ?_, Or.inl (Int.sub_nonneg.mpr within)⟩
  · unfold following
    linear_combination numerator
  · unfold following
    rw [Int.toNat_natCast]
    push_cast
    linear_combination denominator
  · have same : (following previous current steps).cross current = previous.cross current := by
      unfold cross following
      rw [Int.toNat_natCast]
      push_cast
      ring
    rw [same]
    exact state.neighbours

end Expands

/-- The pair with which an expansion ends: a state whose convergents are within the bound while the
next one is not. -/
structure Ends (bound : Nat) (x : Rat) (n : Int) (d : Nat) (previous current : Convergent) : Prop
    extends Expands x n d previous current where
  previous_le : previous.denominator ≤ bound
  current_le : current.denominator ≤ bound
  next_gt : bound < (following previous current (n / d)).denominator

/-- The expansion of a number whose denominator exceeds the bound ends before it has found the
number itself. -/
theorem exists_ends (state : Expands x n d a b) (left : a.denominator ≤ bound)
    (right : b.denominator ≤ bound) (beyond : bound < x.den) :
    ∃ m e, Ends bound x m e (expand bound n d a b).1 (expand bound n d a b).2 := by
  induction n, d, a, b using expand.induct bound with
  | case1 n previous current =>
      obtain ⟨positive, same⟩ := state.eq_of_ended
      have := same ▸ den_toRat_le positive
      omega
  | case2 n d previous current proper next outside =>
      have last : expand bound n d previous current = (previous, current) := by
        rw [expand, dif_neg proper]
        exact if_pos outside
      rw [last]
      exact ⟨n, d, state, left, right, outside⟩
  | case3 n d previous current proper next inside smaller ih =>
      have further : expand bound n d previous current =
          expand bound d (n % d).toNat current next := by
        rw [expand, dif_neg proper]
        exact if_neg inside
      rw [further]
      exact ih (state.step proper) right (Nat.not_lt.mp inside)

namespace Ends

variable {previous current : Convergent}

/-- The last convergent has a denominator, and its remainder is not negative. -/
theorem denominator_pos (ends : Ends bound x n d previous current) :
    0 < current.denominator ∧ 0 ≤ n := by
  have gained : 0 < (n / d).toNat * current.denominator := by
    have next := ends.next_gt
    have kept := ends.previous_le
    unfold following at next
    dsimp only at next
    omega
  have positive : 0 < current.denominator := Nat.pos_of_mul_pos_left gained
  exact ⟨positive, ends.remainder.resolve_right (Nat.ne_of_gt positive)⟩

/-- The greatest multiplier for which the semiconvergent is within the bound is within the partial
quotient. -/
theorem steps_mul_le (ends : Ends bound x n d previous current) :
    ((bound - previous.denominator) / current.denominator : Nat) * (d : Int) ≤ n := by
  obtain ⟨positive, nonneg⟩ := ends.denominator_pos
  have fewer : (bound - previous.denominator) / current.denominator < (n / d).toNat := by
    rw [Nat.div_lt_iff_lt_mul positive]
    have next := ends.next_gt
    have kept := ends.previous_le
    unfold following at next
    dsimp only at next
    omega
  have quotient : (((n / d).toNat : Nat) : Int) = n / d :=
    Int.toNat_of_nonneg (Int.ediv_nonneg nonneg (Int.natCast_nonneg d))
  calc ((bound - previous.denominator) / current.denominator : Nat) * (d : Int)
      ≤ (((n / d).toNat : Nat) : Int) * d :=
        Int.mul_le_mul_of_nonneg_right (by exact_mod_cast fewer.le) (Int.natCast_nonneg d)
    _ = n / d * d := by rw [quotient]
    _ ≤ n := by
        rcases Nat.eq_zero_or_pos d with rfl | proper
        · rw [Nat.cast_zero, mul_zero]
          exact nonneg
        · exact Int.ediv_mul_le n (by omega)

/-- The greatest semiconvergent within the bound and the last convergent are neighbours on either
side of the number, and together their denominators exceed the bound. -/
theorem between (ends : Ends bound x n d previous current) (steps : Nat)
    (greatest : steps = (bound - previous.denominator) / current.denominator) :
    0 < (following previous current steps).denominator ∧
      (following previous current steps).denominator ≤ bound ∧
      bound < (following previous current steps).denominator + current.denominator := by
  obtain ⟨positive, -⟩ := ends.denominator_pos
  have kept := ends.previous_le
  have small := ends.current_le
  have division := Nat.div_add_mod (bound - previous.denominator) current.denominator
  have rest := Nat.mod_lt (bound - previous.denominator) positive
  rw [← greatest, mul_comm] at division
  unfold following
  rw [Int.toNat_natCast]
  dsimp only
  omega

end Ends

end Convergent

section Approximation

variable {x y : Rat} {bound : Nat}

open Convergent

/-- A fraction within the bound is found as it is. -/
theorem approximate_of_le (within : x.den ≤ bound) : approximate x bound = x := if_pos within

/-- What is found for any other number is one of two neighbours around it, which together exceed the
bound, and the other one is not nearer. -/
theorem approximate_of_lt (positive : 1 ≤ bound) (beyond : bound < x.den) : ∃ a b : Convergent,
    (0 < a.denominator ∧ a.denominator ≤ bound) ∧ (0 < b.denominator ∧ b.denominator ≤ bound) ∧
      bound < a.denominator + b.denominator ∧
      (a.cross b = 1 ∧ a.toRat ≤ x ∧ x ≤ b.toRat) ∧
      (approximate x bound = a.toRat ∨ approximate x bound = b.toRat) ∧
      |approximate x bound - x| ≤ |a.toRat - x| ∧ |approximate x bound - x| ≤ |b.toRat - x| := by
  obtain ⟨m, e, ends⟩ := exists_ends (expands_start x) positive (Nat.zero_le bound) beyond
  rcases expanded : expand bound x.num x.den ⟨0, 1⟩ ⟨1, 0⟩ with ⟨previous, current⟩
  rw [expanded] at ends
  dsimp only at ends
  generalize greatest : (bound - previous.denominator) / current.denominator = steps
  have nearer : approximate x bound =
      if |current.toRat - x| ≤ |(following previous current steps).toRat - x| then current.toRat
      else (following previous current steps).toRat := by
    rw [approximate, if_neg (Nat.not_le.mpr beyond), expanded]
    simp only [greatest, abs_eq_abs]
  have state := ends.semiconvergent steps (greatest ▸ ends.steps_mul_le)
  obtain ⟨left, small, large⟩ := ends.between steps greatest.symm
  obtain ⟨right, -⟩ := ends.denominator_pos
  have chosen : (approximate x bound = (following previous current steps).toRat ∨
      approximate x bound = current.toRat) ∧
      |approximate x bound - x| ≤ |(following previous current steps).toRat - x| ∧
      |approximate x bound - x| ≤ |current.toRat - x| := by
    rw [nearer]
    split
    · exact ⟨Or.inr rfl, ‹_›, le_rfl⟩
    · exact ⟨Or.inl rfl, le_rfl, (not_le.mp ‹_›).le⟩
  rcases state.between (Int.sub_nonneg.mpr (greatest ▸ ends.steps_mul_le)) left right with up | down
  · exact ⟨_, _, ⟨left, small⟩, ⟨right, ends.current_le⟩, large, up, chosen⟩
  · exact ⟨_, _, ⟨right, ends.current_le⟩, ⟨left, small⟩, by rwa [add_comm], down,
      chosen.1.symm, chosen.2.2, chosen.2.1⟩

theorem den_approximate_le (positive : 1 ≤ bound) : (approximate x bound).den ≤ bound := by
  rcases Nat.lt_or_ge bound x.den with beyond | within
  · obtain ⟨a, b, left, right, -, -, found | found, -⟩ := approximate_of_lt positive beyond
    · exact found ▸ (den_toRat_le left.1).trans left.2
    · exact found ▸ (den_toRat_le right.1).trans right.2
  · rwa [approximate_of_le within]

/-- No fraction within the bound is nearer than the one that is found. -/
theorem approximate_nearest (positive : 1 ≤ bound) (small : y.den ≤ bound) :
    |approximate x bound - x| ≤ |y - x| := by
  rcases Nat.lt_or_ge bound x.den with beyond | within
  · obtain ⟨a, b, left, right, large, ⟨neighbours, above, below⟩, -, first, second⟩ :=
      approximate_of_lt positive beyond
    rcases nearer_end left.1 right.1 neighbours above below (small.trans_lt large) with near | near
    · exact first.trans near
    · exact second.trans near
  · rw [approximate_of_le within, sub_self, abs_zero]
    exact abs_nonneg _

/-- Nearest fractions grow with the number. -/
theorem approximate_mono (positive : 1 ≤ bound) (ordered : x ≤ y) :
    approximate x bound ≤ approximate y bound := by
  by_contra crossed
  rw [not_le] at crossed
  have first : |approximate x bound - x| ≤ |approximate y bound - x| :=
    approximate_nearest positive (den_approximate_le positive)
  have second : |approximate y bound - y| ≤ |approximate x bound - y| :=
    approximate_nearest positive (den_approximate_le positive)
  rw [abs_sub_le_abs_sub_iff] at first second
  -- Each number would be beyond the midpoint of the two fractions, so that they are equal.
  have beyond := nonpos_of_mul_nonpos_right first (sub_pos.mpr crossed)
  have before := nonneg_of_mul_nonpos_right second (sub_neg.mpr crossed)
  obtain rfl : x = y := le_antisymm ordered (by linarith)
  exact lt_irrefl _ crossed

theorem toRat_unit (bound : Nat) : (⟨1, bound⟩ : Convergent).toRat = 1 / bound := by
  rw [toRat_eq, Int.cast_one]

/-- The least positive fraction has a denominator within the bound. -/
theorem den_one_div_le (positive : 1 ≤ bound) : ((1 : Rat) / bound).den ≤ bound := by
  rw [← toRat_unit]
  exact den_toRat_le positive

theorem one_div_le_of_pos (positive : 0 < y) (small : y.den ≤ bound) : 1 / (bound : Rat) ≤ y := by
  rw [← toRat_unit, toRat_le_iff (y.den_pos.trans_le small), one_mul]
  have numerator : 1 ≤ y.num := Rat.num_pos.mpr positive
  calc (y.den : Int) ≤ bound := by exact_mod_cast small
    _ ≤ y.num * bound := le_mul_of_one_le_left (Int.natCast_nonneg bound) numerator

/-- Half of the least positive fraction is as near to zero as to that fraction, and counts as zero.
-/
theorem approximate_half (positive : 1 ≤ bound) : approximate (1 / (2 * bound)) bound = 0 := by
  have doubled : 0 < 2 * bound := by omega
  have inverse : (1 : Rat) / (2 * bound) = ((2 * bound : Nat) : Rat)⁻¹ := by
    rw [one_div, Nat.cast_mul, Nat.cast_two]
  have num : ((1 : Rat) / (2 * bound)).num = 1 := by
    rw [inverse, Rat.inv_natCast_num_of_pos doubled]
  have den : ((1 : Rat) / (2 * bound)).den = 2 * bound := by
    rw [inverse, Rat.inv_natCast_den_of_pos doubled]
  have whole : (1 : Int) / (2 * bound : Nat) = 0 := Int.ediv_eq_zero_of_lt (by decide) (by omega)
  have rest : ((1 : Int) % (2 * bound : Nat)).toNat = 1 := by
    rw [Int.emod_eq_of_lt (by decide) (by omega), Int.toNat_one]
  -- The quotients are 0 and twice the bound, and the second one is too much.
  have begins : expand bound 1 (2 * bound) ⟨0, 1⟩ ⟨1, 0⟩ =
      expand bound (2 * bound : Nat) 1 ⟨1, 0⟩ ⟨0, 1⟩ := by
    have next : following ⟨0, 1⟩ ⟨1, 0⟩ 0 = ⟨0, 1⟩ := rfl
    rw [expand, dif_neg doubled.ne']
    simp only [whole, rest, next, if_neg (Nat.not_lt.mpr positive)]
  have ends : expand bound (2 * bound : Nat) 1 ⟨1, 0⟩ ⟨0, 1⟩ = (⟨1, 0⟩, ⟨0, 1⟩) := by
    have next : following ⟨1, 0⟩ ⟨0, 1⟩ (2 * bound : Nat) = ⟨1, 2 * bound⟩ := by
      simp only [following, Int.toNat_natCast, mul_zero, add_zero, mul_one, zero_add]
    rw [expand, dif_neg one_ne_zero]
    simp only [Nat.cast_one, Int.ediv_one, next, if_pos (show bound < 2 * bound by omega)]
  have beyond : ¬2 * bound ≤ bound := by omega
  rw [approximate, num, den, if_neg beyond, begins, ends]
  have zero : (⟨0, 1⟩ : Convergent).toRat = 0 := by simp [toRat_eq]
  have unit : (following ⟨1, 0⟩ ⟨0, 1⟩ ((bound - 0) / 1 : Nat)).toRat = 1 / bound := by
    simp [following, toRat_eq]
  have twice : 2 * (1 / (2 * (bound : Rat))) = 1 / bound := by ring
  simp only [zero, unit, abs_eq_abs]
  rw [if_pos]
  rw [abs_sub_le_abs_sub_iff, twice, zero_add, sub_self, mul_zero]

/-- A number has a positive nearest fraction if it is more than half of the least one. -/
theorem approximate_pos_iff (positive : 1 ≤ bound) :
    0 < approximate x bound ↔ 1 / (2 * (bound : Rat)) < x := by
  have halves : 1 / (2 * (bound : Rat)) = 1 / bound / 2 := by ring
  have unit : 0 < 1 / (bound : Rat) := one_div_pos.mpr (by exact_mod_cast positive)
  constructor
  · intro found
    have least := one_div_le_of_pos found (den_approximate_le positive)
    have nearest : |approximate x bound - x| ≤ |0 - x| :=
      approximate_nearest positive (by simpa using positive)
    rw [abs_sub_le_abs_sub_iff, sub_zero, add_zero] at nearest
    have double := nonpos_of_mul_nonpos_right nearest found
    refine lt_of_le_of_ne (by linarith) fun half => ?_
    rw [← half, approximate_half positive] at found
    exact lt_irrefl _ found
  · intro more
    by_contra none
    rw [not_lt] at none
    have nearest : |approximate x bound - x| ≤ |1 / (bound : Rat) - x| :=
      approximate_nearest positive (den_one_div_le positive)
    rw [abs_sub_le_abs_sub_iff] at nearest
    have far := nonneg_of_mul_nonpos_right nearest (by linarith)
    linarith

end Approximation

end TuneGraph
