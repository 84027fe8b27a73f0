import TuneGraph.Score.Encoding
import TuneGraph.Proofs.Number.Nearest

/-! # Lengths of notes

A duration of more than half of the least positive fraction within the bound is encoded as one of
the fractions nearest to it, in lowest terms; every other duration, and what is no finite number, as
a quarter (`encodeLength_nearest`). So the encoded lengths of durations above that limit are in the
order of the durations, while a shorter duration becomes as long as a quarter
(`encodeLength_le_iff`).
-/

namespace TuneGraph

namespace NoteLength

/-- A length as a fraction of a whole note. -/
def value (length : NoteLength) : Rat := length.numerator / length.denominator

/-- Whether a length is a positive fraction in lowest terms with a denominator of at most `bound`,
and no other fraction with such a denominator is nearer to a duration. -/
structure IsNearest (length : NoteLength) (duration : Rat) (bound : Int) : Prop where
  positive : 0 < length.numerator
  coprime : Int.gcd length.numerator length.denominator = 1
  denominator_pos : 1 ≤ length.denominator
  denominator_le : length.denominator ≤ bound
  nearest : ∀ p q : Int, 1 ≤ q → q ≤ bound → |length.value - duration| ≤ |(p : Rat) / q - duration|

end NoteLength

section Plain

variable {bound meterDenominator : Int} {duration : Rat}

/-- A long enough duration becomes a fraction nearest to it. -/
theorem fractionOf_of_lt (bounded : 1 ≤ bound) (long : 1 / (2 * (bound : Rat)) < duration) :
    fractionOf (some duration) bound = approximate duration bound.toNat ∧
      0 < (approximate duration bound.toNat).num := by
  obtain ⟨limit, rfl⟩ := Int.eq_ofNat_of_zero_le (by omega : 0 ≤ bound)
  have found : 0 < (approximate duration limit).num :=
    Rat.num_pos.mpr ((approximate_pos_iff (by omega)).mpr long)
  unfold fractionOf
  simp only [Int.toNat_natCast, if_neg (not_lt.mpr bounded), if_neg (not_le.mpr found)]
  exact ⟨trivial, found⟩

/-- A duration that is too short, or that is not positive, becomes a quarter. -/
theorem fractionOf_of_le (bounded : 1 ≤ bound) (short : duration ≤ 1 / (2 * (bound : Rat))) :
    fractionOf (some duration) bound = mkRat 1 4 := by
  obtain ⟨limit, rfl⟩ := Int.eq_ofNat_of_zero_le (by omega : 0 ≤ bound)
  have none : (approximate duration limit).num ≤ 0 :=
    Rat.num_nonpos.mpr (not_lt.mp fun found =>
      absurd ((approximate_pos_iff (by omega)).mp found) (not_lt.mpr short))
  unfold fractionOf
  simp only [Int.toNat_natCast, if_neg (not_lt.mpr bounded), if_pos none]

theorem value_encodeLength :
    (encodeLength (some duration) meterDenominator none bound).value =
      fractionOf (some duration) bound :=
  Rat.num_div_den _

theorem encodeLength_of_le (bounded : 1 ≤ bound) (short : duration ≤ 1 / (2 * (bound : Rat))) :
    encodeLength (some duration) meterDenominator none bound = ⟨1, 4⟩ := by
  unfold encodeLength
  rw [fractionOf_of_le bounded short]
  rfl

/-- A long enough duration is encoded as a fraction nearest to it. -/
theorem isNearest_encodeLength (bounded : 1 ≤ bound)
    (long : 1 / (2 * (bound : Rat)) < duration) :
    (encodeLength (some duration) meterDenominator none bound).IsNearest duration bound := by
  obtain ⟨same, found⟩ := fractionOf_of_lt bounded long
  have limit : 1 ≤ bound.toNat := by omega
  have small : (approximate duration bound.toNat).den ≤ bound.toNat := den_approximate_le limit
  refine ⟨?_, ?_, ?_, ?_, fun p q positive within => ?_⟩
  · show 0 < (fractionOf (some duration) bound).num
    rwa [same]
  · exact (fractionOf (some duration) bound).reduced
  · show 1 ≤ ((fractionOf (some duration) bound).den : Int)
    exact_mod_cast (fractionOf (some duration) bound).den_pos
  · show ((fractionOf (some duration) bound).den : Int) ≤ bound
    rw [same]
    omega
  · have divides : (((p : Rat) / q).den : Int) ∣ q := Rat.divInt_eq_div p q ▸ Rat.den_dvd p q
    have below := Int.le_of_dvd (by omega) divides
    rw [value_encodeLength, same]
    exact approximate_nearest limit (by omega)

end Plain

/-- A number that is not finite has no value. -/
theorem toRat?_eq_none {number : Binary64}
    (unusable : number.isNaN = true ∨ number.isInfinite = true) : number.toRat? = none := by
  have full : number.exponentField = 2047 := by
    rcases unusable with isNaN | isInfinite
    · exact beq_iff_eq.mp (Bool.and_eq_true_iff.mp isNaN).1
    · exact beq_iff_eq.mp (Bool.and_eq_true_iff.mp isInfinite).1
  exact if_neg (by simp [Binary64.isFinite, full])

/-- The length of a note, as it is encoded: outside tuplets a fraction nearest to the duration, or a
quarter if the duration is at most half of the least positive fraction or no finite number; inside a
tuplet with the denominator that the meter and the tuplet give it. -/
theorem encodeLength_nearest {bound : Int} (bounded : 1 ≤ bound) (meterDenominator : Int) :
    (∀ duration : Rat,
      (1 / (2 * (bound : Rat)) < duration →
        (encodeLength (some duration) meterDenominator none bound).IsNearest duration bound) ∧
      (duration ≤ 1 / (2 * (bound : Rat)) →
        encodeLength (some duration) meterDenominator none bound = ⟨1, 4⟩)) ∧
    encodeLength none meterDenominator none bound = ⟨1, 4⟩ ∧
    (∀ number : Binary64,
      (number.isFinite = true → ∃ duration, number.toRat? = some duration) ∧
      (number.isNaN = true ∨ number.isInfinite = true →
        encodeLength number.toRat? meterDenominator none bound = ⟨1, 4⟩)) ∧
    ∀ (duration : Option Rat) (factor : Int), factor ≠ 0 →
      encodeLength duration meterDenominator (some factor) bound =
        ⟨(encodeLength duration meterDenominator none bound).numerator,
          meterDenominator * factor⟩ := by
  refine ⟨fun duration => ⟨isNearest_encodeLength bounded, encodeLength_of_le bounded⟩, rfl,
    fun number => ⟨fun finite => ⟨_, if_pos finite⟩, fun unusable => ?_⟩,
    fun duration factor proper => ?_⟩
  · rw [toRat?_eq_none unusable]
    rfl
  · unfold encodeLength
    simp only [if_neg proper]

theorem encodeLength_nearest_noisy :
    (1 : Int) ≤ 64 ∧ 1 / (2 * ((64 : Int) : Rat)) < 41667 / 100000 ∧
    (encodeLength (some (41667 / 100000)) 4 none 64).IsNearest (41667 / 100000) 64 ∧
    encodeLength (some (1 / 128)) 4 none 64 = ⟨1, 4⟩ ∧
    encodeLength (some (41667 / 100000)) 4 (some 3) 64 = ⟨5, 12⟩ := by
  have long : 1 / (2 * ((64 : Int) : Rat)) < 41667 / 100000 := by norm_num
  have encoded := encodeLength_nearest (show (1 : Int) ≤ 64 by decide) 4
  refine ⟨by decide, long, (encoded.1 _).1 long, (encoded.1 _).2 (by norm_num), ?_⟩
  rw [encoded.2.2.2 _ 3 (by decide)]
  decide +kernel

/-- The encoded lengths of two durations are in their order unless the shorter one becomes a quarter
and the longer one is encoded as less. The durations that become a quarter in place of something
shorter are those up to half of the least positive fraction. -/
theorem encodeLength_le_iff {bound : Int} (bounded : 1 ≤ bound) (meterDenominator : Int)
    {shorter longer : Rat} (ordered : shorter ≤ longer) :
    ((encodeLength (some shorter) meterDenominator none bound).value ≤
        (encodeLength (some longer) meterDenominator none bound).value ↔
      1 / (2 * (bound : Rat)) < shorter ∨ longer ≤ 1 / (2 * (bound : Rat)) ∨
        1 / 4 ≤ (encodeLength (some longer) meterDenominator none bound).value) ∧
    (shorter ≤ 1 / (2 * (bound : Rat)) →
      encodeLength (some shorter) meterDenominator none bound = ⟨1, 4⟩) := by
  refine ⟨?_, encodeLength_of_le bounded⟩
  have quarter : mkRat 1 4 = 1 / 4 := by norm_num [Rat.mkRat_eq_div]
  simp only [value_encodeLength]
  rcases lt_or_ge (1 / (2 * (bound : Rat))) shorter with long | short
  · rw [(fractionOf_of_lt bounded long).1, (fractionOf_of_lt bounded (long.trans_le ordered)).1]
    exact iff_of_true (approximate_mono (by omega) ordered) (Or.inl long)
  · rw [fractionOf_of_le bounded short, quarter]
    refine ⟨fun less => Or.inr (Or.inr less), ?_⟩
    rintro (long | both | less)
    · exact absurd long (not_lt.mpr short)
    · rw [fractionOf_of_le bounded both, quarter]
    · exact less

theorem encodeLength_le_eighth :
    (1 : Int) ≤ 64 ∧ (1 / 100 : Rat) ≤ 1 / 8 ∧
    (encodeLength (some (1 / 100)) 4 none 64).value ≤
      (encodeLength (some (1 / 8)) 4 none 64).value :=
  have ordered : (1 / 100 : Rat) ≤ 1 / 8 := by norm_num
  ⟨by decide, ordered,
    (encodeLength_le_iff (by decide) 4 ordered).1.mpr (Or.inl (by norm_num))⟩

/-- A duration of a 256th is encoded as a quarter, and one of a 64th as less. -/
theorem shorter_encoded_longer :
    ∃ shorter longer : Rat, (Binary64.ofRatio 1 256).toRat? = some shorter ∧
      (Binary64.ofRatio 1 64).toRat? = some longer ∧ 0 < shorter ∧ shorter ≤ longer ∧
      encodeLength (some shorter) 4 none 64 = ⟨1, 4⟩ ∧
      ¬(encodeLength (some shorter) 4 none 64).value ≤
        (encodeLength (some longer) 4 none 64).value :=
  ⟨1 / 256, 1 / 64, by decide +kernel, by decide +kernel, by decide +kernel, by decide +kernel,
    by decide +kernel, by decide +kernel⟩

end TuneGraph
