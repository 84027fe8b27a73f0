import TuneGraph.Proofs.Document.Grammar
import TuneGraph.Proofs.Text.Digits

/-! # Numbers as JSON

An integer is written as a number of the grammar, and so is every finite real number
(`Json.isNumber_real`): its shortest digits begin with another digit than zero, and a digit stands
on both sides of the point.
-/

namespace TuneGraph

open Json

namespace Json

theorem isDigits_toDigits (n : Nat) : IsDigits (Nat.toDigits 10 n) :=
  ⟨Nat.toDigits_ne_nil, fun _ member => Nat.isDigit_of_mem_toDigits (by decide) (by decide) member⟩

theorem isWhole_toDigits (n : Nat) : IsWhole (Nat.toDigits 10 n) := by
  by_cases zero : n = 0
  · subst zero
    exact .zero
  · obtain ⟨first, rest, same, leads⟩ := Text.toDigits_leads zero
    have digits := isDigits_toDigits n
    rw [same] at digits ⊢
    exact .other leads digits

/-- An integer is a number. -/
theorem isNumber_integer (value : Int) : IsNumber (toString value).toList := by
  have natural : ∀ sign ∈ [[], ['-']], ∀ n : Nat, IsNumber (sign ++ Nat.toDigits 10 n) := by
    intro sign isSign n
    have number := IsNumber.parts isSign (isWhole_toDigits n) .none .none
    rwa [List.append_nil, List.append_nil] at number
  rw [Int.toString_eq_repr, Int.repr_eq_if]
  split
  · rw [Nat.toList_repr]
    exact natural [] (by decide) _
  · rw [String.toList_append, Nat.toList_repr]
    exact natural ['-'] (by decide) _

theorem isDigits_append_left {zeros digits : List Char} (first : ∀ c ∈ zeros, c.isDigit = true)
    (second : IsDigits digits) : IsDigits (zeros ++ digits) :=
  ⟨fun none => second.1 (List.append_eq_nil_iff.mp none).2,
    List.forall_mem_append.mpr ⟨first, second.2⟩⟩

theorem isDigit_of_mem_replicate (count : Nat) :
    ∀ c ∈ List.replicate count '0', c.isDigit = true :=
  fun _ member => List.eq_of_mem_replicate member ▸ rfl

end Json

namespace Layout

theorem trimZeros_prefix (digits : List Char) (exponent : Int) :
    (trimZeros digits exponent).1 <+: digits := by
  induction digits with
  | nil => exact List.prefix_refl _
  | cons digit rest ih =>
      rw [trimZeros]
      split
      next none =>
        split
        · exact List.nil_prefix
        · exact List.cons_prefix_cons.mpr ⟨rfl, List.nil_prefix⟩
      next kept exponent _ same =>
        rw [same] at ih
        exact List.cons_prefix_cons.mpr ⟨rfl, ih⟩

/-- A first digit that is no zero is kept. -/
theorem trimZeros_leads {first : Char} (leads : first ≠ '0') (rest : List Char) (exponent : Int) :
    ∃ kept place, trimZeros (first :: rest) exponent = (first :: kept, place) := by
  rw [trimZeros]
  split
  · exact ⟨[], _, if_neg leads⟩
  · exact ⟨_, _, rfl⟩

variable {sign : List Char} {first : Char} {rest : List Char}

/-- The digits before a point, filled up with zeros. -/
theorem isWhole_front (leads : first ≠ '0') (digits : IsDigits (first :: rest)) (count : Nat) :
    IsWhole ((first :: rest).take (count + 1) ++
      List.replicate (count + 1 - (first :: rest).length) '0') := by
  have taken : IsDigits ((first :: rest).take (count + 1) ++
      List.replicate (count + 1 - (first :: rest).length) '0') := by
    refine ⟨List.cons_ne_nil _ _, List.forall_mem_append.mpr ⟨fun c member => ?_, ?_⟩⟩
    · exact digits.2 c (List.mem_of_mem_take member)
    · exact isDigit_of_mem_replicate _
  exact .other leads taken

theorem isDigits_drop {digits : List Char} (isDigits : IsDigits digits) {count : Nat}
    (long : digits.drop count ≠ []) : IsDigits (digits.drop count) :=
  ⟨long, fun c member => isDigits.2 c (List.mem_of_mem_drop member)⟩

/-- A point and the digits behind it, or a zero. -/
theorem isFraction_back {digits : List Char} (isDigits : IsDigits digits) (count : Nat) :
    IsFraction ('.' :: if (digits.drop count).isEmpty then ['0'] else digits.drop count) := by
  split
  · exact .some (isDigits_toDigits 0)
  next long => exact .some (isDigits_drop isDigits fun none => long (List.isEmpty_iff.mpr none))

/-- Digits of which the first is no zero are laid out as a number. -/
theorem isNumber_writeDigits (isSign : sign ∈ [[], ['-']]) (leads : first ≠ '0')
    (digits : IsDigits (first :: rest)) (place : Int) :
    IsNumber (sign ++ (numberLayout.writeDigits (first :: rest) place).toList) := by
  unfold writeDigits
  by_cases plain : numberLayout.firstPlain ≤ place ∧ place < numberLayout.firstLarge
  · rw [if_pos plain]
    by_cases below : place < 0
    · have number := IsNumber.parts isSign .zero (.some (isDigits_append_left
        (isDigit_of_mem_replicate ((-place).toNat - 1)) digits)) .none
      rw [if_pos below, String.toList_ofList]
      simpa using number
    · have number := IsNumber.parts isSign (isWhole_front leads digits place.toNat)
        (isFraction_back digits (place.toNat + 1)) .none
      rw [if_neg below, String.toList_ofList]
      simpa using number
  · have whole : IsWhole [first] :=
      .other leads ⟨List.cons_ne_nil _ _, fun c member => digits.2 c (List.mem_singleton.mp member ▸
        List.mem_cons_self)⟩
    have fraction : IsFraction (if (first :: rest).length ≤ 1 then [] else
        '.' :: (first :: rest).drop 1) := by
      split
      · exact .none
      next long =>
          exact .some (isDigits_drop digits fun none => long (List.drop_eq_nil_iff.mp none))
    have power : IsDigits (List.replicate (numberLayout.exponentDigits -
        (Decimal.digits place.natAbs).length) '0' ++ Decimal.digits place.natAbs) :=
      isDigits_append_left (isDigit_of_mem_replicate _) (isDigits_toDigits _)
    have isMark : numberLayout.mark ∈ ['e', 'E'] := by decide
    have isPowerSign : [if place < 0 then '-' else '+'] ∈ [[], ['+'], ['-']] := by
      split <;> decide
    have number := IsNumber.parts isSign whole fraction (.some isMark isPowerSign power)
    rw [if_neg plain, String.toList_ofList]
    simpa using number

end Layout

namespace Binary64

theorem significand_pos {x : Binary64} (nonzero : x.isZero = false) : 0 < x.significand := by
  unfold significand
  split
  next least =>
    refine Nat.pos_of_ne_zero fun none => ?_
    rw [isZero, least, none] at nonzero
    exact Bool.noConfusion nonzero
  · exact Nat.add_pos_left (Nat.pow_pos (by decide)) _

/-- Zero does not round to another number. -/
theorem low_pos {x : Binary64} (nonzero : x.isZero = false) : 0 < x.roundingInterval.low := by
  have positive := significand_pos nonzero
  have below : (if x.fractionField = 0 && 1 < x.exponentField then 1 else 2) ≤ 2 := by
    split <;> decide
  exact Nat.mul_pos (by omega) (Nat.pow_pos (by decide))

namespace RoundingInterval

variable {r : RoundingInterval} {exponent : Int}

theorem coefficient_ne_zero_of_onGrid (positive : 0 < r.low) {found : Decimal}
    (hit : r.onGrid exponent = some found) : found.coefficient ≠ 0 := by
  have outside : ∀ den, 0 < den → r.contains 0 den = false := by
    intro den large
    have below : 0 < r.low * den := Nat.mul_pos positive large
    unfold contains
    split <;> simp only [Nat.zero_mul, decide_eq_false_iff_not] <;> omega
  simp only [onGrid] at hit
  split at hit
  next floor =>
    intro zero
    cases hit
    have within := (Bool.and_eq_true _ _ ▸ floor).1
    replace zero :
        r.value * Nat.pow 10 (-exponent).toNat / (r.den * Nat.pow 10 exponent.toNat) = 0 :=
      zero
    have large : 0 < Nat.pow 10 (-exponent).toNat := Nat.pow_pos (by decide)
    rw [zero, Nat.zero_mul, outside _ large] at within
    exact Bool.noConfusion within
  · split at hit
    · cases hit
      exact Nat.succ_ne_zero _
    · cases hit

/-- No search ends at a zero that has an exponent. -/
theorem search_spec (positive : 0 < r.low) (fuel : Nat) :
    (r.search exponent fuel).coefficient ≠ 0 ∨ (r.search exponent fuel).exponent = 0 := by
  induction fuel generalizing exponent with
  | zero => exact .inr rfl
  | succ fuel ih =>
      rw [search]
      split
      next hit => exact .inl (coefficient_ne_zero_of_onGrid positive hit)
      · exact ih

end RoundingInterval

end Binary64

namespace Layout

/-- What is found for a number other than zero is written as a number. -/
theorem isNumber_writeDecimal {sign : List Char} (isSign : sign ∈ [[], ['-']]) {decimal : Decimal}
    (found : decimal.coefficient ≠ 0 ∨ decimal.exponent = 0) :
    IsNumber (sign ++ (numberLayout.writeDecimal decimal).toList) := by
  by_cases zero : decimal.coefficient = 0
  · obtain ⟨coefficient, exponent⟩ := decimal
    obtain rfl : coefficient = 0 := zero
    obtain rfl : exponent = 0 := found.resolve_left (not_not.mpr rfl)
    have number := IsNumber.parts isSign .zero (.some (isDigits_toDigits 0)) .none
    rw [List.append_nil, List.append_assoc] at number
    exact number
  · obtain ⟨first, rest, same, leads⟩ := Text.toDigits_leads zero
    obtain ⟨kept, place, trimmed⟩ := trimZeros_leads leads rest decimal.exponent
    have sub := trimZeros_prefix (first :: rest) decimal.exponent
    rw [trimmed] at sub
    have digits : IsDigits (first :: kept) := ⟨List.cons_ne_nil _ _, fun c member =>
      (isDigits_toDigits decimal.coefficient).2 c (same ▸ sub.subset member)⟩
    rw [writeDecimal, Decimal.digits, same, trimmed]
    exact isNumber_writeDigits isSign leads digits _

end Layout

/-- A finite real number is written as a number. -/
theorem Json.isNumber_real {x : Binary64} (finite : x.isFinite = true) :
    IsNumber (numberLayout.write x).toList := by
  have inRange : (x.exponentField == 2047) = false := Bool.not_eq_true' _ ▸ finite
  have noNaN : x.isNaN = false := by rw [Binary64.isNaN, inRange, Bool.false_and]
  have noInfinity : x.isInfinite = false := by rw [Binary64.isInfinite, inRange, Bool.false_and]
  have isSign : (if x.signBit then "-" else "").toList ∈ [[], ['-']] := by
    split <;> decide
  rw [Layout.write, noNaN, noInfinity]
  simp only [Bool.false_eq_true, if_false]
  split
  · have number := IsNumber.parts isSign .zero (.some (isDigits_toDigits 0)) .none
    rw [String.toList_append]
    rwa [List.append_nil, List.append_assoc] at number
  next nonzero =>
    rw [String.toList_append]
    exact Layout.isNumber_writeDecimal isSign (Binary64.RoundingInterval.search_spec
      (Binary64.low_pos (Bool.not_eq_true _ ▸ nonzero)) 17)

end TuneGraph
