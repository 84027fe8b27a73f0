import TuneGraph.Text.Quoted
import Mathlib.Data.List.TakeWhile

/-! # Numbers in texts

A number can be read off its digits, alone (`Text.toDigits_inj`) or in a text in which something
else than a digit follows (`Text.toDigits_append_inj`). The first digit of a number is no zero
(`Text.toDigits_leads`). Hexadecimal digits fill the width that they are written in
(`Text.length_hexadecimal`).
-/

namespace TuneGraph.Text

theorem toDigits_inj {a b : Nat} : Nat.toDigits 10 a = Nat.toDigits 10 b ↔ a = b := by
  refine ⟨fun same => ?_, congrArg (Nat.toDigits 10)⟩
  have numbers := congrArg (Nat.ofDigitChars 10 · 0) same
  simpa only [Nat.ofDigitChars_ten_toDigits] using numbers

/-- A number ends where its digits do. -/
theorem toDigits_append_inj {a b : Nat} {stop : Char} {rest rest' : List Char}
    (noDigit : stop.isDigit = false)
    (same : Nat.toDigits 10 a ++ stop :: rest = Nat.toDigits 10 b ++ stop :: rest') :
    a = b ∧ rest = rest' := by
  have digits : ∀ (n : Nat) (rest : List Char),
      (Nat.toDigits 10 n ++ stop :: rest).takeWhile Char.isDigit = Nat.toDigits 10 n := by
    intro n rest
    rw [List.takeWhile_append_of_pos fun c member =>
        Nat.isDigit_of_mem_toDigits (by decide) (by decide) member,
      List.takeWhile_cons_of_neg (by rw [noDigit]; exact Bool.false_ne_true), List.append_nil]
  have number : Nat.toDigits 10 a = Nat.toDigits 10 b := by
    rw [← digits a rest, same, digits]
  rw [number] at same
  exact ⟨toDigits_inj.mp number, (List.cons.inj (List.append_cancel_left same)).2⟩

/-- A number that is not zero begins with another digit than zero. -/
theorem toDigits_leads {n : Nat} (nonzero : n ≠ 0) :
    ∃ first rest, Nat.toDigits 10 n = first :: rest ∧ first ≠ '0' := by
  induction n using Nat.strongRecOn with
  | ind n ih =>
      by_cases small : n < 10
      · exact ⟨n.digitChar, [], Nat.toDigits_of_lt_base small,
          fun zero => nonzero (Nat.digitChar_eq_zero.mp zero)⟩
      · obtain ⟨first, rest, front, leads⟩ := ih (n / 10) (by omega) (by omega)
        rw [Nat.toDigits_of_base_le (by decide) (by omega), front]
        exact ⟨first, _, rfl, leads⟩

theorem mem_toDigits_sixteen {n : Nat} {c : Char} (member : c ∈ Nat.toDigits 16 n) :
    c ∈ "0123456789abcdef".toList := by
  have each : ∀ digit < 16, digit.digitChar ∈ "0123456789abcdef".toList := by decide
  induction n using Nat.strongRecOn with
  | ind n ih =>
      by_cases small : n < 16
      · rw [Nat.toDigits_of_lt_base small] at member
        exact List.mem_singleton.mp member ▸ each n small
      · rw [Nat.toDigits_of_base_le (by decide) (by omega)] at member
        cases List.mem_append.mp member with
        | inl front => exact ih (n / 16) (by omega) front
        | inr last => exact List.mem_singleton.mp last ▸ each (n % 16) (by omega)

theorem mem_hexadecimal {width n : Nat} {c : Char} (member : c ∈ hexadecimal width n) :
    c ∈ "0123456789abcdef".toList := by
  cases List.mem_append.mp member with
  | inl zero =>
      obtain rfl := List.eq_of_mem_replicate zero
      decide
  | inr digit => exact mem_toDigits_sixteen digit

theorem length_hexadecimal {width n : Nat} (wide : 0 < width) (fits : n < Nat.pow 16 width) :
    (hexadecimal width n).length = width := by
  have short := (Nat.length_toDigits_le_iff (by decide) wide).mpr fits
  rw [hexadecimal, List.length_append, List.length_replicate]
  omega

end TuneGraph.Text
