import TuneGraph.Document.Json.Parser
import TuneGraph.Document.Json.Printer
import TuneGraph.Proofs.Document.Display
import TuneGraph.Proofs.Except

/-! # What is read from a JSON text

An integer is not read from more digits than it may be written with. So every value that is read
from a text can be written out again (`Json.fits_of_parse`), and so can its parts, which can all be
taken as texts (`Json.isSayable_of_fits`).
-/

namespace TuneGraph

namespace Numeral

/-- Digits denote a number that is not longer than they are. -/
theorem ofDigits_lt {cs : List Char} (digits : ∀ c ∈ cs, isDigit c = true) :
    ofDigits cs < Nat.pow 10 cs.length := by
  change ofDigits cs < 10 ^ cs.length
  suffices all : ∀ start, cs.foldl (fun n c => 10 * n + (c.toNat - 48)) start <
      (start + 1) * 10 ^ cs.length by
    simpa [ofDigits] using all 0
  induction cs with
  | nil => exact fun start => by simp
  | cons c rest ih =>
      intro start
      obtain ⟨here, later⟩ := List.forall_mem_cons.mp digits
      have low : c.toNat ≤ 57 := (Bool.and_eq_true_iff.mp here).2 |> of_decide_eq_true
      have step : 10 * start + (c.toNat - 48) + 1 ≤ (start + 1) * 10 := by omega
      calc rest.foldl (fun n c => 10 * n + (c.toNat - 48)) (10 * start + (c.toNat - 48))
          < (10 * start + (c.toNat - 48) + 1) * 10 ^ rest.length := ih later _
        _ ≤ (start + 1) * 10 * 10 ^ rest.length := Nat.mul_le_mul_right _ step
        _ = (start + 1) * 10 ^ (c :: rest).length := by
          rw [List.length_cons, Nat.pow_succ, Nat.mul_assoc, Nat.mul_comm 10]

/-- A number of no more digits than the limit can be written out, whatever its sign. -/
theorem isShort_of_digits {cs : List Char} (digits : ∀ c ∈ cs, isDigit c = true)
    (short : cs.length ≤ digitLimit) :
    isShort (ofDigits cs) = true ∧ isShort (-ofDigits cs) = true := by
  have below : ofDigits cs < tooLong := by
    have limit : 10 ^ cs.length ≤ tooLong := by
      unfold tooLong
      generalize digitLimit = limit at short ⊢
      exact Nat.pow_le_pow_right (by decide) short
    exact Nat.lt_of_lt_of_le (ofDigits_lt digits) limit
  unfold isShort
  rw [Int.natAbs_neg, Int.natAbs_natCast]
  exact ⟨decide_eq_true below, decide_eq_true below⟩

end Numeral

namespace Json

variable {value : Datum} {rest : List Char}

/-- The whole part of a number is made of digits. -/
theorem isDigit_of_splitWhole (cs : List Char) :
    ∀ c ∈ (splitWhole cs).1, Numeral.isDigit c = true := by
  unfold splitWhole
  split
  next =>
    intro c member
    rw [List.mem_singleton.mp member]
    rfl
  next => exact fun c member => List.mem_takeWhile_imp member

/-- A number that is read can be written out. -/
theorem fits_of_readNumber {cs : List Char} (read : readNumber cs = .ok (value, rest)) :
    fits value = true := by
  unfold readNumber at read
  split at read
  rename_i negative unsigned sign
  dsimp only at read
  split at read
  next => cases read
  next =>
    split at read
    next =>
      split at read
      next => cases read
      next short =>
        obtain ⟨positive, minus⟩ :=
          Numeral.isShort_of_digits (isDigit_of_splitWhole unsigned) (Nat.le_of_not_lt short)
        cases read
        cases negative with
        | true => exact minus
        | false => exact positive
    next =>
      cases read
      rfl

/-- A value that is no string, list or mapping can be written out if it is read. -/
theorem fits_of_readScalar {cs : List Char} (read : readScalar cs = .ok (value, rest)) :
    fits value = true := by
  unfold readScalar at read
  split at read
  next name constant found =>
    have all : ∀ entry ∈ constants, fits entry.2 = true := by decide
    cases read
    exact all _ (List.mem_of_find?_eq_some found)
  next => exact fits_of_readNumber read

/-- Entries whose values can be written out make a mapping that can. -/
theorem fits_ofEntries {entries : List (String × Datum)}
    (each : ∀ entry ∈ entries, fits entry.2 = true) : fits (.ofEntries entries) = true := by
  have insert : ∀ (name : String) (value : Datum) (done : List (String × Datum)),
      fits value = true → (∀ entry ∈ done, fits entry.2 = true) →
        ∀ entry ∈ Datum.insertEntry name value done, fits entry.2 = true := by
    intro name value done here
    induction done with
    | nil => exact fun _ => List.forall_mem_singleton.mpr here
    | cons first others ih =>
        intro before
        obtain ⟨head, tail⟩ := List.forall_mem_cons.mp before
        rw [Datum.insertEntry]
        split
        · exact List.forall_mem_cons.mpr ⟨here, tail⟩
        · exact List.forall_mem_cons.mpr ⟨head, ih tail⟩
  suffices all : ∀ done : List (String × Datum), (∀ entry ∈ done, fits entry.2 = true) →
      ∀ entry ∈ entries.foldl (fun done entry => Datum.insertEntry entry.1 entry.2 done) done,
        fits entry.2 = true by
    unfold fits Datum.ofEntries
    rw [Datum.allScalars, Datum.allInEntries_eq]
    exact List.all_eq_true.mpr (all [] fun _ member => (List.not_mem_nil member).elim)
  induction entries with
  | nil => exact fun _ before => before
  | cons entry others ih =>
      intro done before
      obtain ⟨here, later⟩ := List.forall_mem_cons.mp each
      exact ih later _ (insert entry.1 entry.2 done here before)

/-- What is read with some fuel can be written out. -/
theorem fits_of_read (fuel : Nat) :
    (∀ cs value rest, readValue fuel cs = .ok (value, rest) → fits value = true) ∧
    (∀ cs items rest, readItems fuel cs = .ok (items, rest) →
      ∀ item ∈ items, fits item = true) ∧
    ∀ cs entries rest, readEntries fuel cs = .ok (entries, rest) →
      ∀ entry ∈ entries, fits entry.2 = true := by
  induction fuel with
  | zero => exact ⟨nofun, nofun, nofun⟩
  | succ fuel ih =>
      obtain ⟨ofValue, ofItems, ofEntries⟩ := ih
      refine ⟨fun cs value rest read => ?_, fun cs items rest read => ?_,
        fun cs entries rest read => ?_⟩
      · unfold readValue at read
        split at read
        next => cases read
        next =>
          obtain ⟨text, -, same⟩ := bind_eq_ok_iff.mp read
          cases same
          rfl
        next =>
          split at read
          next =>
            cases read
            rfl
          next =>
            obtain ⟨⟨items, _⟩, inside, same⟩ := bind_eq_ok_iff.mp read
            cases same
            unfold fits
            rw [Datum.allScalars, Datum.allInItems_eq]
            exact List.all_eq_true.mpr (ofItems _ _ _ inside)
        next =>
          split at read
          next =>
            cases read
            rfl
          next =>
            obtain ⟨⟨entries, _⟩, inside, same⟩ := bind_eq_ok_iff.mp read
            cases same
            exact fits_ofEntries (ofEntries _ _ _ inside)
        next => exact fits_of_readScalar read
      · unfold readItems at read
        obtain ⟨⟨item, _⟩, here, read⟩ := bind_eq_ok_iff.mp read
        dsimp only at read
        split at read
        next =>
          cases read
          exact List.forall_mem_singleton.mpr (ofValue _ _ _ here)
        next =>
          obtain ⟨⟨others, _⟩, later, same⟩ := bind_eq_ok_iff.mp read
          cases same
          exact List.forall_mem_cons.mpr ⟨ofValue _ _ _ here, ofItems _ _ _ later⟩
        next => cases read
      · unfold readEntries at read
        split at read
        next =>
          obtain ⟨⟨name, _⟩, -, read⟩ := bind_eq_ok_iff.mp read
          dsimp only at read
          split at read
          next =>
            obtain ⟨⟨value, _⟩, here, read⟩ := bind_eq_ok_iff.mp read
            dsimp only at read
            split at read
            next =>
              cases read
              exact List.forall_mem_singleton.mpr (ofValue _ _ _ here)
            next =>
              obtain ⟨⟨others, _⟩, later, same⟩ := bind_eq_ok_iff.mp read
              cases same
              exact List.forall_mem_cons.mpr ⟨ofValue _ _ _ here, ofEntries _ _ _ later⟩
            next => cases read
          next => cases read
        next => cases read

/-- What is read from a text can be written out again. -/
theorem fits_of_parse {text : String} (parsed : parse text = .ok value) : fits value = true := by
  unfold parse at parsed
  dsimp only at parsed
  split at parsed
  next => cases parsed
  next =>
    obtain ⟨⟨found, _⟩, read, last⟩ := bind_eq_ok_iff.mp parsed
    dsimp only at last
    split at last
    next =>
      cases last
      exact (fits_of_read _).1 _ _ _ read
    next => cases last

/-- The entries of a mapping that can be written out can be. -/
theorem fits_get (whole : fits value = true) (name : String) : fits (value.get name) = true := by
  unfold Datum.get
  split
  next entries =>
    unfold fits at whole
    rw [Datum.allScalars, Datum.allInEntries_eq, List.all_eq_true] at whole
    cases found : Datum.find? name entries with
    | none => rfl
    | some part =>
        obtain ⟨entry, here, rfl⟩ := Option.map_eq_some_iff.mp found
        exact whole entry (List.mem_of_find?_eq_some here)
  next => rfl

/-- A value that can be written out can be spelled. -/
theorem isSome_literal?_of_fits (whole : fits value = true) : value.literal?.isSome = true := by
  rw [Datum.isSome_literal?]
  induction value using Datum.nested with
  | list items ih =>
      unfold fits at whole ih
      rw [Datum.allScalars, Datum.allInItems_eq, List.all_eq_true] at whole ⊢
      exact fun item member => ih item member (whole item member)
  | mapping entries ih =>
      unfold fits at whole ih
      rw [Datum.allScalars, Datum.allInEntries_eq, List.all_eq_true] at whole ⊢
      exact fun entry member => ih entry member (whole entry member)
  | integer value => exact whole
  | other value => cases whole
  | _ => rfl

/-- A value that can be written out can be taken as a text. -/
theorem isSayable_of_fits (whole : fits value = true) : value.isSayable = true := by
  unfold Datum.isSayable
  refine Bool.or_eq_true_iff.mpr (Or.inr ?_)
  cases value with
  | text value => rfl
  | other value => cases whole
  | _ => exact isSome_literal?_of_fits whole

end Json

end TuneGraph
