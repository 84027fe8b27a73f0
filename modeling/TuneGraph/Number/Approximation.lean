/-! # Fractions with a bounded denominator

`approximate x bound` is the fraction nearest to `x` among those with denominator at
most `bound`. The continued fraction of `x` is expanded until the next convergent would
exceed the bound; the answer is then either the last convergent or the best
semiconvergent that still fits, whichever is nearer, and the convergent on a tie.
-/

namespace TuneGraph

/-- A fraction in the making: its numerator and its denominator, which is zero only
before the expansion starts. -/
structure Convergent where
  numerator : Int
  denominator : Nat
  deriving DecidableEq, Repr

namespace Convergent

/-- The value of a convergent. -/
def toRat (c : Convergent) : Rat := mkRat c.numerator c.denominator

/-- The convergent that follows `previous` and `current` by the partial quotient `a`. -/
def following (previous current : Convergent) (a : Int) : Convergent :=
  ⟨previous.numerator + a * current.numerator, previous.denominator + a.toNat * current.denominator⟩

/-- The last two convergents of `n / d` that fit the bound. The remainders of the
Euclidean algorithm decrease, so the expansion ends. -/
def expand (bound : Nat) (n : Int) (d : Nat) (previous current : Convergent) :
    Convergent × Convergent :=
  if zero : d = 0 then (previous, current)
  else
    let next := following previous current (n / d)
    if bound < next.denominator then (previous, current)
    else
      have : (n % (d : Int)).toNat < d := by
        have := Int.emod_lt_of_pos n (show (0 : Int) < d by omega)
        have := Int.emod_nonneg n (show (d : Int) ≠ 0 by omega)
        omega
      expand bound d (n % (d : Int)).toNat current next
termination_by d

end Convergent

/-- The fraction nearest to `x` with a denominator of at most `bound`, for a positive
bound. -/
def approximate (x : Rat) (bound : Nat) : Rat :=
  if x.den ≤ bound then x
  else
    let (previous, current) := Convergent.expand bound x.num x.den ⟨0, 1⟩ ⟨1, 0⟩
    let steps := (bound - previous.denominator) / current.denominator
    let between := (previous.following current steps).toRat
    let last := current.toRat
    if (last - x).abs ≤ (between - x).abs then last else between

end TuneGraph
