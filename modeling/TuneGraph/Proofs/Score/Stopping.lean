import TuneGraph.Library.Basic
import TuneGraph.Proofs.Score.Readable

/-! # Documents that stop a list

A score file whose document is not read as a tune is passed over in a list of the scores, unless
the reader meets a value of a kind that is not expected there: a list or a mapping for the kind of
a bar or of a meter, an infinity for an integer, or an integer without a nearest real number for a
length. The reader stops at the first fault, so what is passed over may stand before such a value
(`Tune.stops_read_iff`).
-/

namespace TuneGraph

namespace Reading

variable {α β : Type}

/-- Whether a reader fails for a value of a kind that is not expected. -/
def Stops (read : Except ReadError α) : Prop :=
  ∃ error, read = .error error ∧ (LibraryError.notTune error).isPassedOver = false

section StopsFirst

variable {fine stops fine' stops' : α → Prop}

end StopsFirst

section Chains

variable {read : Except ReadError α} {next : α → Except ReadError β}

/-- Whether a reader fails for nothing but values of kinds that are not expected. -/
def Abrupt (read : Except ReadError α) : Prop :=
  ∀ error, read = .error error → (LibraryError.notTune error).isPassedOver = false

/-- Two readings one after the other have no other fault than a stop, if neither has. -/
theorem Abrupt.bind (first : Abrupt read) (later : ∀ value, Abrupt (next value)) :
    Abrupt (read >>= next) := by
  intro error failed
  rcases bind_eq_error_iff.mp failed with here | ⟨value, -, there⟩
  · exact first error here
  · exact later value error there

end Chains

end Reading

end TuneGraph
