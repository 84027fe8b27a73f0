import TuneGraph.Schema.Scalar

/-! # Settings of the compiler

How often a repeat plays, how finely note lengths are told apart, how staves and lines are
named, and whether every staff is checked after it has been assembled. The names are
templates over the numbers of the staff and of the line.
-/

namespace TuneGraph

/-- The settings of a compilation. -/
structure Settings where
  repeatCount : Int := 2
  maxDenominator : Int := 64
  voiceLabel : String := "Voice \x7bstaff\x7d"
  lineLabel : String := "V: \x7bstaff\x7d Line \x7bline\x7d"
  checkGraph : Bool := true
  repeatCount_pos : 1 ≤ repeatCount := by decide
  maxDenominator_pos : 1 ≤ maxDenominator := by decide

/-- The settings where none are given. -/
def Settings.standard : Settings := {}

namespace Schema

/-- Settings; both numbers have to be positive. -/
def settings : Datum → Checked Settings := record "CompilerSettings" fun entries =>
  (fun (count bound : { i : Int // 1 ≤ i }) voiceLabel lineLabel checkGraph =>
      { repeatCount := count.1, maxDenominator := bound.1, voiceLabel, lineLabel, checkGraph
        repeatCount_pos := count.2, maxDenominator_pos := bound.2 })
    <$> defaulted entries "repeat_count" ⟨2, by decide⟩ (integerAtLeast 1)
    <*> defaulted entries "max_denominator" ⟨64, by decide⟩ (integerAtLeast 1)
    <*> defaulted entries "voice_label" Settings.standard.voiceLabel text
    <*> defaulted entries "line_label" Settings.standard.lineLabel text
    <*> defaulted entries "check_graph" true boolean

end Schema

end TuneGraph
