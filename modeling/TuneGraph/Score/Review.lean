import TuneGraph.Report
import TuneGraph.Compile.Marker

/-! # Reviewing a score

The compiler takes every tune and degrades what it cannot use. The review says beforehand
what that will be: missing titles and meters, voices without notes, notes without pitches
and chords cut to one, tuplets left open, and repeat bars that lead nowhere.
-/

namespace TuneGraph

/-- A voice of a score: its staff index, the line counted within the staff, and the voice
counted within the line. -/
structure VoicePlace where
  staff : Nat
  line : Nat
  voice : Nat
  deriving DecidableEq, Repr

namespace VoicePlace

/-- The location of a staff. -/
def staffText (staff : Nat) : String := "staff/" ++ toString staff

/-- The location of a voice. -/
def text (place : VoicePlace) : String :=
  staffText place.staff ++ "/line/" ++ toString place.line ++ "/voice/" ++ toString place.voice

/-- The location of a note. -/
def noteText (place : VoicePlace) (note : Nat) : String :=
  place.text ++ "/note/" ++ toString note

end VoicePlace

/-- Something that the compiler will degrade. -/
inductive Remark where
  | noLines
  | defaultTitle
  | missingMeter (staff : Nat)
  | emptyVoice (place : VoicePlace)
  | emptyPitches (place : VoicePlace) (note : Nat)
  | chordTruncated (place : VoicePlace) (note pitches : Nat)
  | unclosedTriplet (place : VoicePlace)
  | unmatchedClose (place : VoicePlace)
  | unclosedRepeat (staff : Nat) (line : Int)
  | overlappingRepeat (staff : Nat) (marker : RepeatMarker)
  deriving DecidableEq, Repr

namespace Remark

/-- A remark as an issue. -/
def issue : Remark → Issue
  | noLines =>
    { severity := .error, code := "NO_LINES", message := "Tune has no staff lines to compile" }
  | defaultTitle =>
    { severity := .info, code := "DEFAULT_TITLE"
      message := "Tune has no title, the default is used" }
  | missingMeter staff =>
    { severity := .info, code := "MISSING_METER"
      message := "First line has no meter, 4/4 is assumed"
      location := some (VoicePlace.staffText staff) }
  | emptyVoice place =>
    { severity := .warning, code := "EMPTY_VOICE", message := "Voice has no notes"
      location := some place.text }
  | emptyPitches place note =>
    { severity := .warning, code := "EMPTY_PITCHES"
      message := "Note has no pitches, middle C is used", location := some (place.noteText note) }
  | chordTruncated place note pitches =>
    { severity := .info, code := "CHORD_TRUNCATED"
      message := "Chord of " ++ toString pitches ++ " pitches compiles to its first pitch"
      location := some (place.noteText note) }
  | unclosedTriplet place =>
    { severity := .warning, code := "UNCLOSED_TRIPLET", message := "Triplet span is never closed"
      location := some place.text }
  | unmatchedClose place =>
    { severity := .warning, code := "UNMATCHED_REPEAT_CLOSE"
      message := "Repeat close with no open repeat", location := some place.text }
  | unclosedRepeat staff line =>
    { severity := .warning, code := "UNCLOSED_REPEAT"
      message := "Repeat opened on line " ++ toString line ++ " is never closed"
      location := some (VoicePlace.staffText staff) }
  | overlappingRepeat staff marker =>
    { severity := .warning, code := "OVERLAPPING_REPEAT"
      message := "Repeat over lines " ++ toString marker.startLine ++ "-" ++
        toString marker.endLine ++ " overlaps another repeat and is dropped"
      location := some (VoicePlace.staffText staff) }

end Remark

namespace Review

/-- Remarks on the pitches of a note. -/
def note (place : VoicePlace) (index : Nat) (note : Note) : List Remark :=
  match note.pitches with
  | [] => [.emptyPitches place index]
  | [_] => []
  | pitches => [.chordTruncated place index pitches.length]

/-- Remarks on notes, counted from an index. -/
def notesFrom (place : VoicePlace) (index : Nat) : List Note → List Remark
  | [] => []
  | first :: rest => note place index first ++ notesFrom place (index + 1) rest

/-- Whether a tuplet is open after the notes. -/
def tripletOpen (notes : List Note) : Bool :=
  notes.foldl (fun isOpen note =>
    !note.endTriplet && (isOpen || note.startTriplet.any (· != 0))) false

/-- Remarks on the notes of a voice. -/
def voice (place : VoicePlace) (voice : Voice) : List Remark :=
  let notes := voice.notes
  (if notes.isEmpty then [.emptyVoice place] else []) ++ notesFrom place 0 notes ++
    (if tripletOpen notes then [.unclosedTriplet place] else [])

/-- Remarks on the closing bars of a voice, given the markers before it. -/
def bars (place : VoicePlace) (line : Int) (markers : List RepeatMarker) :
    Voice → List Remark
  | [] => []
  | .note _ :: rest => bars place line markers rest
  | .bar type :: rest =>
    (if type.closes && markers.all RepeatMarker.isResolved then [.unmatchedClose place] else []) ++
      bars place line (RepeatMarker.atBar type line (rest.any Event.isNote) markers) rest

/-- Voices with their places. -/
def placedVoices (staff : Nat) (lines : List Staff) : List (VoicePlace × Voice) :=
  lines.zipIdx.flatMap fun (line, number) =>
    line.voices.zipIdx.map fun (voice, index) => (⟨staff, number, index⟩, voice)

/-- Remarks on voices from a line index on, and the markers after them. -/
def voices (line : Int) (markers : List RepeatMarker) :
    List (VoicePlace × Voice) → List Remark × List RepeatMarker
  | [] => ([], markers)
  | (place, events) :: rest =>
    let (later, final) := voices (line + 1) (RepeatMarker.afterVoice line markers events) rest
    (voice place events ++ bars place line markers events ++ later, final)

/-- Remarks on the markers of a staff, given those of which a repeat can be made. -/
def markers (staff : Nat) (accepted : List RepeatMarker) : List RepeatMarker → List Remark
  | [] => []
  | marker :: rest =>
    if !marker.isResolved then
      .unclosedRepeat staff marker.startLine :: markers staff accepted rest
    else if accepted.any marker.partiallyOverlaps then
      .overlappingRepeat staff marker :: markers staff accepted rest
    else markers staff (accepted ++ [marker]) rest

/-- Remarks on one part of a tune. -/
def part (staff : Nat) (lines : List Staff) : List Remark :=
  let (remarks, final) := voices 0 [] (placedVoices staff lines)
  (if (lines.head?.bind Staff.meter).isNone then [.missingMeter staff] else []) ++ remarks ++
    markers staff [] final

end Review

/-- The remarks on a tune. -/
def Tune.remarks (tune : Tune) : List Remark :=
  if tune.lines.isEmpty then [.noLines]
  else (if tune.title = "title" then [.defaultTitle] else []) ++
    tune.parts.zipIdx.flatMap fun (lines, index) => Review.part index lines

/-- The report on a tune. -/
def Tune.review (tune : Tune) : Report := ⟨tune.remarks.map Remark.issue⟩

end TuneGraph
