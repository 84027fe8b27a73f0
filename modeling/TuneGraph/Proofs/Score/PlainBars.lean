import TuneGraph.Score.Review
import TuneGraph.Proofs.Compile.Tune

/-! # Plain bars make no difference

A voice without its plain bars has the same notes and the same repeat bars in the same order, and
a note follows a repeat bar in one exactly if it does in the other. So nothing that the compiler or
the review makes of a voice depends on its plain bars: tunes that differ in plain bars only have the
same outcome and the same report (`Tune.plain_bars_transparent`).
-/

namespace TuneGraph

/-- Whether an event is a plain bar. -/
def Event.isPlain : Event → Bool
  | .bar .plain => true
  | _ => false

/-- A voice without its plain bars. -/
def Voice.unbarred (voice : Voice) : Voice := voice.filter fun event => !event.isPlain

/-- A staff without plain bars. -/
def Staff.unbarred (staff : Staff) : Staff :=
  { staff with voices := staff.voices.map Voice.unbarred }

/-- A line without plain bars. -/
def TuneLine.unbarred (line : TuneLine) : TuneLine := { staves := line.staves.map Staff.unbarred }

/-- A tune without plain bars. -/
def Tune.unbarred (tune : Tune) : Tune := { tune with lines := tune.lines.map TuneLine.unbarred }

/-- Whether the insertion and the deletion of plain bars makes one voice of another. -/
inductive Voice.Rebarred : Voice → Voice → Prop
  | nil : Rebarred [] []
  | keep (event : Event) {voice other : Voice} (rest : Rebarred voice other) :
      Rebarred (event :: voice) (event :: other)
  | insert {voice other : Voice} (rest : Rebarred voice other) :
      Rebarred voice (.bar .plain :: other)
  | delete {voice other : Voice} (rest : Rebarred voice other) :
      Rebarred (.bar .plain :: voice) other

/-- The same for the voices of a staff. -/
structure Staff.Rebarred (staff other : Staff) : Prop where
  key : staff.key = other.key
  meter : staff.meter = other.meter
  voices : List.Forall₂ Voice.Rebarred staff.voices other.voices

/-- The same for the staves of a line. -/
def TuneLine.Rebarred (line other : TuneLine) : Prop :=
  List.Forall₂ Staff.Rebarred line.staves other.staves

/-- The same for all voices of a tune. -/
structure Tune.Rebarred (tune other : Tune) : Prop where
  schema : tune.schema = other.schema
  name : tune.name = other.name
  title : tune.title = other.title
  instrument : tune.instrument = other.instrument
  lines : List.Forall₂ TuneLine.Rebarred tune.lines other.lines

section Rebarred

/-- Lists with related members have the same image under a function that does not tell related
values apart. -/
theorem map_eq_of_forall₂ {α β : Type} {related : α → α → Prop} {f : α → β} {items others : List α}
    (each : List.Forall₂ related items others)
    (same : ∀ {item other}, related item other → f item = f other) :
    items.map f = others.map f := by
  induction each with
  | nil => rfl
  | cons here _ ih => rw [List.map_cons, List.map_cons, same here, ih]

/-- Voices that differ in plain bars are the same without them. -/
theorem Voice.Rebarred.unbarred_eq {voice other : Voice} (rebarred : Rebarred voice other) :
    voice.unbarred = other.unbarred := by
  induction rebarred with
  | nil => rfl
  | keep event _ ih =>
      unfold unbarred at ih ⊢
      rw [List.filter_cons, List.filter_cons, ih]
  | insert _ ih => exact ih
  | delete _ ih => exact ih

/-- Staves that differ in plain bars are the same without them. -/
theorem Staff.Rebarred.unbarred_eq {staff other : Staff} (rebarred : staff.Rebarred other) :
    staff.unbarred = other.unbarred := by
  have voices := map_eq_of_forall₂ rebarred.voices Voice.Rebarred.unbarred_eq
  unfold unbarred
  rw [rebarred.key, rebarred.meter, voices]

/-- Lines that differ in plain bars are the same without them. -/
theorem TuneLine.Rebarred.unbarred_eq {line other : TuneLine} (rebarred : line.Rebarred other) :
    line.unbarred = other.unbarred := by
  unfold unbarred
  rw [map_eq_of_forall₂ rebarred Staff.Rebarred.unbarred_eq]

/-- Tunes that differ in plain bars are the same without them. -/
theorem Tune.Rebarred.unbarred_eq {tune other : Tune} (rebarred : tune.Rebarred other) :
    tune.unbarred = other.unbarred := by
  have lines := map_eq_of_forall₂ rebarred.lines TuneLine.Rebarred.unbarred_eq
  unfold unbarred
  rw [rebarred.schema, rebarred.name, rebarred.title, rebarred.instrument, lines]

end Rebarred

namespace Voice

/-- A note stays. -/
theorem unbarred_note (note : Note) (rest : Voice) :
    unbarred (.note note :: rest) = .note note :: unbarred rest := rfl

/-- A plain bar goes. -/
theorem unbarred_plain (rest : Voice) : unbarred (.bar .plain :: rest) = unbarred rest := rfl

/-- A bar of a repeat stays. -/
theorem unbarred_bar {type : BarType} (repeats : type ≠ .plain) (rest : Voice) :
    unbarred (.bar type :: rest) = .bar type :: unbarred rest := by
  cases type with
  | plain => exact absurd rfl repeats
  | repeatOpen | repeatClose | doubleRepeat => rfl

/-- Plain bars are a case of their own, since nothing remains of them. -/
@[elab_as_elim]
theorem barInduction {motive : Voice → Prop} (nil : motive [])
    (note : ∀ note rest, motive rest → motive (.note note :: rest))
    (plain : ∀ rest, motive rest → motive (.bar .plain :: rest))
    (bar : ∀ type rest, type ≠ .plain → motive rest → motive (.bar type :: rest))
    (voice : Voice) : motive voice := by
  induction voice with
  | nil => exact nil
  | cons event rest ih =>
      cases event with
      | note value => exact note value rest ih
      | bar type =>
          by_cases isPlain : type = .plain
          · subst isPlain
            exact plain rest ih
          · exact bar type rest isPlain ih

/-- The notes of a voice stay without its plain bars. -/
theorem notes_unbarred (voice : Voice) : notes voice.unbarred = voice.notes := by
  induction voice using barInduction with
  | nil => rfl
  | note note rest ih => exact congrArg (note :: ·) ih
  | plain rest ih => exact ih
  | bar type rest repeats ih =>
      rw [unbarred_bar repeats]
      exact ih

/-- A voice has notes without its plain bars if it has any. -/
theorem any_isNote_unbarred (voice : Voice) :
    voice.unbarred.any Event.isNote = voice.any Event.isNote := by
  induction voice using barInduction with
  | nil => rfl
  | note note rest ih => rfl
  | plain rest ih => exact ih
  | bar type rest repeats ih =>
      rw [unbarred_bar repeats]
      exact ih

/-- The notes of a voice are encoded alike without its plain bars. -/
theorem encode_unbarred (key : KeySignature) (meterDenominator bound : Int)
    (triplet : Option Int) (voice : Voice) :
    encode key meterDenominator bound triplet voice.unbarred =
      encode key meterDenominator bound triplet voice := by
  induction voice using barInduction generalizing triplet with
  | nil => rfl
  | note note rest ih => rw [unbarred_note, encode, encode, ih]
  | plain rest ih => exact ih triplet
  | bar type rest repeats ih =>
      rw [unbarred_bar repeats]
      exact ih triplet

end Voice

/-- A plain bar neither closes nor opens. -/
theorem RepeatMarker.atBar_plain (line : Int) (notesFollow : Bool) (markers : List RepeatMarker) :
    atBar .plain line notesFollow markers = markers := rfl

/-- The markers depend on the repeat bars and on whether notes follow them, not on positions. -/
theorem RepeatMarker.afterVoice_unbarred (line : Int) (markers : List RepeatMarker)
    (voice : Voice) : afterVoice line markers voice.unbarred = afterVoice line markers voice := by
  induction voice using Voice.barInduction generalizing markers with
  | nil => rfl
  | note note rest ih => exact ih markers
  | plain rest ih => rw [Voice.unbarred_plain, ih, afterVoice, atBar_plain]
  | bar type rest repeats ih =>
      rw [Voice.unbarred_bar repeats, afterVoice, afterVoice, Voice.any_isNote_unbarred, ih]

namespace Tune

/-- A tune has as many staves without its plain bars. -/
theorem staffCount_unbarred (tune : Tune) : tune.unbarred.staffCount = tune.staffCount := by
  unfold staffCount unbarred
  simp only [List.foldl_map, TuneLine.unbarred, List.length_map]

/-- A part loses its plain bars with the tune. -/
theorem part_unbarred (tune : Tune) (index : Nat) :
    tune.unbarred.part index = (tune.part index).map Staff.unbarred := by
  unfold part unbarred
  rw [List.filterMap_map, List.map_filterMap]
  exact congrArg (List.filterMap · tune.lines) (funext fun _ => List.getElem?_map ..)

/-- The parts lose their plain bars with the tune. -/
theorem parts_unbarred (tune : Tune) :
    tune.unbarred.parts = tune.parts.map (List.map Staff.unbarred) := by
  rw [parts, parts, staffCount_unbarred, List.map_map]
  exact List.map_congr_left fun index _ => tune.part_unbarred index

end Tune

namespace Compile

variable (settings : Settings) (index : Nat)

/-- The voices of a line are added alike without its plain bars. -/
theorem addVoices_unbarred (meter : Meter) (line : Staff) (assembly : StaffAssembly) :
    addVoices settings index meter line.unbarred assembly =
      addVoices settings index meter line assembly := by
  unfold addVoices Staff.unbarred
  rw [List.foldlM_map]
  simp only [StaffAssembly.appendVoice, Voice.encode_unbarred, RepeatMarker.afterVoice_unbarred]

/-- A part is assembled alike without its plain bars. -/
theorem staff_unbarred (title instrument : String) (first : Staff) (rest : List Staff)
    (base : Int) : staff settings title instrument index first.unbarred (rest.map Staff.unbarred)
      base = staff settings title instrument index first rest base := by
  have assembled : ∀ (meter : Meter) (begun : StaffAssembly),
      (first.unbarred :: rest.map Staff.unbarred).foldlM
          (fun assembly line => addVoices settings index meter line assembly) begun =
        (first :: rest).foldlM
          (fun assembly line => addVoices settings index meter line assembly) begun := by
    intro meter begun
    rw [← List.map_cons, List.foldlM_map]
    simp only [addVoices_unbarred]
  unfold staff
  simp only [assembled]
  rfl

/-- A part is added to a compilation alike without its plain bars. -/
theorem addPart_unbarred (tune : Tune) (compilation : Compilation) (part : List Staff) :
    addPart settings tune.unbarred compilation (part.map Staff.unbarred) =
      addPart settings tune compilation part := by
  cases part with
  | nil => rfl
  | cons first rest =>
      unfold addPart
      simp only [List.map_cons, staff_unbarred]
      rfl

end Compile

/-- A tune compiles as it does without its plain bars. -/
theorem Tune.compile_unbarred (tune : Tune) (settings : Settings) (startId : Int) :
    tune.unbarred.compile settings startId = tune.compile settings startId := by
  unfold compile
  rw [parts_unbarred, List.foldlM_map]
  simp only [Compile.addPart_unbarred]
  rfl

namespace Review

/-- What is remarked about the events of a voice does not depend on its plain bars. -/
theorem voice_unbarred (place : VoicePlace) (events : Voice) :
    voice place events.unbarred = voice place events := by
  unfold voice
  rw [Voice.notes_unbarred]

/-- What is remarked about the bars of a voice does not depend on its plain bars. -/
theorem bars_unbarred (place : VoicePlace) (line : Int) (markers : List RepeatMarker)
    (events : Voice) :
    bars place line markers events.unbarred = bars place line markers events := by
  induction events using Voice.barInduction generalizing markers with
  | nil => rfl
  | note note rest ih => exact ih markers
  | plain rest ih =>
      rw [Voice.unbarred_plain, ih, bars, RepeatMarker.atBar_plain]
      rfl
  | bar type rest repeats ih =>
      rw [Voice.unbarred_bar repeats, bars, bars, Voice.any_isNote_unbarred, ih]

/-- What is remarked about voices does not depend on their plain bars. -/
theorem voices_unbarred (line : Int) (markers : List RepeatMarker)
    (placed : List (VoicePlace × Voice)) :
    voices line markers (placed.map (Prod.map id Voice.unbarred)) = voices line markers placed := by
  induction placed generalizing line markers with
  | nil => rfl
  | cons first rest ih =>
      obtain ⟨place, events⟩ := first
      rw [List.map_cons, Prod.map_apply, id, voices, voices, RepeatMarker.afterVoice_unbarred, ih,
        voice_unbarred, bars_unbarred]

/-- Voices keep their places without the plain bars. -/
theorem placedVoices_unbarred (staff : Nat) (lines : List Staff) :
    placedVoices staff (lines.map Staff.unbarred) =
      (placedVoices staff lines).map (Prod.map id Voice.unbarred) := by
  unfold placedVoices
  rw [List.zipIdx_map, List.flatMap_map, List.map_flatMap]
  refine congrArg (lines.zipIdx.flatMap ·) (funext fun (line, number) => ?_)
  simp only [Prod.map_apply, Staff.unbarred, List.zipIdx_map, List.map_map]
  rfl

/-- What is remarked about a part does not depend on its plain bars. -/
theorem part_unbarred (staff : Nat) (lines : List Staff) :
    part staff (lines.map Staff.unbarred) = part staff lines := by
  have meter : (lines.map Staff.unbarred).head?.bind Staff.meter =
      lines.head?.bind Staff.meter := by
    cases lines <;> rfl
  unfold part
  rw [placedVoices_unbarred, voices_unbarred, meter]

end Review

/-- The review says the same of a tune as of the tune without its plain bars. -/
theorem Tune.review_unbarred (tune : Tune) : tune.unbarred.review = tune.review := by
  have empty : tune.unbarred.lines.isEmpty = tune.lines.isEmpty := List.isEmpty_map
  have title : tune.unbarred.title = tune.title := rfl
  unfold review remarks
  rw [parts_unbarred, List.zipIdx_map, List.flatMap_map, empty, title]
  simp only [Prod.map_fst, Prod.map_snd, id, Review.part_unbarred]

namespace Tune

/-- Tunes that differ in plain bars only compile alike and are reviewed alike. -/
theorem plain_bars_transparent {tune other : Tune} (rebarred : tune.Rebarred other)
    (settings : Settings) (startId : Int) :
    other.compile settings startId = tune.compile settings startId ∧
      other.review = tune.review := by
  have same := rebarred.unbarred_eq
  constructor
  · rw [← other.compile_unbarred, ← same, compile_unbarred]
  · rw [← other.review_unbarred, ← same, review_unbarred]

/-- A repeat of one line and a voice without notes. -/
def repeatedLine : Tune := ofVoices [[.bar .repeatOpen, .note {}, .bar .repeatClose], []]

/-- The same with plain bars in front of the repeat bars, between them and behind them, and in the
voice without notes. -/
def barredLine : Tune :=
  ofVoices [[.bar .plain, .bar .repeatOpen, .note {}, .bar .plain, .bar .repeatClose, .bar .plain],
    [.bar .plain]]

theorem plain_bars_transparent_repeatedLine : repeatedLine.Rebarred barredLine ∧
    barredLine.compile .standard 3 = repeatedLine.compile .standard 3 ∧
    barredLine.review = repeatedLine.review := by
  have first : Voice.Rebarred [.bar .repeatOpen, .note {}, .bar .repeatClose] [.bar .plain,
      .bar .repeatOpen, .note {}, .bar .plain, .bar .repeatClose, .bar .plain] :=
    .insert (.keep _ (.keep _ (.insert (.keep _ (.insert .nil)))))
  have rebarred : repeatedLine.Rebarred barredLine :=
    ⟨rfl, rfl, rfl, rfl,
      .cons (.cons ⟨rfl, rfl, .cons first (.cons (.insert .nil) .nil)⟩ .nil) .nil⟩
  exact ⟨rebarred, plain_bars_transparent rebarred .standard 3⟩

end Tune

end TuneGraph
