import TuneGraph.Score.Writing
import TuneGraph.Proofs.Score.Readable

/-! # A tune that was read is read back from storage

What the reader delivers is storable: names are there, lengths and tuplet factors are positive,
the title is in lower case and the name of the tune has no blanks around it (`Tune.Storable`).
For a storable tune none of the reader's defaults applies to the document it is written as, so
the document is read as the same tune (`Tune.Storable.read_document`).
-/

namespace TuneGraph

/-- A note can be stored if its pitches have names and its length and tuplet factor are positive. -/
structure Note.Storable (note : Note) : Prop where
  named : ∀ pitch ∈ note.pitches, pitch.name ≠ ""
  lasting : note.duration.isPositive = true
  tupled : ∀ factor, note.startTriplet = some factor → 0 < factor

/-- Bars of every kind can be stored. -/
def Event.Storable : Event → Prop
  | .note value => value.Storable
  | .bar _ => True

structure KeySignature.Storable (key : KeySignature) : Prop where
  rooted : key.root ≠ ""
  placed : ∀ accidental ∈ key.accidentals, accidental.note ≠ ""

structure Staff.Storable (staff : Staff) : Prop where
  key : staff.key.Storable
  events : ∀ voice ∈ staff.voices, ∀ event ∈ voice, event.Storable

structure TuneLine.Storable (line : TuneLine) : Prop where
  inhabited : line.staves ≠ []
  staves : ∀ staff ∈ line.staves, staff.Storable

structure Tune.Storable (tune : Tune) : Prop where
  schema : tune.schema ≠ ""
  named : tune.name ≠ ""
  stripped : Text.strip tune.name = tune.name
  titled : tune.title ≠ ""
  lowTitle : Text.lower tune.title = tune.title
  voiced : tune.instrument ≠ ""
  lowInstrument : Text.lower tune.instrument = tune.instrument
  lines : ∀ line ∈ tune.lines, line.Storable

/-- What is written of items and read again is kept, if it is so of each item. -/
theorem filterMap_map_eq {α β γ : Type} {write : β → α} {read : α → Option γ} {kept : β → γ}
    {items : List β} (back : ∀ item ∈ items, read (write item) = some (kept item)) :
    (items.map write).filterMap read = items.map kept := by
  rw [List.filterMap_map, ← List.filterMap_eq_map]
  exact List.filterMap_congr back

section Written

/-- A named pitch is read as it was stored. -/
theorem read_pitch_document {pitch : Pitch} (named : pitch.name ≠ "") :
    Reading.pitch pitch.document = .ok pitch := by
  obtain ⟨position, name, accidental⟩ := pitch
  cases accidental <;>
    simp [Reading.pitch, Pitch.document, Reading.position, Reading.integer?,
      Datum.orElse_text named, Datum.text?, pure, Except.pure, bind, Except.bind]

/-- An accidental with a place is read as it was stored. -/
theorem read_accidental_document {accidental : KeyAccidental} (placed : accidental.note ≠ "") :
    Reading.keyAccidental?
      (.mapping [("acc", .text accidental.acc), ("note", .text accidental.note)]) =
        .ok (some accidental) := by
  simp [Reading.keyAccidental?, Reading.textOf, Datum.isTruthy, placed, pure, Except.pure, bind,
    Except.bind]

/-- A key that can be stored is read back from its document. -/
theorem read_key_document {key : KeySignature} (storable : key.Storable) :
    Reading.keySignature key.document = .ok key := by
  obtain ⟨root, acc, mode, accidentals⟩ := key
  have back : (accidentals.map fun accidental => Datum.mapping
      [("acc", .text accidental.acc), ("note", .text accidental.note)]).mapM
        Reading.keyAccidental? = .ok (accidentals.map some) := by
    rw [mapM_eq_ok_iff, List.forall₂_map_left_iff, List.forall₂_map_right_iff, List.forall₂_same]
    exact fun accidental member => read_accidental_document (storable.placed accidental member)
  simp [Reading.keySignature, KeySignature.document, Datum.items,
    Datum.orElse_text storable.rooted, back, pure, Except.pure, bind, Except.bind]

/-- A meter is read as it was stored. -/
theorem read_meter_document (meter : Meter) :
    Reading.meter meter.document = .ok (some meter) := by
  obtain ⟨numerator, denominator, numerator_pos, denominator_pos⟩ := meter
  have unnamed : Reading.namedMeters.lookup "specified" = none := by decide
  simp [Reading.meter, Meter.document, Datum.isMapping, Reading.nameIn, unnamed,
    Reading.positive, Reading.integer?, Datum.items, Reading.meterOf,
    numerator_pos, denominator_pos, pure, Except.pure, bind, Except.bind]

/-- A bar is read as it was stored. -/
theorem read_bar_document (type : BarType) :
    Reading.event? (Event.bar type).document = .ok (some (.bar type)) := by
  cases type <;> rfl

/-- A storable note is read as it was stored. -/
theorem read_note_document {note : Note} (storable : note.Storable) :
    Reading.note note.document = .ok note := by
  obtain ⟨pitches, duration, startTriplet, endTriplet⟩ := note
  obtain ⟨named, lasting, tupled⟩ := storable
  have mappings : (pitches.map Pitch.document).filter Datum.isMapping =
      pitches.map Pitch.document := by
    simp [Pitch.document, Datum.isMapping]
  have back : (pitches.map Pitch.document).mapM Reading.pitch = .ok pitches :=
    mapM_map_eq_ok fun pitch member => read_pitch_document (named pitch member)
  have length : Reading.duration (.real duration) = .ok duration := by
    simp [Reading.duration, Reading.real?, lasting, pure, Except.pure, bind, Except.bind]
  cases startTriplet with
  | none =>
      have plain : Reading.positive .null 0 = .ok 0 := rfl
      cases endTriplet <;>
        simp [Reading.note, Note.document, Datum.items, mappings, back, length, plain,
          Datum.isTruthy, pure, Except.pure, bind, Except.bind]
  | some factor =>
      have positive : 0 < factor := tupled factor rfl
      have nonzero : factor ≠ 0 := by omega
      have triplet : Reading.positive (.integer factor) 0 = .ok factor := by
        simp [Reading.positive, Reading.integer?, positive, pure, Except.pure, bind, Except.bind]
      cases endTriplet <;>
        simp [Reading.note, Note.document, Datum.items, mappings, back, length, triplet, nonzero,
          Datum.isTruthy, pure, Except.pure, bind, Except.bind]

/-- A storable event is read as it was stored. -/
theorem read_event_document {event : Event} (storable : event.Storable) :
    Reading.event? event.document = .ok (some event) := by
  cases event with
  | note value =>
      have kind : value.document.get "el_type" = .text "note" := by simp [Note.document]
      simp [Reading.event?, Event.document, kind, read_note_document storable, pure, Except.pure,
        bind, Except.bind]
  | bar type => exact read_bar_document type

/-- A voice of storable events is read as it was stored. -/
theorem read_voice_document {voice : Voice} (storable : ∀ event ∈ voice, event.Storable) :
    Reading.voice (voice.map Event.document) = .ok voice := by
  have mappings : (voice.map Event.document).filter Datum.isMapping =
      voice.map Event.document := by
    apply List.filter_eq_self.mpr
    rw [List.forall_mem_map]
    rintro (_ | _) _ <;> rfl
  have back : (voice.map Event.document).mapM Reading.event? = .ok (voice.map some) := by
    rw [mapM_eq_ok_iff, List.forall₂_map_left_iff, List.forall₂_map_right_iff, List.forall₂_same]
    exact fun event member => read_event_document (storable event member)
  simp [Reading.voice, mappings, back, pure, Except.pure, bind, Except.bind]

/-- A storable staff is read as it was stored. -/
theorem read_staff_document {staff : Staff} (storable : staff.Storable) :
    Reading.staff staff.document = .ok staff := by
  obtain ⟨key, meter, voices⟩ := staff
  obtain ⟨keyStorable, eventsStorable⟩ := storable
  have lists : (voices.map fun voice => Datum.list (voice.map Event.document)).filterMap
      Reading.elements? = voices.map (·.map Event.document) :=
    filterMap_map_eq fun _ _ => rfl
  have back : (voices.map (·.map Event.document)).mapM Reading.voice = .ok voices :=
    mapM_map_eq_ok fun voice member => read_voice_document (eventsStorable voice member)
  have absent : Reading.meter .null = .ok none := rfl
  cases meter <;>
    simp [Reading.staff, Staff.document, Datum.items, lists, back, absent, read_meter_document,
      read_key_document keyStorable, pure, Except.pure, bind, Except.bind]

/-- A storable line is read as it was stored. -/
theorem read_line_document {line : TuneLine} (storable : line.Storable) :
    Reading.line? line.document = .ok (some line) := by
  obtain ⟨staves⟩ := line
  obtain ⟨inhabited, stavesStorable⟩ := storable
  have back : (staves.map Staff.document).mapM Reading.staff = .ok staves :=
    mapM_map_eq_ok fun staff member => read_staff_document (stavesStorable staff member)
  cases staves with
  | nil => exact absurd rfl inhabited
  | cons staff rest =>
    simp only [Reading.line?, TuneLine.document, Datum.get_mapping, Datum.find?_cons, if_true,
      Option.getD_some, Datum.items, List.map_cons] at back ⊢
    simp [back, pure, Except.pure, bind, Except.bind]

end Written

/-- A tune that can be stored is read back from its document. -/
theorem Tune.Storable.read_document {tune : Tune} (storable : tune.Storable) :
    Tune.read tune.document .null = .ok tune := by
  obtain ⟨schema, name, title, instrument, lines⟩ := tune
  have back : (lines.map TuneLine.document).mapM Reading.line? = .ok (lines.map some) := by
    rw [mapM_eq_ok_iff, List.forall₂_map_left_iff, List.forall₂_map_right_iff, List.forall₂_same]
    exact fun line member => read_line_document (storable.lines line member)
  have checked : Reading.checkedName (.text name) = .ok name := by
    have named := storable.named
    have stripped := storable.stripped
    simp [Reading.checkedName, Schema.tuneName, Schema.text, Schema.Checked.require, pure,
      Except.pure, stripped, named]
  obtain ⟨said, named, -, titled, lowTitle, voiced, lowInstrument, -⟩ := storable
  simp [Tune.read, Tune.document, Datum.isMapping, Datum.items, Datum.orElse_text said,
    Datum.orElse_text titled, Datum.orElse_text voiced, lowTitle, lowInstrument, back, named,
    Reading.chosenName_null, checked, Functor.map, Except.map, pure, Except.pure, bind, Except.bind]

section Reading

/-- A pitch that has been read has a name. -/
theorem named_of_read_pitch {value : Datum} {pitch : Pitch}
    (read : Reading.pitch value = .ok pitch) : pitch.name ≠ "" := by
  simp only [Reading.pitch, bind_eq_ok_iff] at read
  obtain ⟨position, -, name, spelled, same⟩ := read
  cases same
  exact Datum.display_orElse_ne_empty (by decide) (Reading.spelled_eq_ok_iff.mp spelled)

/-- The default length is positive. -/
theorem isPositive_defaultDuration : Note.defaultDuration.isPositive = true := by decide +kernel

/-- A length that has been read is positive. -/
theorem isPositive_of_read_duration {value : Datum} {length : Binary64}
    (read : Reading.duration value = .ok length) : length.isPositive = true := by
  simp only [Reading.duration, bind_eq_ok_iff] at read
  obtain ⟨number, -, same⟩ := read
  cases number with
  | none =>
      rw [← Except.ok.inj same]
      exact isPositive_defaultDuration
  | some number =>
      rw [← Except.ok.inj same]
      split
      next positive => exact positive
      next => exact isPositive_defaultDuration

/-- A number that has been read with the default zero is not negative. -/
theorem nonneg_of_read_positive {value : Datum} {number : Int}
    (read : Reading.positive value 0 = .ok number) : 0 ≤ number := by
  simp only [Reading.positive, bind_eq_ok_iff] at read
  obtain ⟨integer, -, same⟩ := read
  cases integer with
  | none =>
      cases same
      exact Int.le_refl 0
  | some integer =>
      cases same
      split <;> omega

/-- A note that has been read can be stored. -/
theorem storable_of_read_note {value : Datum} {note : Note}
    (read : Reading.note value = .ok note) : note.Storable := by
  simp only [Reading.note, bind_eq_ok_iff] at read
  obtain ⟨pitches, pitchesRead, duration, durationRead, triplet, tripletRead, same⟩ := read
  cases same
  refine ⟨forall_of_mapM_eq_ok (fun _ _ => named_of_read_pitch) pitchesRead,
    isPositive_of_read_duration durationRead, ?_⟩
  intro factor begins
  have nonneg := nonneg_of_read_positive tripletRead
  by_cases zero : triplet = 0
  · simp [zero] at begins
  · simp only [if_neg zero, Option.some.injEq] at begins
    omega

/-- An event that has been read can be stored. -/
theorem storable_of_read_event {value : Datum} {event : Event}
    (read : Reading.event? value = .ok (some event)) : event.Storable := by
  unfold Reading.event? at read
  split at read
  · obtain ⟨kind, -, same⟩ := bind_eq_ok_iff.mp read
    cases same
    trivial
  · obtain ⟨note, noteRead, same⟩ := bind_eq_ok_iff.mp read
    cases same
    exact storable_of_read_note noteRead
  · cases read

/-- The events of a voice that has been read can be stored. -/
theorem storable_of_read_voice {elements : List Datum} {voice : Voice}
    (read : Reading.voice elements = .ok voice) : ∀ event ∈ voice, event.Storable := by
  simp only [Reading.voice, bind_eq_ok_iff] at read
  obtain ⟨events, eventsRead, same⟩ := read
  cases same
  have each : ∀ found ∈ events, ∀ event, found = some event → event.Storable := by
    refine forall_of_mapM_eq_ok ?_ eventsRead
    rintro element found elementRead event rfl
    exact storable_of_read_event elementRead
  intro event member
  obtain ⟨found, inside, isEvent⟩ := List.mem_filterMap.mp member
  exact each found inside event isEvent

/-- The text of an entry that says something is not empty. -/
theorem textOf_ne_empty {value : Datum} {name spelling : String}
    (truthy : (value.get name).isTruthy = true)
    (read : Reading.textOf value name = .ok spelling) : spelling ≠ "" := by
  cases value with
  | mapping entries =>
      rw [Datum.get_mapping] at truthy
      rw [Reading.textOf] at read
      cases entry : Datum.find? name entries with
      | none => simp [entry, Datum.isTruthy] at truthy
      | some value =>
          rw [entry] at truthy read
          exact Datum.display_ne_empty truthy (Reading.spelled_eq_ok_iff.mp read)
  | _ => cases truthy

/-- An accidental that is read says which letter it belongs to. -/
theorem placed_of_read_accidental {value : Datum} {accidental : KeyAccidental}
    (read : Reading.keyAccidental? value = .ok (some accidental)) : accidental.note ≠ "" := by
  unfold Reading.keyAccidental? at read
  split at read
  · cases read
  next truthy =>
    simp only [bind_eq_ok_iff] at read
    obtain ⟨acc, -, note, noteRead, same⟩ := read
    cases same
    exact textOf_ne_empty (by simpa using truthy) noteRead

/-- A key that is read can be stored. -/
theorem storable_of_read_key {value : Datum} {key : KeySignature}
    (read : Reading.keySignature value = .ok key) : key.Storable := by
  simp only [Reading.keySignature, bind_eq_ok_iff] at read
  obtain ⟨accidentals, accidentalsRead, root, rootRead, acc, -, mode, -, same⟩ := read
  cases same
  refine ⟨Datum.display_orElse_ne_empty (by decide) (Reading.spelled_eq_ok_iff.mp rootRead), ?_⟩
  have each : ∀ found ∈ accidentals, ∀ accidental, found = some accidental →
      accidental.note ≠ "" := by
    refine forall_of_mapM_eq_ok ?_ accidentalsRead
    rintro item found itemRead accidental rfl
    exact placed_of_read_accidental itemRead
  intro accidental member
  obtain ⟨found, inside, isAccidental⟩ := List.mem_filterMap.mp member
  exact each found inside accidental isAccidental

/-- A staff that has been read can be stored. -/
theorem storable_of_read_staff {value : Datum} {staff : Staff}
    (read : Reading.staff value = .ok staff) : staff.Storable := by
  simp only [Reading.staff, bind_eq_ok_iff] at read
  obtain ⟨voices, voicesRead, key, keyRead, meter, -, same⟩ := read
  cases same
  exact ⟨storable_of_read_key keyRead,
    forall_of_mapM_eq_ok (fun _ _ => storable_of_read_voice) voicesRead⟩

/-- A line that has been read can be stored. -/
theorem storable_of_read_line {value : Datum} {line : TuneLine}
    (read : Reading.line? value = .ok (some line)) : line.Storable := by
  unfold Reading.line? at read
  split at read
  next => cases read
  next staves noText =>
    obtain ⟨stavesRead, done, same⟩ := bind_eq_ok_iff.mp read
    cases same
    refine ⟨?_, forall_of_mapM_eq_ok (fun _ _ => storable_of_read_staff) done⟩
    rintro rfl
    rw [mapM_eq_ok_iff, List.forall₂_nil_right_iff] at done
    exact noText done

/-- The lines that have been read can be stored. -/
theorem storable_of_read_lines {values : List Datum} {lines : List (Option TuneLine)}
    (read : values.mapM Reading.line? = .ok lines) :
    ∀ line ∈ lines.filterMap id, line.Storable := by
  have each : ∀ found ∈ lines, ∀ line, found = some line → line.Storable := by
    refine forall_of_mapM_eq_ok ?_ read
    rintro value found lineRead line rfl
    exact storable_of_read_line lineRead
  intro line member
  obtain ⟨found, inside, isLine⟩ := List.mem_filterMap.mp member
  exact each found inside line isLine

/-- A name that the schema accepts is stripped and not empty. -/
theorem accepted_tuneName {value : Datum} {name : String}
    (accepted : Schema.tuneName value = .accepted name) : Text.strip name = name ∧ name ≠ "" := by
  cases value with
  | text said =>
      simp only [Schema.tuneName, Schema.text, Schema.Checked.require, pure] at accepted
      split at accepted
      next => cases accepted
      next visible =>
        cases accepted
        exact ⟨Text.strip_strip said, visible⟩
  | _ => cases accepted

/-- A name that is accepted is not empty and has no blanks around it. -/
theorem accepted_checkedName {value : Datum} {name : String}
    (checked : Reading.checkedName value = .ok name) : Text.strip name = name ∧ name ≠ "" := by
  unfold Reading.checkedName at checked
  split at checked
  next accepted =>
    cases checked
    exact accepted_tuneName accepted
  next => cases checked

end Reading

/-- A title that is read is in lower case and not empty, and so is an instrument. -/
theorem lower_of_read {value : Datum} {default spelling : String} (said : default ≠ "")
    (read : Text.lower <$> Reading.spelled (value.orElse (.text default)) = .ok spelling) :
    Text.lower spelling = spelling ∧ spelling ≠ "" := by
  cases spelled : Reading.spelled (value.orElse (.text default)) with
  | error fault =>
      rw [spelled] at read
      cases read
  | ok written =>
      rw [spelled] at read
      cases read
      exact ⟨Text.lower_lower _, Text.lower_eq_empty_iff.not.mpr
        (Datum.display_orElse_ne_empty said (Reading.spelled_eq_ok_iff.mp spelled))⟩

/-- A tune that is read can be stored. -/
theorem Tune.storable_of_read {document name : Datum} {tune : Tune}
    (read : Tune.read document name = .ok tune) : tune.Storable := by
  unfold Tune.read at read
  split at read
  · cases read
  simp only [bind_eq_ok_iff] at read
  obtain ⟨title, titleRead, instrument, instrumentRead, lines, linesRead, schema, schemaRead,
    chosen, -, name, checked, same⟩ := read
  cases same
  obtain ⟨stripped, named⟩ := accepted_checkedName checked
  obtain ⟨lowTitle, titled⟩ := lower_of_read (by decide) titleRead
  obtain ⟨lowInstrument, voiced⟩ := lower_of_read (by decide) instrumentRead
  exact
    { schema := Datum.display_orElse_ne_empty (by decide) (Reading.spelled_eq_ok_iff.mp schemaRead)
      named, stripped, titled, lowTitle, voiced, lowInstrument
      lines := storable_of_read_lines linesRead }

/-- Storing a tune that was read, under whatever name, and reading it back gives the same tune. -/
theorem Tune.read_stored {document name : Datum} {tune : Tune}
    (read : Tune.read document name = .ok tune) : Tune.read tune.document .null = .ok tune :=
  (Tune.storable_of_read read).read_document

/-- A document that leaves much to the reader. -/
def sparseDocument : Datum := .mapping [("name", .text " Night Song "),
  ("metaText", .mapping [("title", .text "Night Song ΣΑΣ")]),
  ("lines", .list [.mapping [("subtitle", .text "slowly")],
    .mapping [("staff", .list [.null, .mapping [
      ("key", .mapping [("root", .text "G"), ("accidentals", .list [.null,
        .mapping [("acc", .text "sharp"), ("note", .text "f")]])]),
      ("meter", .mapping [("type", .text "cut_time")]),
      ("voices", .list [.text "x", .list [
        .mapping [("el_type", .text "note"), ("duration", .text "0.5"),
          ("startTriplet", .integer 3), ("pitches", .list [.mapping [("pitch", .text "7")]])],
        .mapping [("el_type", .text "note"), ("duration", .null), ("endTriplet", .integer 1)],
        .mapping [("el_type", .text "bar"), ("type", .text "bar_dbl_repeat")]]])]])]])]

/-- The tune of `sparseDocument`. -/
def sparseTune : Tune where
  name := "Night Song"
  title := "night song σας"
  lines := [{ staves := [{},
    { key := { root := "G", accidentals := [⟨"sharp", "f"⟩] }
      meter := Reading.namedMeters.lookup "cut_time"
      voices := [[
        .note { pitches := [{ position := 7 }], duration := .ofRatio 1 2, startTriplet := some 3 },
        .note { endTriplet := true }, .bar .doubleRepeat]] }] }]

theorem Tune.read_stored_sparseTune : Tune.read sparseDocument .null = .ok sparseTune ∧
    Tune.read sparseTune.document .null = .ok sparseTune := by
  have read : Tune.read sparseDocument .null = .ok sparseTune :=
    eq_ok_of_toOption (by decide +kernel)
  exact ⟨read, read_stored read⟩

end TuneGraph
