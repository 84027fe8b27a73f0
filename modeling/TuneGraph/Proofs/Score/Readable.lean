import TuneGraph.Score.Reading
import TuneGraph.Proofs.Document.Display
import TuneGraph.Proofs.Except

/-! # Which documents are read

The reader takes almost every mapping. It stops only where a list or a mapping stands for the kind
of a bar or of a meter, where an infinity stands for an integer, where an integer without a nearest
real number stands for a length, where a value without a spelling stands for a text, and where the
name of the tune is made of blanks alone.
-/

namespace TuneGraph

open Text (Shows)

namespace Datum

/-- Whether a value is an infinite number. -/
def isInfinite : Datum → Bool
  | .real value => value.isInfinite
  | _ => false

/-- Whether a value is an integer beyond the real numbers. -/
def isOversized : Datum → Bool
  | .integer value => (Binary64.ofInt? value).isNone
  | _ => false

/-- Whether a value cannot be looked up in a table, as lists and mappings cannot. -/
def isComposite : Datum → Bool
  | .list _ | .mapping _ => true
  | .other value => !value.isHashable
  | _ => false

end Datum

namespace Reading

/-- The mapping with the numbers of a meter that has no name of its own. -/
def meterNumbers? (meter : Datum) : Option Datum :=
  match (meter.get "type").text?.bind (List.lookup · namedMeters) with
  | some _ => none
  | none => (meter.get "value").items.head?

/-- A meter in which no value stops the reader. -/
structure ReadableMeter (meter : Datum) : Prop where
  type : (meter.get "type").isComposite = false
  numerator : ∀ numbers ∈ meterNumbers? meter, (numbers.get "num").isInfinite = false
  denominator : ∀ numbers ∈ meterNumbers? meter, (numbers.get "den").isInfinite = false

/-- An accidental in which no value stops the reader. One without a letter is not looked at. -/
structure ReadableAccidental (accidental : Datum) : Prop where
  acc : (accidental.get "note").isTruthy = true → (accidental.get "acc").display?.isSome = true
  note : (accidental.get "note").isSayable = true

/-- A key in which no value stops the reader. -/
structure ReadableKey (key : Datum) : Prop where
  root : (key.get "root").isSayable = true
  acc : (key.get "acc").isSayable = true
  mode : (key.get "mode").isSayable = true
  accidentals : ∀ accidental ∈ (key.get "accidentals").items, ReadableAccidental accidental

/-- A pitch in which no value stops the reader. -/
structure ReadablePitch (pitch : Datum) : Prop where
  position : (pitch.get "pitch").isInfinite = false
  name : (pitch.get "name").isSayable = true

/-- A note in which no value stops the reader. -/
structure ReadableNote (note : Datum) : Prop where
  duration : (note.get "duration").isOversized = false
  triplet : (note.get "startTriplet").isInfinite = false
  pitches : ∀ pitch ∈ (note.get "pitches").items, ReadablePitch pitch

/-- An element of a voice in which no value stops the reader. -/
structure ReadableElement (element : Datum) : Prop where
  bar : element.get "el_type" = .text "bar" → (element.get "type").isComposite = false
  note : element.get "el_type" = .text "note" → ReadableNote element

/-- A staff in which no value stops the reader. -/
structure ReadableStaff (staff : Datum) : Prop where
  key : ReadableKey (staff.get "key")
  meter : ReadableMeter (staff.get "meter")
  elements : ∀ voice ∈ (staff.get "voices").items, ∀ element ∈ voice.items, ReadableElement element

/-- A mapping in which no value stops the reader. -/
structure Readable (document : Datum) : Prop where
  mapping : document.isMapping = true
  title : ((document.get "metaText").get "title").isSayable = true
  instrument : ((document.get "metaText").get "instruction").isSayable = true
  schema : (document.get "schema").isSayable = true
  staves : ∀ line ∈ (document.get "lines").items, ∀ staff ∈ (line.get "staff").items,
    ReadableStaff staff
  name : (document.get "name").isSayable = true
  visible : ∀ name, document.get "name" = .text name → name = "" ∨ Shows name

/-- A value is taken as a text exactly if it has a spelling. -/
theorem returns_spelled_iff {value : Datum} :
    Returns (spelled value) ↔ value.display?.isSome = true := by
  unfold spelled
  cases value.display? <;> simp

/-- With a default, only a value that says something has to have a spelling. -/
theorem returns_spelled_orElse_iff {value : Datum} {default : String} :
    Returns (spelled (value.orElse (.text default))) ↔ value.isSayable = true :=
  returns_spelled_iff.trans (Datum.isSayable_iff default).symm

@[simp] theorem spelled_text (value : String) : spelled (.text value) = .ok value := rfl

/-- A value is spelled as it is displayed. -/
theorem spelled_eq_ok_iff {value : Datum} {spelling : String} :
    spelled value = .ok spelling ↔ value.display? = some spelling := by
  unfold spelled
  cases value.display? with
  | some said => exact ⟨fun same => congrArg some (Except.ok.inj same),
      fun same => congrArg Except.ok (Option.some.inj same)⟩
  | none => exact iff_of_false nofun nofun

/-- An infinity is not read as an integer, and everything else is passed over at worst. -/
theorem returns_integer?_iff {value : Datum} :
    Returns (integer? value) ↔ value.isInfinite = false := by
  cases value with
  | real value =>
      simp only [integer?, Datum.isInfinite]
      split <;> simp_all
  | _ => simp [integer?, Datum.isInfinite]

/-- A positive number is read unless there is an infinity. -/
theorem returns_positive_iff {value : Datum} {default : Int} :
    Returns (positive value default) ↔ value.isInfinite = false := by
  rw [← returns_integer?_iff]
  apply returns_bind_iff_left
  rintro (_ | number) <;> exact returns_pure _

/-- A position is read unless there is an infinity. -/
theorem returns_position_iff {value : Datum} :
    Returns (position value) ↔ value.isInfinite = false := by
  rw [← returns_integer?_iff]
  exact returns_bind_iff_left fun _ => returns_pure _

/-- A length is read unless there is an integer without a nearest real number. -/
theorem returns_duration_iff {value : Datum} :
    Returns (duration value) ↔ value.isOversized = false := by
  have real : Returns (real? value) ↔ value.isOversized = false := by
    cases value with
    | integer value =>
        simp only [real?, Datum.isOversized]
        split <;> simp_all
    | _ => simp [real?, Datum.isOversized]
  rw [← real]
  apply returns_bind_iff_left
  rintro (_ | number) <;> exact returns_pure _

/-- A name is looked up unless there is a list or a mapping. -/
theorem returns_nameIn_iff {α : Type} {table : List (String × α)} {value : Datum} :
    Returns (nameIn table value) ↔ value.isComposite = false := by
  cases value with
  | other value => cases hashable : value.isHashable <;> simp [nameIn, Datum.isComposite, hashable]
  | _ => simp [nameIn, Datum.isComposite]

/-- A name that is looked up is that of a text in the table, or there is none. -/
theorem nameIn_eq {α : Type} {table : List (String × α)} {value : Datum}
    (simple : value.isComposite = false) :
    nameIn table value = .ok (value.text?.bind (List.lookup · table)) := by
  cases value with
  | list | mapping => cases simple
  | other value => exact if_pos (by simpa [Datum.isComposite] using simple)
  | _ => rfl

/-- `ReadablePitch` tells of the pitches that are read. -/
theorem returns_pitch_iff {value : Datum} : Returns (pitch value) ↔ ReadablePitch value := by
  have parts : Returns (pitch value) ↔ _ :=
    returns_bind_iff_and fun _ => returns_bind_iff_left fun _ => returns_pure _
  rw [parts, returns_position_iff, returns_spelled_orElse_iff]
  exact ⟨fun ⟨position, name⟩ => ⟨position, name⟩, fun ⟨position, name⟩ => ⟨position, name⟩⟩

/-- There is nothing in a value that is no mapping. -/
theorem get_eq_null {value : Datum} (noMapping : ¬value.isMapping = true) (name : String) :
    value.get name = .null := by
  cases value with
  | mapping => exact absurd rfl noMapping
  | _ => rfl

/-- What holds of every value that is no mapping may as well be asked of all values. -/
theorem forall_mem_mappings {values : List Datum} {holds : Datum → Prop}
    (others : ∀ value : Datum, ¬value.isMapping = true → holds value) :
    (∀ value ∈ values.filter Datum.isMapping, holds value) ↔ ∀ value ∈ values, holds value := by
  constructor
  · intro each value member
    by_cases isMapping : value.isMapping
    · exact each value (List.mem_filter.mpr ⟨member, isMapping⟩)
    · exact others value isMapping
  · intro each value member
    exact each value (List.mem_filter.mp member).1

/-- The text of an entry is there exactly if its value has a spelling. -/
theorem returns_textOf_iff {value : Datum} {name : String} :
    Returns (textOf value name) ↔ (value.get name).display?.isSome = true := by
  have absent : Datum.null.display?.isSome = true := rfl
  cases value with
  | mapping entries =>
      rw [Datum.get_mapping, textOf]
      cases Datum.find? name entries with
      | none => exact iff_of_true (returns_pure _) absent
      | some entry => exact returns_spelled_iff
  | _ => exact iff_of_true (returns_pure _) absent

/-- `ReadableAccidental` tells of the accidentals of a key that are read. -/
theorem returns_keyAccidental?_iff {value : Datum} :
    Returns (keyAccidental? value) ↔ ReadableAccidental value := by
  unfold keyAccidental?
  cases truthy : (value.get "note").isTruthy with
  | false =>
      exact iff_of_true (returns_pure _) ⟨by simp [truthy], by simp [Datum.isSayable, truthy]⟩
  | true =>
      have parts : Returns (textOf value "acc" >>= fun acc => textOf value "note" >>= fun note =>
          (pure (some { acc, note }) : Except ReadError (Option KeyAccidental))) ↔ _ :=
        returns_bind_iff_and fun _ => returns_bind_iff_left fun _ => returns_pure _
      refine parts.trans ?_
      rw [returns_textOf_iff, returns_textOf_iff]
      constructor
      · exact fun ⟨acc, note⟩ => ⟨fun _ => acc, by simp [Datum.isSayable, note]⟩
      · exact fun ⟨acc, note⟩ => ⟨acc truthy, by simpa [Datum.isSayable, truthy] using note⟩

/-- `ReadableKey` tells of the keys that are read. -/
theorem returns_keySignature_iff {value : Datum} :
    Returns (keySignature value) ↔ ReadableKey value := by
  have parts : Returns (keySignature value) ↔ _ :=
    returns_bind_iff_and fun _ => returns_bind_iff_and fun _ => returns_bind_iff_and fun _ =>
      returns_bind_iff_left fun _ => returns_pure _
  rw [parts]
  simp only [returns_mapM_iff, returns_keyAccidental?_iff, returns_spelled_orElse_iff]
  exact ⟨fun ⟨accidentals, root, acc, mode⟩ => ⟨root, acc, mode, accidentals⟩,
    fun ⟨root, acc, mode, accidentals⟩ => ⟨accidentals, root, acc, mode⟩⟩

/-- `ReadableNote` tells of the notes that are read. -/
theorem returns_note_iff {value : Datum} : Returns (note value) ↔ ReadableNote value := by
  have parts : Returns (note value) ↔ _ :=
    returns_bind_iff_and fun _ => returns_bind_iff_and fun _ => returns_bind_iff_left fun _ =>
      returns_pure _
  simp only [parts, returns_mapM_iff, returns_pitch_iff, returns_duration_iff,
    returns_positive_iff]
  rw [forall_mem_mappings]
  · exact ⟨fun ⟨pitches, duration, triplet⟩ => ⟨duration, triplet, pitches⟩,
      fun ⟨duration, triplet, pitches⟩ => ⟨pitches, duration, triplet⟩⟩
  · intro pitch noMapping
    constructor <;> rw [get_eq_null noMapping] <;> rfl

/-- `ReadableElement` tells of the elements that are read. -/
theorem returns_event?_iff {value : Datum} :
    Returns (event? value) ↔ ReadableElement value := by
  unfold event?
  split
  next isBar =>
    rw [returns_bind_iff_left fun _ => returns_pure _, returns_nameIn_iff]
    exact ⟨fun simple => ⟨fun _ => simple, by simp [isBar]⟩, fun readable => readable.bar isBar⟩
  next isNote =>
    rw [returns_bind_iff_left fun _ => returns_pure _, returns_note_iff]
    exact ⟨fun note => ⟨by simp [isNote], fun _ => note⟩, fun readable => readable.note isNote⟩
  next noBar noNote =>
    exact iff_of_true (returns_pure _) ⟨fun isBar => absurd isBar noBar,
      fun isNote => absurd isNote noNote⟩

/-- A voice is read if all of its elements are. -/
theorem returns_voice_iff {elements : List Datum} :
    Returns (voice elements) ↔ ∀ element ∈ elements, ReadableElement element := by
  unfold voice
  simp only [returns_bind_iff_left fun _ => returns_pure _, returns_mapM_iff, returns_event?_iff]
  apply forall_mem_mappings
  intro element noMapping
  constructor <;> simp [get_eq_null noMapping]

/-- A meter can be read if its name can be looked up and its numbers are no infinities. -/
theorem readableMeter_iff {meter : Datum} :
    ReadableMeter meter ↔ (meter.get "type").isComposite = false ∧
      ∀ numbers ∈ meterNumbers? meter,
        (numbers.get "num").isInfinite = false ∧ (numbers.get "den").isInfinite = false :=
  ⟨fun ⟨type, numerator, denominator⟩ => ⟨type, fun numbers member =>
    ⟨numerator numbers member, denominator numbers member⟩⟩,
    fun ⟨type, both⟩ => ⟨type, fun numbers member => (both numbers member).1,
      fun numbers member => (both numbers member).2⟩⟩

/-- `ReadableMeter` tells of the meters that are read. -/
theorem returns_meter_iff {value : Datum} : Returns (meter value) ↔ ReadableMeter value := by
  unfold meter
  by_cases isMapping : value.isMapping
  · rw [if_neg (by simp [isMapping])]
    by_cases simple : (value.get "type").isComposite = false
    · rw [nameIn_eq simple, returns_bind_iff]
      cases named : (value.get "type").text?.bind (List.lookup · namedMeters) with
      | some meter =>
          exact iff_of_true ⟨_, rfl, returns_pure _⟩
            ⟨simple, by simp [meterNumbers?, named], by simp [meterNumbers?, named]⟩
      | none =>
          have numbers : meterNumbers? value = (value.get "value").items.head? := by
            rw [meterNumbers?, named]
          simp only [Except.ok.injEq, exists_eq_left']
          rw [readableMeter_iff, numbers]
          split
          next entries rest items =>
            rw [returns_bind_iff_and fun _ => returns_bind_iff_left fun _ => returns_pure _]
            simp [returns_positive_iff, items, simple]
          next noMapping =>
            refine iff_of_true (returns_pure _) ⟨simple, fun first member => ?_⟩
            have skipped : ¬first.isMapping = true := by
              obtain ⟨rest, items⟩ := List.head?_eq_some_iff.mp member
              cases first with
              | mapping entries => exact fun _ => noMapping entries rest items
              | _ => exact nofun
            rw [get_eq_null skipped, get_eq_null skipped]
            exact ⟨rfl, rfl⟩
    · refine iff_of_false ?_ fun readable => simple readable.type
      rw [returns_bind_iff]
      rintro ⟨found, same, -⟩
      exact simple (returns_nameIn_iff.mp ⟨found, same⟩)
  · refine iff_of_true ?_ ⟨?_, ?_, ?_⟩
    · simp [isMapping]
    · rw [get_eq_null isMapping]
      rfl
    all_goals simp [meterNumbers?, get_eq_null isMapping, Datum.text?, Datum.items]

/-- Voices are read exactly if no element of one of them stops the reader. What is no list is no
voice. -/
theorem returns_voices_iff {voices : List Datum} :
    Returns ((voices.filterMap elements?).mapM voice) ↔
      ∀ voice ∈ voices, ∀ element ∈ voice.items, ReadableElement element := by
  simp only [returns_mapM_iff, returns_voice_iff]
  constructor
  · intro each voice member
    cases voice with
    | list elements => exact each elements (List.mem_filterMap.mpr ⟨_, member, rfl⟩)
    | _ => exact nofun
  · intro each elements member
    obtain ⟨voice, inside, isList⟩ := List.mem_filterMap.mp member
    cases voice with
    | list =>
        cases isList
        exact each _ inside
    | _ => cases isList

/-- `ReadableStaff` tells of the staves that are read. -/
theorem returns_staff_iff {value : Datum} : Returns (staff value) ↔ ReadableStaff value := by
  have parts : Returns (staff value) ↔ _ :=
    returns_bind_iff_and fun _ => returns_bind_iff_and fun _ => returns_bind_iff_left fun _ =>
      returns_pure _
  simp only [parts, returns_voices_iff, returns_keySignature_iff, returns_meter_iff]
  exact ⟨fun ⟨elements, key, meter⟩ => ⟨key, meter, elements⟩,
    fun ⟨key, meter, elements⟩ => ⟨elements, key, meter⟩⟩

/-- A line is read if all of its staves are. -/
theorem returns_line?_iff {value : Datum} :
    Returns (line? value) ↔ ∀ staff ∈ (value.get "staff").items, ReadableStaff staff := by
  unfold line?
  split
  next text => simp [text]
  next =>
    rw [returns_bind_iff_left fun _ => returns_pure _, returns_mapM_iff]
    simp only [returns_staff_iff]

/-- The characters of a slug are not blank. -/
theorem isBlank_of_isWordChar {c : Char} (word : slug.isWordChar c = true) :
    Text.isBlank c = false := by
  simp only [slug.isWordChar, Bool.or_eq_true, Bool.and_eq_true, decide_eq_true_eq] at word
  have visible : 48 ≤ c.toNat ∧ c.toNat ≤ 122 := by
    rcases word with ⟨least, most⟩ | ⟨least, most⟩
    · exact ⟨Nat.le_trans (by decide) least, most⟩
    · exact ⟨least, Nat.le_trans most (by decide)⟩
  simp [Text.isBlank, Text.isWhiteSpace]
  omega

/-- A title always has a name to offer. -/
theorem shows_slug (title : String) : Shows (slug title) := by
  simp only [slug]
  split
  next => exact ⟨'t', by decide, by decide⟩
  next some =>
    generalize within : List.filter _ _ = words at some ⊢
    cases words with
    | nil => exact absurd rfl some
    | cons word rest =>
    have member : word ∈ word :: rest := List.mem_cons_self
    rw [← within] at member
    obtain ⟨c, first, isWord⟩ := (Option.any_eq_true _ _).mp (List.mem_filter.mp member).2
    refine ⟨c, ?_, isBlank_of_isWordChar isWord⟩
    have inside : c ∈ word := List.mem_of_mem_head? first
    cases rest <;> simp [List.intercalate, inside]

/-- The name that is chosen for a tune vanishes only if the document gives a blank one. -/
theorem shows_chosen_iff {value : Datum} {own : String}
    (spelled : (value.orElse (.text "")).display? = some own) (title : String) :
    Shows (if own = "" then slug title else own) ↔
      ∀ name, value = .text name → name = "" ∨ Shows name := by
  by_cases truthy : value.isTruthy = true
  · rw [Datum.orElse, if_pos truthy] at spelled
    rw [if_neg (Datum.display_ne_empty truthy spelled)]
    cases shape : value.text? with
    | none =>
        refine iff_of_true (Datum.shows_display shape spelled) ?_
        rintro name rfl
        cases shape
    | some name =>
        cases value with
        | text =>
            obtain rfl := Option.some.inj spelled
            simp_all [Datum.isTruthy]
        | _ => cases shape
  · rw [Datum.orElse, if_neg truthy] at spelled
    obtain rfl := Option.some.inj spelled
    refine iff_of_true (shows_slug title) ?_
    rintro name rfl
    exact Or.inl (by simpa [Datum.isTruthy] using truthy)

/-- A name that shows is accepted, without the blanks around it. -/
theorem tuneName_of_shows {name : String} (shows : Shows name) :
    Schema.tuneName (.text name) = .accepted (Text.strip name) :=
  if_neg (Text.strip_ne_empty_iff.mpr shows)

/-- A blank name is refused. -/
theorem tuneName_of_blank {name : String} (blank : ¬Shows name) :
    Schema.tuneName (.text name) = .fault .emptyTuneName (.text name) :=
  if_pos (not_not.mp (Text.strip_ne_empty_iff.not.mpr blank))

/-- A name that shows something is stripped. -/
theorem checkedName_of_shows {name : String} (shows : Shows name) :
    checkedName (.text name) = .ok (Text.strip name) := by
  rw [checkedName, tuneName_of_shows shows]
  rfl

/-- A text is a name exactly if it shows. -/
theorem returns_checkedName_iff {name : String} :
    Returns (checkedName (.text name)) ↔ Shows name := by
  by_cases shows : Shows name
  · exact iff_of_true ⟨_, checkedName_of_shows shows⟩ shows
  · refine iff_of_false ?_ shows
    rw [checkedName, tuneName_of_blank shows]
    exact nofun

/-- Without a name from outside the chosen name is a text. -/
theorem chosenName_null (document : Datum) (title : String) :
    chosenName document .null title =
      (fun own => .text (if own = "" then slug title else own)) <$>
        spelled ((document.get "name").orElse (.text "")) := by
  show spelled ((document.get "name").orElse (.text "")) >>= _ = _
  cases spelled ((document.get "name").orElse (.text "")) <;> rfl

/-- A tune gets a name exactly if the document gives none or one that shows. -/
theorem returns_named_iff (document : Datum) (title : String) (finish : String → Tune) :
    Returns (chosenName document .null title >>= fun chosen =>
      checkedName chosen >>= fun name => pure (finish name)) ↔
      (document.get "name").isSayable = true ∧
        ∀ name, document.get "name" = .text name → name = "" ∨ Shows name := by
  rw [chosenName_null, Datum.isSayable_iff ""]
  unfold spelled
  cases own : ((document.get "name").orElse (.text "")).display? with
  | none => exact iff_of_false nofun fun ⟨sayable, _⟩ => nomatch sayable
  | some own' =>
      rw [← shows_chosen_iff own title, ← returns_checkedName_iff]
      exact (returns_bind_iff_left fun _ => returns_pure _).trans (and_iff_right rfl).symm

end Reading

/-- What is no mapping is no tune. -/
theorem Tune.read_of_not_mapping {document : Datum} (name : Datum)
    (noMapping : document.isMapping = false) : Tune.read document name = .error .notMapping := by
  rw [Tune.read, if_pos (by simp [noMapping])]
  rfl

/-- The name with which a tune is imported changes nothing but its name. -/
theorem Tune.exists_read_unnamed {document name : Datum} {tune : Tune}
    (read : Tune.read document name = .ok tune)
    (sayable : (document.get "name").isSayable = true)
    (own : ∀ said, document.get "name" = .text said → said = "" ∨ Shows said) :
    ∃ name, Tune.read document .null = .ok { tune with name } := by
  unfold Tune.read at read ⊢
  split at read
  · cases read
  next mapping =>
    simp only [bind_eq_ok_iff] at read
    obtain ⟨title, titleRead, instrument, instrumentRead, lines, linesRead, schema, schemaRead,
      given, -, stored, -, same⟩ := read
    cases same
    obtain ⟨_, named⟩ := (Reading.returns_named_iff document title
      ({ schema, name := ·, title, instrument, lines := lines.filterMap id })).mpr ⟨sayable, own⟩
    simp only [bind_eq_ok_iff] at named
    obtain ⟨chosen, chooses, name, checks, -⟩ := named
    refine ⟨name, ?_⟩
    simp only [if_neg mapping, titleRead, instrumentRead, linesRead, schemaRead, chooses, checks,
      bind, Except.bind]
    rfl

/-- The reader takes the mappings in which no value stops it, and nothing else. -/
theorem Tune.read_returns_iff (document : Datum) :
    ((∃ tune, Tune.read document .null = .ok tune) ↔ Reading.Readable document) ∧
      ∀ name, document.isMapping = false → Tune.read document name = .error .notMapping := by
  refine ⟨?_, fun name => read_of_not_mapping name⟩
  cases isMapping : document.isMapping with
  | false =>
      rw [read_of_not_mapping _ isMapping]
      exact iff_of_false nofun fun readable => absurd readable.mapping (by simp [isMapping])
  | true =>
      show Returns (Tune.read document .null) ↔ _
      rw [Tune.read, if_neg (by simp [isMapping])]
      refine (returns_bind_iff_and fun title => returns_bind_iff_and fun instrument =>
        returns_bind_iff_and fun lines => returns_bind_iff_and fun schema =>
          Reading.returns_named_iff document title _).trans ?_
      simp only [returns_map_iff, Reading.returns_spelled_orElse_iff, returns_mapM_iff,
        Reading.returns_line?_iff]
      exact ⟨fun ⟨title, instrument, staves, schema, name, visible⟩ =>
          ⟨isMapping, title, instrument, schema, staves, name, visible⟩,
        fun ⟨_, title, instrument, schema, staves, name, visible⟩ =>
          ⟨title, instrument, staves, schema, name, visible⟩⟩

/-- A list as the kind of a bar stops the reader, although the document is a mapping. -/
theorem Tune.unread_bar_of_list : ∃ document : Datum, document.isMapping = true ∧
    Tune.read document .null = .error (.notName "list") :=
  ⟨.mapping [("lines", .list [.mapping [("staff", .list [.mapping [("voices", .list [.list
    [.mapping [("el_type", .text "bar"), ("type", .list [])]]])]])]])], rfl, rfl⟩

end TuneGraph
