import TuneGraph.Proofs.Compile.Assemble
import TuneGraph.Proofs.Compile.Staves
import TuneGraph.Proofs.Graph.Sung

/-! # The graph of a tune, read back

What is sung in the lines of a staff are the notes of its part, line by line and voice by voice,
with the values that they have in the key of their own staff, in the meter of the first line, and
under the tuplet that is open where they stand. The calls have the names of these lines, and the
header says what the tune says (`Tune.sung_as_written`).
-/

namespace TuneGraph

open TuneGraph.Graph StaffAssembly

/-- The tuplet that is open after some notes. -/
def openTuplet (notes : List Note) : Option Int :=
  notes.foldl (fun before note => if note.endTriplet then none else note.activeTriplet before) none

/-- The values of the notes of a voice, each under the tuplet that is open where it stands. -/
def Voice.written (key : KeySignature) (meterDenominator bound : Int) (voice : Voice) :
    List EncodedNote :=
  voice.notes.mapIdx fun index note => note.encode (some key) meterDenominator
    (note.activeTriplet (openTuplet (voice.notes.take index))) bound

/-- The voices of a part, line by line, each with the key of its own staff. -/
def keyedVoices (part : List Staff) : List (KeySignature × Voice) :=
  part.flatMap fun staff => staff.voices.map (staff.key, ·)

/-- The meter of a part: that of its first line, or the common one. -/
def partMeter (part : List Staff) : Meter := (part.head?.bind Staff.meter).getD .common

/-- A staff of a graph that says what a part of a tune says: its header what the tune and the first
line say, and the line of every label, in order, the notes of a voice, so that every note is sung
once. Every line-call has the name of the line in its place. -/
structure SungAsWritten (settings : Settings) (tune : Tune) (graph : List Node)
    (place : List Staff × Nat) (staff : List Node) : Prop where
  header : ∃ first voiceName start node, place.1.head? = some first ∧
    Compile.label settings.voiceLabel [("staff", place.2 + 1)] = .ok voiceName ∧
    idsOf .start staff = [start] ∧ findNode? graph start = some node ∧
    readHeader? graph node = some
      { title := tune.title
        voiceName
        beats := (partMeter place.1).numerator
        beat := (1, (partMeter place.1).denominator)
        tonic := first.key.tonic
        modeName := first.key.modeName
        instrument := tune.instrument }
  lines : ∃ heard : List (List (Int × EncodedNote)),
    heard.map (List.map Prod.snd) = ((keyedVoices place.1).map fun voice =>
      voice.2.written voice.1 (partMeter place.1).denominator settings.maxDenominator) ∧
    heard.flatten.map Prod.fst = idsOf .noteRoot staff ∧
    List.Forall₂ (fun label notes => ∃ name,
      Compile.label settings.lineLabel [("staff", place.2 + 1), ("line", label.2 + 1)] =
        .ok name ∧ ∀ other, LineSung graph label.1 name other ↔ other = notes)
      (idsOf .lineLabel staff).zipIdx heard
  calls : List.Forall₂ (fun call label => ∃ node name notes, findNode? graph call = some node ∧
    node.value = .text name ∧ LineSung graph label name notes)
    (idsOf .lineCall staff) (idsOf .lineLabel staff)

/-- The ids of a kind among the nodes of items come item by item. -/
theorem Graph.idsOf_flatMap {α : Type} (kind : NodeKind) (nodes : α → List Node)
    (items : List α) : idsOf kind (items.flatMap nodes) =
      items.flatMap fun item => idsOf kind (nodes item) := by
  unfold idsOf
  rw [List.filter_flatMap, List.map_flatMap]

section Values

variable {key : KeySignature} {meterDenominator bound : Int}

/-- A note is encoded with the tuplet that is active behind the notes before it. -/
theorem Voice.encode_eq_mapIdx (voice : Voice) (triplet : Option Int) :
    Voice.encode key meterDenominator bound triplet voice =
      voice.notes.mapIdx fun index note => note.encode (some key) meterDenominator
        (note.activeTriplet ((voice.notes.take index).foldl (fun before note =>
          if note.endTriplet then none else note.activeTriplet before) triplet)) bound := by
  induction voice generalizing triplet with
  | nil => rfl
  | cons event rest ih =>
      cases event with
      | bar type => exact ih triplet
      | note note =>
          have notes : Voice.notes (.note note :: rest) = note :: Voice.notes rest := rfl
          rw [Voice.encode, ih, notes, List.mapIdx_cons]
          simp only [List.take_zero, List.foldl_nil, List.take_succ_cons, List.foldl_cons]

/-- A voice is encoded as it is written. -/
theorem Voice.encode_eq_written (voice : Voice) :
    Voice.encode key meterDenominator bound none voice =
      voice.written key meterDenominator bound :=
  voice.encode_eq_mapIdx none

example : (Voice.written {} 4 64 [.note { startTriplet := some 3 }, .bar .plain,
    .note { endTriplet := true }, .note {}]).map (·.denominator) = [12, 12, 4] := by
  decide +kernel

end Values

namespace Cluster

variable {b previous : Int} {encoded : EncodedNote} {next : Option Int}
  {notes : List EncodedNote} {graph : List Node} {hidden : Node}

/-- The notes of a row with the ids of their roots. -/
def placed (b : Int) : List EncodedNote → List (Int × EncodedNote)
  | [] => []
  | encoded :: rest => (b, encoded) :: placed (b + width) rest

/-- Placed notes are the notes. -/
theorem map_snd_placed : (placed b notes).map Prod.snd = notes := by
  induction notes generalizing b with
  | nil => rfl
  | cons encoded rest ih => rw [placed, List.map_cons, ih]

/-- The roots of a row of notes are where the notes are placed. -/
theorem idsOf_noteRoot_row : idsOf .noteRoot (row b notes) = (placed b notes).map Prod.fst := by
  induction notes generalizing b with
  | nil => rfl
  | cons encoded rest ih =>
      rw [row_cons, idsOf_append, ih]
      rfl

/-- Nothing in a row of notes is changed later. -/
theorem stillNodes_row : stillNodes (row b notes) = row b notes := by
  induction notes generalizing b with
  | nil => rfl
  | cons encoded rest ih =>
      rw [row_cons, stillNodes_append, ih]
      rfl

/-- The nodes of a row of notes are fixed. -/
theorem isFixed_of_mem_row : ∀ node ∈ row b notes, node.kind.isFixed = true := by
  induction notes generalizing b with
  | nil => exact nofun
  | cons encoded rest ih =>
      rw [row_cons]
      refine List.forall_mem_append.mpr ⟨?_, ih⟩
      simp only [nodes, List.forall_mem_cons]
      exact ⟨rfl, rfl, rfl, rfl, rfl, rfl, rfl, rfl, rfl, List.forall_mem_nil _⟩

/-- A note is read off its nine nodes. -/
theorem readNote?_nodes
    (found : ∀ node ∈ nodes b previous encoded next, findNode? graph node.id = some node) :
    ∃ root hidden, findNode? graph b = some root ∧ root.kind = .noteRoot ∧ root.id = b ∧
      readNote? graph root = some encoded ∧
      follow? graph root Slot.noteNext .hidden = some hidden ∧
      hidden.link Slot.hiddenNext = next := by
  simp only [nodes, List.forall_mem_cons] at found
  obtain ⟨root, divide, numerator, denominator, space, pitch, name, octave, hidden, -⟩ := found
  refine ⟨_, _, root, rfl, rfl, ?_, follow?_eq rfl hidden, ?_⟩
  · refine bind_eq_some_of (follow?_eq rfl divide) ?_
    refine bind_eq_some_of (follow?_eq rfl space) ?_
    refine bind_eq_some_of (follow?_eq rfl pitch) ?_
    refine bind_eq_some_of (readText?_eq rfl name rfl) ?_
    refine bind_eq_some_of (readNumber?_eq rfl octave rfl rfl) ?_
    refine bind_eq_some_of (readNumber?_eq rfl numerator rfl rfl) ?_
    exact bind_eq_some_of (readNumber?_eq rfl denominator rfl rfl) rfl
  · cases next <;> rfl

/-- After a node that leads to a row, the notes of the row are sung. -/
theorem sung_row (found : ∀ node ∈ row b notes, findNode? graph node.id = some node)
    (leads : hidden.link Slot.hiddenNext = if notes.isEmpty then none else some b) :
    Sung graph hidden (placed b notes) := by
  -- The hidden node of a note leads to the rest of the row as the trailer leads to all of it.
  induction notes generalizing b hidden with
  | nil => exact .silence leads
  | cons encoded rest ih =>
      rw [row_cons, List.forall_mem_append] at found
      obtain ⟨root, next, here, kind, rfl, values, follows, after⟩ := readNote?_nodes found.1
      exact .note (kind ▸ follow?_eq leads here) values follows (ih found.2 after)

end Cluster

/-- A line of a staff: the id of its call, its name, and its notes. -/
structure PlacedLine where
  call : Int
  name : String
  notes : List EncodedNote

namespace PlacedLine

variable {graph : List Node} {line : PlacedLine}

/-- The nodes of a line without links of its call. -/
def nodes (line : PlacedLine) : List Node := lineChain line.call line.name none line.notes

/-- The notes of a line with the ids of their roots. -/
def heard (line : PlacedLine) : List (Int × EncodedNote) :=
  Cluster.placed (line.call + Wrapper.width) line.notes

/-- What is not changed later of the chain of a line are the nodes of the line. -/
theorem stillNodes_lineChain (line : PlacedLine) (previousCall : Option Int) :
    stillNodes (lineChain line.call line.name previousCall line.notes) = line.nodes := by
  rw [nodes, lineChain, stillNodes_append, Cluster.stillNodes_row]
  rfl

/-- A line has one call. -/
theorem idsOf_lineCall_nodes (line : PlacedLine) : idsOf .lineCall line.nodes = [line.call] :=
  idsOf_lineCall_lineChain line.call line.name none line.notes

/-- A line has one label, behind its call. -/
theorem idsOf_lineLabel_nodes (line : PlacedLine) :
    idsOf .lineLabel line.nodes = [line.call + 1] := by
  rw [nodes, lineChain, idsOf_append, Cluster.idsOf_row _ fun _ _ _ _ => rfl]
  rfl

/-- The roots of a line are where its notes are heard. -/
theorem idsOf_noteRoot_nodes (line : PlacedLine) :
    idsOf .noteRoot line.nodes = line.heard.map Prod.fst := by
  rw [nodes, lineChain, idsOf_append, Cluster.idsOf_noteRoot_row]
  rfl

variable (unique : (graph.map Node.id).Nodup) (inside : line.nodes ⊆ stillNodes graph)

include unique inside

/-- In a line its notes are sung. -/
theorem lineSung : LineSung graph (line.call + 1) line.name line.heard := by
  have found : ∀ node ∈ line.nodes, node.kind.isFixed = true →
      findNode? graph node.id = some node :=
    fun node member => findNode?_of_mem_stillNodes unique (inside member)
  rw [nodes, lineChain, List.forall_mem_append] at found
  obtain ⟨wrapper, row⟩ := found
  simp only [Wrapper.nodes, List.forall_mem_cons] at wrapper
  obtain ⟨-, label, text, trailer, -⟩ := wrapper
  refine ⟨_, _, label rfl, rfl, readText?_eq rfl (text rfl) rfl, follow?_eq rfl (trailer rfl),
    Cluster.sung_row (fun node member => row node member ?_) rfl⟩
  exact Cluster.isFixed_of_mem_row node member

/-- The call of a line has its name. -/
theorem value_call : ∃ node, findNode? graph line.call = some node ∧
    node.value = .text line.name := by
  have first : ({ id := line.call, kind := .lineCall, links := [none, none]
                  payload := valuePayload (.text line.name) } : Node) ∈ line.nodes :=
    List.mem_cons_self
  obtain ⟨node, found, -, value, -⟩ := exists_of_mem_stillNodes unique (inside first)
  exact ⟨node, found, value⟩

omit unique inside

/-- Whether a line has the name of a line of a staff and the notes of a voice. -/
def Copies (settings : Settings) (index : Nat) (meterDenominator : Int)
    (place : (KeySignature × Voice) × Nat) (line : PlacedLine) : Prop :=
  Compile.label settings.lineLabel [("staff", index + 1), ("line", place.2 + 1)] = .ok line.name ∧
    line.notes = place.1.2.written place.1.1 meterDenominator settings.maxDenominator

variable {nodes header : List Node} {lines : List PlacedLine} {kind : NodeKind}
  {ids : PlacedLine → List Int}

/-- The ids of a kind that headers lack are those in the lines. -/
theorem idsOf_eq_flatMap (kept : kind.isStill = true)
    (still : stillNodes nodes = header ++ lines.flatMap PlacedLine.nodes)
    (headless : idsOf kind header = [])
    (each : ∀ line : PlacedLine, idsOf kind line.nodes = ids line) :
    idsOf kind nodes = lines.flatMap ids := by
  rw [← idsOf_stillNodes kept, still, idsOf_append, headless, idsOf_flatMap, List.nil_append]
  exact congrArg (lines.flatMap ·) (funext each)

/-- Every line has one call and, next to it, one label. -/
theorem idsOf_call_and_label (still : stillNodes nodes = header ++ lines.flatMap PlacedLine.nodes)
    (headless : idsOf .lineCall header = []) (unlabelled : idsOf .lineLabel header = []) :
    idsOf .lineCall nodes = lines.map PlacedLine.call ∧
      idsOf .lineLabel nodes = lines.map (·.call + 1) :=
  ⟨(idsOf_eq_flatMap rfl still headless idsOf_lineCall_nodes).trans List.map_eq_flatMap.symm,
    (idsOf_eq_flatMap rfl still unlabelled idsOf_lineLabel_nodes).trans List.map_eq_flatMap.symm⟩

section Copies

variable {settings : Settings} {index : Nat} {meterDenominator : Int}
  {voices : List (KeySignature × Voice)}
  (copies : List.Forall₂ (Copies settings index meterDenominator) voices.zipIdx lines)

include copies

/-- Lines that copy voices are heard as the voices are written. -/
theorem map_heard_of_copies : (lines.map heard).map (List.map Prod.snd) = voices.map fun voice =>
    voice.2.written voice.1 meterDenominator settings.maxDenominator := by
  have values : lines.map (List.map Prod.snd ∘ heard) = voices.zipIdx.map fun place =>
      place.1.2.written place.1.1 meterDenominator settings.maxDenominator := by
    rw [← List.forall₂_eq_eq_eq, List.forall₂_map_left_iff, List.forall₂_map_right_iff]
    exact copies.flip.imp fun line place copy => Cluster.map_snd_placed.trans copy.2
  have unplaced := List.zipIdx_map_fst 0 voices
  rw [List.map_map, values, ← unplaced, List.map_map, unplaced]
  rfl

/-- In every line of a staff the notes of its voice are sung, and nothing else. -/
theorem forall₂_lineSung (unique : (graph.map Node.id).Nodup)
    (inside : ∀ line ∈ lines, line.nodes ⊆ stillNodes graph) :
    List.Forall₂ (fun label notes => ∃ name,
      Compile.label settings.lineLabel [("staff", index + 1), ("line", label.2 + 1)] = .ok name ∧
        ∀ other, LineSung graph label.1 name other ↔ other = notes)
      (lines.map (·.call + 1)).zipIdx (lines.map heard) := by
  rw [List.forall₂_iff_get]
  obtain ⟨length, each⟩ := List.forall₂_iff_get.mp copies
  rw [List.length_zipIdx] at length
  refine ⟨by simp, fun number below _ => ?_⟩
  rw [List.length_zipIdx, List.length_map] at below
  have copy := each number (by rw [List.length_zipIdx]; omega) below
  have sung := lineSung unique (inside _ (List.getElem_mem below))
  simp only [List.get_eq_getElem, List.getElem_zipIdx, List.getElem_map, Nat.zero_add] at copy ⊢
  refine ⟨lines[number].name, copy.1, fun other => ⟨fun also => also.unique sung, ?_⟩⟩
  intro same
  rw [same]
  exact sung

end Copies

end PlacedLine

namespace StaffAssembly.Lined

variable {base times : Int} {voices : List Voice} {staff : StaffAssembly}

/-- A new line adds its nodes to the still nodes. -/
theorem stillNodes_appendLine (lined : Lined base times voices staff) (name : String)
    (notes : List EncodedNote) (markers : List RepeatMarker) :
    stillNodes (staff.appendLine name notes markers).nodes =
      stillNodes staff.nodes ++ PlacedLine.nodes ⟨staff.next, name, notes⟩ := by
  have sound : Sound base times (staff.withLine name notes markers) := lined.sound_withLine
  have whole : stillNodes (staff.withLine name notes markers).nodes =
      stillNodes staff.nodes ++ PlacedLine.nodes ⟨staff.next, name, notes⟩ := by
    rw [← PlacedLine.stillNodes_lineChain _ staff.lastCall]
    exact stillNodes_append
  rw [lined.sound.appendLine_eq]
  cases known : staff.lastCall with
  | none => exact whole
  | some last =>
      have member : last ∈ staff.calls := List.mem_of_getLast? known
      have called := sound.kindOf_call (List.mem_append_left _ member)
      exact (stillNodes_relink sound.nodup called (Or.inl rfl) _).trans whole

end StaffAssembly.Lined

namespace Compile

variable {settings : Settings} {index : Nat} {meter : Meter} {line : Staff} {base times : Int}
  {voices : List Voice} {staff next : StaffAssembly}

/-- The voices of a line add their lines to the still nodes. -/
theorem exists_lines_of_addVoices (lined : Lined base times voices staff)
    (added : addVoices settings index meter line staff = .ok next) :
    next.lineCount = staff.lineCount + line.voices.length ∧ ∃ lines : List PlacedLine,
      stillNodes next.nodes = stillNodes staff.nodes ++ lines.flatMap PlacedLine.nodes ∧
      List.Forall₂ (PlacedLine.Copies settings index meter.denominator)
        ((line.voices.map (line.key, ·)).zipIdx staff.lineCount) lines := by
  unfold addVoices at added
  generalize line.voices = more at added ⊢
  induction more generalizing voices staff with
  | nil =>
      cases added
      exact ⟨rfl, [], (List.append_nil _).symm, .nil⟩
  | cons voice more ih =>
      rw [List.foldlM_cons, bind_eq_ok_iff] at added
      obtain ⟨middle, step, later⟩ := added
      obtain ⟨name, named, same⟩ := bind_eq_ok_iff.mp step
      cases same
      have counted : (staff.appendVoice name line.key meter.denominator settings.maxDenominator
          voice).lineCount = staff.lineCount + 1 := by
        rw [lineCount, appendVoice, lined.calls_appendLine, List.length_append]
        rfl
      obtain ⟨count, lines, still, copies⟩ := ih (lined.appendVoice line.key meter.denominator
        settings.maxDenominator voice) later
      rw [counted] at count copies
      refine ⟨by rw [count, List.length_cons]; omega, ⟨staff.next, name, _⟩ :: lines, ?_,
        .cons ⟨named, Voice.encode_eq_written voice⟩ copies⟩
      rw [still, appendVoice, lined.stillNodes_appendLine, List.flatMap_cons, List.append_assoc]

/-- Every voice that is added to a staff is copied by a line. -/
theorem exists_lines_of_foldlM {part : List Staff} (lined : Lined base times voices staff)
    (added : part.foldlM (fun staff line => addVoices settings index meter line staff) staff =
      .ok next) : ∃ lines : List PlacedLine,
      stillNodes next.nodes = stillNodes staff.nodes ++ lines.flatMap PlacedLine.nodes ∧
      List.Forall₂ (PlacedLine.Copies settings index meter.denominator)
        ((keyedVoices part).zipIdx staff.lineCount) lines := by
  induction part generalizing voices staff with
  | nil =>
      cases added
      exact ⟨[], (List.append_nil _).symm, .nil⟩
  | cons line part ih =>
      rw [List.foldlM_cons, bind_eq_ok_iff] at added
      obtain ⟨middle, step, later⟩ := added
      obtain ⟨count, lines, still, copies⟩ := exists_lines_of_addVoices lined step
      obtain ⟨others, more, copies'⟩ := ih (addVoices_lined lined step) later
      refine ⟨lines ++ others, ?_, ?_⟩
      · rw [more, still, List.flatMap_append, List.append_assoc]
      · rw [keyedVoices, List.flatMap_cons, List.zipIdx_append, List.length_map, ← count]
        exact List.rel_append copies copies'

/-- A staff is a header and a line for every voice, apart from repeats and links of calls. -/
theorem exists_lines_of_staff {title instrument : String} {first : Staff} {rest : List Staff}
    (result : Compile.staff settings title instrument index first rest base = .ok staff) :
    ∃ voiceName, ∃ lines : List PlacedLine,
      label settings.voiceLabel [("staff", index + 1)] = .ok voiceName ∧
      stillNodes staff.nodes =
        Header.nodes base title voiceName (partMeter (first :: rest)) first.key instrument ++
          lines.flatMap PlacedLine.nodes ∧
      List.Forall₂ (PlacedLine.Copies settings index (partMeter (first :: rest)).denominator)
        (keyedVoices (first :: rest)).zipIdx lines := by
  obtain ⟨voiceName, begun, assembled, named, began, added, lined, resolved⟩ := exists_lined result
  -- Resolving the markers adds no still node, so that the lines can be read before it.
  have forward := (staff_assembled result).2.1
  obtain ⟨final, done, -, -, still, -⟩ := lined.resolveRepeats
    fun marker member backward => forward ⟨marker, member, backward⟩
  obtain rfl := Except.ok.inj (done.symm.trans resolved)
  have header : Lined base settings.repeatCount [] begun := begin_lined began
  obtain ⟨lines, more, copies⟩ := exists_lines_of_foldlM header added
  refine ⟨voiceName, lines, named, ?_, ?_⟩
  · rw [still, more, nodes_begin began]
    rfl
  · rw [lineCount, header.lines] at copies
    exact copies

end Compile

namespace Header

variable {b : Int} {title voiceName instrument : String} {meter : Meter} {key : KeySignature}
  {graph : List Node}

/-- A header is read off its nodes, whatever line the instrument-setter holds. -/
theorem readHeader?_nodes (unique : (graph.map Node.id).Nodup)
    (inside : nodes b title voiceName meter key instrument ⊆ stillNodes graph) :
    ∃ start, findNode? graph b = some start ∧ readHeader? graph start = some
      { title, voiceName, beats := meter.numerator, beat := (1, meter.denominator)
        tonic := key.tonic, modeName := key.modeName, instrument } := by
  have found : ∀ node ∈ nodes b title voiceName meter key instrument,
      node.kind.isFixed = true → findNode? graph node.id = some node :=
    fun node member => findNode?_of_mem_stillNodes unique (inside member)
  have setters : ∀ node ∈ nodes b title voiceName meter key instrument,
      node.kind = .instrumentSetter → ∃ setter, findNode? graph node.id = some setter ∧
        setter.kind = .instrumentSetter ∧ setter.link 1 = node.link 1 := by
    intro node member isSetter
    obtain ⟨setter, present, kind, -, same⟩ := exists_of_mem_stillNodes unique (inside member)
    rw [isSetter] at kind
    rw [Node.still?_of_setter kind] at same
    obtain rfl := Option.some.inj same
    exact ⟨setter, present, kind, (setter.link_setLink_of_ne (by decide) none).symm⟩
  simp only [nodes, List.forall_mem_cons] at found setters
  obtain ⟨start, print, text, setter, voice, meters, beats, divide, one, beat, space, keys, tonic,
    mode, -, timbre, -⟩ := found
  obtain ⟨-, -, -, -, -, -, -, -, -, -, -, -, -, -, instruments, -⟩ := setters
  -- In the graph the instrument-setter may hold a line; its name stands in another slot.
  obtain ⟨holder, held, kind, link⟩ := instruments trivial
  refine ⟨_, start rfl, ?_⟩
  refine bind_eq_some_of (follow?_eq rfl (print rfl)) ?_
  refine bind_eq_some_of (readText?_eq rfl (text rfl) rfl) ?_
  refine bind_eq_some_of (follow?_eq rfl (setter rfl)) ?_
  refine bind_eq_some_of (readText?_eq rfl (voice rfl) rfl) ?_
  refine bind_eq_some_of (follow?_eq rfl (meters rfl)) ?_
  refine bind_eq_some_of (readNumber?_eq rfl (beats rfl) rfl rfl) ?_
  refine bind_eq_some_of (follow?_eq rfl (divide rfl)) ?_
  refine bind_eq_some_of (readNumber?_eq rfl (one rfl) rfl rfl) ?_
  refine bind_eq_some_of (readNumber?_eq rfl (beat rfl) rfl rfl) ?_
  refine bind_eq_some_of (follow?_eq rfl (space rfl)) ?_
  refine bind_eq_some_of (follow?_eq rfl (keys rfl)) ?_
  refine bind_eq_some_of (readText?_eq rfl (tonic rfl) rfl) ?_
  refine bind_eq_some_of (readText?_eq rfl (mode rfl) rfl) ?_
  refine bind_eq_some_of (kind ▸ follow?_eq rfl held) ?_
  exact bind_eq_some_of (readText?_eq link (timbre rfl) rfl) rfl

end Header

namespace Compile

variable {settings : Settings} {tune : Tune} {index : Nat} {first : Staff} {rest : List Staff}
  {base : Int} {staff : StaffAssembly} {graph : List Node}

/-- A staff that is part of a graph says there what its part of the tune says. -/
theorem sungAsWritten (unique : (graph.map Node.id).Nodup) (inside : staff.nodes ⊆ graph)
    (result : Compile.staff settings tune.title tune.instrument index first rest base =
      .ok staff) : SungAsWritten settings tune graph (first :: rest, index) staff.nodes := by
  obtain ⟨voiceName, lines, named, still, copies⟩ := exists_lines_of_staff result
  have starts := (staff_assembled result).2.2.spliced.sound.starts
  have present := stillNodes_subset inside
  rw [still, List.append_subset] at present
  obtain ⟨start, found, header⟩ := Header.readHeader?_nodes unique present.1
  have line : ∀ line ∈ lines, line.nodes ⊆ stillNodes graph := fun line member node inside =>
    present.2 (List.mem_flatMap_of_mem member inside)
  obtain ⟨calls, labels⟩ := PlacedLine.idsOf_call_and_label still rfl rfl
  have roots : idsOf .noteRoot staff.nodes = (lines.map PlacedLine.heard).flatten.map Prod.fst := by
    rw [← List.flatMap_def, List.map_flatMap]
    exact PlacedLine.idsOf_eq_flatMap rfl still rfl PlacedLine.idsOf_noteRoot_nodes
  refine ⟨⟨first, voiceName, base, start, rfl, named, starts, found, header⟩,
    ⟨lines.map PlacedLine.heard, PlacedLine.map_heard_of_copies copies, roots.symm, ?_⟩, ?_⟩
  · rw [labels]
    exact PlacedLine.forall₂_lineSung copies unique line
  · rw [calls, labels, List.forall₂_map_left_iff, List.forall₂_map_right_iff, List.forall₂_same]
    intro placed member
    obtain ⟨node, known, value⟩ := PlacedLine.value_call unique (line placed member)
    exact ⟨node, placed.name, placed.heard, known, value,
      PlacedLine.lineSung unique (line placed member)⟩

end Compile

namespace Tune

variable {tune : Tune} {settings : Settings} {startId : Int} {compilation : Compilation}

/-- The staves of a compilation say what the parts of the tune say. -/
theorem sung_as_written (compiled : tune.compile settings startId = .ok compilation) :
    List.Forall₂ (SungAsWritten settings tune compilation.graph.nodes) tune.parts.zipIdx
      compilation.graph.staves := by
  obtain ⟨staves, -, -, nodes, each⟩ := exists_assemblies compiled
  obtain ⟨-, -, forest, -⟩ := exists_assembled compiled
  have sound : ∀ staff ∈ staves, ∃ base times, Sound base times staff := by
    intro staff member
    obtain ⟨place, first, rest, base, -, result⟩ := exists_of_mem_right each member
    exact ⟨_, _, (Compile.staff_assembled result).2.2.spliced.sound⟩
  obtain ⟨same, known⟩ := staves_eq_map_nodes nodes sound
  rw [same, List.forall₂_map_right_iff]
  refine ((List.forall₂_and_left _ _).mpr ⟨known, each.flip⟩).flip.imp ?_
  rintro ⟨part, index⟩ staff ⟨inside, first, rest, base, rfl, result⟩
  exact Compile.sungAsWritten forest.unique inside result

/-- Two voices under one repeat: a tuplet that is ended and one that is left open. -/
def tupletVoices : List Voice :=
  [[.bar .repeatOpen, .note { startTriplet := some 3 }, .bar .plain, .note { endTriplet := true },
    .note {}], [.note { startTriplet := some 0 }, .note { startTriplet := some 5 },
    .bar .repeatClose]]

theorem sung_tupletVoices : ∃ compilation,
    (ofVoices tupletVoices).compile .standard 0 = .ok compilation ∧
    List.Forall₂ (SungAsWritten .standard (ofVoices tupletVoices) compilation.graph.nodes)
      [([{ voices := tupletVoices }], 0)] compilation.graph.staves := by
  obtain ⟨compilation, compiled⟩ := (compile_returns (ofVoices tupletVoices) standard_labelsFill
    (Int.le_refl 0)).1 (by decide)
  exact ⟨compilation, compiled, sung_as_written compiled⟩

end Tune

end TuneGraph
