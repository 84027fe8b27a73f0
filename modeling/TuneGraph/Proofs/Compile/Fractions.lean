import TuneGraph.Proofs.Compile.Transcript
import TuneGraph.Proofs.Score.Length
import TuneGraph.Proofs.Score.Parts
import TuneGraph.Proofs.Score.RoundTrip

/-! # The fractions of a graph

A divide is in a header, where it holds the beat of the meter, or in a note, where it holds the
length. A meter has positive numbers, the length of a note is a positive fraction whatever the
duration is, and a tune that was read has positive tuplet factors only. So every divide of its graph
holds two positive integers, and those of a note outside tuplets are in lowest terms and within the
bound of the settings (`Tune.fractions_wellDefined`).
-/

namespace TuneGraph

open TuneGraph.Graph StaffAssembly

/-- Whether a length is a positive fraction and, outside tuplets, one in lowest terms with a
denominator of at most `bound`. -/
structure NoteLength.WellDefined (length : NoteLength) (triplet : Option Int) (bound : Int) :
    Prop where
  numerator_pos : 0 < length.numerator
  denominator_pos : 0 < length.denominator
  plain : triplet = none →
    length.denominator ≤ bound ∧ Int.gcd length.numerator length.denominator = 1

/-- The length of an encoded note. -/
def EncodedNote.length (encoded : EncodedNote) : NoteLength :=
  ⟨encoded.numerator, encoded.denominator⟩

section Encoding

variable {bound meterDenominator : Int} {triplet : Option Int}

/-- A length is a quarter or the positive fraction nearest to the duration. -/
theorem fractionOf_cases (duration : Option Rat) (bound : Int) :
    fractionOf duration bound = mkRat 1 4 ∨ ∃ value, 1 ≤ bound ∧
      fractionOf duration bound = approximate value bound.toNat ∧
      0 < (approximate value bound.toNat).num := by
  cases duration with
  | none => exact Or.inl rfl
  | some value =>
      by_cases bounded : bound < 1
      · left
        unfold fractionOf
        simp only [if_pos bounded]
        rfl
      · by_cases positive : (approximate value bound.toNat).num ≤ 0
        · left
          unfold fractionOf
          simp only [if_neg bounded, if_pos positive]
        · right
          unfold fractionOf
          simp only [if_neg bounded, if_neg positive]
          exact ⟨value, Int.not_lt.mp bounded, rfl, Int.not_le.mp positive⟩

/-- A length is encoded with a positive numerator. -/
theorem fractionOf_num_pos (duration : Option Rat) (bound : Int) :
    0 < (fractionOf duration bound).num := by
  rcases fractionOf_cases duration bound with quarter | ⟨value, -, same, positive⟩
  · rw [quarter]
    decide
  · rwa [same]

/-- A length is encoded with a denominator within the bound. -/
theorem fractionOf_den_le (duration : Option Rat) (bounded : 4 ≤ bound) :
    ((fractionOf duration bound).den : Int) ≤ bound := by
  rcases fractionOf_cases duration bound with quarter | ⟨value, -, same, -⟩
  · rw [quarter]
    exact bounded
  · have small : (approximate value bound.toNat).den ≤ bound.toNat :=
      den_approximate_le (by omega)
    rw [same]
    omega

/-- An encoded length is well defined, in a tuplet and outside one. -/
theorem encodeLength_wellDefined (duration : Option Rat) (meter : 0 < meterDenominator)
    (tupled : ∀ factor, triplet = some factor → 0 < factor) (bounded : 4 ≤ bound) :
    (encodeLength duration meterDenominator triplet bound).WellDefined triplet bound := by
  refine ⟨fractionOf_num_pos duration bound, ?_, ?_⟩
  · cases triplet with
    | none => exact Int.natCast_pos.mpr (fractionOf duration bound).den_pos
    | some factor =>
        have positive := tupled factor rfl
        unfold encodeLength
        dsimp only
        rw [if_neg (Int.ne_of_gt positive)]
        exact Int.mul_pos meter positive
  · rintro rfl
    exact ⟨fractionOf_den_le duration bounded, (fractionOf duration bound).reduced⟩

end Encoding

/-- The notes of a voice, each with the tuplet that is open where it stands. -/
def Voice.tupled (voice : Voice) : List (Note × Option Int) :=
  voice.notes.mapIdx fun index note =>
    (note, note.activeTriplet (openTuplet (voice.notes.take index)))

/-- The notes of a part, voice by voice. -/
def tupledNotes (part : List Staff) : List (Note × Option Int) :=
  (voicesOf part).flatMap Voice.tupled

section Tuplets

variable {notes : List Note} {note : Note} {before : Option Int} {voice : Voice}

/-- A voice is written note by note, each with its tuplet. -/
theorem Voice.written_eq_map (key : KeySignature) (meterDenominator bound : Int) (voice : Voice) :
    voice.written key meterDenominator bound =
      voice.tupled.map fun place =>
        place.1.encode (some key) meterDenominator place.2 bound := by
  refine List.ext_getElem (by simp [written, tupled]) fun index _ _ => ?_
  simp [written, tupled]

/-- The tuplet of a note is positive if those are that may start it. -/
theorem Note.activeTriplet_pos
    (starts : ∀ factor, note.startTriplet = some factor → 0 < factor)
    (opened : ∀ factor, before = some factor → 0 < factor) :
    ∀ factor, note.activeTriplet before = some factor → 0 < factor := by
  intro factor active
  unfold activeTriplet at active
  split at active
  next own begun =>
    split at active
    · exact opened factor active
    · obtain rfl := Option.some.inj active
      exact starts own begun
  next => exact opened factor active

/-- The tuplet that is open behind notes is positive if those are that the notes start. -/
theorem openTuplet_pos
    (starts : ∀ note ∈ notes, ∀ factor, note.startTriplet = some factor → 0 < factor) :
    ∀ factor, openTuplet notes = some factor → 0 < factor := by
  refine List.foldlRecOn (motive := fun opened => ∀ factor, opened = some factor → 0 < factor)
    notes _ nofun fun before opened note member => ?_
  split
  · exact nofun
  · exact Note.activeTriplet_pos (starts note member) opened

/-- If all factors of a voice are positive, so are those of the tuplets that its notes are in. -/
theorem Voice.tupled_pos
    (starts : ∀ note ∈ voice.notes, ∀ factor, note.startTriplet = some factor → 0 < factor) :
    ∀ place ∈ voice.tupled, ∀ factor, place.2 = some factor → 0 < factor := by
  intro place member
  obtain ⟨index, inside, rfl⟩ := List.mem_mapIdx.mp member
  refine Note.activeTriplet_pos (starts _ (List.getElem_mem inside)) (openTuplet_pos ?_)
  exact fun note first => starts note (List.mem_of_mem_take first)

/-- Under positive factors all notes of a voice have lengths that make sense. -/
theorem Voice.wellDefined_of_tupled {meterDenominator bound : Int}
    (starts : ∀ note ∈ voice.notes, ∀ factor, note.startTriplet = some factor → 0 < factor)
    (meter : 0 < meterDenominator) (bounded : 4 ≤ bound) (key : KeySignature) :
    ∀ place ∈ voice.tupled,
      (place.1.encode (some key) meterDenominator place.2 bound).length.WellDefined place.2 bound :=
  fun place member => encodeLength_wellDefined place.1.duration.toRat? meter
    (Voice.tupled_pos starts place member) bounded

end Tuplets

namespace Graph

/-- Whether a divide holds the numbers of a length. -/
structure HoldsFraction (nodes : List Node) (divide : Node) (length : NoteLength) : Prop where
  numerator : readNumber? nodes divide 1 = some length.numerator
  denominator : readNumber? nodes divide 2 = some length.denominator

/-- Whether the note-root of an id leads to a divide that holds the numbers of a length. -/
def HoldsLength (nodes : List Node) (id : Int) (length : NoteLength) : Prop :=
  ∃ root divide, findNode? nodes id = some root ∧ root.kind = .noteRoot ∧
    follow? nodes root 1 .divide = some divide ∧ HoldsFraction nodes divide length

/-- Whether every divide among some nodes of a graph holds a positive fraction. -/
def DividesPositive (graph nodes : List Node) : Prop :=
  ∀ node ∈ nodes, node.kind = .divide → ∃ length, HoldsFraction graph node length ∧
    0 < length.numerator ∧ 0 < length.denominator

/-- Whether the note-roots of a staff lead to lengths that make sense for the notes of a part, in
order and each under its tuplet. -/
def HoldsLengths (graph : List Node) (bound : Int) (part : List Staff) (staff : List Node) : Prop :=
  List.Forall₂ (fun note id => ∃ length, HoldsLength graph id length ∧
    length.WellDefined note.2 bound) (tupledNotes part) (idsOf .noteRoot staff)

end Graph

namespace Cluster

variable {b previous : Int} {encoded : EncodedNote} {next : Option Int}
  {notes : List EncodedNote} {graph : List Node}

/-- The only divide of a note leads to its numerator and its denominator. -/
theorem links_of_divide : ∀ node ∈ nodes b previous encoded next, node.kind = .divide →
    node.link 1 = some (b + 2) ∧ node.link 2 = some (b + 3) := by
  simp only [nodes, List.forall_mem_cons, reduceCtorEq, false_imp_iff, true_and, List.not_mem_nil,
    implies_true, and_true, forall_const]
  exact ⟨rfl, rfl⟩

/-- The nodes of a note hold its length as a fraction. -/
theorem holdsFraction_nodes
    (found : ∀ node ∈ nodes b previous encoded next, findNode? graph node.id = some node) :
    (∀ node ∈ nodes b previous encoded next, node.kind = .divide →
      HoldsFraction graph node encoded.length) ∧ HoldsLength graph b encoded.length := by
  simp only [nodes, List.forall_mem_cons] at found
  obtain ⟨root, divide, numerator, denominator, -⟩ := found
  have holds : ∀ node : Node, node.link 1 = some (b + 2) → node.link 2 = some (b + 3) →
      HoldsFraction graph node encoded.length := fun _ first second =>
    ⟨readNumber?_eq first numerator rfl rfl, readNumber?_eq second denominator rfl rfl⟩
  refine ⟨fun node member isDivide => ?_, _, _, root, rfl, follow?_eq rfl divide, holds _ rfl rfl⟩
  obtain ⟨first, second⟩ := links_of_divide node member isDivide
  exact holds node first second

/-- The fractions of a row of notes are positive if the lengths are. -/
theorem dividesPositive_row
    (found : ∀ node ∈ row b notes, findNode? graph node.id = some node)
    (positive : ∀ encoded ∈ notes, 0 < encoded.numerator ∧ 0 < encoded.denominator) :
    DividesPositive graph (row b notes) := by
  induction notes generalizing b with
  | nil => exact nofun
  | cons encoded rest ih =>
      obtain ⟨here, later⟩ := List.forall_mem_cons.mp positive
      rw [row_cons, List.forall_mem_append] at found
      rw [row_cons]
      refine List.forall_mem_append.mpr ⟨fun node member divide => ?_, ih found.2 later⟩
      exact ⟨encoded.length, (holdsFraction_nodes found.1).1 node member divide, here⟩

/-- The notes of a row hold their lengths, in order. -/
theorem holdsLength_row
    (found : ∀ node ∈ row b notes, findNode? graph node.id = some node) :
    List.Forall₂ (fun encoded id => HoldsLength graph id encoded.length) notes
      ((placed b notes).map Prod.fst) := by
  induction notes generalizing b with
  | nil => exact .nil
  | cons encoded rest ih =>
      rw [row_cons, List.forall_mem_append] at found
      exact .cons (holdsFraction_nodes found.1).2 (ih found.2)

end Cluster

namespace PlacedLine

variable {graph : List Node} {line : PlacedLine} (unique : (graph.map Node.id).Nodup)
  (inside : line.nodes ⊆ stillNodes graph)

include unique inside

/-- The notes of a line are found in the graph. -/
theorem findNode?_row : ∀ node ∈ Cluster.row (line.call + Wrapper.width) line.notes,
    findNode? graph node.id = some node := by
  intro node member
  have present := inside (List.mem_append_right _ member)
  exact findNode?_of_mem_stillNodes unique present (Cluster.isFixed_of_mem_row node member)

/-- The fractions of a line are positive if the lengths of its notes are. -/
theorem dividesPositive_nodes
    (positive : ∀ encoded ∈ line.notes, 0 < encoded.numerator ∧ 0 < encoded.denominator) :
    DividesPositive graph line.nodes := by
  refine List.forall_mem_append.mpr ⟨?_,
    Cluster.dividesPositive_row (findNode?_row unique inside) positive⟩
  simp only [Wrapper.nodes, List.forall_mem_cons, reduceCtorEq, false_imp_iff, true_and,
    List.not_mem_nil, implies_true]

/-- The notes of a line hold their lengths, in order. -/
theorem holdsLength_nodes :
    List.Forall₂ (fun encoded id => HoldsLength graph id encoded.length) line.notes
      (line.heard.map Prod.fst) :=
  Cluster.holdsLength_row (findNode?_row unique inside)

omit unique inside

section Copies

variable {settings : Settings} {index : Nat} {meterDenominator : Int}
  {place : (KeySignature × Voice) × Nat}
  (copy : Copies settings index meterDenominator place line)
  (starts : ∀ note ∈ place.1.2.notes, ∀ factor, note.startTriplet = some factor → 0 < factor)
  (meter : 0 < meterDenominator) (bounded : 4 ≤ settings.maxDenominator)

include copy starts meter bounded

/-- The lengths of a line that is copied as it was compiled are positive. -/
theorem positive_of_copies : ∀ encoded ∈ line.notes,
    0 < encoded.numerator ∧ 0 < encoded.denominator := by
  intro encoded member
  rw [copy.2, Voice.written_eq_map] at member
  obtain ⟨note, inside, rfl⟩ := List.mem_map.mp member
  have defined := Voice.wellDefined_of_tupled starts meter bounded place.1.1 note inside
  exact ⟨defined.numerator_pos, defined.denominator_pos⟩

/-- The notes of a line have the lengths that the notes of its voice are encoded with. -/
theorem lengths_of_copies (unique : (graph.map Node.id).Nodup)
    (inside : line.nodes ⊆ stillNodes graph) :
    List.Forall₂ (fun note id => ∃ length, HoldsLength graph id length ∧
      length.WellDefined note.2 settings.maxDenominator) place.1.2.tupled
      (line.heard.map Prod.fst) := by
  have holds := holdsLength_nodes unique inside
  rw [copy.2, Voice.written_eq_map, List.forall₂_map_left_iff] at holds
  have defined := Voice.wellDefined_of_tupled starts meter bounded place.1.1
  exact ((List.forall₂_and_left _ _).mpr ⟨defined, holds⟩).imp fun note id both =>
    ⟨_, both.2, both.1⟩

end Copies

end PlacedLine

namespace Header

variable {b : Int} {title voiceName instrument : String} {meter : Meter} {key : KeySignature}
  {graph : List Node}

/-- The only divide of a header leads to the numbers of a beat. -/
theorem links_of_divide : ∀ node ∈ nodes b title voiceName meter key instrument,
    node.kind = .divide → node.link 1 = some (b + 8) ∧ node.link 2 = some (b + 9) := by
  simp only [nodes, List.forall_mem_cons, reduceCtorEq, false_imp_iff, true_and, List.not_mem_nil,
    implies_true, and_true, forall_const]
  exact ⟨rfl, rfl⟩

/-- The fraction of the meter is positive. -/
theorem dividesPositive_nodes (unique : (graph.map Node.id).Nodup)
    (inside : nodes b title voiceName meter key instrument ⊆ stillNodes graph) :
    DividesPositive graph (nodes b title voiceName meter key instrument) := by
  have found : ∀ node ∈ nodes b title voiceName meter key instrument,
      node.kind.isFixed = true → findNode? graph node.id = some node :=
    fun node member => findNode?_of_mem_stillNodes unique (inside member)
  intro node member isDivide
  obtain ⟨first, second⟩ := links_of_divide node member isDivide
  simp only [nodes, List.forall_mem_cons] at found
  obtain ⟨-, -, -, -, -, -, -, -, one, beat, -⟩ := found
  have holds : HoldsFraction graph node ⟨1, meter.denominator⟩ :=
    ⟨readNumber?_eq first (one rfl) rfl rfl, readNumber?_eq second (beat rfl) rfl rfl⟩
  exact ⟨_, holds, Int.one_pos, meter.denominator_pos⟩

end Header

namespace Compile

variable {settings : Settings} {title instrument : String} {index : Nat} {first : Staff}
  {rest : List Staff} {base : Int} {staff : StaffAssembly} {graph : List Node}

/-- The voices of a part are those with their keys. -/
theorem map_snd_keyedVoices (part : List Staff) :
    (keyedVoices part).map Prod.snd = voicesOf part := by
  rw [keyedVoices, List.map_flatMap, voicesOf]
  refine congrArg (part.flatMap ·) (funext fun staff => ?_)
  rw [List.map_map]
  exact List.map_id staff.voices

/-- The notes of a part with their tuplets are those of its voices. -/
theorem tupledNotes_eq (part : List Staff) :
    tupledNotes part = (keyedVoices part).zipIdx.flatMap fun place => place.1.2.tupled := by
  have unplaced : (keyedVoices part).zipIdx.map Prod.fst = keyedVoices part :=
    List.zipIdx_map_fst 0 _
  rw [tupledNotes, ← map_snd_keyedVoices, ← unplaced, List.flatMap_map, List.flatMap_map, unplaced]

/-- In a staff that is part of a graph, the divides hold positive fractions, and every note leads to
one that makes sense under its tuplet. -/
theorem fractions_of_staff (unique : (graph.map Node.id).Nodup) (inside : staff.nodes ⊆ graph)
    (result : Compile.staff settings title instrument index first rest base = .ok staff)
    (starts : ∀ voice ∈ voicesOf (first :: rest), ∀ note ∈ voice.notes, ∀ factor,
      note.startTriplet = some factor → 0 < factor)
    (bounded : 4 ≤ settings.maxDenominator) :
    DividesPositive graph staff.nodes ∧
      HoldsLengths graph settings.maxDenominator (first :: rest) staff.nodes := by
  obtain ⟨voiceName, lines, -, still, copies⟩ := exists_lines_of_staff result
  have present := stillNodes_subset inside
  have roots : idsOf .noteRoot staff.nodes =
      lines.flatMap fun line => line.heard.map Prod.fst :=
    PlacedLine.idsOf_eq_flatMap rfl still rfl PlacedLine.idsOf_noteRoot_nodes
  rw [still, List.append_subset] at present
  have line : ∀ line ∈ lines, line.nodes ⊆ stillNodes graph := fun line member node inside =>
    present.2 (List.mem_flatMap_of_mem member inside)
  have voice : ∀ place ∈ (keyedVoices (first :: rest)).zipIdx, ∀ note ∈ place.1.2.notes,
      ∀ factor, note.startTriplet = some factor → 0 < factor := by
    intro place member
    have keyed := List.fst_mem_of_mem_zipIdx member
    exact starts place.1.2 (map_snd_keyedVoices (first :: rest) ▸ List.mem_map_of_mem keyed)
  have meter := (partMeter (first :: rest)).denominator_pos
  have each := (List.forall₂_and_left _ _).mpr ⟨voice, copies⟩
  refine ⟨fun node member divide => ?_, ?_⟩
  · -- Divides are still nodes, so that each is in the header or in a line.
    have fixed : node.kind.isFixed = true := by rw [divide]; rfl
    have kept : node ∈ stillNodes staff.nodes :=
      List.mem_filterMap.mpr ⟨node, member, Node.still?_of_fixed fixed⟩
    rw [still] at kept
    rcases List.mem_append.mp kept with header | placed
    · exact Header.dividesPositive_nodes unique present.1 node header divide
    · obtain ⟨placed, isLine, own⟩ := List.mem_flatMap.mp placed
      obtain ⟨place, positive, copy⟩ := exists_of_mem_right each isLine
      exact PlacedLine.dividesPositive_nodes unique (line placed isLine)
        (PlacedLine.positive_of_copies copy positive meter bounded) node own divide
  · rw [HoldsLengths, tupledNotes_eq, roots]
    have both := ((List.forall₂_and_left _ _).mpr ⟨line, each.flip⟩).flip
    refine List.rel_flatMap both fun place placed ⟨inside, positive, copy⟩ => ?_
    exact PlacedLine.lengths_of_copies copy positive meter bounded unique inside

end Compile

namespace Tune

variable {tune : Tune} {settings : Settings} {startId : Int} {compilation : Compilation}
  {document name : Datum}

/-- A tune that was read has positive tuplet factors only. -/
theorem startTriplet_pos (storable : tune.Storable) : ∀ part ∈ tune.parts,
    ∀ voice ∈ voicesOf part, ∀ note ∈ voice.notes, ∀ factor,
      note.startTriplet = some factor → 0 < factor := by
  intro part isPart voice isVoice note isNote
  obtain ⟨staff, isStaff, inside⟩ := List.mem_flatMap.mp isVoice
  have isOwn := (tune.parts_perm.subset (List.mem_flatten_of_mem isPart isStaff))
  obtain ⟨line, isLine, holds⟩ := List.mem_flatMap.mp isOwn
  obtain ⟨event, isEvent, same⟩ := List.mem_filterMap.mp isNote
  have stored := ((storable.lines line isLine).staves staff holds).events voice inside event isEvent
  cases event with
  | note own =>
      obtain rfl := Option.some.inj same
      exact Note.Storable.tupled stored
  | bar type => cases same

/-- In the graph of a tune that was read every divide holds two positive integers. The notes of a
staff lead to divides, in their order, and outside tuplets these hold fractions in lowest terms with
denominators of at most 64. -/
theorem fractions_wellDefined (read : Tune.read document name = .ok tune)
    (compiled : tune.compile .standard startId = .ok compilation) :
    DividesPositive compilation.graph.nodes compilation.graph.nodes ∧
    List.Forall₂ (HoldsLengths compilation.graph.nodes 64) tune.parts
      compilation.graph.staves := by
  obtain ⟨staves, same, nodes, each⟩ := exists_staves_within compiled
  obtain ⟨-, -, forest, -⟩ := exists_assembled compiled
  have starts : ∀ place ∈ tune.parts.zipIdx, ∀ voice ∈ voicesOf place.1, ∀ note ∈ voice.notes,
      ∀ factor, note.startTriplet = some factor → 0 < factor := fun place member =>
    startTriplet_pos (storable_of_read read) place.1 (List.fst_mem_of_mem_zipIdx member)
  have fractions : List.Forall₂ (fun place staff =>
      DividesPositive compilation.graph.nodes staff.nodes ∧
        HoldsLengths compilation.graph.nodes 64 place.1 staff.nodes)
      tune.parts.zipIdx staves := by
    refine ((List.forall₂_and_left _ _).mpr ⟨starts, each⟩).imp ?_
    rintro ⟨part, index⟩ staff ⟨positive, inside, first, rest, base, rfl, result⟩
    exact Compile.fractions_of_staff forest.unique inside result positive (by decide)
  constructor
  · intro node member
    rw [nodes] at member
    obtain ⟨staff, isStaff, own⟩ := List.mem_flatMap.mp member
    obtain ⟨place, divides, -⟩ := exists_of_mem_right fractions isStaff
    exact divides node own
  · rw [same, List.forall₂_map_right_iff, ← List.zipIdx_map_fst 0 tune.parts,
      List.forall₂_map_left_iff]
    exact fractions.imp fun _ _ => And.right

/-- A tuplet in a tune of two parts, the first of which has no voice. -/
theorem fractions_wellDefined_sparseTune : Tune.read sparseDocument .null = .ok sparseTune ∧
    ∃ compilation, sparseTune.compile .standard 0 = .ok compilation ∧
      DividesPositive compilation.graph.nodes compilation.graph.nodes ∧
      List.Forall₂ (HoldsLengths compilation.graph.nodes 64) sparseTune.parts
        compilation.graph.staves := by
  have read : Tune.read sparseDocument .null = .ok sparseTune :=
    eq_ok_of_toOption (by decide +kernel)
  obtain ⟨compilation, compiled⟩ := (sparseTune.compile_returns standard_labelsFill
    (Int.le_refl 0)).1 (by decide +kernel)
  exact ⟨read, compilation, compiled, fractions_wellDefined read compiled⟩

end Tune

end TuneGraph
