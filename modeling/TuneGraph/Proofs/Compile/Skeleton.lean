import TuneGraph.Proofs.Compile.Emission
import TuneGraph.Proofs.Compile.Parallel

/-! # The skeleton of a tune

The skeleton of a tune is how its lines, staves and voices are nested, and where in each voice the
notes and the bars of each kind stand. Two tunes of one skeleton are compiled in step, whatever
their notes, keys and meters and the settings are: unless a label cannot be filled in, they meet
the same obstacle, or their staves are parallel without any distance, with payloads that have the
same names. So the outlines of their graphs are equal (`Tune.compile_skeleton`).
-/

namespace TuneGraph

open TuneGraph.Graph StaffAssembly

/-- The kind of a bar; nothing for a note. -/
def Event.bar? : Event → Option BarType
  | .note _ => none
  | .bar type => some type

/-- Where the notes and the bars of each kind stand in a voice. -/
def Voice.skeleton (voice : Voice) : List (Option BarType) := voice.map Event.bar?

/-- The skeletons of the voices of a staff. -/
def Staff.skeleton (staff : Staff) : List (List (Option BarType)) :=
  staff.voices.map Voice.skeleton

/-- The skeletons of the staves of a tune, line by line. -/
def Tune.skeleton (tune : Tune) : List (List (List (List (Option BarType)))) :=
  tune.lines.map fun line => line.staves.map Staff.skeleton

/-- All of a node but the values of its payload. -/
structure NodeOutline where
  id : Int
  kind : NodeKind
  links : List (Option Int)
  position : Int × Int
  /-- The names in the payload, in order. -/
  names : Option (List String)
  deriving DecidableEq, Repr

/-- The outline of a node. -/
def Node.outline (node : Node) : NodeOutline :=
  { id := node.id
    kind := node.kind
    links := node.links
    position := node.position
    names := node.payload.map (·.map Prod.fst) }

/-- Whether two payloads have the same names in the same order. -/
def SameNames (payload other : Option (List (String × Datum))) : Prop :=
  other.map (·.map Prod.fst) = payload.map (·.map Prod.fst)

/-- Whether two compilations differ in the names of their graphs and in the values of payloads at
most. -/
structure Compilation.SameOutline (compilation other : Compilation) : Prop where
  nodes : other.graph.nodes.map Node.outline = compilation.graph.nodes.map Node.outline
  staves : other.staves = compilation.staves
  lines : other.lines = compilation.lines
  notes : other.notes = compilation.notes
  repeats : other.repeats = compilation.repeats
  dropped : other.dropped = compilation.dropped
  nextId : other.nextId = compilation.nextId

/-- Lists agree item by item under two functions if their images are equal. -/
theorem forall₂_iff_map_eq {α β γ : Type} {f : α → γ} {g : β → γ} {as : List α} {bs : List β} :
    List.Forall₂ (fun a b => g b = f a) as bs ↔ bs.map g = as.map f := by
  rw [eq_comm (a := bs.map g), ← List.forall₂_eq_eq_eq, List.forall₂_map_left_iff,
    List.forall₂_map_right_iff]
  exact ⟨fun same => same.imp fun _ _ => Eq.symm, fun same => same.imp fun _ _ => Eq.symm⟩

section Outline

variable {node other : Node} {nodes others : List Node}

/-- Nodes are parallel up to their texts if their outlines are the same. -/
theorem Node.parallel_iff_outline :
    node.Parallel 0 SameNames other ↔ other.outline = node.outline := by
  have unmoved : node.links.map (Option.map (· + 0)) = node.links := by
    refine (List.map_congr_left fun link _ => ?_).trans (List.map_id _)
    cases link with
    | none => rfl
    | some target => exact congrArg some (Int.add_zero target)
  simp only [outline, NodeOutline.mk.injEq]
  constructor
  · rintro ⟨id, kind, links, position, names⟩
    rw [unmoved] at links
    rw [Int.add_zero] at id
    exact ⟨id, kind, links, position, names⟩
  · rintro ⟨id, kind, links, position, names⟩
    exact ⟨by rw [Int.add_zero, id], kind, by rw [unmoved, links], position, names⟩

/-- Nodes are parallel without any distance if they have the same outlines. -/
theorem forall₂_parallel_iff_outline :
    List.Forall₂ (Node.Parallel 0 SameNames) nodes others ↔
      others.map Node.outline = nodes.map Node.outline := by
  rw [← forall₂_iff_map_eq]
  constructor
  · exact fun parallel => parallel.imp fun _ _ => Node.parallel_iff_outline.mp
  · exact fun same => same.imp fun _ _ => Node.parallel_iff_outline.mpr

/-- No payload of a header changes its outline. -/
theorem Header.outline_nodes (b : Int) (title otherTitle voiceName otherName : String)
    (meter otherMeter : Meter) (key otherKey : KeySignature) (instrument otherInstrument : String) :
    (Header.nodes b otherTitle otherName otherMeter otherKey otherInstrument).map Node.outline =
      (Header.nodes b title voiceName meter key instrument).map Node.outline := by
  simp only [Header.nodes, List.map_cons, List.map_nil, Node.outline, valuePayload,
    Option.map_some]

/-- Rows of as many notes have the same outline. -/
theorem Cluster.outline_row (b : Int) {notes otherNotes : List EncodedNote}
    (same : otherNotes.length = notes.length) :
    (row b otherNotes).map Node.outline = (row b notes).map Node.outline := by
  induction notes generalizing b otherNotes with
  | nil => rw [List.eq_nil_of_length_eq_zero same]
  | cons encoded rest ih =>
      obtain ⟨otherEncoded, otherRest, rfl⟩ := List.exists_cons_of_length_eq_add_one same
      have length : otherRest.length = rest.length := Nat.succ.inj same
      have isEmpty : otherRest.isEmpty = rest.isEmpty := by
        rw [Bool.eq_iff_iff, List.isEmpty_iff_length_eq_zero, List.isEmpty_iff_length_eq_zero,
          length]
      rw [row_cons, row_cons, List.map_append, List.map_append, ih _ length, isEmpty]
      rfl

/-- The outline of a line depends on the number of its notes. -/
theorem outline_lineChain (b : Int) (label otherLabel : String) (previousCall : Option Int)
    {notes otherNotes : List EncodedNote} (same : otherNotes.length = notes.length) :
    (lineChain b otherLabel previousCall otherNotes).map Node.outline =
      (lineChain b label previousCall notes).map Node.outline := by
  have isEmpty : otherNotes.isEmpty = notes.isEmpty := by
    rw [Bool.eq_iff_iff, List.isEmpty_iff_length_eq_zero, List.isEmpty_iff_length_eq_zero, same]
  rw [lineChain, lineChain, List.map_append, List.map_append, Cluster.outline_row _ same, isEmpty]
  rfl

end Outline

section Skeleton

variable {voice other : Voice}

/-- Voices of one skeleton both have notes, or none. -/
theorem any_isNote_of_skeleton (same : other.skeleton = voice.skeleton) :
    other.any Event.isNote = voice.any Event.isNote := by
  have told : ∀ voice : Voice, voice.any Event.isNote = voice.skeleton.any Option.isNone := by
    intro voice
    rw [Voice.skeleton, List.any_map]
    congr 1
    funext event
    cases event <;> rfl
  rw [told, told, same]

/-- Voices of one skeleton have as many notes. -/
theorem length_notes_of_skeleton (same : other.skeleton = voice.skeleton) :
    other.notes.length = voice.notes.length := by
  have told : ∀ voice : Voice, voice.notes.length = voice.skeleton.countP Option.isNone := by
    intro voice
    induction voice with
    | nil => rfl
    | cons event rest ih =>
        cases event with
        | note note => exact (congrArg (· + 1) ih).trans (List.countP_cons_of_pos rfl).symm
        | bar type => exact ih.trans (List.countP_cons_of_neg Bool.false_ne_true).symm
  rw [told, told, same]

/-- Repeats begin and end alike in voices of one skeleton. -/
theorem RepeatMarker.afterVoice_of_skeleton (line : Int) (markers : List RepeatMarker)
    (same : other.skeleton = voice.skeleton) :
    afterVoice line markers other = afterVoice line markers voice := by
  induction voice generalizing markers other with
  | nil => rw [List.map_eq_nil_iff.mp same]
  | cons event rest ih =>
      obtain ⟨otherEvent, otherRest, rfl, here, later⟩ := List.map_eq_cons_iff.mp same
      cases event with
      | note note =>
          cases otherEvent with
          | note => exact (ih markers later :)
          | bar => cases here
      | bar type =>
          cases otherEvent with
          | note => cases here
          | bar otherType =>
              obtain rfl := Option.some.inj here
              simp only [afterVoice, any_isNote_of_skeleton later]
              exact ih _ later

end Skeleton

/-- Whether a computation fails because a label cannot be filled in. -/
def FailsOnLabel {α : Type} (value : Except CompileError α) : Prop :=
  ∃ error, value = .error (.label error)

/-- Whether two computations return related results or meet the same obstacle, unless one of them
fails on a label. -/
def Agree {α β : Type} (results : α → β → Prop) (value : Except CompileError α)
    (other : Except CompileError β) : Prop :=
  ¬FailsOnLabel value → ¬FailsOnLabel other → Together 0 results value other

/-- A compilation that has failed on a label has failed on it whatever follows. -/
theorem FailsOnLabel.bind {α γ : Type} {value : Except CompileError α}
    (fails : FailsOnLabel value) (next : α → Except CompileError γ) :
    FailsOnLabel (value >>= next) := by
  obtain ⟨error, rfl⟩ := fails
  exact ⟨error, rfl⟩

namespace Agree

variable {α β γ δ : Type} {results : α → β → Prop} {value : Except CompileError α}
  {other : Except CompileError β}

/-- Computations that go together agree. -/
theorem of_together (together : Together 0 results value other) : Agree results value other :=
  fun _ _ => together

/-- Two pairs of computations agree if their first ones do, and their second ones behind results
that belong together. -/
theorem bind {after : γ → δ → Prop} {next : α → Except CompileError γ}
    {otherNext : β → Except CompileError δ} (here : Agree results value other)
    (later : ∀ input otherInput, results input otherInput →
      Agree after (next input) (otherNext otherInput)) :
    Agree after (value >>= next) (other >>= otherNext) := by
  intro labelled otherLabelled
  have first := here (fun fails => labelled (fails.bind next))
    fun fails => otherLabelled (fails.bind otherNext)
  cases first with
  | ok related => exact later _ _ related labelled otherLabelled
  | error related => exact .error related

/-- Folds over items that are alike agree if every step keeps the states related. -/
theorem foldlM {alike : γ → δ → Prop} {step : α → γ → Except CompileError α}
    {otherStep : β → δ → Except CompileError β} {items : List γ} {others : List δ}
    (each : ∀ state otherState, results state otherState → ∀ item otherItem,
      alike item otherItem → Agree results (step state item) (otherStep otherState otherItem))
    (same : List.Forall₂ alike items others) {start : α} {otherStart : β}
    (starts : results start otherStart) :
    Agree results (items.foldlM step start) (others.foldlM otherStep otherStart) := by
  induction same generalizing start otherStart with
  | nil => exact of_together (.ok starts)
  | cons here _ ih =>
      rw [List.foldlM_cons, List.foldlM_cons]
      exact (each start otherStart starts _ _ here).bind fun _ _ related => ih related

end Agree

/-- A label is filled in, with whatever text, or it is what is failed on. -/
theorem Compile.label_agree (template other : String) (values : List (String × Nat)) :
    Agree (fun _ _ => True) (label template values) (label other values) := by
  intro filled otherFilled
  cases here : label template values with
  | error fault =>
      obtain ⟨error, rfl⟩ := label_error here
      exact (filled ⟨error, here⟩).elim
  | ok name =>
      cases there : label other values with
      | error fault =>
          obtain ⟨error, rfl⟩ := label_error there
          exact (otherFilled ⟨error, there⟩).elim
      | ok otherName => exact .ok trivial

/-- A staff with the same outlines and the same books. -/
abbrev StaffAssembly.SameOutline : StaffAssembly → StaffAssembly → Prop :=
  StaffAssembly.Parallel 0 SameNames

/-- Staves begin with the same outline. -/
theorem StaffAssembly.begin_agree (base : Int) (title otherTitle voiceName otherName : String)
    (meter otherMeter : Meter) (key otherKey : KeySignature) (instrument otherInstrument : String) :
    Agree SameOutline (begin base title voiceName meter key instrument)
      (begin base otherTitle otherName otherMeter otherKey otherInstrument) := by
  refine .of_together ?_
  unfold begin
  split
  · exact .error rfl
  · exact .ok
      { nodes := forall₂_parallel_iff_outline.mpr (Header.outline_nodes ..)
        instrument := (Int.add_zero _).symm
        next := (Int.add_zero _).symm
        calls := rfl
        markers := rfl
        ranges := rfl
        dropped := rfl }

/-- Lines of voices of one skeleton continue staves of one outline. -/
theorem StaffAssembly.Parallel.appendVoice_of_skeleton {staff other : StaffAssembly}
    (parallel : staff.SameOutline other) (label otherLabel : String)
    (key otherKey : KeySignature) (meterDenominator otherDenominator bound otherBound : Int)
    {voice otherVoice : Voice} (same : otherVoice.skeleton = voice.skeleton) :
    (staff.appendVoice label key meterDenominator bound voice).SameOutline
      (other.appendVoice otherLabel otherKey otherDenominator otherBound otherVoice) := by
  have length : (Voice.encode otherKey otherDenominator otherBound none otherVoice).length =
      (Voice.encode key meterDenominator bound none voice).length := by
    rw [Voice.length_encode, Voice.length_encode, length_notes_of_skeleton same]
  have unmoved : staff.lastCall.map (· + (0 : Int)) = staff.lastCall := by
    cases staff.lastCall with
    | none => rfl
    | some last => exact congrArg some (Int.add_zero last)
  unfold StaffAssembly.appendVoice
  rw [parallel.lineCount, parallel.markers, RepeatMarker.afterVoice_of_skeleton _ _ same]
  refine parallel.appendLine _ (forall₂_parallel_iff_outline.mpr ?_)
  rw [chainOf, chainOf, parallel.next, parallel.lastCall, Int.add_zero, unmoved]
  exact outline_lineChain _ _ _ _ length

namespace Compile

variable {settings others : Settings}

/-- Lines of one skeleton are added with the same outline, if no label is in the way. -/
theorem addVoices_agree (settings others : Settings) (index : Nat) (meter otherMeter : Meter)
    {line otherLine : Staff} (same : otherLine.skeleton = line.skeleton)
    {staff other : StaffAssembly} (parallel : staff.SameOutline other) :
    Agree SameOutline (addVoices settings index meter line staff)
      (addVoices others index otherMeter otherLine other) := by
  unfold addVoices
  refine Agree.foldlM (fun state otherState states voice otherVoice alike => ?_)
    (forall₂_iff_map_eq.mpr same) parallel
  rw [states.lineCount]
  refine (label_agree _ _ _).bind fun name otherName _ => .of_together ?_
  exact .ok (states.appendVoice_of_skeleton name otherName _ _ _ _ _ _ alike)

/-- Parts of one skeleton become staves of one outline. -/
theorem staff_agree (settings others : Settings) (title otherTitle instrument otherInstrument :
    String) (index : Nat) (base : Int) {first otherFirst : Staff} {rest otherRest : List Staff}
    (same : (otherFirst :: otherRest).map Staff.skeleton = (first :: rest).map Staff.skeleton) :
    Agree SameOutline (Compile.staff settings title instrument index first rest base)
      (Compile.staff others otherTitle otherInstrument index otherFirst otherRest base) := by
  unfold Compile.staff
  refine (label_agree _ _ _).bind fun voiceName otherName _ => ?_
  refine (begin_agree base title otherTitle voiceName otherName _ _ first.key otherFirst.key
    instrument otherInstrument).bind fun begun otherBegun begins => ?_
  refine Agree.bind (Agree.foldlM (fun state otherState states line otherLine alike => ?_)
    (forall₂_iff_map_eq.mpr same) begins) fun lines otherLines parallel => .of_together ?_
  · exact addVoices_agree settings others index _ _ alike states
  · exact parallel.enterFirstLine.resolveRepeats rfl rfl

/-- Staves that are assembled one after another from one id agree. -/
theorem assemble_agree (settings others : Settings) (tune other : Tune) (index : Nat) (base : Int)
    {parts otherParts : List (List Staff)}
    (same : List.Forall₂ (fun part otherPart =>
      otherPart.map Staff.skeleton = part.map Staff.skeleton) parts otherParts) :
    Agree (List.Forall₂ SameOutline) (assemble settings tune index base parts)
      (assemble others other index base otherParts) := by
  induction same generalizing index base with
  | nil => exact .of_together (.ok .nil)
  | @cons part otherPart parts otherParts here _ ih =>
      cases part with
      | nil =>
          obtain rfl := List.map_eq_nil_iff.mp here
          exact ih index base
      | cons first rest =>
          obtain ⟨otherFirst, otherRest, rfl, -, -⟩ := List.map_eq_cons_iff.mp here
          refine (staff_agree settings others _ _ _ _ index base here).bind
            fun staff otherStaff parallel => ?_
          rw [parallel.next, Int.add_zero]
          exact (ih (index + 1) staff.next).bind fun staves otherStaves rest =>
            .of_together (.ok (.cons parallel rest))

/-- Staves of one outline add the same outline to compilations. -/
theorem addStaff_sameOutline {compilation other : Compilation} {staff otherStaff : StaffAssembly}
    (same : compilation.SameOutline other) (parallel : staff.SameOutline otherStaff) :
    (addStaff compilation staff).SameOutline (addStaff other otherStaff) where
  nodes := by
    simp only [addStaff, List.map_append, same.nodes,
      forall₂_parallel_iff_outline.mp parallel.nodes]
  staves := congrArg (· + 1) same.staves
  lines := by simp only [addStaff, same.lines, parallel.lineCount]
  notes := by simp only [addStaff, same.notes, parallel.noteCount]
  repeats := by simp only [addStaff, same.repeats, parallel.length_ranges]
  dropped := by simp only [addStaff, same.dropped, parallel.dropped]
  nextId := parallel.next.trans (Int.add_zero _)

/-- Lists of staves of one outline add the same outline to compilations. -/
theorem foldl_addStaff_sameOutline {compilation other : Compilation}
    (same : compilation.SameOutline other) {staves otherStaves : List StaffAssembly}
    (parallel : List.Forall₂ SameOutline staves otherStaves) :
    (staves.foldl addStaff compilation).SameOutline (otherStaves.foldl addStaff other) := by
  induction parallel generalizing compilation other with
  | nil => exact same
  | cons here _ ih => exact ih (addStaff_sameOutline same here)

/-- Where all labels can be filled in, no compilation fails on one. -/
theorem not_failsOnLabel {settings : Settings} (fill : LabelsFill settings) (tune : Tune)
    {startId : Int} (nonneg : 0 ≤ startId) : ¬FailsOnLabel (tune.compile settings startId) := by
  rintro ⟨error, failed⟩
  obtain ⟨returns, fails⟩ := tune.compile_returns fill nonneg
  by_cases forward : ∀ part ∈ tune.parts, ¬hasBackward part
  · obtain ⟨compilation, done⟩ := returns forward
    cases failed.symm.trans done
  · obtain ⟨part, member, backward⟩ : ∃ part ∈ tune.parts, hasBackward part := by
      simpa using forward
    obtain ⟨id, unknown⟩ := fails ⟨part, member, backward⟩
    cases failed.symm.trans unknown

end Compile

namespace Tune

variable {tune other : Tune} {settings others : Settings} {startId : Int}

/-- Tunes of one skeleton have parts of one skeleton. -/
theorem parts_of_skeleton (same : other.skeleton = tune.skeleton) :
    List.Forall₂ (fun part otherPart => otherPart.map Staff.skeleton = part.map Staff.skeleton)
      tune.parts other.parts := by
  have count : ∀ tune : Tune, tune.staffCount =
      tune.skeleton.foldl (fun most line => max most line.length) 0 := by
    intro tune
    simp only [skeleton, List.foldl_map, List.length_map]
    rfl
  have part : ∀ (tune : Tune) (index : Nat), (tune.part index).map Staff.skeleton =
      tune.skeleton.filterMap (·[index]?) := by
    intro tune index
    rw [skeleton, Tune.part, List.map_filterMap, List.filterMap_map]
    refine List.filterMap_congr fun line _ => ?_
    rw [Function.comp_apply, List.getElem?_map]
  rw [forall₂_iff_map_eq, parts, parts, List.map_map, List.map_map, count, count, same]
  refine List.map_congr_left fun index _ => ?_
  rw [Function.comp_apply, Function.comp_apply, part, part, same]

/-- Tunes of one skeleton are compiled in step: they have compilations of one outline or meet the
same obstacle, unless a label cannot be filled in. -/
theorem compile_agree (settings others : Settings) (startId : Int)
    (same : other.skeleton = tune.skeleton) :
    Agree Compilation.SameOutline (tune.compile settings startId)
      (other.compile others startId) := by
  intro labelled otherLabelled
  have together := Compile.assemble_agree settings others tune other 0 startId
    (parts_of_skeleton same)
    (fun ⟨error, failed⟩ => labelled ⟨error, by rw [compile_eq, assemblies, failed]; rfl⟩)
    fun ⟨error, failed⟩ => otherLabelled ⟨error, by rw [compile_eq, assemblies, failed]; rfl⟩
  rw [compile_eq, compile_eq, assemblies, assemblies]
  generalize Compile.assemble settings tune 0 startId tune.parts = here,
    Compile.assemble others other 0 startId other.parts = there at together ⊢
  cases together with
  | error related => exact .error related
  | ok parallel =>
      have empty : (Compilation.empty tune.name startId).SameOutline
          (.empty other.name startId) := ⟨rfl, rfl, rfl, rfl, rfl, rfl, rfl⟩
      exact .ok (Compile.foldl_addStaff_sameOutline empty parallel)

/-- Of two tunes of one skeleton, under whatever settings whose labels can be filled in, both are
compiled or neither is. The graphs then have the same nodes in the same order, save for the values
in payloads, the compilations have the same counts, drop the same repeats, and end at the same
id. -/
theorem compile_skeleton (same : other.skeleton = tune.skeleton)
    (labelled : ¬FailsOnLabel (tune.compile settings startId))
    (otherLabelled : ¬FailsOnLabel (other.compile others startId)) :
    (Returns (tune.compile settings startId) ↔ Returns (other.compile others startId)) ∧
    ∀ compilation otherCompilation, tune.compile settings startId = .ok compilation →
      other.compile others startId = .ok otherCompilation →
      compilation.SameOutline otherCompilation := by
  have together := compile_agree settings others startId same labelled otherLabelled
  refine ⟨together.returns_iff, fun compilation otherCompilation compiled otherCompiled => ?_⟩
  rw [compiled, otherCompiled] at together
  exact together.of_ok

/-- A tune with the skeleton of `crossingVoices`, but an empty chord, a length that is no number,
a tuplet of no factor and one that is left open. -/
def rough : Tune :=
  { name := "rough", title := "", instrument := "flute"
    lines := [{ staves := [{
      key := { root := "E", acc := "b", mode := "min" }
      meter := some { numerator := 6, denominator := 8 }
      voices := [
        [.bar .repeatOpen, .note { duration := .nan, startTriplet := some 0 }],
        [.bar .repeatOpen, .note { pitches := [{ position := -9, name := "x" }] },
          .bar .repeatClose],
        [.note { startTriplet := some (-3) }, .bar .repeatClose]] }] }] }

/-- Settings under which all staves and all lines have one name. -/
def nameless : Settings :=
  { repeatCount := 5, maxDenominator := 1, voiceLabel := "", lineLabel := "", checkGraph := false }

theorem compile_skeleton_rough : ∃ compilation other,
    rough.skeleton = (ofVoices crossingVoices).skeleton ∧
    ¬FailsOnLabel ((ofVoices crossingVoices).compile .standard 3) ∧
    ¬FailsOnLabel (rough.compile nameless 3) ∧
    (ofVoices crossingVoices).compile .standard 3 = .ok compilation ∧
    rough.compile nameless 3 = .ok other ∧ compilation.SameOutline other := by
  have fill : Compile.LabelsFill nameless :=
    ⟨fun _ => Compile.exists_label rfl, fun _ _ => Compile.exists_label rfl⟩
  have same : rough.skeleton = (ofVoices crossingVoices).skeleton := by decide
  have labelled := Compile.not_failsOnLabel standard_labelsFill (ofVoices crossingVoices)
    (show 0 ≤ (3 : Int) by decide)
  have otherLabelled := Compile.not_failsOnLabel fill rough (show 0 ≤ (3 : Int) by decide)
  obtain ⟨returns, outline⟩ := compile_skeleton same labelled otherLabelled
  obtain ⟨compilation, compiled⟩ := compile_crossing (show 0 ≤ (3 : Int) by decide)
  obtain ⟨other, otherCompiled⟩ := returns.mp ⟨compilation, compiled⟩
  exact ⟨compilation, other, same, labelled, otherLabelled, compiled, otherCompiled,
    outline compilation other compiled otherCompiled⟩

end Tune

end TuneGraph
