import TuneGraph.Graph.Summary
import TuneGraph.Proofs.Compile.Emission
import TuneGraph.Proofs.Compile.Staves
import TuneGraph.Proofs.Score.Parts
import Mathlib.Algebra.BigOperators.Group.List.Basic
import Mathlib.Data.Int.Range

/-! # The accounts of a compilation

Three tallies of a compilation agree: its counters, the kinds of the nodes in its graph, and what
the tune has of staves, voices, notes and opening bars. The ids of the nodes are those from the
first one to the next free one, in the order of emission, and every opening bar became a repeat or
a dropped marker (`Tune.accounts_balance`).
-/

namespace TuneGraph

open TuneGraph.Graph StaffAssembly

namespace RepeatMarker

/-- To close a marker does not change how many there are. -/
theorem length_closeAt (line : Int) (markers : List RepeatMarker) :
    (closeAt line markers).length = markers.length := by
  induction markers with
  | nil => rfl
  | cons marker rest ih =>
      rw [closeAt]
      split
      · exact congrArg (· + 1) ih
      · rfl

/-- A bar makes one marker more if it opens. -/
theorem length_atBar (type : BarType) (line : Int) (notesFollow : Bool)
    (markers : List RepeatMarker) : (atBar type line notesFollow markers).length =
      markers.length + if type.opens then 1 else 0 := by
  have closed : (if type.closes then closeAt line markers else markers).length =
      markers.length := by
    split
    · exact length_closeAt line markers
    · rfl
  unfold atBar openAt
  cases type.opens with
  | false => exact closed
  | true => simp only [↓reduceIte, List.length_append, List.length_singleton, closed]

/-- Every opening bar leaves one marker, whatever closes. -/
theorem length_afterVoice (line : Int) (markers : List RepeatMarker) (voice : Voice) :
    (afterVoice line markers voice).length = markers.length + voice.countP Event.opens := by
  induction voice generalizing markers with
  | nil => rfl
  | cons event rest ih =>
      cases event with
      | note note => exact ih markers
      | bar type =>
          rw [afterVoice, ih, length_atBar, List.countP_cons, Event.opens]
          omega

/-- Voices make as many markers as they have opening bars. -/
theorem length_afterVoices (line : Int) (markers : List RepeatMarker) (voices : List Voice) :
    (afterVoices line markers voices).length =
      markers.length + voices.flatten.countP Event.opens := by
  induction voices generalizing line markers with
  | nil => rfl
  | cons voice rest ih =>
      rw [afterVoices, ih, length_afterVoice, List.flatten_cons, List.countP_append, Nat.add_assoc]

/-- A staff has as many markers as its voices have opening bars. -/
theorem length_ofVoices (voices : List Voice) :
    (ofVoices voices).length = voices.flatten.countP Event.opens :=
  (length_afterVoices 0 [] voices).trans (Nat.zero_add _)

/-- Every marker is accepted or refused. -/
theorem length_acceptedAfter_add (lines : Nat) (accepted markers : List RepeatMarker) :
    (acceptedAfter lines accepted markers).length + (refusedAfter lines accepted markers).length =
      accepted.length + markers.length := by
  induction markers generalizing accepted with
  | nil => rfl
  | cons marker rest ih =>
      rw [acceptedAfter, refusedAfter]
      split
      · rw [ih, List.length_append, List.length_singleton, List.length_cons]
        omega
      · rw [List.length_cons, ← Nat.add_assoc, ih, List.length_cons, Nat.add_assoc]

end RepeatMarker

/-- The opening bars of a part are the accepted and the refused markers. -/
theorem length_acceptedOf_add (part : List Staff) :
    (acceptedOf part).length + (refusedOf part).length =
      (voicesOf part).flatten.countP Event.opens := by
  rw [← RepeatMarker.length_ofVoices]
  exact (RepeatMarker.length_acceptedAfter_add _ [] _).trans (Nat.zero_add _)

/-- The kinds of a sort in the staff of a part, by those in a header, in a line, in a note and in a
repeat. -/
theorem countP_staffKinds (sort : NodeKind → Bool) (part : List Staff) :
    (staffKinds part).countP sort = Header.kinds.countP sort +
      Wrapper.kinds.countP sort * (voicesOf part).length +
      Cluster.kinds.countP sort * ((voicesOf part).map fun voice => voice.notes.length).sum +
      repeatKinds.countP sort * (acceptedOf part).length := by
  have copies : ∀ (count : Nat) (kinds : List NodeKind),
      (List.replicate count kinds).flatten.countP sort = kinds.countP sort * count := by
    intro count kinds
    rw [List.countP_flatten, List.map_replicate, List.sum_replicate_nat, Nat.mul_comm]
  have lines : ∀ voices : List Voice,
      (voices.flatMap fun voice => lineKinds voice.notes.length).countP sort =
        Wrapper.kinds.countP sort * voices.length +
          Cluster.kinds.countP sort * (voices.map fun voice => voice.notes.length).sum := by
    intro voices
    induction voices with
    | nil => rfl
    | cons voice rest ih =>
        rw [List.flatMap_cons, List.countP_append, ih, lineKinds, List.countP_append, copies,
          List.length_cons, List.map_cons, List.sum_cons, Nat.mul_add, Nat.mul_add]
        omega
  rw [staffKinds, List.countP_append, List.countP_append, lines, copies]
  omega

/-- The same for the staves of several parts. -/
theorem countP_flatMap_staffKinds (sort : NodeKind → Bool) (parts : List (List Staff)) :
    (parts.flatMap staffKinds).countP sort = Header.kinds.countP sort * parts.length +
      Wrapper.kinds.countP sort * (parts.flatMap voicesOf).length +
      Cluster.kinds.countP sort *
        ((parts.flatMap voicesOf).map fun voice => voice.notes.length).sum +
      repeatKinds.countP sort * (parts.flatMap acceptedOf).length := by
  induction parts with
  | nil => rfl
  | cons part parts ih =>
      simp only [List.flatMap_cons, List.countP_append, ih, countP_staffKinds, List.length_cons,
        List.length_append, List.map_append, List.sum_append, Nat.mul_add]
      omega

/-- Ids that run on are a range of integers. -/
theorem Graph.RunsFrom.map_id {base : Int} {nodes : List Node} (run : RunsFrom base nodes) :
    nodes.map Node.id = Int.range base (base + nodes.length) := by
  have span : ∀ (base : Int) (count : Nat), Int.range base (base + count) =
      (List.range count).map fun place : Nat => base + (place : Int) := by
    intro base count
    have length : (base + count - base).toNat = count := by omega
    rw [Int.range, length]
  induction nodes generalizing base with
  | nil => rw [span]; rfl
  | cons node rest ih =>
      obtain ⟨here, later⟩ := run
      rw [List.map_cons, ih later, here, span, span, List.length_cons, List.range_succ_eq_map,
        List.map_cons, List.map_map, Int.natCast_zero, Int.add_zero]
      refine congrArg (base :: ·) (List.map_congr_left fun place _ => ?_)
      rw [Function.comp_apply, Int.natCast_succ]
      omega

/-- Whether a staff has the nodes, the counts and the dropped markers of a part. -/
structure StaffAssembly.Tallies (part : List Staff) (staff : StaffAssembly) : Prop where
  kinds : staff.nodes.map Node.kind = staffKinds part
  lines : staff.lineCount = (voicesOf part).length
  notes : staff.noteCount = ((voicesOf part).map fun voice => voice.notes.length).sum
  repeats : staff.ranges.length = (acceptedOf part).length
  dropped : staff.dropped = refusedOf part

namespace Compile

variable {settings : Settings} {tune : Tune} {title instrument : String} {index : Nat}
  {first : Staff} {rest : List Staff} {base : Int} {staff : StaffAssembly}
  {parts : List (List Staff)} {staves : List StaffAssembly}

/-- The books of a staff that has been assembled balance. -/
theorem tallies_of_staff
    (result : Compile.staff settings title instrument index first rest base = .ok staff) :
    Tallies (first :: rest) staff := by
  have assembled := (staff_assembled result).2.2
  have kinds := map_kind_staff result
  refine ⟨kinds, assembled.lines, ?_, ?_, dropped_of_staff result⟩
  · have roots := countP_staffKinds (· == .noteRoot) (first :: rest)
    rw [← kinds, List.countP_map] at roots
    have alone : Header.kinds.countP (· == .noteRoot) = 0 ∧
        Wrapper.kinds.countP (· == .noteRoot) = 0 ∧
        Cluster.kinds.countP (· == .noteRoot) = 1 ∧
        repeatKinds.countP (· == .noteRoot) = 0 := by decide
    rw [alone.1, alone.2.1, alone.2.2.1, alone.2.2.2] at roots
    simpa only [noteCount, Function.comp_def, Nat.zero_mul, Nat.one_mul, Nat.zero_add,
      Nat.add_zero] using roots
  · rw [← assembled.accepted, List.length_map]

/-- The sum of staves that tally with parts tallies with all of them. -/
theorem tallies_foldl_addStaff (all : List.Forall₂ Tallies parts staves) (start : Compilation) :
    (staves.foldl addStaff start).staves = start.staves + parts.length ∧
    (staves.foldl addStaff start).lines = start.lines + (parts.flatMap voicesOf).length ∧
    (staves.foldl addStaff start).notes = start.notes +
      ((parts.flatMap voicesOf).map fun voice => voice.notes.length).sum ∧
    (staves.foldl addStaff start).repeats =
      start.repeats + (parts.flatMap acceptedOf).length ∧
    (staves.foldl addStaff start).graph.nodes.map Node.kind =
      start.graph.nodes.map Node.kind ++ parts.flatMap staffKinds := by
  induction all generalizing start with
  | nil => simp only [List.foldl_nil, List.flatMap_nil, List.map_nil, List.sum_nil,
      List.length_nil, Nat.add_zero, List.append_nil, and_self]
  | @cons part staff _ _ here _ ih =>
      obtain ⟨count, lines, notes, repeats, kinds⟩ := ih (addStaff start staff)
      simp only [List.foldl_cons, count, lines, notes, repeats, kinds]
      simp only [addStaff, here.lines, here.notes, here.repeats, here.kinds, List.map_append,
        List.flatMap_cons, List.length_cons, List.length_append, List.sum_append,
        List.append_assoc, and_true]
      omega

/-- Staves that are assembled one after another leave the next id behind the last node. -/
theorem nextId_foldl_addStaff (start : Compilation) (inhabited : ∀ part ∈ parts, part ≠ [])
    (done : assemble settings tune index base parts = .ok staves) (same : start.nextId = base) :
    (staves.foldl addStaff start).nextId =
      base + (staves.flatMap StaffAssembly.nodes).length := by
  induction parts generalizing index base staves start with
  | nil =>
      cases done
      exact same.trans (Int.add_zero base).symm
  | cons part parts ih =>
      obtain ⟨here, later⟩ := List.forall_mem_cons.mp inhabited
      obtain ⟨first, rest, rfl⟩ := List.exists_cons_of_ne_nil here
      simp only [assemble, bind_eq_ok_iff] at done
      obtain ⟨staff, assembled, others, remaining, isAll⟩ := done
      cases isAll
      have next := (staff_assembled assembled).2.2.spliced.sound.next_eq
      rw [List.foldl_cons, ih _ later remaining rfl, List.flatMap_cons, List.length_append, next]
      omega

end Compile

/-- Nodes of a sort in a graph that has the nodes of some parts. -/
theorem Graph.countP_kind {graph : Graph} {parts : List (List Staff)}
    (kinds : graph.nodes.map Node.kind = parts.flatMap staffKinds) (sort : NodeKind → Bool) :
    graph.nodes.countP (fun node => sort node.kind) =
      Header.kinds.countP sort * parts.length +
      Wrapper.kinds.countP sort * (parts.flatMap voicesOf).length +
      Cluster.kinds.countP sort *
        ((parts.flatMap voicesOf).map fun voice => voice.notes.length).sum +
      repeatKinds.countP sort * (parts.flatMap acceptedOf).length := by
  rw [← countP_flatMap_staffKinds, ← kinds, List.countP_map]
  rfl

/-- The numbers of its nodes, of all kinds and of those that the summary counts. -/
theorem Graph.counts_of_kinds {graph : Graph} {parts : List (List Staff)}
    (kinds : graph.nodes.map Node.kind = parts.flatMap staffKinds) :
    graph.size = 17 * parts.length + 4 * (parts.flatMap voicesOf).length +
      9 * ((parts.flatMap voicesOf).map fun voice => voice.notes.length).sum +
      2 * (parts.flatMap acceptedOf).length ∧
    graph.count .start = parts.length ∧
    graph.count .lineCall = (parts.flatMap voicesOf).length ∧
    graph.count .noteRoot =
      ((parts.flatMap voicesOf).map fun voice => voice.notes.length).sum ∧
    graph.count .repetition = (parts.flatMap acceptedOf).length := by
  have total := countP_kind kinds
  generalize parts.length = staves, (parts.flatMap voicesOf).length = lines,
    ((parts.flatMap voicesOf).map fun voice => voice.notes.length).sum = notes,
    (parts.flatMap acceptedOf).length = repeats at total ⊢
  -- The factors are the numbers of nodes of a kind in a header, a line's name, a note, a repeat.
  have size : graph.nodes.countP (fun _ => true) =
      17 * staves + 4 * lines + 9 * notes + 2 * repeats := total fun _ => true
  have starts : graph.count .start = 1 * staves + 0 * lines + 0 * notes + 0 * repeats :=
    total (· == .start)
  have calls : graph.count .lineCall = 0 * staves + 1 * lines + 0 * notes + 0 * repeats :=
    total (· == .lineCall)
  have roots : graph.count .noteRoot = 0 * staves + 0 * lines + 1 * notes + 0 * repeats :=
    total (· == .noteRoot)
  have loops : graph.count .repetition = 0 * staves + 0 * lines + 0 * notes + 1 * repeats :=
    total (· == .repetition)
  rw [List.countP_true] at size
  exact ⟨size, by omega, by omega, by omega, by omega⟩

/-- Whether a compilation from an id accounts for its ids, for what it counts and for the bars of
the tune at which repeats begin. -/
structure Compilation.Accounted (compilation : Compilation) (tune : Tune) (startId : Int) :
    Prop where
  /-- The ids run, without a gap, from the first to the next free one. -/
  ids : compilation.graph.nodes.map Node.id = Int.range startId compilation.nextId
  next : compilation.nextId = startId + compilation.graph.size
  /-- The staves follow one another, each with all the nodes of its part and with no others. -/
  contiguous : compilation.graph.staves.flatten = compilation.graph.nodes
  parts : List.Forall₂ (fun part nodes => nodes.map Node.kind = staffKinds part) tune.parts
    compilation.graph.staves
  size : compilation.graph.size = 17 * compilation.staves + 4 * compilation.lines +
    9 * compilation.notes + 2 * compilation.repeats
  staves : compilation.staves = tune.staffCount
  lines : compilation.lines = tune.voices.length
  notes : compilation.notes = tune.noteCount
  repeats : compilation.repeats + compilation.dropped.length = tune.openingBars
  /-- The summary of the graph has the same numbers. -/
  summary : compilation.graph.summary.get "staves" = .integer compilation.staves ∧
    compilation.graph.summary.get "lines" = .integer compilation.lines ∧
    compilation.graph.summary.get "notes" = .integer compilation.notes ∧
    compilation.graph.summary.get "repeats" = .integer compilation.repeats

namespace Tune

variable {tune : Tune} {settings : Settings} {startId : Int} {compilation : Compilation}

/-- The voices of the parts are those of the tune, in another order. -/
theorem voices_perm (tune : Tune) : (tune.parts.flatMap voicesOf).Perm tune.voices := by
  have joined : tune.parts.flatMap voicesOf = tune.parts.flatten.flatMap Staff.voices := by
    rw [List.flatMap_def, List.flatMap_def, List.map_flatten, List.flatten_flatten, List.map_map]
    rfl
  rw [joined]
  exact tune.parts_perm.flatMap_right _

/-- A marker is accepted or refused, so together they are as many as the opening bars. -/
theorem length_accepted_add_refused (tune : Tune) :
    (tune.parts.flatMap acceptedOf).length + (tune.parts.flatMap refusedOf).length =
      tune.openingBars := by
  rw [openingBars, ← (tune.voices_perm.flatten).countP_eq]
  induction tune.parts with
  | nil => rfl
  | cons part parts ih =>
      simp only [List.flatMap_cons, List.flatten_append, List.countP_append, List.length_append,
        ← ih, ← length_acceptedOf_add]
      omega

/-- The nodes of a compilation have the kinds that the parts ask for, and its counters are sums
over the parts. -/
theorem tallies_of_compiled (compiled : tune.compile settings startId = .ok compilation) :
    compilation.graph.nodes.map Node.kind = tune.parts.flatMap staffKinds ∧
    compilation.staves = tune.parts.length ∧
    compilation.lines = (tune.parts.flatMap voicesOf).length ∧
    compilation.notes =
      ((tune.parts.flatMap voicesOf).map fun voice => voice.notes.length).sum ∧
    compilation.repeats = (tune.parts.flatMap acceptedOf).length ∧
    compilation.nextId = startId + compilation.graph.size := by
  obtain ⟨staves, assembled, -, nodes, each⟩ := exists_assemblies compiled
  have all : List.Forall₂ Tallies tune.parts staves :=
    forall₂_parts each fun _ _ _ _ _ result => Compile.tallies_of_staff result
  have sum : compilation = staves.foldl Compile.addStaff (.empty tune.name startId) := by
    rw [compile_eq, assembled] at compiled
    exact (Except.ok.inj compiled).symm
  have next := Compile.nextId_foldl_addStaff (.empty tune.name startId) tune.part_ne_nil
    assembled rfl
  obtain ⟨count, lines, notes, repeats, kinds⟩ :=
    Compile.tallies_foldl_addStaff all (.empty tune.name startId)
  rw [← sum] at next count lines notes repeats kinds
  rw [← nodes] at next
  simp only [Compilation.empty, Nat.zero_add, List.map_nil, List.nil_append]
    at count lines notes repeats kinds
  exact ⟨kinds, count, lines, notes, repeats, next⟩

/-- Every compilation balances: its ids run on without a gap, its counters are those of its graph
and of the tune, and each opening bar is a repeat or a dropped marker. -/
theorem accounts_balance (compiled : tune.compile settings startId = .ok compilation) :
    compilation.Accounted tune startId := by
  obtain ⟨kinds, staves, lines, notes, repeats, next⟩ := tallies_of_compiled compiled
  obtain ⟨_, emitted, run, -⟩ := exists_staves compiled
  obtain ⟨_, cut, each⟩ := exists_staves_of_parts compiled
  obtain ⟨size, starts, calls, roots, loops⟩ := Graph.counts_of_kinds kinds
  rw [← staves, ← lines, ← notes, ← repeats] at size
  refine
    { ids := ?_, next, contiguous := List.flatten_splitBy _ _, parts := ?_, size
      staves := staves.trans tune.length_parts, lines := lines.trans tune.voices_perm.length_eq
      notes := ?_, repeats := ?_, summary := ⟨?_, ?_, ?_, ?_⟩ }
  · rw [← emitted] at run
    rw [next]
    exact run.map_id
  · rw [cut, List.forall₂_map_right_iff]
    exact forall₂_parts each fun _ _ _ _ _ result => Compile.map_kind_staff result
  · rw [notes, noteCount_eq]
    exact (tune.voices_perm.map _).sum_eq
  · rw [repeats, dropped_eq compiled]
    exact tune.length_accepted_add_refused
  · rw [staves, ← starts]; rfl
  · rw [lines, ← calls]; rfl
  · rw [notes, ← roots]; rfl
  · rw [repeats, ← loops]; rfl

theorem accounts_balance_crossing : ∃ compilation,
    (ofVoices crossingVoices).compile .standard 3 = .ok compilation ∧
      compilation.Accounted (ofVoices crossingVoices) 3 := by
  obtain ⟨compilation, compiled⟩ := compile_crossing (show 0 ≤ (3 : Int) by decide)
  exact ⟨compilation, compiled, accounts_balance compiled⟩

end Tune

end TuneGraph
