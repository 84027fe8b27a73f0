import TuneGraph.Proofs.Compile.Transcript
import TuneGraph.Proofs.Text.Digits

/-! # Calls and labels find each other by name

A line-call and the line-label that it is meant for have no link between them, only a text that
both hold. Under settings that give no two lines the same label (`Compile.LabelsDiffer`), as the
standard ones do, a text is held by one call and one label of a whole graph, and these two were
emitted together (`Tune.calls_by_name`).
-/

namespace TuneGraph

open TuneGraph.Graph StaffAssembly

namespace Graph

/-- The name that a line-label holds. -/
def nameOf? (nodes : List Node) (label : Node) : Option String := readText? nodes label 1 .text

/-- The line-labels that hold a name. -/
def labelsNamed (graph : Graph) (name : String) : List Node :=
  (graph.ofKind .lineLabel).filter (nameOf? graph.nodes · == some name)

/-- Whether every call names its own label. The label of a call is the node after it, since both are
emitted with the line. -/
structure CallsByName (graph : Graph) : Prop where
  calls : ((graph.ofKind .lineCall).map Node.value).Nodup
  labels : ((graph.ofKind .lineLabel).map (nameOf? graph.nodes)).Nodup
  named : ∀ label ∈ graph.ofKind .lineLabel, ∃ name, nameOf? graph.nodes label = some name
  own : ∀ call ∈ graph.ofKind .lineCall, ∃ name label, call.value = .text name ∧
    graph.labelsNamed name = [label] ∧ label.id = call.id + 1

/-- Whether the call of an id and the label next to it hold a name. -/
structure LineNamed (nodes : List Node) (id : Int) (name : String) : Prop where
  call : ∃ node, findNode? nodes id = some node ∧ node.value = .text name
  label : ∃ node, findNode? nodes (id + 1) = some node ∧ nameOf? nodes node = some name

/-- Whether every line of a graph has a name of its own. -/
structure LinesNamed (nodes : List Node) : Prop where
  unique : (nodes.map Node.id).Nodup
  paired : idsOf .lineLabel nodes = (idsOf .lineCall nodes).map (· + 1)
  named : ∀ call ∈ idsOf .lineCall nodes, ∃ name, LineNamed nodes call name
  injective : ∀ call ∈ idsOf .lineCall nodes, ∀ other ∈ idsOf .lineCall nodes, ∀ name,
    LineNamed nodes call name → LineNamed nodes other name → call = other

theorem LineNamed.name_unique {nodes : List Node} {call : Int} {name other : String}
    (named : LineNamed nodes call name) (also : LineNamed nodes call other) : name = other := by
  obtain ⟨node, found, value⟩ := named.call
  obtain ⟨node', found', value'⟩ := also.call
  obtain rfl := Option.some.inj (found.symm.trans found')
  exact Datum.text.inj (value.symm.trans value')

theorem filter_eq_singleton {α : Type} {items : List α} {test : α → Bool} {item : α}
    (unique : items.Nodup) (member : item ∈ items)
    (only : ∀ other ∈ items, test other = true ↔ other = item) : items.filter test = [item] := by
  refine List.perm_singleton.mp ((List.perm_ext_iff_of_nodup (unique.filter _)
    (List.nodup_singleton item)).mpr fun other => ?_)
  rw [List.mem_filter, List.mem_singleton]
  constructor
  · exact fun ⟨inside, passes⟩ => (only other inside).mp passes
  · rintro rfl
    exact ⟨member, (only other member).mpr rfl⟩

namespace LinesNamed

variable {graph : Graph} (lines : LinesNamed graph.nodes)

include lines

theorem eq_of_id {kind : NodeKind} {node other : Node} (member : node ∈ graph.ofKind kind)
    (also : other ∈ graph.ofKind kind) (same : node.id = other.id) : node = other :=
  List.inj_on_of_nodup_map lines.unique (List.mem_of_mem_filter member)
    (List.mem_of_mem_filter also) same

theorem nodup_ofKind (kind : NodeKind) : (graph.ofKind kind).Nodup :=
  (List.Nodup.of_map Node.id lines.unique).filter _

theorem name_of_call {call : Node} (member : call ∈ graph.ofKind .lineCall) :
    ∃ name, LineNamed graph.nodes call.id name ∧ call.value = .text name := by
  obtain ⟨name, line⟩ := lines.named call.id (List.mem_map_of_mem (f := Node.id) member)
  obtain ⟨node, found, value⟩ := line.call
  rw [findNode?_of_mem lines.unique (List.mem_of_mem_filter member)] at found
  obtain rfl := Option.some.inj found
  exact ⟨name, line, value⟩

theorem name_of_label {label : Node} (member : label ∈ graph.ofKind .lineLabel) :
    ∃ call ∈ idsOf .lineCall graph.nodes, ∃ name, LineNamed graph.nodes call name ∧
      nameOf? graph.nodes label = some name ∧ label.id = call + 1 := by
  have known : label.id ∈ idsOf .lineLabel graph.nodes :=
    List.mem_map_of_mem (f := Node.id) member
  rw [lines.paired] at known
  obtain ⟨call, called, next⟩ := List.mem_map.mp known
  obtain ⟨name, line⟩ := lines.named call called
  obtain ⟨node, found, holds⟩ := line.label
  rw [next, findNode?_of_mem lines.unique (List.mem_of_mem_filter member)] at found
  obtain rfl := Option.some.inj found
  exact ⟨call, called, name, line, holds, next.symm⟩

/-- No two calls hold the same name. -/
theorem call_injective {call other : Node} (member : call ∈ graph.ofKind .lineCall)
    (also : other ∈ graph.ofKind .lineCall) (same : call.value = other.value) : call = other := by
  obtain ⟨name, line, value⟩ := lines.name_of_call member
  obtain ⟨otherName, otherLine, otherValue⟩ := lines.name_of_call also
  obtain rfl := Datum.text.inj (value.symm.trans (same.trans otherValue))
  exact lines.eq_of_id member also (lines.injective _ (List.mem_map_of_mem (f := Node.id) member)
    _ (List.mem_map_of_mem (f := Node.id) also) name line otherLine)

/-- No two labels hold the same name. -/
theorem label_injective {label other : Node} (member : label ∈ graph.ofKind .lineLabel)
    (also : other ∈ graph.ofKind .lineLabel)
    (same : nameOf? graph.nodes label = nameOf? graph.nodes other) : label = other := by
  obtain ⟨call, called, name, line, holds, next⟩ := lines.name_of_label member
  obtain ⟨call', called', name', line', holds', next'⟩ := lines.name_of_label also
  obtain rfl := Option.some.inj (holds.symm.trans (same.trans holds'))
  obtain rfl := lines.injective call called call' called' name line line'
  exact lines.eq_of_id member also (next.trans next'.symm)

/-- Where every line has a name of its own, calls go by name. -/
theorem callsByName : CallsByName graph where
  calls := (lines.nodup_ofKind _).map_on fun _ member _ also => lines.call_injective member also
  labels := (lines.nodup_ofKind _).map_on fun _ member _ also => lines.label_injective member also
  named := by
    intro label member
    obtain ⟨-, -, name, -, holds, -⟩ := lines.name_of_label member
    exact ⟨name, holds⟩
  own := by
    intro call member
    obtain ⟨name, line, value⟩ := lines.name_of_call member
    obtain ⟨label, found, holds⟩ := line.label
    have present : label ∈ graph.ofKind .lineLabel := by
      have next : call.id + 1 ∈ idsOf .lineLabel graph.nodes := by
        rw [lines.paired]
        exact List.mem_map_of_mem (List.mem_map_of_mem (f := Node.id) member)
      obtain ⟨node, inside, same⟩ := List.mem_map.mp next
      rw [← same, findNode?_of_mem lines.unique (List.mem_of_mem_filter inside)] at found
      exact Option.some.inj found ▸ inside
    refine ⟨name, label, value, ?_, id_of_findNode? found⟩
    refine filter_eq_singleton (lines.nodup_ofKind _) present fun other also => ?_
    rw [beq_iff_eq]
    constructor
    · exact fun same => lines.label_injective also present (same.trans holds.symm)
    · rintro rfl
      exact holds

end LinesNamed

end Graph

namespace Compile

variable {settings : Settings} {title instrument : String} {index : Nat} {first : Staff}
  {rest : List Staff} {base : Int} {staff : StaffAssembly} {graph : List Node}

/-- Whether the settings give no two lines of a graph the same label. -/
def LabelsDiffer (settings : Settings) : Prop :=
  ∀ staff line staff' line' name,
    label settings.lineLabel [("staff", staff), ("line", line)] = .ok name →
    label settings.lineLabel [("staff", staff'), ("line", line')] = .ok name →
    staff = staff' ∧ line = line'

/-- The lines of a staff that is part of a graph have the names of their places. -/
theorem named_of_staff (unique : (graph.map Node.id).Nodup) (inside : staff.nodes ⊆ graph)
    (result : Compile.staff settings title instrument index first rest base = .ok staff) :
    idsOf .lineCall staff.nodes = staff.calls ∧
    idsOf .lineLabel staff.nodes = staff.calls.map (· + 1) ∧
    ∀ line call, staff.calls[line]? = some call → ∃ name,
      label settings.lineLabel [("staff", index + 1), ("line", line + 1)] = .ok name ∧
        LineNamed graph call name := by
  obtain ⟨voiceName, lines, -, still, copies⟩ := exists_lines_of_staff result
  have known := (staff_assembled result).2.2.spliced.sound.calls
  obtain ⟨calls, labels⟩ := PlacedLine.idsOf_call_and_label still rfl rfl
  rw [known] at calls
  refine ⟨known, by rw [labels, calls, List.map_map]; rfl, fun number call here => ?_⟩
  rw [calls, List.getElem?_map, Option.map_eq_some_iff] at here
  obtain ⟨line, placed, rfl⟩ := here
  have present : line.nodes ⊆ stillNodes graph := by
    intro node member
    have still' : node ∈ stillNodes staff.nodes := by
      rw [still]
      exact List.mem_append_right _ (List.mem_flatMap_of_mem (List.mem_of_getElem? placed) member)
    obtain ⟨whole, found, same⟩ := List.mem_filterMap.mp still'
    exact List.mem_filterMap.mpr ⟨whole, inside found, same⟩
  obtain ⟨label, -, found, -, name, -⟩ := PlacedLine.lineSung unique present
  refine ⟨line.name, ?_, PlacedLine.value_call unique present, label, found, name⟩
  obtain ⟨length, each⟩ := List.forall₂_iff_get.mp copies
  obtain ⟨below, rfl⟩ := List.getElem?_eq_some_iff.mp placed
  have copy := (each number (length ▸ below) below).1
  simpa only [List.get_eq_getElem, List.getElem_zipIdx, Nat.zero_add] using copy

end Compile

namespace Tune

variable {tune : Tune} {settings : Settings} {startId : Int} {compilation : Compilation}

/-- Under settings whose labels differ, every line of a compilation has a name of its own. -/
theorem linesNamed_of_compiled (differ : Compile.LabelsDiffer settings)
    (compiled : tune.compile settings startId = .ok compilation) :
    LinesNamed compilation.graph.nodes := by
  obtain ⟨-, -, forest, -⟩ := exists_assembled compiled
  obtain ⟨staves, -, -, nodes, each⟩ := exists_assemblies compiled
  have staff : ∀ index staff, staves[index]? = some staff →
      idsOf .lineCall staff.nodes = staff.calls ∧
      idsOf .lineLabel staff.nodes = staff.calls.map (· + 1) ∧
      ∀ line call, staff.calls[line]? = some call → ∃ name,
        Compile.label settings.lineLabel [("staff", index + 1), ("line", line + 1)] = .ok name ∧
          LineNamed compilation.graph.nodes call name := by
    intro index staff here
    obtain ⟨below, rfl⟩ := List.getElem?_eq_some_iff.mp here
    obtain ⟨length, all⟩ := List.forall₂_iff_get.mp each
    obtain ⟨first, rest, base, -, result⟩ := all index (length ▸ below) below
    simp only [List.get_eq_getElem, List.getElem_zipIdx, Nat.zero_add] at result
    refine Compile.named_of_staff forest.unique (fun node member => ?_) result
    rw [nodes]
    exact List.mem_flatMap_of_mem (List.getElem_mem below) member
  have calls : idsOf .lineCall compilation.graph.nodes = staves.flatMap StaffAssembly.calls := by
    rw [nodes, idsOf_flatMap]
    refine List.flatMap_congr fun assembled member => ?_
    obtain ⟨index, here⟩ := List.mem_iff_getElem?.mp member
    exact (staff index assembled here).1
  have labels : idsOf .lineLabel compilation.graph.nodes =
      staves.flatMap fun staff => staff.calls.map (· + 1) := by
    rw [nodes, idsOf_flatMap]
    refine List.flatMap_congr fun assembled member => ?_
    obtain ⟨index, here⟩ := List.mem_iff_getElem?.mp member
    exact (staff index assembled here).2.1
  -- A call stands at one place only, which can be told from its name.
  have placed : ∀ call ∈ idsOf .lineCall compilation.graph.nodes, ∃ index line name,
      (staves[index]?.bind (·.calls[line]?)) = some call ∧
      Compile.label settings.lineLabel [("staff", index + 1), ("line", line + 1)] = .ok name ∧
      LineNamed compilation.graph.nodes call name := by
    intro call member
    rw [calls] at member
    obtain ⟨assembled, inside, called⟩ := List.mem_flatMap.mp member
    obtain ⟨index, here⟩ := List.mem_iff_getElem?.mp inside
    obtain ⟨line, known⟩ := List.mem_iff_getElem?.mp called
    obtain ⟨name, labelled, named⟩ := (staff index assembled here).2.2 line call known
    exact ⟨index, line, name, by rw [here, Option.bind_some, known], labelled, named⟩
  refine ⟨forest.unique, by rw [calls, labels, List.map_flatMap], ?_, ?_⟩
  · intro call member
    obtain ⟨-, -, name, -, -, named⟩ := placed call member
    exact ⟨name, named⟩
  · intro call member other also name named otherNamed
    obtain ⟨index, line, own, place, labelled, ownNamed⟩ := placed call member
    obtain ⟨index', line', own', place', labelled', ownNamed'⟩ := placed other also
    obtain rfl := named.name_unique ownNamed
    obtain rfl := otherNamed.name_unique ownNamed'
    obtain ⟨sameIndex, sameLine⟩ := differ _ _ _ _ _ labelled labelled'
    rw [Nat.succ.inj sameIndex, Nat.succ.inj sameLine, place'] at place
    exact (Option.some.inj place).symm

end Tune

namespace Compile

/-- The label of a line in the standard settings. -/
theorem label_standard (staff line : Nat) :
    label Settings.standard.lineLabel [("staff", staff), ("line", line)] =
      .ok (String.join ["V: ", toString staff, " Line ", toString line, ""]) := rfl

/-- The standard settings name lines by two numbers with a word between them. -/
theorem standard_labelsDiffer : LabelsDiffer .standard := by
  intro staff line staff' line' name labelled labelled'
  rw [label_standard] at labelled labelled'
  have same := congrArg String.toList (Except.ok.inj (labelled.trans labelled'.symm))
  simp only [String.join, List.foldl_cons, List.foldl_nil, String.toList_append,
    Nat.toString_eq_repr, Nat.toList_repr, String.toList_empty, List.nil_append,
    List.append_nil, List.append_assoc, List.append_cancel_left_eq] at same
  obtain ⟨number, rest⟩ := Text.toDigits_append_inj (by decide) same
  exact ⟨number, Text.toDigits_inj.mp (List.append_cancel_left rest)⟩

end Compile

namespace Tune

variable {tune : Tune} {startId : Int} {compilation : Compilation}

/-- In a graph that is compiled with the standard settings no two calls and no two labels hold the
same name, and each call holds the name of one label, its own. -/
theorem calls_by_name (compiled : tune.compile .standard startId = .ok compilation) :
    CallsByName compilation.graph :=
  (linesNamed_of_compiled Compile.standard_labelsDiffer compiled).callsByName

/-- Two lines with two staves and with one, of two voices and of one. -/
def ragged : Tune :=
  { name := "ragged"
    lines := [
      { staves := [{ voices := [[.bar .repeatOpen, .note {}], [.note {}]] }, { voices := [[]] }] },
      { staves := [{ voices := [[.note {}, .bar .repeatClose]] }] }] }

theorem calls_by_name_ragged : ∃ compilation,
    ragged.compile .standard 5 = .ok compilation ∧ CallsByName compilation.graph := by
  obtain ⟨compilation, compiled⟩ :=
    (compile_returns ragged standard_labelsFill (show 0 ≤ (5 : Int) by decide)).1 (by decide)
  exact ⟨compilation, compiled, calls_by_name compiled⟩

end Tune

end TuneGraph
