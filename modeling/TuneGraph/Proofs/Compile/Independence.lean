import TuneGraph.Proofs.Compile.Shift
import TuneGraph.Proofs.Compile.Staves

/-! # Staves do not influence each other

A staff of a compilation depends on its own part of the tune, on the title and the instrument, and
on its index. Whatever the other parts are, only its first id changes, so its nodes are the same
ones, moved (`Tune.staves_independent`). No link leads from one staff to another
(`Tune.staves_apart`).
-/

namespace TuneGraph

open TuneGraph.Graph StaffAssembly

/-- Whether no node of a staff is linked with a node of another staff, in either direction. -/
def Graph.StavesApart (graph : Graph) : Prop :=
  graph.staves.Pairwise fun staff other => ∀ node ∈ staff, ∀ stranger ∈ other, ∀ slot,
    node.link slot ≠ some stranger.id ∧ stranger.link slot ≠ some node.id

namespace Tune

variable {tune other : Tune} {settings : Settings} {startId otherId : Int}
  {compilation otherCompilation : Compilation} {index : Nat} {part : List Staff}

/-- The staff at an index is assembled from the part at that index. -/
theorem exists_staff_of_part (compiled : tune.compile settings startId = .ok compilation)
    (here : tune.parts[index]? = some part) : ∃ first rest base staff, part = first :: rest ∧
      Compile.staff settings tune.title tune.instrument index first rest base = .ok staff ∧
      compilation.graph.staves[index]? = some staff.nodes := by
  obtain ⟨staves, same, each⟩ := exists_staves_of_parts compiled
  obtain ⟨length, each⟩ := List.forall₂_iff_get.mp each
  obtain ⟨inside, isPart⟩ := List.getElem?_eq_some_iff.mp here
  rw [List.length_zipIdx] at length
  obtain ⟨first, rest, base, cons, result⟩ :=
    each index (by rwa [List.length_zipIdx]) (length ▸ inside)
  simp only [List.get_eq_getElem, List.getElem_zipIdx, Nat.zero_add] at cons result
  refine ⟨first, rest, base, _, isPart.symm.trans cons, result, ?_⟩
  rw [same, List.getElem?_map, List.getElem?_eq_getElem (length ▸ inside)]
  rfl

/-- Every link of a staff stays in the staff, and no id is used by two staves. -/
theorem staves_apart (compiled : tune.compile settings startId = .ok compilation) :
    compilation.graph.StavesApart := by
  obtain ⟨staves, same, forest, -, all⟩ := exists_assembled compiled
  have unique := forest.unique
  rw [← List.flatten_splitBy (fun _ node => node.kind != .start) compilation.graph.nodes,
    List.map_flatten, List.nodup_flatten, List.pairwise_map] at unique
  have inside : ∀ staff ∈ compilation.graph.staves, ∀ node ∈ staff, ∀ slot target,
      node.link slot = some target → target ∈ staff.map Node.id := by
    intro nodes isStaff node member slot target link
    rw [same] at isStaff
    obtain ⟨staff, present, rfl⟩ := List.mem_map.mp isStaff
    obtain ⟨part, subset, base, assembled⟩ := exists_of_mem_right all present
    have linked := assembled.spliced.wellLinked forest subset
    exact List.mem_map.mpr (linked.inside node member slot target link)
  refine unique.2.imp_of_mem fun {staff other} isStaff isOther apart => ?_
  intro node member stranger outside slot
  constructor
  · intro link
    exact apart (inside staff isStaff node member slot _ link) (List.mem_map_of_mem outside)
  · intro link
    exact apart (List.mem_map_of_mem member) (inside other isOther stranger outside slot _ link)

/-- Two tunes with the same title and instrument and with the same part at an index have the same
staff there, moved, whatever their other parts are, and neither links its staves. -/
theorem staves_independent (title : other.title = tune.title)
    (instrument : other.instrument = tune.instrument)
    (here : tune.parts[index]? = some part) (there : other.parts[index]? = some part)
    (compiled : tune.compile settings startId = .ok compilation)
    (otherCompiled : other.compile settings otherId = .ok otherCompilation) :
    (∃ nodes distance, compilation.graph.staves[index]? = some nodes ∧
      otherCompilation.graph.staves[index]? = some (nodes.map (·.shift distance)) ∧
      ({ nodes := nodes.map (·.shift distance) } : Graph).normalized? =
        ({ nodes } : Graph).normalized?) ∧
    compilation.graph.StavesApart ∧ otherCompilation.graph.StavesApart := by
  refine ⟨?_, staves_apart compiled, staves_apart otherCompiled⟩
  obtain ⟨first, rest, base, staff, rfl, result, isStaff⟩ := exists_staff_of_part compiled here
  obtain ⟨_, _, otherBase, otherStaff, same, otherResult, isOther⟩ :=
    exists_staff_of_part otherCompiled there
  cases same
  have distance : base + (otherBase - base) = otherBase := by omega
  have together := Compile.staff_together settings tune.title tune.instrument index first rest
    (Compile.staff_assembled result).1 (distance.symm ▸ (Compile.staff_assembled otherResult).1)
  rw [distance, result, ← title, ← instrument, otherResult] at together
  have moved := forall₂_parallel_iff.mp together.of_ok.nodes
  refine ⟨staff.nodes, otherBase - base, isStaff, moved ▸ isOther, ?_⟩
  exact normalized?_shift { nodes := staff.nodes } (otherBase - base)

/-- A tune of one line: a staff of one note above a staff with crossing repeats. -/
def quietTune : Tune :=
  { name := "quiet"
    lines := [{ staves := [{ voices := [[.note {}]] }, { voices := crossingVoices }] }] }

/-- A tune with the same second staff below a first one that has two lines and a repeat. -/
def busyTune : Tune :=
  { name := "busy"
    lines := [{ staves := [
        { voices := [[.bar .repeatOpen], [.note {}, .note {}, .bar .repeatClose]] },
        { voices := crossingVoices }] },
      { staves := [{ voices := [[.note {}]] }] }] }

theorem staves_independent_crossing : busyTune.title = quietTune.title ∧
    busyTune.instrument = quietTune.instrument ∧
    quietTune.parts[1]? = some [{ voices := crossingVoices }] ∧
    busyTune.parts[1]? = some [{ voices := crossingVoices }] ∧
    ∃ compilation other, quietTune.compile .standard 0 = .ok compilation ∧
      busyTune.compile .standard 5 = .ok other ∧
      (∃ nodes distance, compilation.graph.staves[1]? = some nodes ∧
        other.graph.staves[1]? = some (nodes.map (·.shift distance)) ∧
        ({ nodes := nodes.map (·.shift distance) } : Graph).normalized? =
          ({ nodes } : Graph).normalized?) ∧
      compilation.graph.StavesApart ∧ other.graph.StavesApart := by
  obtain ⟨compilation, compiled⟩ := (quietTune.compile_returns standard_labelsFill
    (show 0 ≤ (0 : Int) by decide)).1 (by decide)
  obtain ⟨other, otherCompiled⟩ := (busyTune.compile_returns standard_labelsFill
    (show 0 ≤ (5 : Int) by decide)).1 (by decide)
  have title : busyTune.title = quietTune.title := rfl
  have instrument : busyTune.instrument = quietTune.instrument := rfl
  have here : quietTune.parts[1]? = some [{ voices := crossingVoices }] := rfl
  have there : busyTune.parts[1]? = some [{ voices := crossingVoices }] := rfl
  exact ⟨title, instrument, here, there, compilation, other, compiled, otherCompiled,
    staves_independent title instrument here there compiled otherCompiled⟩

end Tune

end TuneGraph
