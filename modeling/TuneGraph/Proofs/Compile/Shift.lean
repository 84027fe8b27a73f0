import TuneGraph.Proofs.Compile.Assemble
import TuneGraph.Proofs.Compile.Parallel

/-! # Compilations that begin at different ids

The nodes of headers and lines are built on their first id, so a part that is assembled from two
ids becomes two parallel staves (`Compile.staff_together`). Since all staves of a compilation run on
from its first id, a compilation from another id is the same one, moved
(`Tune.compile_shift`).
-/

namespace TuneGraph

open TuneGraph.Graph StaffAssembly

/-- A compilation with a distance added to all its ids and links. -/
def Compilation.shift (compilation : Compilation) (distance : Int) : Compilation :=
  { compilation with
    graph := compilation.graph.shift distance
    nextId := compilation.nextId + distance }

variable {distance : Int}

/-- A header is shifted with its first id. -/
theorem Header.nodes_shift (b distance : Int) (title voiceName : String) (meter : Meter)
    (key : KeySignature) (instrument : String) :
    (nodes b title voiceName meter key instrument).map (·.shift distance) =
      nodes (b + distance) title voiceName meter key instrument := by
  simp only [nodes, Node.shift, List.map_cons, List.map_nil, Option.map_some, Option.map_none,
    Int.add_right_comm b _ distance]

/-- The nodes around a line are shifted with their ids. -/
theorem Wrapper.nodes_shift (b distance : Int) (label : String) (previousCall first : Option Int) :
    (nodes b label previousCall first).map (·.shift distance) =
      nodes (b + distance) label (previousCall.map (· + distance))
        (first.map (· + distance)) := by
  simp only [nodes, Node.shift, List.map_cons, List.map_nil, Option.map_some, Option.map_none,
    Int.add_right_comm b _ distance]

namespace Cluster

/-- The nodes of a note are shifted with their ids. -/
theorem nodes_shift (b previous distance : Int) (encoded : EncodedNote) (next : Option Int) :
    (nodes b previous encoded next).map (·.shift distance) =
      nodes (b + distance) (previous + distance) encoded (next.map (· + distance)) := by
  simp only [nodes, Node.shift, List.map_cons, List.map_nil, Option.map_some, Option.map_none,
    Int.add_right_comm b _ distance]

/-- A row of notes is shifted with its first id. -/
theorem row_shift (b distance : Int) (notes : List EncodedNote) :
    (row b notes).map (·.shift distance) = row (b + distance) notes := by
  have before : b - 1 + distance = b + distance - 1 := by omega
  fun_induction row b notes with
  | case1 => rfl
  | case2 b encoded => rw [nodes_shift, before]; rfl
  | case3 b encoded rest more ih =>
      have after : b + width + distance = b + distance + width := by omega
      rw [List.map_append, nodes_shift, before, ih (by omega), Option.map_some, after, row]
      exact more

end Cluster

/-- The chain of a line is shifted with its ids. -/
theorem lineChain_shift (b distance : Int) (label : String) (previousCall : Option Int)
    (notes : List EncodedNote) :
    (lineChain b label previousCall notes).map (·.shift distance) =
      lineChain (b + distance) label (previousCall.map (· + distance)) notes := by
  have after : b + Wrapper.width + distance = b + distance + Wrapper.width := by omega
  rw [lineChain, List.map_append, Wrapper.nodes_shift, Cluster.row_shift, after, lineChain]
  cases notes with
  | nil => rfl
  | cons => rw [← after]; rfl

/-- A staff begins alike from a shifted id. -/
theorem StaffAssembly.begin_together {base : Int} (nonneg : 0 ≤ base)
    (nonneg' : 0 ≤ base + distance) (title voiceName : String) (meter : Meter)
    (key : KeySignature) (instrument : String) :
    Together distance (StaffAssembly.Parallel distance Eq)
      (begin base title voiceName meter key instrument)
      (begin (base + distance) title voiceName meter key instrument) := by
  rw [begin, begin, if_neg (Int.not_lt.mpr nonneg), if_neg (Int.not_lt.mpr nonneg')]
  refine .ok
    { nodes := forall₂_parallel_iff.mpr (Header.nodes_shift ..).symm
      instrument := Int.add_right_comm ..
      next := Int.add_right_comm ..
      calls := rfl
      markers := rfl
      ranges := rfl
      dropped := rfl }

/-- A voice is appended alike to a shifted staff. -/
theorem StaffAssembly.Parallel.appendVoice {staff other : StaffAssembly}
    (parallel : staff.Parallel distance Eq other) (label : String) (key : KeySignature)
    (meterDenominator bound : Int) (voice : Voice) :
    (staff.appendVoice label key meterDenominator bound voice).Parallel distance Eq
      (other.appendVoice label key meterDenominator bound voice) := by
  unfold StaffAssembly.appendVoice
  rw [parallel.lineCount, parallel.markers]
  refine parallel.appendLine _ (forall₂_parallel_iff.mpr ?_)
  rw [chainOf, parallel.next, parallel.lastCall, chainOf, lineChain_shift]

namespace Compile

variable {settings : Settings} {title instrument : String} {index : Nat} {base : Int}

/-- A label is the same in a shifted staff. -/
theorem label_together (distance : Int) (template : String) (values : List (String × Nat)) :
    Together distance Eq (label template values) (label template values) := by
  unfold label
  cases Text.Template.fill template values with
  | ok text => exact .ok rfl
  | error fault => exact .error rfl

/-- The voices of a line are added alike to a shifted staff. -/
theorem addVoices_together (settings : Settings) (index : Nat) (meter : Meter) (line : Staff)
    {staff other : StaffAssembly} (parallel : staff.Parallel distance Eq other) :
    Together distance (StaffAssembly.Parallel distance Eq)
      (addVoices settings index meter line staff) (addVoices settings index meter line other) := by
  unfold addVoices
  refine InStep.foldlM (fun state otherState states voice _ => ?_) parallel
  rw [states.lineCount]
  refine (label_together distance _ _).bind fun name _ same => ?_
  subst same
  exact .ok (states.appendVoice name _ _ _ voice)

/-- A part that is assembled from two ids becomes two parallel staves. -/
theorem staff_together (settings : Settings) (title instrument : String) (index : Nat)
    (first : Staff) (rest : List Staff) (nonneg : 0 ≤ base) (nonneg' : 0 ≤ base + distance) :
    Together distance (StaffAssembly.Parallel distance Eq)
      (Compile.staff settings title instrument index first rest base)
      (Compile.staff settings title instrument index first rest (base + distance)) := by
  unfold Compile.staff
  refine (label_together distance _ _).bind fun voiceName _ same => ?_
  subst same
  refine (begin_together nonneg nonneg' title voiceName _ first.key instrument).bind
    fun begun otherBegun begins => ?_
  refine InStep.bind (InStep.foldlM (fun state other states line _ => ?_) begins)
    fun lines otherLines parallel => parallel.enterFirstLine.resolveRepeats rfl rfl
  exact addVoices_together settings index _ line states

/-- Staves that are assembled one after another are parallel from any first id on. -/
theorem assemble_together (settings : Settings) (tune : Tune) (index : Nat)
    (parts : List (List Staff)) (nonneg : 0 ≤ base) (nonneg' : 0 ≤ base + distance) :
    Together distance (List.Forall₂ (StaffAssembly.Parallel distance Eq))
      (assemble settings tune index base parts)
      (assemble settings tune index (base + distance) parts) := by
  induction parts generalizing index base with
  | nil => exact .ok .nil
  | cons part parts ih =>
      cases part with
      | nil => exact ih index nonneg nonneg'
      | cons first rest =>
          unfold assemble
          have together := staff_together settings tune.title tune.instrument index first rest
            nonneg nonneg'
          generalize assembled : Compile.staff settings tune.title tune.instrument index first rest
            base = here, Compile.staff settings tune.title tune.instrument index first rest
            (base + distance) = there at together ⊢
          cases together with
          | error related => exact .error related
          | @ok staff other parallel =>
              have later : base ≤ staff.next := by
                rw [(staff_assembled assembled).2.2.spliced.sound.next_eq]
                omega
              have others := ih (index + 1) (show 0 ≤ staff.next by omega)
                (show 0 ≤ staff.next + distance by omega)
              rw [← parallel.next] at others
              exact others.bind fun staves otherStaves rest => .ok (.cons parallel rest)

/-- Adding a parallel staff to a compilation that was moved moves the sum. -/
theorem addStaff_shift (compilation : Compilation) {staff other : StaffAssembly}
    (parallel : staff.Parallel distance Eq other) :
    addStaff (compilation.shift distance) other = (addStaff compilation staff).shift distance := by
  simp only [addStaff, Compilation.shift, Graph.shift, parallel.next, parallel.dropped,
    parallel.lineCount, parallel.noteCount, parallel.length_ranges, List.map_append,
    forall₂_parallel_iff.mp parallel.nodes]

/-- Shifted staves make a shifted compilation. -/
theorem foldl_addStaff_shift (compilation : Compilation) {staves others : List StaffAssembly}
    (parallel : List.Forall₂ (StaffAssembly.Parallel distance Eq) staves others) :
    others.foldl addStaff (compilation.shift distance) =
      (staves.foldl addStaff compilation).shift distance := by
  induction parallel generalizing compilation with
  | nil => rfl
  | cons here _ ih => rw [List.foldl_cons, List.foldl_cons, addStaff_shift compilation here, ih]

end Compile

namespace Tune

variable {settings : Settings} {startId otherId : Int}

/-- A compilation from another id is the same one, moved, or fails alike. -/
theorem compile_together (tune : Tune) (settings : Settings) (nonneg : 0 ≤ startId)
    (nonneg' : 0 ≤ startId + distance) :
    Together distance (fun compilation other => other = compilation.shift distance)
      (tune.compile settings startId) (tune.compile settings (startId + distance)) := by
  rw [compile_eq, compile_eq]
  have staves : Together distance (List.Forall₂ (StaffAssembly.Parallel distance Eq))
      (tune.assemblies settings startId) (tune.assemblies settings (startId + distance)) :=
    Compile.assemble_together settings tune 0 tune.parts nonneg nonneg'
  generalize tune.assemblies settings startId = here,
    tune.assemblies settings (startId + distance) = there at staves
  cases staves with
  | error related => exact .error related
  | ok parallel =>
      exact .ok (Compile.foldl_addStaff_shift (.empty tune.name startId) parallel)

/-- A tune is compiled from one id exactly if it is compiled from another one. The graphs then
differ by the distance of the ids, in all ids and links and in nothing else, as does the next id,
and so their shapes are the same. -/
theorem compile_shift (tune : Tune) (settings : Settings) (nonneg : 0 ≤ startId)
    (nonneg' : 0 ≤ otherId) :
    (Returns (tune.compile settings startId) ↔ Returns (tune.compile settings otherId)) ∧
    ∀ compilation other, tune.compile settings startId = .ok compilation →
      tune.compile settings otherId = .ok other →
      other = compilation.shift (otherId - startId) ∧
        other.graph.normalized? = compilation.graph.normalized? := by
  have distance : startId + (otherId - startId) = otherId := by omega
  have together := tune.compile_together settings nonneg (distance.symm ▸ nonneg')
  rw [distance] at together
  refine ⟨together.returns_iff, fun compilation other compiled otherCompiled => ?_⟩
  rw [compiled, otherCompiled] at together
  have moved := together.of_ok
  exact ⟨moved, moved ▸ Graph.normalized?_shift compilation.graph _⟩

theorem compile_shift_crossing : 0 ≤ (0 : Int) ∧ 0 ≤ (7 : Int) ∧ ∃ compilation other,
    (ofVoices crossingVoices).compile .standard 0 = .ok compilation ∧
    (ofVoices crossingVoices).compile .standard 7 = .ok other ∧
    other = compilation.shift (7 - 0) ∧
    other.graph.normalized? = compilation.graph.normalized? := by
  obtain ⟨compilation, compiled⟩ := compile_crossing (Int.le_refl 0)
  obtain ⟨other, otherCompiled⟩ := compile_crossing (show 0 ≤ (7 : Int) by decide)
  refine ⟨by decide, by decide, compilation, other, compiled, otherCompiled, ?_⟩
  exact (compile_shift _ .standard (by decide) (by decide)).2 _ _ compiled otherCompiled

end Tune

end TuneGraph
