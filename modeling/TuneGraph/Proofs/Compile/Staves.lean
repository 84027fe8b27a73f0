import TuneGraph.Proofs.Compile.Assemble
import TuneGraph.Proofs.Graph.Walk
import Mathlib.Data.List.SplitBy

/-! # The graph of a tune

The nodes of a compilation, cut in front of every start, are the staves of the tune
(`Tune.exists_assembled`). All of them together are one doubly linked forest, so that every
staff is well linked within it (`Tune.wellLinked_of_compiled`), and neither the graph nor a staff
has a fault: a compilation is the same with and without the check
(`Tune.compile_unchecked`).
-/

namespace TuneGraph

theorem exists_of_mem_right {α β : Type} {R : α → β → Prop} {items : List α} {others : List β}
    (all : List.Forall₂ R items others) {other : β} (member : other ∈ others) :
    ∃ item, R item other := by
  induction all with
  | nil => exact (List.not_mem_nil member).elim
  | cons here _ ih =>
      rcases List.mem_cons.mp member with rfl | later
      · exact ⟨_, here⟩
      · exact ih later

namespace Graph

/-- The nodes of a graph, cut in front of every start. -/
def staves (graph : Graph) : List (List Node) :=
  graph.nodes.splitBy fun _ node => node.kind != .start

/-- Whether a start comes first and no other node is a start. -/
def Started (nodes : List Node) : Prop :=
  ∃ start rest, nodes = start :: rest ∧ start.kind = .start ∧ ∀ node ∈ rest, node.kind ≠ .start

/-- Nodes that were put together from staves are cut into these staves. -/
theorem staves_eq {graph : Graph} {parts : List (List Node)} (nodes : graph.nodes = parts.flatten)
    (started : ∀ part ∈ parts, Started part) : graph.staves = parts := by
  rw [staves, nodes]
  apply List.splitBy_flatten
  · intro empty
    obtain ⟨start, rest, same, -⟩ := started [] empty
    cases same
  · intro part member
    obtain ⟨start, rest, rfl, -, later⟩ := started part member
    have follows : ∀ node ∈ rest, (node.kind != .start) = true := fun node inside =>
      bne_iff_ne.mpr (later node inside)
    apply List.Pairwise.isChain
    refine List.pairwise_cons.mpr ⟨follows, ?_⟩
    exact List.Pairwise.imp_of_mem (fun _ inside _ => follows _ inside)
      (List.pairwise_of_forall (fun _ _ => trivial))
  · apply List.Pairwise.isChain
    refine List.Pairwise.imp_of_mem (fun {first second} firstIn secondIn _ => ?_)
      (List.pairwise_of_forall (fun _ _ => trivial))
    obtain ⟨_, _, rfl, -⟩ := started first firstIn
    obtain ⟨start, rest, rfl, kind, -⟩ := started second secondIn
    refine ⟨List.cons_ne_nil _ _, List.cons_ne_nil _ _, ?_⟩
    rw [List.head_cons, kind]
    rfl

theorem Interlinked.nil : Interlinked [] where
  unique := List.nodup_nil
  reciprocal := by
    refine ⟨[], List.Perm.refl _, List.nodup_nil, fun pair member => ?_⟩
    exact (List.not_mem_nil member).elim
  root_previous := fun _ member => (List.not_mem_nil member).elim
  rooted := fun _ member => (List.not_mem_nil member).elim
  chained := fun _ member => (List.not_mem_nil member).elim
  wellFounded := by
    refine ⟨fun id => Acc.intro id fun held leads => ?_⟩
    obtain ⟨_, _, _, member, _⟩ := leads
    exact (List.not_mem_nil member).elim

/-- The links of a staff within a graph: they stay in the staff, forward links and links back
answer each other, save that an instrument-setter may hold the first line-call directly, every
node is held once except for the roots, and no forward link leads back. -/
structure WellLinked (graph staff : List Node) : Prop where
  unique : (graph.map Node.id).Nodup
  inside : ∀ node ∈ staff, ∀ slot target, node.link slot = some target →
    ∃ other ∈ staff, other.id = target
  answered : ∀ holder ∈ staff, ∀ slot, 1 ≤ slot → ∀ held ∈ graph,
    holder.link slot = some held.id → held.previous = some holder.id ∨
      (holder.kind = .instrumentSetter ∧ slot = Slot.instrumentBody ∧
        (idsOf .lineCall staff).head? = some held.id ∧ held.previous = none)
  held : ∀ node ∈ staff, ∀ holder, node.previous = some holder →
    ∃! slot, Holds graph holder slot node.id
  held_once : ∀ node ∈ staff, isRootKind node.kind = false →
    ∃! place : Int × Nat, Holds graph place.1 place.2 node.id
  roots : ∀ node ∈ staff, isRootKind node.kind = true →
    ∀ holder slot, ¬Holds graph holder slot node.id
  acyclic : ∀ id, ¬Relation.TransGen (Leads graph) id id
  rooted : ∀ node ∈ staff, ∃! root, root ∈ graph ∧ isRootKind root.kind = true ∧
    Relation.ReflTransGen (Leads graph) root.id node.id

/-- The check of a forest comes to a report without any issue. -/
theorem Interlinked.check_eq {graph : Graph} (forest : Interlinked graph.nodes) :
    graph.check = some ⟨[]⟩ := by
  rw [Graph.check, forest.faults_eq_nil]
  rfl

end Graph

open TuneGraph.Graph StaffAssembly

namespace StaffAssembly

variable {base times : Int} {staff : StaffAssembly}

/-- A staff has one start, in front of everything else. -/
theorem Sound.started (sound : Sound base times staff) : Started staff.nodes := by
  have starts := sound.starts
  have run := sound.run
  cases nodes : staff.nodes with
  | nil =>
      rw [nodes] at starts
      cases starts
  | cons first rest =>
      rw [nodes] at starts run
      obtain ⟨here, later⟩ := run
      have apart : base ∉ idsOf .start rest := by
        intro member
        have := later.mem_ids_iff.mp ((idsOf_sublist .start).subset member)
        omega
      have isStart : first.kind = .start := by
        by_contra other
        have all : idsOf .start rest = [base] := by
          rwa [idsOf, List.filter_cons_of_neg (by simpa using other)] at starts
        rw [all] at apart
        exact apart (List.mem_singleton_self base)
      refine ⟨first, rest, rfl, isStart, fun node member kind => ?_⟩
      have nothing : idsOf .start rest = [] := by
        rw [idsOf, List.filter_cons_of_pos (by simpa using isStart), List.map_cons] at starts
        exact (List.cons.inj starts).2
      have present : node.id ∈ idsOf .start rest := mem_idsOf.mpr ⟨node, member, kind, rfl⟩
      rw [nothing] at present
      exact List.not_mem_nil present

/-- Staves that are accounted for are what their nodes, put together, are cut into. -/
theorem staves_eq_map_nodes {graph : Graph} {staves : List StaffAssembly}
    (nodes : graph.nodes = staves.flatMap StaffAssembly.nodes)
    (sound : ∀ staff ∈ staves, ∃ base times, Sound base times staff) :
    graph.staves = staves.map StaffAssembly.nodes ∧
      ∀ staff ∈ staves, staff.nodes ⊆ graph.nodes := by
  refine ⟨staves_eq (nodes.trans List.flatMap_def) ?_, ?_⟩
  · intro part member
    obtain ⟨staff, inside, rfl⟩ := List.mem_map.mp member
    obtain ⟨base, times, accounted⟩ := sound staff inside
    exact accounted.started
  · intro staff member node inside
    rw [nodes]
    exact List.mem_flatMap_of_mem member inside

theorem interlinked_flatMap {staves : List StaffAssembly}
    (run : RunsFrom base (staves.flatMap StaffAssembly.nodes))
    (forests : ∀ staff ∈ staves, Interlinked staff.nodes) :
    Interlinked (staves.flatMap StaffAssembly.nodes) := by
  induction staves generalizing base with
  | nil => exact Interlinked.nil
  | cons staff staves ih =>
      obtain ⟨here, later⟩ := List.forall_mem_cons.mp forests
      rw [List.flatMap_cons] at run ⊢
      obtain ⟨first, rest⟩ := RunsFrom.append_iff.mp run
      refine here.append (ih rest later) fun id member also => ?_
      have := first.mem_ids_iff.mp member
      have := rest.mem_ids_iff.mp also
      omega

theorem Spliced.wellLinked (spliced : Spliced base times staff.ranges staff) {graph : List Node}
    (forest : Interlinked graph) (part : staff.nodes ⊆ graph) :
    WellLinked graph staff.nodes where
  unique := forest.unique
  inside := by
    intro node member slot target link
    have own := spliced.interlinked
    cases slot with
    | zero => exact List.mem_map.mp (own.previous_mem_ids member link)
    | succ slot =>
        have holds : Holds staff.nodes node.id (slot + 1) target :=
          ⟨Nat.le_add_left 1 slot, node, member, rfl, link⟩
        exact List.mem_map.mp (own.mem_ids_of_holds holds).2
  answered := by
    intro holder member slot forward held present link
    have own := spliced.interlinked
    have same : ∀ node ∈ staff.nodes, node.id = held.id → node = held := fun node inside equal =>
      List.inj_on_of_nodup_map forest.unique (part inside) present equal
    rcases own.answered_or_direct ⟨forward, holder, member, rfl, link⟩ with
      ⟨node, inside, equal, back⟩ | ⟨⟨setter, setterIn, setterId, kind, -, call, callIn, equal, -,
        free⟩, body⟩
    · exact Or.inl (same node inside equal ▸ back)
    · obtain rfl := same call callIn equal
      obtain rfl := List.inj_on_of_nodup_map own.unique setterIn member setterId
      refine Or.inr ⟨kind, body, ?_, free⟩
      rw [spliced.sound.calls]
      refine (spliced.sound.rooted call callIn free).resolve_left fun root => ?_
      exact forest.not_holds_root present root ⟨forward, setter, part member, rfl, link⟩
  held := by
    intro node member holder back
    obtain ⟨slot, holds⟩ := forest.exists_holds (part member) back
    exact ⟨slot, holds, fun other also => (forest.holds_unique also holds).2⟩
  held_once := fun node member inner => forest.existsUnique_holds (part member) inner
  roots := fun node member root holder slot => forest.not_holds_root (part member) root
  acyclic := forest.acyclic
  rooted := fun node member => forest.existsUnique_root (part member)

end StaffAssembly

namespace Tune

variable {tune : Tune} {settings : Settings} {startId : Int} {compilation : Compilation}

/-- A compilation has one staff for every part, its nodes are one forest, and every count in it
is that of the settings. -/
theorem exists_assembled (compiled : tune.compile settings startId = .ok compilation) :
    ∃ staves : List StaffAssembly,
      compilation.graph.staves = staves.map StaffAssembly.nodes ∧
      Interlinked compilation.graph.nodes ∧
      (∀ node ∈ compilation.graph.nodes, node.kind = .repeatCount →
        node.value = .integer settings.repeatCount) ∧
      List.Forall₂ (fun part staff => staff.nodes ⊆ compilation.graph.nodes ∧
        ∃ base, Assembled base settings.repeatCount part staff) tune.parts staves := by
  obtain ⟨staves, nodes, run, all⟩ := exists_staves compiled
  have each : ∀ staff ∈ staves, ∃ base,
      Spliced base settings.repeatCount staff.ranges staff := by
    intro staff member
    obtain ⟨part, base, assembled⟩ := exists_of_mem_right all member
    exact ⟨base, assembled.spliced⟩
  obtain ⟨same, known⟩ := staves_eq_map_nodes nodes fun staff member =>
    (each staff member).imp fun base spliced => ⟨_, spliced.sound⟩
  refine ⟨staves, same, ?_, ?_, ?_⟩
  · rw [nodes]
    refine interlinked_flatMap run fun staff member => ?_
    obtain ⟨base, spliced⟩ := each staff member
    exact spliced.interlinked
  · rw [nodes]
    intro node member
    obtain ⟨staff, inside, present⟩ := List.mem_flatMap.mp member
    obtain ⟨base, spliced⟩ := each staff inside
    exact spliced.sound.counters node present
  · exact ((List.forall₂_and_left _ _).mpr ⟨known, all.flip⟩).flip

/-- The staves of a compilation are those that its parts are assembled into, in order, and they are
its nodes. -/
theorem exists_staves_within (compiled : tune.compile settings startId = .ok compilation) :
    ∃ staves : List StaffAssembly,
      compilation.graph.staves = staves.map StaffAssembly.nodes ∧
      compilation.graph.nodes = staves.flatMap StaffAssembly.nodes ∧
      List.Forall₂ (fun place staff => staff.nodes ⊆ compilation.graph.nodes ∧
        ∃ first rest base, place.1 = first :: rest ∧
          Compile.staff settings tune.title tune.instrument place.2 first rest base = .ok staff)
        tune.parts.zipIdx staves := by
  obtain ⟨staves, -, -, nodes, each⟩ := exists_assemblies compiled
  obtain ⟨same, known⟩ := staves_eq_map_nodes nodes fun staff member => by
    obtain ⟨place, first, rest, base, -, result⟩ := exists_of_mem_right each member
    exact ⟨base, _, (Compile.staff_assembled result).2.2.spliced.sound⟩
  exact ⟨staves, same, nodes, ((List.forall₂_and_left _ _).mpr ⟨known, each.flip⟩).flip⟩

theorem exists_staves_of_parts (compiled : tune.compile settings startId = .ok compilation) :
    ∃ staves : List StaffAssembly,
      compilation.graph.staves = staves.map StaffAssembly.nodes ∧
      List.Forall₂ (fun place staff => ∃ first rest base, place.1 = first :: rest ∧
        Compile.staff settings tune.title tune.instrument place.2 first rest base = .ok staff)
        tune.parts.zipIdx staves := by
  obtain ⟨staves, same, -, each⟩ := exists_staves_within compiled
  exact ⟨staves, same, each.imp fun _ _ => And.right⟩

/-- Every staff of a compilation is well linked within the graph. -/
theorem wellLinked_of_compiled (compiled : tune.compile settings startId = .ok compilation) :
    compilation.graph.staves.flatten = compilation.graph.nodes ∧
      compilation.graph.staves.length = tune.staffCount ∧
      ∀ staff ∈ compilation.graph.staves, WellLinked compilation.graph.nodes staff := by
  obtain ⟨staves, same, forest, -, all⟩ := exists_assembled compiled
  refine ⟨List.flatten_splitBy _ _, ?_, fun nodes member => ?_⟩
  · rw [same, List.length_map, ← all.length_eq, parts, List.length_map, List.length_range]
  · rw [same] at member
    obtain ⟨staff, inside, rfl⟩ := List.mem_map.mp member
    obtain ⟨part, subset, base, assembled⟩ := exists_of_mem_right all inside
    exact assembled.spliced.wellLinked forest subset

theorem wellLinked_repeat_of_two_lines : ∃ compilation,
    (ofVoices [[.bar .repeatOpen, .note {}], [.note {}, .bar .repeatClose]]).compile .standard 0 =
      .ok compilation ∧
    ∀ staff ∈ compilation.graph.staves, WellLinked compilation.graph.nodes staff := by
  obtain ⟨compilation, compiled⟩ := (compile_returns
    (ofVoices [[.bar .repeatOpen, .note {}], [.note {}, .bar .repeatClose]])
    standard_labelsFill (Int.le_refl 0)).1 (by decide)
  exact ⟨compilation, compiled, (wellLinked_of_compiled compiled).2.2⟩

/-- A tune is not compiled for want of a label, of ids that may be used, or of a node. -/
theorem compile_error {fault : CompileError}
    (failed : tune.compile settings startId = .error fault) :
    (∃ error, fault = .label error) ∨ (∃ id, fault = .negativeId id) ∨
      ∃ id, fault = .unknownNode id := by
  unfold compile at failed
  obtain ⟨state, part, step⟩ := exists_step_of_foldlM_error failed
  cases part with
  | nil => cases step
  | cons first rest =>
      rw [Compile.addPart_eq] at step
      cases assembled : Compile.staff settings tune.title tune.instrument state.staves first rest
          state.nextId with
      | ok staff =>
          rw [assembled] at step
          cases step
      | error first =>
          rw [assembled] at step
          cases step
          exact Compile.staff_error assembled

theorem compile_checkGraph (tune : Tune) (settings : Settings) (startId : Int)
    (checked unchecked : Bool) : tune.compile { settings with checkGraph := checked } startId =
      tune.compile { settings with checkGraph := unchecked } startId := by
  unfold compile
  congr 1
  funext state part
  cases part with
  | nil => rfl
  | cons first rest =>
      rw [Compile.addPart_eq, Compile.addPart_eq]
      rfl

/-- Whatever is compiled without the check is compiled with it, to the same result, in which
neither the graph nor a staff has an issue: each check comes to a report, and none refuses. -/
theorem compile_unchecked (tune : Tune) (settings : Settings) (startId : Int) :
    (∀ compilation,
      tune.compile { settings with checkGraph := false } startId = .ok compilation →
        compilation.graph.check = some ⟨[]⟩ ∧
        ∀ nodes ∈ compilation.graph.staves,
          ({ name := tune.name, nodes } : Graph).check = some ⟨[]⟩) ∧
    tune.compile { settings with checkGraph := true } startId =
      tune.compile { settings with checkGraph := false } startId ∧
    tune.compile { settings with checkGraph := true } startId ≠ .error .tooLong ∧
    ∀ number name report, tune.compile { settings with checkGraph := true } startId ≠
      .error (.invalidStaff number name report) := by
  refine ⟨fun compilation compiled => ?_, compile_checkGraph tune settings startId true false, ?_⟩
  · obtain ⟨staves, same, forest, -, all⟩ := exists_assembled compiled
    refine ⟨forest.check_eq, fun nodes member => ?_⟩
    rw [same] at member
    obtain ⟨staff, inside, rfl⟩ := List.mem_map.mp member
    obtain ⟨part, -, base, assembled⟩ := exists_of_mem_right all inside
    exact Interlinked.check_eq assembled.spliced.interlinked
  · refine ⟨fun failed => ?_, fun number name report failed => ?_⟩ <;>
      rcases compile_error failed with ⟨_, same⟩ | ⟨_, same⟩ | ⟨_, same⟩ <;>
      cases same

theorem unchecked_repeat_of_two_lines : ∃ compilation,
    (ofVoices [[.bar .repeatOpen, .note {}], [.note {}, .bar .repeatClose]]).compile
      { Settings.standard with checkGraph := false } 0 = .ok compilation ∧
    compilation.graph.check = some ⟨[]⟩ := by
  have fill : Compile.LabelsFill { Settings.standard with checkGraph := false } :=
    standard_labelsFill
  obtain ⟨compilation, compiled⟩ := (compile_returns
    (ofVoices [[.bar .repeatOpen, .note {}], [.note {}, .bar .repeatClose]])
    fill (Int.le_refl 0)).1 (by decide)
  exact ⟨compilation, compiled, ((compile_unchecked _ .standard 0).1 compilation compiled).1⟩

end Tune

end TuneGraph
