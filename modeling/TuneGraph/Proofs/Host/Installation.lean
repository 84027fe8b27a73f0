import TuneGraph.Compile.Install
import TuneGraph.Proofs.Compile.Accounts
import TuneGraph.Proofs.Host.Memory

/-! # Installing graphs

The blocks of a compilation are well-formed and have ids of their own, so a host in memory takes
every graph that is compiled (`Tune.install_memory`). If tunes are compiled into a host one after
another, each from the next id of the one before, their blocks come after those of the host and
after each other (`Build.Running`). An installation replaces what it brings and nothing else
(`MemoryHost.holds_last_blocks`).
-/

namespace TuneGraph

open TuneGraph.Graph

/-- What has been built in a host by compiling tunes one after another. -/
structure Build where
  host : MemoryHost
  /-- The id from which the next tune is compiled. -/
  nextId : Int
  compilations : List Compilation := []

namespace Build

/-- A build after one more tune. A tune that does not get into the host changes nothing. -/
def add (build : Build) (job : Tune × Settings) : Build :=
  match job.1.install job.2 build.nextId build.host.install with
  | .ok (compilation, host) =>
    { host, nextId := compilation.nextId, compilations := build.compilations ++ [compilation] }
  | .error _ => build

/-- The nodes of all compilations, in order. -/
def nodes (build : Build) : List Node := build.compilations.flatMap (·.graph.nodes)

/-- The blocks of all compilations, in order. -/
def blocks (build : Build) : List Datum := build.compilations.flatMap (·.graph.blocks)

end Build

/-- A node as a host stores it. -/
def Node.stored (node : Node) : Block := ⟨node.id, node.block⟩

/-- The block of a node has the id of the node. -/
theorem Node.blockId?_block (node : Node) : node.block.blockId? = some node.id := rfl

/-- The blocks of a graph are well-formed. -/
theorem Graph.isSome_blockId?_blocks (graph : Graph) :
    ∀ value ∈ graph.blocks, value.blockId?.isSome = true := by
  rw [blocks, List.forall_mem_map]
  intro node _
  rw [node.blockId?_block]
  rfl

/-- The blocks of a graph are stored with the ids of their nodes. -/
theorem Graph.filterMap_block?_blocks (graph : Graph) :
    graph.blocks.filterMap Datum.block? = graph.nodes.map Node.stored := by
  rw [blocks, List.filterMap_map, ← List.filterMap_eq_map]
  rfl

/-- A host in memory takes every graph that is compiled. -/
theorem Tune.install_memory (tune : Tune) (settings : Settings) (startId : Int)
    (host : MemoryHost) :
    tune.install settings startId host.install =
      match tune.compile settings startId with
      | .error fault => .error (.compile fault)
      | .ok compilation => .ok (compilation, host.afterInstall compilation.graph.blocks) := by
  unfold Tune.install
  cases tune.compile settings startId with
  | error fault => rfl
  | ok compilation =>
      have wellFormed := compilation.graph.isSome_blockId?_blocks
      simp only [host.install_eq_ok wellFormed, host.afterInstall_of_wellFormed wellFormed]
      rfl

namespace Build

variable {build : Build} {tune : Tune} {settings : Settings} {fault : CompileError}
  {compilation : Compilation}

/-- A tune that does not compile is not built. -/
theorem add_of_error (failed : tune.compile settings build.nextId = .error fault) :
    build.add (tune, settings) = build := by
  rw [add, tune.install_memory, failed]

/-- A tune that compiles is built into the host. -/
theorem add_of_ok (compiled : tune.compile settings build.nextId = .ok compilation) :
    build.add (tune, settings) =
      { host := build.host.afterInstall compilation.graph.blocks
        nextId := compilation.nextId
        compilations := build.compilations ++ [compilation] } := by
  rw [add, tune.install_memory, compiled]

/-- The nodes of a tune that is built come last. -/
theorem nodes_add (compiled : tune.compile settings build.nextId = .ok compilation) :
    (build.add (tune, settings)).nodes = build.nodes ++ compilation.graph.nodes := by
  rw [add_of_ok compiled, nodes, List.flatMap_append, List.flatMap_singleton]
  rfl

/-- The blocks of a tune that is built are put to those of the host. -/
theorem stored_add (compiled : tune.compile settings build.nextId = .ok compilation) :
    (build.add (tune, settings)).host.stored =
      MemoryHost.putAll (compilation.graph.nodes.map Node.stored) build.host.stored := by
  rw [add_of_ok compiled, build.host.afterInstall_of_wellFormed
    compilation.graph.isSome_blockId?_blocks, Graph.filterMap_block?_blocks]

/-- A build goes on from a reachable host to a reachable host. -/
theorem reachable_add (reachable : build.host.Reachable) (job : Tune × Settings) :
    (build.add job).host.Reachable := by
  obtain ⟨tune, settings⟩ := job
  cases compiled : tune.compile settings build.nextId with
  | error fault => rwa [add_of_error compiled]
  | ok compilation =>
      rw [add_of_ok compiled]
      exact reachable.install _

end Build

/-- Whether a build that began in a host at an id holds the blocks of that host and, after them,
those of its compilations, with ids that run on from the first. -/
structure Build.Running (host : MemoryHost) (startId : Int) (build : Build) : Prop where
  run : RunsFrom startId build.nodes
  next : build.nextId = startId + build.nodes.length
  stored : build.host.stored = host.stored ++ build.nodes.map Node.stored

section Running

variable {host : MemoryHost} {startId : Int} {build : Build} {nodes : List Node}

/-- Stored blocks with lower ids and nodes that run on from an id have different ids. -/
theorem nodup_of_runsFrom (distinct : (host.stored.map Block.id).Nodup)
    (below : ∀ block ∈ host.stored, block.id < startId) (run : RunsFrom startId nodes) :
    ((host.stored ++ nodes.map Node.stored).map Block.id).Nodup := by
  have same : (nodes.map Node.stored).map Block.id = nodes.map Node.id := List.map_map
  rw [List.map_append, same]
  refine List.nodup_append.mpr ⟨distinct, run.nodup, ?_⟩
  intro id inside other member equal
  obtain ⟨block, present, rfl⟩ := List.mem_map.mp inside
  have first := (run.mem_ids_iff.mp (equal ▸ member)).1
  exact absurd (below block present) (Int.not_lt.mpr first)

/-- Nodes whose ids run on are in ascending order. -/
theorem pairwise_of_runsFrom (run : RunsFrom startId nodes) :
    nodes.Pairwise fun a b => a.id < b.id := by
  induction nodes generalizing startId with
  | nil => exact .nil
  | cons node rest ih =>
      obtain ⟨here, later⟩ := run
      refine List.pairwise_cons.mpr ⟨fun other member => ?_, ih later⟩
      have first := (later.mem_ids_iff.mp (List.mem_map_of_mem member)).1
      omega

/-- The blocks of a build are in the order in which they came. -/
theorem Build.Running.blocks_eq (running : build.Running host startId)
    (distinct : (host.stored.map Block.id).Nodup)
    (below : ∀ block ∈ host.stored, block.id < startId) :
    build.host.blocks = host.blocks ++ build.blocks := by
  have sorted := List.mergeSort_perm host.stored fun a b => a.id ≤ b.id
  have perm : build.host.stored.Perm
      ((host.stored.mergeSort fun a b => a.id ≤ b.id) ++ build.nodes.map Node.stored) := by
    rw [running.stored]
    exact sorted.symm.append_right _
  have ascending : ((host.stored.mergeSort fun a b => a.id ≤ b.id) ++
      build.nodes.map Node.stored).Pairwise fun a b => a.id ≤ b.id := by
    refine List.pairwise_append.mpr ⟨MemoryHost.pairwise_mergeSort_id _, ?_, ?_⟩
    · rw [List.pairwise_map]
      exact (pairwise_of_runsFrom running.run).imp Int.le_of_lt
    · intro block inside other member
      obtain ⟨node, present, rfl⟩ := List.mem_map.mp member
      have first := (running.run.mem_ids_iff.mp (List.mem_map_of_mem present)).1
      have under := below block (sorted.subset inside)
      exact Int.le_trans (Int.le_of_lt under) first
  have apart := (perm.map Block.id).nodup_iff.mp
    (running.stored ▸ nodup_of_runsFrom distinct below running.run)
  have laid : build.blocks = (build.nodes.map Node.stored).map Block.datum := by
    rw [Build.blocks, Build.nodes, List.map_map, List.map_flatMap]
    rfl
  rw [MemoryHost.blocks, MemoryHost.mergeSort_eq perm ascending apart, List.map_append, laid]
  rfl

/-- A tune that is added continues the ids, and its blocks come last. -/
theorem Build.Running.add (running : build.Running host startId)
    (distinct : (host.stored.map Block.id).Nodup)
    (below : ∀ block ∈ host.stored, block.id < startId) (job : Tune × Settings) :
    (build.add job).Running host startId := by
  obtain ⟨tune, settings⟩ := job
  cases compiled : tune.compile settings build.nextId with
  | error fault => rwa [add_of_error compiled]
  | ok compilation =>
      obtain ⟨staves, emitted, run, -⟩ := Tune.exists_staves compiled
      rw [← emitted, running.next] at run
      have whole : RunsFrom startId (build.nodes ++ compilation.graph.nodes) :=
        RunsFrom.append_iff.mpr ⟨running.run, run⟩
      have next : (build.add (tune, settings)).nextId = build.nextId + compilation.graph.size := by
        rw [add_of_ok compiled, (Tune.accounts_balance compiled).next]
      have apart : ((build.host.stored ++ compilation.graph.nodes.map Node.stored).map
          Block.id).Nodup := by
        rw [running.stored, List.append_assoc, ← List.map_append]
        exact nodup_of_runsFrom distinct below whole
      refine ⟨nodes_add compiled ▸ whole, ?_, ?_⟩
      · rw [next, running.next, nodes_add compiled, List.length_append, Graph.size]
        omega
      · rw [stored_add compiled, nodes_add compiled, List.map_append, ← List.append_assoc,
          ← running.stored, MemoryHost.putAll_of_new apart]

end Running

namespace MemoryHost

/-- What is built in a host by compiling tunes one after another, from an id on. -/
def build (host : MemoryHost) (startId : Int) (jobs : List (Tune × Settings)) : Build :=
  jobs.foldl Build.add { host, nextId := startId }

variable {host : MemoryHost} {startId : Int}

/-- What is built in a reachable host leaves it reachable. -/
theorem Reachable.build (reachable : host.Reachable) (startId : Int)
    (jobs : List (Tune × Settings)) : (host.build startId jobs).host.Reachable :=
  List.foldlRecOn (motive := fun build => build.host.Reachable) jobs Build.add reachable
    fun _ built job _ => Build.reachable_add built job

/-- What is built in a host with lower ids runs on from the id it begins with. -/
theorem running_build (distinct : (host.stored.map Block.id).Nodup)
    (below : ∀ block ∈ host.stored, block.id < startId) (jobs : List (Tune × Settings)) :
    (host.build startId jobs).Running host startId := by
  have begun : ({ host, nextId := startId } : Build).Running host startId :=
    ⟨trivial, (Int.add_zero startId).symm, (List.append_nil host.stored).symm⟩
  exact List.foldlRecOn jobs Build.add begun fun _ running job _ => running.add distinct below job

/-- An installation is refused as a whole if one of its values is no block: the error shows the
first such value, and it is not an error of the installation if that value cannot be spelled.
Otherwise the host holds the last block of every id in the list, keeps its other blocks, and counts
the installation. So a second installation of the same list adds nothing, lists without a common id
may be installed in any order, and tunes that are compiled one after another, each from the next id
of the one before, lose no block. -/
theorem holds_last_blocks (reachable : host.Reachable) (values : List Datum) :
    (∀ value, values.find? (·.blockId?.isNone) = some value →
      (∀ spelling, value.literal? = some spelling →
        host.install values = .error (.install (value.malformation spelling))) ∧
      (value.literal? = none → host.install values = .error .tooLong) ∧
      host.afterInstall values = host) ∧
    ((∀ value ∈ values, value.blockId?.isSome = true) →
      host.install values = .ok (host.afterInstall values) ∧
      (host.afterInstall values).installs = host.installs + 1 ∧
      ∀ id, (host.afterInstall values).get? id = (lastBlock? values id).or (host.get? id)) ∧
    SameStore ((host.afterInstall values).afterInstall values) (host.afterInstall values) ∧
    (∀ others, List.Disjoint (blockIds values) (blockIds others) →
      SameStore ((host.afterInstall values).afterInstall others)
          ((host.afterInstall others).afterInstall values) ∧
        ((host.afterInstall values).afterInstall others).installs =
          ((host.afterInstall others).afterInstall values).installs) ∧
    (∀ (tune : Tune) (settings : Settings) (startId : Int) (compilation : Compilation),
      tune.compile settings startId = .ok compilation →
        tune.install settings startId host.install =
          .ok (compilation, host.afterInstall compilation.graph.blocks)) ∧
    ∀ (startId : Int) (jobs : List (Tune × Settings)),
      (∀ id block, host.get? id = some block → id < startId) →
        (host.build startId jobs).host.Reachable ∧
        (host.build startId jobs).host.blocks =
          host.blocks ++ (host.build startId jobs).blocks ∧
        (host.build startId jobs).nodes.map Node.id =
          Int.range startId (host.build startId jobs).nextId := by
  refine ⟨fun value first => ⟨fun spelling spelled => ?_, fun unspelled => ?_,
    host.afterInstall_of_malformed ⟨value, first⟩⟩, fun wellFormed => ?_,
    reachable.sameStore_twice values,
    fun others apart => ⟨reachable.sameStore_swap apart, host.installs_swap values others⟩,
    ?_, fun startId jobs below => ?_⟩
  · rw [host.install_eq_error first, (Block.refusal_cases _ value).1 spelling spelled]
  · rw [host.install_eq_error first, (Block.refusal_cases _ value).2 unspelled]
  · refine ⟨?_, ?_, host.get?_afterInstall wellFormed⟩
    · rw [host.install_eq_ok wellFormed, host.afterInstall_of_wellFormed wellFormed]
    · rw [host.afterInstall_of_wellFormed wellFormed]
  · intro tune settings startId compilation compiled
    rw [tune.install_memory, compiled]
  · have lower : ∀ block ∈ host.stored, block.id < startId := fun block member =>
      below block.id block.datum (by rw [get?, (mem_iff_find? reachable.distinct).mp member]; rfl)
    have running := running_build reachable.distinct lower jobs
    refine ⟨reachable.build startId jobs, running.blocks_eq reachable.distinct lower, ?_⟩
    rw [running.next]
    exact running.run.map_id

/-- A list of one integer, the least that has too many digits. -/
def longValue : Datum := .list [.integer Numeral.tooLong]

/-- A list that is no block is not refused with an error of the installation if it holds an integer
that cannot be written out. -/
theorem refuses_longValue_otherwise : Reachable {} ∧ longValue.blockId? = none ∧
    ∀ fault, ({} : MemoryHost).install [longValue] ≠ .error (.install fault) := by
  refine ⟨.new, rfl, fun fault refused => ?_⟩
  have long : Numeral.ofInt? Numeral.tooLong = none := by
    rw [← Option.not_isSome_iff_eq_none, Numeral.isSome_ofInt?]
    decide +kernel
  have unspelled : longValue.literal? = none := by
    simp [longValue, Datum.literal?, Datum.literals?, Datum.literalScalar?, long]
  have first : [longValue].find? (·.blockId?.isNone) = some longValue := rfl
  rw [install_eq_error {} first, (Block.refusal_cases _ longValue).2 unspelled] at refused
  cases refused

/-- A block without a payload and without links. -/
def bareBlock (id : Int) (name : String) : Datum :=
  .list [.integer id, .text name, .integer 0, .integer 0, .list []]

/-- A host that holds one block. -/
def oneBlockHost : MemoryHost := ({} : MemoryHost).afterInstall [bareBlock 7 "start"]

theorem oneBlockHost_holds_last_blocks :
    oneBlockHost.install [bareBlock 7 "text", .null] =
      .error (.install (.malformedBlock "None")) ∧
    oneBlockHost.afterInstall [bareBlock 7 "text", .null] = oneBlockHost ∧
    (oneBlockHost.afterInstall [bareBlock 3 "text", bareBlock 3 "print"]).get? 3 =
      some (bareBlock 3 "print") ∧
    (oneBlockHost.afterInstall [bareBlock 3 "text", bareBlock 3 "print"]).get? 7 =
      some (bareBlock 7 "start") ∧
    SameStore ((oneBlockHost.afterInstall [bareBlock 3 "text"]).afterInstall [bareBlock 7 "text"])
      ((oneBlockHost.afterInstall [bareBlock 7 "text"]).afterInstall [bareBlock 3 "text"]) ∧
    (∃ compilation, (Tune.ofVoices Tune.crossingVoices).compile .standard 8 = .ok compilation ∧
      (Tune.ofVoices Tune.crossingVoices).install .standard 8 oneBlockHost.install =
        .ok (compilation, oneBlockHost.afterInstall compilation.graph.blocks)) ∧
    (oneBlockHost.build 8 [(.ofVoices Tune.crossingVoices, .standard)]).host.blocks =
      oneBlockHost.blocks ++
        (oneBlockHost.build 8 [(.ofVoices Tune.crossingVoices, .standard)]).blocks := by
  have reachable : oneBlockHost.Reachable := .install .new _
  have renewed := (holds_last_blocks reachable [bareBlock 3 "text", bareBlock 3 "print"]).2.1
    (by decide)
  have apart : List.Disjoint (blockIds [bareBlock 3 "text"]) (blockIds [bareBlock 7 "text"]) := by
    intro id low high
    have three : id = 3 := List.mem_singleton.mp low
    have seven : id = 7 := List.mem_singleton.mp high
    omega
  have below : ∀ id block, oneBlockHost.get? id = some block → id < 8 := by
    intro id block found
    obtain ⟨stored, held, -⟩ := Option.map_eq_some_iff.mp found
    have seven : stored = ⟨7, bareBlock 7 "start"⟩ :=
      List.mem_singleton.mp (List.mem_of_find?_eq_some held)
    have own : stored.id = id := by simpa using List.find?_some held
    rw [← own, seven]
    decide
  obtain ⟨compilation, compiled⟩ := Tune.compile_crossing (show 0 ≤ (8 : Int) by decide)
  have refused := (holds_last_blocks reachable [bareBlock 7 "text", .null]).1 .null rfl
  refine ⟨refused.1 "None" rfl, refused.2.2, renewed.2.2 3, renewed.2.2 7,
    ((holds_last_blocks reachable _).2.2.2.1 _ apart).1, ⟨compilation, compiled, ?_⟩,
    ((holds_last_blocks reachable []).2.2.2.2.2 8 _ below).2.1⟩
  exact (holds_last_blocks reachable []).2.2.2.2.1 _ _ _ _ compiled

end MemoryHost

end TuneGraph
