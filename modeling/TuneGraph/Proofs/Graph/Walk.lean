import TuneGraph.Proofs.Graph.Verdict

/-! # Walking the chains of a forest

The chains of a doubly linked forest are sound (`Graph.Interlinked.wellChained`), and they reach
every call and every repeat (`Graph.Interlinked.chainReached`). Every node is held by the node
before it, so that such a graph has no fault at all (`Graph.Interlinked.faults_eq_nil`).
-/

namespace TuneGraph

namespace Graph

/-- Where a chain leads on, a forward link does. -/
theorem ChainEdge.holds {nodes : List Node} {place : Int × Nat} {held : Int}
    (edge : ChainEdge nodes place held) : Holds nodes place.1 place.2 held := by
  obtain ⟨node, member, same, leads, link, -⟩ := edge
  exact ⟨one_le_of_isChainSlot leads, node, member, same, link⟩

namespace Interlinked

variable {nodes : List Node} {node : Node}

/-- Every link of a forest leads to one of its nodes. -/
theorem closed (forest : Interlinked nodes) : Closed nodes := by
  intro node member slot target link
  cases slot with
  | zero => exact forest.previous_mem_ids member link
  | succ slot =>
      exact (forest.mem_ids_of_holds ⟨Nat.le_add_left 1 slot, node, member, rfl, link⟩).2

/-- Chain slots hold calls and repeats only, and nothing is held from two places. -/
theorem wellChained (forest : Interlinked nodes) : WellChained nodes where
  unique := forest.unique
  closed := forest.closed
  entered :=
    { chained := by
        intro id reached
        obtain ⟨place, edge⟩ := chainReached_iff.mp reached
        obtain ⟨node, member, rfl⟩ := List.mem_map.mp (forest.mem_ids_of_holds edge.holds).2
        obtain ⟨holder, inside, -, leads, link, -⟩ := edge
        refine ⟨node, member, rfl, ?_⟩
        rw [forest.chained holder inside node member _ (one_le_of_isChainSlot leads) link, leads]
      once := by
        intro id reached
        obtain ⟨place, edge⟩ := chainReached_iff.mp reached
        refine ⟨place, edge, fun other also => ?_⟩
        obtain ⟨sameHolder, sameSlot⟩ := forest.holds_unique also.holds edge.holds
        exact Prod.ext sameHolder sameSlot }

/-- The chains reach every call and every repeat: climbing from holder to holder, one leaves the
calls and repeats through an instrument-setter. -/
theorem chainReached (forest : Interlinked nodes) (member : node ∈ nodes)
    (chain : isChainKind node.kind = true) : ChainReached nodes node.id := by
  obtain ⟨root, inside, kind, path⟩ := forest.exists_root member
  suffices all : ∀ id, Relation.ReflTransGen (Leads nodes) root.id id → ∀ node ∈ nodes,
      node.id = id → isChainKind node.kind = true → ChainReached nodes id from
    all node.id path node member rfl chain
  intro id path
  induction path with
  | refl =>
      intro node member same chain
      obtain rfl := List.inj_on_of_nodup_map forest.unique member inside same
      rcases isChainKind_iff.mp chain with call | repetition
      · rw [call] at kind
        cases kind
      · rw [repetition] at kind
        cases kind
  | @tail before id path leads ih =>
      rintro node member rfl chain
      obtain ⟨slot, forward, holder, holderIn, rfl, link⟩ := leads
      have chainSlot : isChainSlot holder.kind slot = true :=
        (forest.chained holder holderIn node member slot forward link).symm.trans chain
      cases holderChain : isChainKind holder.kind with
      | true => exact .next (ih holder holderIn rfl holderChain) holderIn holderChain chainSlot link
      | false =>
          have setter : holder.kind = .instrumentSetter := by
            generalize holder.kind = kind at chainSlot holderChain
            cases kind <;> first | rfl | cases chainSlot | cases holderChain
          rw [setter] at chainSlot
          obtain rfl : slot = Slot.instrumentBody := by simpa [isChainSlot] using chainSlot
          exact .start holderIn setter link

theorem unreachable_eq_nil (forest : Interlinked nodes) :
    unreachable nodes (walk nodes [] (chainStarts nodes)).1 = [] := by
  rw [unreachable, List.map_eq_nil_iff, List.filter_eq_nil_iff]
  intro node member stray
  rw [Bool.and_eq_true] at stray
  have entered := (mem_walk_iff forest.unique forest.closed forest.wellChained.entered).mpr
    (forest.chainReached member stray.1)
  simp [entered] at stray

theorem oneWayLinks_eq_nil (forest : Interlinked nodes) : oneWayLinks nodes = [] := by
  refine List.filterMap_eq_nil_iff.mpr fun node inside => Option.eq_none_iff_forall_ne_some.mpr ?_
  have member := (List.mem_filter.mp inside).1
  intro fault blamed
  obtain ⟨parent, previous, loose, -⟩ :=
    (oneWayLink?_eq_some_iff forest.unique forest.closed member).mp blamed
  exact loose (forest.exists_holds member previous)

/-- Nothing is wrong with a doubly linked forest. -/
theorem faults_eq_nil (forest : Interlinked nodes) {schema name : String} :
    ({ schema, name, nodes } : Graph).faults = [] := by
  have walked := (walk_faultless_iff forest.unique forest.closed).mpr forest.wellChained.entered
  rw [faults_of_sound forest.unique forest.closed, walked, unreachable_eq_nil forest,
    oneWayLinks_eq_nil forest]
  rfl

end Interlinked

end Graph

end TuneGraph
