import TuneGraph.Proofs.Graph.Interlinked
import Mathlib.Data.List.Nodup
import Mathlib.Data.List.Flatten

/-! # Chains

The chains of a graph begin in the bodies of its instrument-setters and go on through calls and
repeats (`Graph.ChainReached`). They are sound if they reach calls and repeats only, each of them
from one place (`Graph.Entered`).

A walk along the chains looks up nodes that are there (`Graph.walks_walk`), and it accounts for
every link that it follows: what the chains lead to is what the walk has entered together with what
it has found fault with (`Graph.Toured`). So it finds no fault exactly if the chains are sound, and
then it has entered what they reach (`Graph.walk_faultless_iff`, `Graph.mem_walk_iff`).
-/

namespace TuneGraph

namespace Graph

/-- The ids that chains reach: the bodies of the instrument-setters, and what follows a call or a
repeat that is reached or is repeated by it. -/
inductive ChainReached (nodes : List Node) : Int → Prop where
  | start {setter : Node} {id : Int} (member : setter ∈ nodes)
      (kind : setter.kind = .instrumentSetter)
      (link : setter.link Slot.instrumentBody = some id) : ChainReached nodes id
  | next {node : Node} {slot : Nat} {id : Int} (reached : ChainReached nodes node.id)
      (member : node ∈ nodes) (chain : isChainKind node.kind = true)
      (leads : isChainSlot node.kind slot = true) (link : node.link slot = some id) :
      ChainReached nodes id

/-- Whether a chain leads on to an id from a place, which is a slot of a node. -/
def ChainEdge (nodes : List Node) (place : Int × Nat) (held : Int) : Prop :=
  ∃ node ∈ nodes, node.id = place.1 ∧ isChainSlot node.kind place.2 = true ∧
    node.link place.2 = some held ∧
      (node.kind = .instrumentSetter ∨ isChainKind node.kind = true ∧ ChainReached nodes node.id)

/-- Whether a chain leads on from one id to another. -/
def ChainLeads (nodes : List Node) (holder held : Int) : Prop :=
  ∃ slot, ChainEdge nodes (holder, slot) held

/-- Whether chains reach calls and repeats only, and each of them from one place. -/
structure Entered (nodes : List Node) : Prop where
  chained : ∀ id, ChainReached nodes id →
    ∃ node ∈ nodes, node.id = id ∧ isChainKind node.kind = true
  once : ∀ id, ChainReached nodes id → ∃! place, ChainEdge nodes place id

/-- Whether every link leads to a node. -/
def Closed (nodes : List Node) : Prop :=
  ∀ node ∈ nodes, ∀ slot target, node.link slot = some target → target ∈ nodes.map Node.id

/-- The links through which a call or a repeat leads on. -/
def chainLinks (node : Node) : List (Option Int) :=
  match node.kind with
  | .repetition => [node.link Slot.repeatBody, node.link Slot.repeatNext]
  | .lineCall => [node.link Slot.callNext]
  | _ => []

/-- A walk along chains in which every node that is looked up is there. -/
inductive Walks (nodes : List Node) :
    List Int → List (Option Int) → List Int × List GraphFault → Prop where
  | done (entered : List Int) : Walks nodes entered [] (entered, [])
  | skip {entered : List Int} {stack : List (Option Int)} {outcome : List Int × List GraphFault}
      (rest : Walks nodes entered stack outcome) : Walks nodes entered (none :: stack) outcome
  | revisit {entered : List Int} {stack : List (Option Int)}
      {outcome : List Int × List GraphFault} {id : Int} (seen : id ∈ entered)
      (rest : Walks nodes entered stack outcome) :
      Walks nodes entered (some id :: stack) (outcome.1, .revisited id :: outcome.2)
  | enter {entered : List Int} {stack : List (Option Int)} {outcome : List Int × List GraphFault}
      {node : Node} (fresh : node.id ∉ entered) (found : findNode? nodes node.id = some node)
      (chain : isChainKind node.kind = true)
      (rest : Walks nodes (node.id :: entered) (chainLinks node ++ stack) outcome) :
      Walks nodes entered (some node.id :: stack) outcome
  | stray {entered : List Int} {stack : List (Option Int)} {outcome : List Int × List GraphFault}
      {node : Node} (fresh : node.id ∉ entered) (found : findNode? nodes node.id = some node)
      (strange : isChainKind node.kind = false) (rest : Walks nodes entered stack outcome) :
      Walks nodes entered (some node.id :: stack)
        (outcome.1, .strayNode node.kind node.id :: outcome.2)

section Walk

variable {nodes : List Node} {node : Node} {entered : List Int} {stack : List (Option Int)}
  {held : Int}

theorem mem_chainLinks (chain : isChainKind node.kind = true) : some held ∈ chainLinks node ↔
    ∃ slot, isChainSlot node.kind slot = true ∧ node.link slot = some held := by
  rcases isChainKind_iff.mp chain with kind | kind
  · rw [chainLinks, kind]
    simp only [List.mem_singleton, isChainSlot, beq_iff_eq, exists_eq_left]
    exact eq_comm
  · rw [chainLinks, kind]
    simp only [List.mem_cons, List.not_mem_nil, or_false, isChainSlot, Bool.or_eq_true,
      beq_iff_eq, or_and_right, exists_or, exists_eq_left]
    exact or_congr eq_comm eq_comm

/-- What a walk does at a fresh node depends on its kind. -/
theorem walk_found (fresh : node.id ∉ entered) (found : findNode? nodes node.id = some node) :
    walk nodes entered (some node.id :: stack) = match node.kind with
      | .repetition =>
        walk nodes (node.id :: entered)
          (node.link Slot.repeatBody :: node.link Slot.repeatNext :: stack)
      | .lineCall => walk nodes (node.id :: entered) (node.link Slot.callNext :: stack)
      | kind =>
        ((walk nodes entered stack).1,
          .strayNode kind node.id :: (walk nodes entered stack).2) := by
  have unseen : ¬entered.contains node.id = true := by simpa using fresh
  rw [walk, dif_neg unseen]
  split
  · rename_i missing
    rw [found] at missing
    cases missing
  · rename_i other same
    obtain rfl : node = other := Option.some.inj (found.symm.trans same)
    rfl

/-- A fresh call or repeat is entered, and its links are followed before the rest. -/
theorem walk_enter (fresh : node.id ∉ entered) (found : findNode? nodes node.id = some node)
    (chain : isChainKind node.kind = true) :
    walk nodes entered (some node.id :: stack) =
      walk nodes (node.id :: entered) (chainLinks node ++ stack) := by
  rw [walk_found fresh found]
  unfold chainLinks
  rcases isChainKind_iff.mp chain with kind | kind
  · simp only [kind, List.singleton_append]
  · simp only [kind, List.cons_append, List.nil_append]

/-- A node that is neither a call nor a repeat is found fault with and not entered. -/
theorem walk_stray (fresh : node.id ∉ entered) (found : findNode? nodes node.id = some node)
    (strange : isChainKind node.kind = false) : walk nodes entered (some node.id :: stack) =
      ((walk nodes entered stack).1,
        .strayNode node.kind node.id :: (walk nodes entered stack).2) := by
  rw [walk_found fresh found]
  generalize node.kind = kind at strange ⊢
  cases kind with
  | repetition => cases strange
  | lineCall => cases strange
  | _ => rfl

/-- A walk that finds its nodes finds them from a fresh call or repeat on. -/
theorem walks_enter (closed : Closed nodes) (fresh : node.id ∉ entered)
    (found : findNode? nodes node.id = some node) (chain : isChainKind node.kind = true)
    (known : ∀ id, some id ∈ some node.id :: stack → id ∈ nodes.map Node.id)
    (rest : (∀ id, some id ∈ chainLinks node ++ stack → id ∈ nodes.map Node.id) →
      Walks nodes (node.id :: entered) (chainLinks node ++ stack)
        (walk nodes (node.id :: entered) (chainLinks node ++ stack))) :
    Walks nodes entered (some node.id :: stack) (walk nodes entered (some node.id :: stack)) := by
  rw [walk_enter fresh found chain]
  refine .enter fresh found chain (rest fun id linked => ?_)
  rcases List.mem_append.mp linked with new | old
  · obtain ⟨slot, -, link⟩ := (mem_chainLinks chain).mp new
    exact closed node (mem_of_findNode? found) slot id link
  · exact known id (List.mem_cons_of_mem _ old)

/-- If all links lead to nodes, a walk finds every node that it looks up. -/
theorem walks_walk (closed : Closed nodes)
    (known : ∀ id, some id ∈ stack → id ∈ nodes.map Node.id) :
    Walks nodes entered stack (walk nodes entered stack) := by
  induction entered, stack using walk.induct nodes with
  | case1 entered =>
      rw [walk]
      exact .done entered
  | case2 entered stack ih =>
      rw [walk]
      exact .skip (ih fun id linked => known id (List.mem_cons_of_mem _ linked))
  | case3 entered id stack seen _ _ _ ih =>
      rw [walk, dif_pos seen]
      exact .revisit (by simpa using seen)
        (ih fun id linked => known id (List.mem_cons_of_mem _ linked))
  | case4 entered id stack fresh missing =>
      obtain ⟨node, found⟩ := exists_findNode? (known id List.mem_cons_self)
      rw [found] at missing
      cases missing
  | case5 entered id stack fresh node found kind ih =>
      obtain rfl := id_of_findNode? found
      refine walks_enter closed (by simpa using fresh) found (isChainKind_iff.mpr (Or.inr kind))
        known ?_
      simpa only [chainLinks, kind, List.cons_append, List.nil_append] using ih
  | case6 entered id stack fresh node found kind ih =>
      obtain rfl := id_of_findNode? found
      refine walks_enter closed (by simpa using fresh) found (isChainKind_iff.mpr (Or.inl kind))
        known ?_
      simpa only [chainLinks, kind, List.cons_append, List.nil_append] using ih
  | case7 entered id stack fresh node found _ _ _ noRepeat noCall ih =>
      obtain rfl := id_of_findNode? found
      have strange : isChainKind node.kind = false := by
        rw [Bool.eq_false_iff]
        exact fun chain => (isChainKind_iff.mp chain).elim noCall noRepeat
      have fresh : node.id ∉ entered := by simpa using fresh
      rw [walk_stray fresh found strange]
      exact .stray fresh found strange
        (ih fun id linked => known id (List.mem_cons_of_mem _ linked))

/-- The account of a walk: the nodes that it has entered, and what it has found fault with. Whatever
was to be followed, or is led to by a node that was entered, is entered once or found fault with. -/
structure Toured (nodes : List Node) (entered : List Int) (stack : List (Option Int))
    (outcome : List Int × List GraphFault) (visited : List Node) : Prop where
  inside : visited ⊆ nodes
  chained : ∀ node ∈ visited, isChainKind node.kind = true
  entered_eq : outcome.1 = (visited.map Node.id).reverse ++ entered
  nodup : entered.Nodup → outcome.1.Nodup
  reached : (∀ id, some id ∈ stack → ChainReached nodes id) →
    ∀ node ∈ visited, ChainReached nodes node.id
  balance : ((stack ++ visited.flatMap chainLinks).filterMap id).Perm
    (visited.map Node.id ++ outcome.2.map GraphFault.id)
  blamed : ∀ fault ∈ outcome.2, fault = .revisited fault.id ∧ fault.id ∈ outcome.1 ∨
    ∃ node ∈ nodes, isChainKind node.kind = false ∧ fault = .strayNode node.kind node.id

namespace Toured

variable {outcome : List Int × List GraphFault} {visited : List Node}

/-- Following a link with which the walk finds fault. -/
theorem blame (toured : Toured nodes entered stack outcome visited) (fault : GraphFault)
    (just : fault = .revisited fault.id ∧ fault.id ∈ entered ∨
      ∃ node ∈ nodes, isChainKind node.kind = false ∧ fault = .strayNode node.kind node.id) :
    Toured nodes entered (some fault.id :: stack) (outcome.1, fault :: outcome.2) visited where
  inside := toured.inside
  chained := toured.chained
  entered_eq := toured.entered_eq
  nodup := toured.nodup
  reached known := toured.reached fun id linked => known id (List.mem_cons_of_mem _ linked)
  balance := (toured.balance.cons fault.id).trans List.perm_middle.symm
  blamed := by
    refine List.forall_mem_cons.mpr ⟨just.imp_left fun seen => ⟨seen.1, ?_⟩, toured.blamed⟩
    rw [toured.entered_eq]
    exact List.mem_append_right _ seen.2

/-- Entering a node, and following its links before the rest. -/
theorem visit
    (toured : Toured nodes (node.id :: entered) (chainLinks node ++ stack) outcome visited)
    (member : node ∈ nodes) (fresh : node.id ∉ entered) (chain : isChainKind node.kind = true) :
    Toured nodes entered (some node.id :: stack) outcome (node :: visited) where
  inside := List.cons_subset.mpr ⟨member, toured.inside⟩
  chained := List.forall_mem_cons.mpr ⟨chain, toured.chained⟩
  entered_eq := by
    rw [toured.entered_eq, List.map_cons, List.reverse_cons, List.append_assoc,
      List.singleton_append]
  nodup old := toured.nodup (List.nodup_cons.mpr ⟨fresh, old⟩)
  reached := by
    intro known
    have here : ChainReached nodes node.id := known node.id List.mem_cons_self
    refine List.forall_mem_cons.mpr ⟨here, toured.reached fun id linked => ?_⟩
    rcases List.mem_append.mp linked with new | old
    · obtain ⟨slot, leads, link⟩ := (mem_chainLinks chain).mp new
      exact .next here member chain leads link
    · exact known id (List.mem_cons_of_mem _ old)
  balance := by
    have exchanged : (stack ++ (node :: visited).flatMap chainLinks).Perm
        ((chainLinks node ++ stack) ++ visited.flatMap chainLinks) := by
      rw [List.flatMap_cons, ← List.append_assoc]
      exact List.perm_append_comm.append_right _
    exact ((exchanged.filterMap id).trans toured.balance).cons node.id
  blamed := toured.blamed

end Toured

/-- Every walk that finds its nodes has an account. -/
theorem Walks.exists_toured {outcome : List Int × List GraphFault}
    (walks : Walks nodes entered stack outcome) :
    ∃ visited, Toured nodes entered stack outcome visited := by
  induction walks with
  | done entered =>
      exact ⟨[], List.nil_subset nodes, nofun, rfl, id, fun _ => nofun, .refl [], nofun⟩
  | skip rest ih =>
      obtain ⟨visited, toured⟩ := ih
      exact ⟨visited, { toured with
        reached := fun known => toured.reached fun id linked =>
          known id (List.mem_cons_of_mem _ linked) }⟩
  | revisit seen rest ih =>
      obtain ⟨visited, toured⟩ := ih
      exact ⟨visited, toured.blame (.revisited _) (Or.inl ⟨rfl, seen⟩)⟩
  | enter fresh found chain rest ih =>
      obtain ⟨visited, toured⟩ := ih
      exact ⟨_, toured.visit (mem_of_findNode? found) fresh chain⟩
  | stray fresh found strange rest ih =>
      obtain ⟨visited, toured⟩ := ih
      exact ⟨visited, toured.blame (.strayNode _ _)
        (Or.inr ⟨_, mem_of_findNode? found, strange, rfl⟩)⟩

end Walk

section Edges

variable {nodes holders : List Node} {node : Node} {place : Int × Nat} {held : Int}

/-- An id is reached if a chain leads on to it from some place. -/
theorem chainReached_iff : ChainReached nodes held ↔ ∃ place, ChainEdge nodes place held := by
  constructor
  · rintro (⟨member, kind, link⟩ | ⟨reached, member, chain, leads, link⟩)
    · exact ⟨(_, Slot.instrumentBody), _, member, rfl, by rw [kind]; rfl, link, Or.inl kind⟩
    · exact ⟨(_, _), _, member, rfl, leads, link, Or.inr ⟨chain, reached⟩⟩
  · rintro ⟨⟨_, slot⟩, node, member, rfl, leads, link, kind | ⟨chain, reached⟩⟩
    · rw [kind] at leads
      obtain rfl : slot = Slot.instrumentBody := by simpa [isChainSlot] using leads
      exact .start member kind link
    · exact .next reached member chain leads link

/-- The slots through which a kind leads on in chains. -/
def chainSlots : NodeKind → List Nat
  | .instrumentSetter => [Slot.instrumentBody]
  | .lineCall => [Slot.callNext]
  | .repetition => [Slot.repeatBody, Slot.repeatNext]
  | _ => []

theorem mem_chainSlots {kind : NodeKind} {slot : Nat} :
    slot ∈ chainSlots kind ↔ isChainSlot kind slot = true := by
  cases kind <;> simp [chainSlots, isChainSlot]

theorem nodup_chainSlots (kind : NodeKind) : (chainSlots kind).Nodup := by
  cases kind <;> decide

/-- The places from which a node leads on in chains, each with the id that it leads to. -/
def chainEdges (node : Node) : List ((Int × Nat) × Int) :=
  (chainSlots node.kind).filterMap fun slot => (node.link slot).map ((node.id, slot), ·)

theorem mem_chainEdges : (place, held) ∈ chainEdges node ↔
    node.id = place.1 ∧ isChainSlot node.kind place.2 = true ∧ node.link place.2 = some held := by
  obtain ⟨id, slot⟩ := place
  simp only [chainEdges, List.mem_filterMap, Option.map_eq_some_iff, Prod.mk.injEq, mem_chainSlots]
  constructor
  · rintro ⟨_, leads, _, link, ⟨rfl, rfl⟩, rfl⟩
    exact ⟨rfl, leads, link⟩
  · rintro ⟨rfl, leads, link⟩
    exact ⟨slot, leads, held, link, ⟨rfl, rfl⟩, rfl⟩

theorem map_snd_chainEdges (node : Node) : (chainEdges node).map Prod.snd =
    ((chainSlots node.kind).map node.link).filterMap id := by
  rw [chainEdges, List.map_filterMap, List.filterMap_map]
  refine List.filterMap_congr fun slot _ => ?_
  show ((node.link slot).map ((node.id, slot), ·)).map Prod.snd = node.link slot
  rw [Option.map_map]
  exact Option.map_id'

/-- Nodes with different ids lead on from different places. -/
theorem nodup_chainEdges (unique : (holders.map Node.id).Nodup) :
    (holders.flatMap chainEdges).Nodup := by
  refine List.nodup_flatMap.mpr ⟨fun node _ => ?_, ?_⟩
  · refine (nodup_chainSlots node.kind).filterMap fun slot other edge here there => ?_
    obtain ⟨_, -, rfl⟩ := Option.map_eq_some_iff.mp here
    obtain ⟨_, -, same⟩ := Option.map_eq_some_iff.mp there
    exact (congrArg (fun edge => edge.1.2) same).symm
  · refine (List.pairwise_map.mp unique).imp ?_
    rintro first second different ⟨place, held⟩ here there
    exact different ((mem_chainEdges.mp here).1.trans (mem_chainEdges.mp there).1.symm)

end Edges

/-- The nodes from which chains lead on: the instrument-setters, and what a walk has entered. -/
def holders (nodes visited : List Node) : List Node :=
  nodes.filter (·.kind == .instrumentSetter) ++ visited

namespace Toured

variable {nodes visited : List Node} {outcome : List Int × List GraphFault} {node : Node}
  {place : Int × Nat} {held : Int}

/-- The account of all chains: what they lead to is entered once or found fault with. -/
theorem perm_edges (toured : Toured nodes [] (chainStarts nodes) outcome visited) :
    (((holders nodes visited).flatMap chainEdges).map Prod.snd).Perm
      (visited.map Node.id ++ outcome.2.map GraphFault.id) := by
  have setters : chainStarts nodes = (nodes.filter (·.kind == .instrumentSetter)).flatMap
      fun node => (chainSlots node.kind).map node.link := by
    rw [chainStarts, List.map_eq_flatMap]
    refine List.flatMap_congr fun node member => ?_
    rw [beq_iff_eq.mp (List.mem_filter.mp member).2]
    rfl
  have entered : visited.flatMap chainLinks =
      visited.flatMap fun node => (chainSlots node.kind).map node.link := by
    refine List.flatMap_congr fun node member => ?_
    unfold chainLinks
    rcases isChainKind_iff.mp (toured.chained node member) with kind | kind <;> rw [kind] <;> rfl
  have balance := toured.balance
  rw [setters, entered, ← List.flatMap_append, List.filterMap_flatMap] at balance
  rw [holders, List.map_flatMap]
  simpa only [map_snd_chainEdges] using balance

/-- A call or a repeat that is led to has been entered: no fault is found with it before. -/
theorem mem_of_lead (toured : Toured nodes [] (chainStarts nodes) outcome visited)
    (unique : (nodes.map Node.id).Nodup) {holder : Node} {slot : Nat}
    (inside : holder ∈ holders nodes visited) (leads : isChainSlot holder.kind slot = true)
    (link : holder.link slot = some node.id) (member : node ∈ nodes)
    (chain : isChainKind node.kind = true) : node ∈ visited := by
  have visit (known : node.id ∈ visited.map Node.id) : node ∈ visited := by
    obtain ⟨other, met, same⟩ := List.mem_map.mp known
    rwa [← List.inj_on_of_nodup_map unique (toured.inside met) member same]
  have target : node.id ∈ ((holders nodes visited).flatMap chainEdges).map Prod.snd :=
    List.mem_map.mpr ⟨((holder.id, slot), node.id),
      List.mem_flatMap.mpr ⟨holder, inside, mem_chainEdges.mpr ⟨rfl, leads, link⟩⟩, rfl⟩
  rcases List.mem_append.mp (toured.perm_edges.mem_iff.mp target) with known | blamed
  · exact visit known
  · obtain ⟨fault, met, same⟩ := List.mem_map.mp blamed
    rcases toured.blamed fault met with ⟨-, seen⟩ | ⟨stray, strayIn, strange, rfl⟩
    · rw [toured.entered_eq, List.append_nil, List.mem_reverse, same] at seen
      exact visit seen
    · obtain rfl := List.inj_on_of_nodup_map unique strayIn member same
      rw [strange] at chain
      cases chain

/-- The calls and repeats that chains reach have been entered. -/
theorem mem_visited (toured : Toured nodes [] (chainStarts nodes) outcome visited)
    (unique : (nodes.map Node.id).Nodup) (reached : ChainReached nodes held)
    (member : node ∈ nodes) (same : node.id = held) (chain : isChainKind node.kind = true) :
    node ∈ visited := by
  induction reached generalizing node with
  | start setterIn kind link =>
      subst same
      refine toured.mem_of_lead unique (List.mem_append_left _ (List.mem_filter.mpr
        ⟨setterIn, beq_iff_eq.mpr kind⟩)) ?_ link member chain
      rw [kind]
      rfl
  | next _ holderIn holderChain leads link ih =>
      subst same
      exact toured.mem_of_lead unique (List.mem_append_right _ (ih holderIn rfl holderChain)) leads
        link member chain

/-- The walk has led on from the places from which the chains lead on. -/
theorem mem_edges_iff (toured : Toured nodes [] (chainStarts nodes) outcome visited)
    (unique : (nodes.map Node.id).Nodup) :
    (place, held) ∈ (holders nodes visited).flatMap chainEdges ↔ ChainEdge nodes place held := by
  have started : ∀ id, some id ∈ chainStarts nodes → ChainReached nodes id := by
    intro id linked
    obtain ⟨setter, inside, link⟩ := List.mem_map.mp linked
    obtain ⟨member, kind⟩ := List.mem_filter.mp inside
    exact .start member (beq_iff_eq.mp kind) link
  simp only [List.mem_flatMap, mem_chainEdges]
  constructor
  · rintro ⟨node, inside, here, leads, link⟩
    rcases List.mem_append.mp inside with setter | met
    · obtain ⟨member, kind⟩ := List.mem_filter.mp setter
      exact ⟨node, member, here, leads, link, Or.inl (beq_iff_eq.mp kind)⟩
    · exact ⟨node, toured.inside met, here, leads, link,
        Or.inr ⟨toured.chained node met, toured.reached started node met⟩⟩
  · rintro ⟨node, member, here, leads, link, kind | ⟨chain, reached⟩⟩
    · exact ⟨node, List.mem_append_left _ (List.mem_filter.mpr ⟨member, beq_iff_eq.mpr kind⟩),
        here, leads, link⟩
    · exact ⟨node, List.mem_append_right _ (toured.mem_visited unique reached member rfl chain),
        here, leads, link⟩

theorem nodup_visited (toured : Toured nodes [] (chainStarts nodes) outcome visited) :
    (visited.map Node.id).Nodup := by
  have once := toured.nodup List.nodup_nil
  rwa [toured.entered_eq, List.append_nil, List.nodup_reverse] at once

theorem nodup_edges (toured : Toured nodes [] (chainStarts nodes) outcome visited)
    (unique : (nodes.map Node.id).Nodup) : ((holders nodes visited).flatMap chainEdges).Nodup := by
  refine nodup_chainEdges ?_
  rw [holders, List.map_append]
  refine List.nodup_append.mpr
    ⟨unique.sublist (List.filter_sublist.map Node.id), toured.nodup_visited, ?_⟩
  rintro id setterIn _ metIn rfl
  obtain ⟨setter, inside, rfl⟩ := List.mem_map.mp setterIn
  obtain ⟨node, met, same⟩ := List.mem_map.mp metIn
  obtain ⟨member, kind⟩ := List.mem_filter.mp inside
  obtain rfl := List.inj_on_of_nodup_map unique (toured.inside met) member same
  have chain := toured.chained node met
  rw [beq_iff_eq.mp kind] at chain
  cases chain

/-- What the chains reach is what the walk has entered or found fault with. -/
theorem reached_iff (toured : Toured nodes [] (chainStarts nodes) outcome visited)
    (unique : (nodes.map Node.id).Nodup) : ChainReached nodes held ↔
      held ∈ visited.map Node.id ++ outcome.2.map GraphFault.id := by
  rw [← toured.perm_edges.mem_iff, chainReached_iff]
  simp only [List.mem_map, Prod.exists, exists_eq_right, ← toured.mem_edges_iff unique]

/-- Every id is reached from one place if the walk has led to no id twice. -/
theorem once_iff (toured : Toured nodes [] (chainStarts nodes) outcome visited)
    (unique : (nodes.map Node.id).Nodup) :
    (∀ id, ChainReached nodes id → ∃! place, ChainEdge nodes place id) ↔
      (visited.map Node.id ++ outcome.2.map GraphFault.id).Nodup := by
  rw [← toured.perm_edges.nodup_iff, List.nodup_map_iff_inj_on (toured.nodup_edges unique)]
  constructor
  · rintro once ⟨place, held⟩ here ⟨other, _⟩ there rfl
    have first := (toured.mem_edges_iff unique).mp here
    have second := (toured.mem_edges_iff unique).mp there
    rw [(once held (chainReached_iff.mpr ⟨place, first⟩)).unique first second]
  · intro apart id reached
    obtain ⟨place, edge⟩ := chainReached_iff.mp reached
    refine ⟨place, edge, fun other also => ?_⟩
    have same := apart _ ((toured.mem_edges_iff unique).mpr also) _
      ((toured.mem_edges_iff unique).mpr edge) rfl
    exact congrArg Prod.fst same

/-- A walk finds no fault exactly if chains reach calls and repeats only, each from one place. -/
theorem faultless_iff (toured : Toured nodes [] (chainStarts nodes) outcome visited)
    (unique : (nodes.map Node.id).Nodup) : outcome.2 = [] ↔ Entered nodes := by
  constructor
  · intro faultless
    have all : visited.map Node.id ++ outcome.2.map GraphFault.id = visited.map Node.id := by
      rw [faultless, List.map_nil, List.append_nil]
    refine ⟨fun id reached => ?_, (toured.once_iff unique).mpr ?_⟩
    swap
    · rw [all]
      exact toured.nodup_visited
    rw [toured.reached_iff unique, all] at reached
    obtain ⟨node, met, same⟩ := List.mem_map.mp reached
    exact ⟨node, toured.inside met, same, toured.chained node met⟩
  · intro sound
    rw [List.eq_nil_iff_forall_not_mem]
    intro fault met
    have blamed : fault.id ∈ outcome.2.map GraphFault.id := List.mem_map_of_mem met
    rcases toured.blamed fault met with ⟨-, seen⟩ | ⟨stray, strayIn, strange, rfl⟩
    · rw [toured.entered_eq, List.append_nil, List.mem_reverse] at seen
      have apart := (toured.once_iff unique).mp sound.once
      exact (List.nodup_append.mp apart).2.2 _ seen _ blamed rfl
    · have reached := (toured.reached_iff unique).mpr (List.mem_append_right _ blamed)
      obtain ⟨node, member, same, chain⟩ := sound.chained _ reached
      obtain rfl := List.inj_on_of_nodup_map unique strayIn member same.symm
      rw [strange] at chain
      cases chain

end Toured

section Chains

variable {nodes : List Node}

/-- A chain that leads back to an id leads back to what leads to it, if that is one place. -/
theorem Entered.cycle_back (sound : Entered nodes) {id holder : Int}
    (reached : ChainReached nodes id)
    (leads : ChainLeads nodes holder id) (cycle : Relation.TransGen (ChainLeads nodes) id id) :
    ChainReached nodes holder ∧ Relation.TransGen (ChainLeads nodes) holder holder := by
  obtain ⟨last, path, closing⟩ := Relation.TransGen.tail'_iff.mp cycle
  obtain ⟨place, -, only⟩ := sound.once id reached
  obtain rfl : last = holder := by
    obtain ⟨slot, edge⟩ := leads
    obtain ⟨other, lastEdge⟩ := closing
    exact congrArg Prod.fst ((only _ lastEdge).trans (only _ edge).symm)
  refine ⟨?_, .head' closing path⟩
  rcases path.cases_tail with rfl | ⟨before, -, slot, edge⟩
  · exact reached
  · exact chainReached_iff.mpr ⟨_, edge⟩

/-- Sound chains do not lead back: the cycle would run back along the way by which it was reached,
up to an instrument-setter, to which no chain leads. -/
theorem Entered.acyclic (sound : Entered nodes) (unique : (nodes.map Node.id).Nodup) {id : Int}
    (reached : ChainReached nodes id) : ¬Relation.TransGen (ChainLeads nodes) id id := by
  induction reached with
  | @start setter id member kind link =>
      intro cycle
      have edge : ChainEdge nodes (setter.id, Slot.instrumentBody) id :=
        ⟨setter, member, rfl, by rw [kind]; rfl, link, Or.inl kind⟩
      have entered := (sound.cycle_back (.start member kind link) ⟨_, edge⟩ cycle).1
      obtain ⟨node, inside, same, chain⟩ := sound.chained _ entered
      obtain rfl := List.inj_on_of_nodup_map unique inside member same
      rw [kind] at chain
      cases chain
  | @next node slot id reached member chain leads link ih =>
      intro cycle
      have edge : ChainEdge nodes (node.id, slot) id :=
        ⟨node, member, rfl, leads, link, Or.inr ⟨chain, reached⟩⟩
      exact ih (sound.cycle_back (.next reached member chain leads link) ⟨_, edge⟩ cycle).2

/-- The walk along all chains finds the nodes that it looks up. -/
theorem walks_chains (closed : Closed nodes) :
    Walks nodes [] (chainStarts nodes) (walk nodes [] (chainStarts nodes)) := by
  refine walks_walk closed fun id linked => ?_
  obtain ⟨setter, inside, link⟩ := List.mem_map.mp linked
  exact closed setter (List.mem_filter.mp inside).1 _ id link

theorem walk_faultless_iff (unique : (nodes.map Node.id).Nodup) (closed : Closed nodes) :
    (walk nodes [] (chainStarts nodes)).2 = [] ↔ Entered nodes := by
  obtain ⟨visited, toured⟩ := (walks_chains closed).exists_toured
  exact toured.faultless_iff unique

/-- A walk without faults has entered what the chains reach. -/
theorem mem_walk_iff (unique : (nodes.map Node.id).Nodup) (closed : Closed nodes)
    (sound : Entered nodes) {id : Int} :
    id ∈ (walk nodes [] (chainStarts nodes)).1 ↔ ChainReached nodes id := by
  obtain ⟨visited, toured⟩ := (walks_chains closed).exists_toured
  rw [toured.reached_iff unique, (toured.faultless_iff unique).mpr sound, toured.entered_eq]
  simp only [List.append_nil, List.mem_reverse, List.map_nil]

/-- Whatever a walk finds fault with is an error. -/
theorem severity_of_mem_walk (closed : Closed nodes) {fault : GraphFault}
    (met : fault ∈ (walk nodes [] (chainStarts nodes)).2) : fault.severity = .error := by
  obtain ⟨visited, toured⟩ := (walks_chains closed).exists_toured
  rcases toured.blamed fault met with ⟨same, -⟩ | ⟨node, -, -, rfl⟩
  · rw [same]
    rfl
  · rfl

end Chains

end Graph

end TuneGraph
