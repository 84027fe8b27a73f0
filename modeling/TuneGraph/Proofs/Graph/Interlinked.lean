import TuneGraph.Graph.Check
import TuneGraph.Proofs.Graph.Reciprocal
import Mathlib.Order.WellFoundedSet

/-! # Doubly linked forests

A graph is a doubly linked forest (`Graph.Interlinked`) if its forward links and its links
back agree, save where an instrument-setter holds a line-call directly, if only starts and
line-labels have nothing before them, and if forward links lead down a well-founded order.
Then every other node is held exactly once (`Graph.Interlinked.existsUnique_holds`) and is
reached from exactly one root (`Graph.Interlinked.existsUnique_root`). Two forests without a
common id are one forest (`Graph.Interlinked.append`).
-/

namespace TuneGraph

namespace Graph

/-- Kinds of the roots of a graph. -/
def isRootKind (kind : NodeKind) : Bool := kind == .start || kind == .lineLabel

/-- Whether a slot of a kind leads into a chain of calls and repeats. -/
def isChainSlot (kind : NodeKind) (slot : Nat) : Bool :=
  match kind with
  | .instrumentSetter => slot == Slot.instrumentBody
  | .lineCall => slot == Slot.callNext
  | .repetition => slot == Slot.repeatBody || slot == Slot.repeatNext
  | _ => false

/-- Calls and repeats are on the chain. -/
theorem isChainKind_iff {kind : NodeKind} :
    isChainKind kind = true ↔ kind = .lineCall ∨ kind = .repetition := by
  cases kind <;> decide

/-- The slots of the chain are not the one for the node before. -/
theorem one_le_of_isChainSlot {kind : NodeKind} {slot : Nat}
    (chain : isChainSlot kind slot = true) : 1 ≤ slot := by
  cases slot with
  | zero => cases kind <;> cases chain
  | succ slot => exact Nat.le_add_left 1 slot

/-- The slots of the chain are slots of their kind. -/
theorem lt_arity_of_isChainSlot {kind : NodeKind} {slot : Nat}
    (chain : isChainSlot kind slot = true) : slot < kind.arity := by
  cases kind <;>
    simp only [isChainSlot, Bool.false_eq_true, Bool.or_eq_true, beq_iff_eq] at chain <;>
    rcases chain with rfl | rfl <;> decide

/-- Whether an instrument-setter holds a line-call that does not link back. -/
def HeldDirectly (nodes : List Node) (holder held : Int) : Prop :=
  ∃ setter ∈ nodes, setter.id = holder ∧ setter.kind = .instrumentSetter ∧
    setter.link Slot.instrumentBody = some held ∧
      ∃ call ∈ nodes, call.id = held ∧ call.kind = .lineCall ∧ call.previous = none

/-- A doubly linked forest. -/
structure Interlinked (nodes : List Node) : Prop where
  unique : (nodes.map Node.id).Nodup
  reciprocal : ∃ direct, Reciprocal nodes direct ∧ (direct.map Prod.snd).Nodup ∧
    ∀ pair ∈ direct, HeldDirectly nodes pair.1 pair.2
  root_previous : ∀ node ∈ nodes, isRootKind node.kind = true → node.previous = none
  rooted : ∀ node ∈ nodes, node.previous = none →
    isRootKind node.kind = true ∨ ∃ holder, HeldDirectly nodes holder node.id
  chained : ∀ holder ∈ nodes, ∀ held ∈ nodes, ∀ slot, 1 ≤ slot →
    holder.link slot = some held.id → isChainKind held.kind = isChainSlot holder.kind slot
  wellFounded : WellFounded fun held holder => Leads nodes holder held

/-- What is held directly is held directly among more nodes. -/
theorem HeldDirectly.mono {nodes more : List Node} (subset : nodes ⊆ more) {holder held : Int}
    (direct : HeldDirectly nodes holder held) : HeldDirectly more holder held := by
  obtain ⟨setter, member, id, kind, link, call, present, rest⟩ := direct
  exact ⟨setter, subset member, id, kind, link, call, subset present, rest⟩

/-- What is held directly is held by the body of the instrument. -/
theorem HeldDirectly.holds {nodes : List Node} {holder held : Int}
    (direct : HeldDirectly nodes holder held) :
    Holds nodes holder Slot.instrumentBody held := by
  obtain ⟨setter, member, id, _, link, _⟩ := direct
  exact ⟨by decide, setter, member, id, link⟩

/-- Whatever a list without repetitions is mapped to tells where it came from. -/
theorem index_unique_of_filterMap_nodup {α β : Type} {f : α → Option β} {items : List α}
    (nodup : (items.filterMap f).Nodup) {i j : Nat} {a b : α} {c : β}
    (first : items[i]? = some a) (second : items[j]? = some b) (left : f a = some c)
    (right : f b = some c) : i = j := by
  obtain ⟨insideLeft, rfl⟩ := List.getElem?_eq_some_iff.mp first
  obtain ⟨insideRight, rfl⟩ := List.getElem?_eq_some_iff.mp second
  have apart := List.pairwise_iff_getElem.mp (List.pairwise_filterMap.mp nodup)
  rcases Nat.lt_trichotomy i j with before | same | after
  · exact absurd rfl (apart i j insideLeft insideRight before c left c right)
  · exact same
  · exact absurd rfl (apart j i insideRight insideLeft after c right c left)

namespace Interlinked

variable {nodes more : List Node} {holder other held : Int} {slot : Nat}

/-- No node is held twice. -/
theorem held_nodup (forest : Interlinked nodes) : ((heldPairs nodes).map Prod.snd).Nodup := by
  obtain ⟨direct, reciprocal, once, known⟩ := forest.reciprocal
  rw [(reciprocal.map Prod.snd).nodup_iff, List.map_append, List.nodup_append]
  refine ⟨forest.unique.sublist (previousPairs_snd_sublist nodes), once, ?_⟩
  rintro id answered _ loose rfl
  obtain ⟨⟨before, _⟩, member, rfl⟩ := List.mem_map.mp answered
  obtain ⟨pair, present, same⟩ := List.mem_map.mp loose
  obtain ⟨node, inside, id, previous⟩ := mem_previousPairs.mp member
  obtain ⟨_, _, _, _, _, call, callInside, callId, _, free⟩ := known pair present
  have equal : node = call := List.inj_on_of_nodup_map forest.unique inside callInside
    (id.trans (same.symm.trans callId.symm))
  rw [equal, free] at previous
  cases previous

/-- A node is held by one slot of one node at most. -/
theorem holds_unique (forest : Interlinked nodes) {place : Nat}
    (left : Holds nodes holder slot held) (right : Holds nodes other place held) :
    holder = other ∧ slot = place := by
  have pairs := List.inj_on_of_nodup_map forest.held_nodup (mem_heldPairs.mpr ⟨slot, left⟩)
    (mem_heldPairs.mpr ⟨place, right⟩) rfl
  obtain rfl : holder = other := congrArg Prod.fst pairs
  obtain ⟨forward, node, member, rfl, link⟩ := left
  obtain ⟨forwardToo, node', member', same, linkToo⟩ := right
  obtain rfl : node' = node := List.inj_on_of_nodup_map forest.unique member' member same
  obtain ⟨before, after, split⟩ := List.append_of_mem member
  have nodup : (heldPairsOf node').Nodup := by
    have all : (heldPairs nodes).Nodup := List.Nodup.of_map _ forest.held_nodup
    rw [split, heldPairs, List.flatMap_append, List.flatMap_cons] at all
    exact (List.nodup_append.mp (List.nodup_append.mp all).2.1).1
  have stored : ∀ place, 1 ≤ place → node'.link place = some held →
      (node'.links.drop 1)[place - 1]? = some (some held) := by
    intro place positive holds
    rw [List.getElem?_drop, Nat.add_sub_cancel' positive]
    exact Option.join_eq_some_iff.mp holds
  have same := index_unique_of_filterMap_nodup nodup (stored slot forward link)
    (stored place forwardToo linkToo) rfl rfl
  exact ⟨rfl, by omega⟩

/-- A forward link is answered by a link back, unless an instrument-setter holds a line-call
directly. -/
theorem answered_or_direct (forest : Interlinked nodes) (holds : Holds nodes holder slot held) :
    (∃ node ∈ nodes, node.id = held ∧ node.previous = some holder) ∨
      (HeldDirectly nodes holder held ∧ slot = Slot.instrumentBody) := by
  obtain ⟨direct, reciprocal, -, known⟩ := forest.reciprocal
  have member := reciprocal.mem_iff.mp (mem_heldPairs.mpr ⟨slot, holds⟩)
  rcases List.mem_append.mp member with back | loose
  · exact Or.inl (mem_previousPairs.mp back)
  · have direct := known _ loose
    exact Or.inr ⟨direct, (forest.holds_unique holds direct.holds).2⟩

/-- A node is held by the node before it. -/
theorem exists_holds (forest : Interlinked nodes) {node : Node} (member : node ∈ nodes)
    (previous : node.previous = some holder) : ∃ slot, Holds nodes holder slot node.id := by
  obtain ⟨direct, reciprocal, -, -⟩ := forest.reciprocal
  exact mem_heldPairs.mp (reciprocal.mem_iff.mpr (List.mem_append_left _
    (mem_previousPairs.mpr ⟨node, member, rfl, previous⟩)))

/-- Every node that is no root is held exactly once. -/
theorem existsUnique_holds (forest : Interlinked nodes) {node : Node} (member : node ∈ nodes)
    (inner : isRootKind node.kind = false) :
    ∃! place : Int × Nat, Holds nodes place.1 place.2 node.id := by
  have held : ∃ place : Int × Nat, Holds nodes place.1 place.2 node.id := by
    cases previous : node.previous with
    | some holder =>
        obtain ⟨slot, holds⟩ := forest.exists_holds member previous
        exact ⟨(holder, slot), holds⟩
    | none =>
        rcases forest.rooted node member previous with root | ⟨holder, direct⟩
        · rw [inner] at root
          cases root
        · exact ⟨(holder, Slot.instrumentBody), direct.holds⟩
  obtain ⟨place, holds⟩ := held
  refine ⟨place, holds, fun other also => ?_⟩
  obtain ⟨sameHolder, sameSlot⟩ := forest.holds_unique also holds
  exact Prod.ext sameHolder sameSlot

/-- A root is not held. -/
theorem not_holds_root (forest : Interlinked nodes) {node : Node} (member : node ∈ nodes)
    (root : isRootKind node.kind = true) : ¬Holds nodes holder slot node.id := by
  intro holds
  rcases forest.answered_or_direct holds with ⟨other, inside, same, previous⟩ | ⟨direct, -⟩
  · obtain rfl := List.inj_on_of_nodup_map forest.unique inside member same
    rw [forest.root_previous _ inside root] at previous
    cases previous
  · obtain ⟨_, _, _, _, _, call, inside, same, kind, _⟩ := direct
    obtain rfl := List.inj_on_of_nodup_map forest.unique inside member same
    rw [kind] at root
    cases root

/-- Whatever is held, and whatever holds, is a node. -/
theorem mem_ids_of_holds (forest : Interlinked nodes) (holds : Holds nodes holder slot held) :
    holder ∈ nodes.map Node.id ∧ held ∈ nodes.map Node.id := by
  refine ⟨?_, ?_⟩
  · obtain ⟨-, node, member, same, -⟩ := holds
    exact List.mem_map.mpr ⟨node, member, same⟩
  · rcases forest.answered_or_direct holds with ⟨node, member, same, -⟩ | ⟨direct, -⟩
    · exact List.mem_map.mpr ⟨node, member, same⟩
    · obtain ⟨_, _, _, _, _, call, member, same, -⟩ := direct
      exact List.mem_map.mpr ⟨call, member, same⟩

/-- What is before a node is one of the nodes. -/
theorem previous_mem_ids (forest : Interlinked nodes) {node : Node} (member : node ∈ nodes)
    (previous : node.previous = some holder) : holder ∈ nodes.map Node.id := by
  obtain ⟨slot, holds⟩ := forest.exists_holds member previous
  exact (forest.mem_ids_of_holds holds).1

/-- No way along the links leads back. -/
theorem acyclic (forest : Interlinked nodes) (id : Int) :
    ¬Relation.TransGen (Leads nodes) id id := by
  intro cycle
  have swapped := Relation.transGen_swap.mpr cycle
  exact (forest.wellFounded.transGen).irrefl.irrefl id swapped

/-- Every node is reached from a root: climbing from holder to holder ends, since forward links
do not lead back. -/
theorem exists_root (forest : Interlinked nodes) {node : Node} (member : node ∈ nodes) :
    ∃ root ∈ nodes, isRootKind root.kind = true ∧
      Relation.ReflTransGen (Leads nodes) root.id node.id := by
  have order : IsStrictOrder Int (Relation.TransGen (Leads nodes)) :=
    { irrefl := forest.acyclic, trans := fun _ _ _ => Relation.TransGen.trans }
  have founded := (List.finite_toSet (nodes.map Node.id)).wellFoundedOn
    (r := Relation.TransGen (Leads nodes))
  refine founded.induction (P := fun id => ∃ root ∈ nodes, isRootKind root.kind = true ∧
    Relation.ReflTransGen (Leads nodes) root.id id) (List.mem_map_of_mem member) ?_
  intro id present climb
  obtain ⟨node, member, rfl⟩ := List.mem_map.mp present
  cases root : isRootKind node.kind with
  | true => exact ⟨node, member, root, .refl⟩
  | false =>
      obtain ⟨⟨holder, slot⟩, holds, -⟩ := forest.existsUnique_holds member root
      obtain ⟨top, inside, kind, path⟩ :=
        climb holder (forest.mem_ids_of_holds holds).1 (.single ⟨slot, holds⟩)
      exact ⟨top, inside, kind, path.tail ⟨slot, holds⟩⟩

/-- Nothing but itself leads to a root. -/
theorem eq_of_path_to_root (forest : Interlinked nodes) {root : Node} (member : root ∈ nodes)
    (kind : isRootKind root.kind = true) {id : Int}
    (path : Relation.ReflTransGen (Leads nodes) id root.id) : id = root.id := by
  rcases path.cases_tail with same | ⟨last, -, slot, holds⟩
  · exact same.symm
  · exact (forest.not_holds_root member kind holds).elim

/-- Every node is reached from exactly one root. -/
theorem existsUnique_root (forest : Interlinked nodes) {node : Node} (member : node ∈ nodes) :
    ∃! root, root ∈ nodes ∧ isRootKind root.kind = true ∧
      Relation.ReflTransGen (Leads nodes) root.id node.id := by
  obtain ⟨root, inside, kind, path⟩ := forest.exists_root member
  refine ⟨root, ⟨inside, kind, path⟩, ?_⟩
  rintro other ⟨otherInside, otherKind, otherPath⟩
  have single : Relator.RightUnique (Function.swap (Leads nodes)) := by
    rintro held first second ⟨_, left⟩ ⟨_, right⟩
    exact (forest.holds_unique left right).1
  have compared := Relation.ReflTransGen.total_of_right_unique single
    (Relation.reflTransGen_swap.mpr path) (Relation.reflTransGen_swap.mpr otherPath)
  apply List.inj_on_of_nodup_map forest.unique otherInside inside
  rcases compared with down | up
  · exact forest.eq_of_path_to_root inside kind (Relation.reflTransGen_swap.mp down)
  · exact (forest.eq_of_path_to_root otherInside otherKind (Relation.reflTransGen_swap.mp up)).symm

/-- What is held directly is one of the nodes. -/
theorem mem_ids_of_heldDirectly {holder held : Int} (direct : HeldDirectly nodes holder held) :
    held ∈ nodes.map Node.id := by
  obtain ⟨_, _, _, _, _, call, member, same, -⟩ := direct
  exact List.mem_map.mpr ⟨call, member, same⟩

/-- The links of two lists of nodes are those of either. -/
theorem leads_append : Leads (nodes ++ more) holder held ↔
    Leads nodes holder held ∨ Leads more holder held := by
  simp only [← mem_heldPairs, heldPairs_append, List.mem_append]

/-- Below an id of one of two separate forests everything belongs to that forest. -/
theorem acc_append (forest : Interlinked nodes)
    (apart : ∀ id ∈ nodes.map Node.id, id ∉ more.map Node.id) {id : Int}
    (outside : id ∉ more.map Node.id) :
    Acc (fun held holder => Leads (nodes ++ more) holder held) id := by
  induction id using forest.wellFounded.induction with
  | _ id ih =>
      refine Acc.intro _ fun held leads => ?_
      rcases leads_append.mp leads with ⟨slot, here⟩ | ⟨_, _, node, member, same, _⟩
      · exact ih held ⟨slot, here⟩ (apart held (forest.mem_ids_of_holds here).2)
      · exact (outside (List.mem_map.mpr ⟨node, member, same⟩)).elim

/-- The direct links of two separate forests are those of both together. -/
theorem reciprocal_append (left : Interlinked nodes) (right : Interlinked more)
    (apart : ∀ id ∈ nodes.map Node.id, id ∉ more.map Node.id) :
    ∃ direct, Reciprocal (nodes ++ more) direct ∧ (direct.map Prod.snd).Nodup ∧
      ∀ pair ∈ direct, HeldDirectly (nodes ++ more) pair.1 pair.2 := by
  obtain ⟨direct, reciprocal, once, known⟩ := left.reciprocal
  obtain ⟨direct', reciprocal', once', known'⟩ := right.reciprocal
  refine ⟨direct ++ direct', ?_, ?_, ?_⟩
  · unfold Reciprocal at reciprocal reciprocal' ⊢
    rw [heldPairs_append, previousPairs_append]
    apply List.perm_iff_count.mpr
    intro pair
    have first := reciprocal.count_eq pair
    have second := reciprocal'.count_eq pair
    simp only [List.count_append] at first second ⊢
    omega
  · rw [List.map_append]
    refine List.nodup_append.mpr ⟨once, once', ?_⟩
    rintro a inLeft b inRight rfl
    obtain ⟨pair, member, same⟩ := List.mem_map.mp inLeft
    obtain ⟨pair', member', same'⟩ := List.mem_map.mp inRight
    have here := mem_ids_of_heldDirectly (known pair member)
    have there := mem_ids_of_heldDirectly (known' pair' member')
    rw [same] at here
    rw [same'] at there
    exact apart a here there
  · intro pair member
    rcases List.mem_append.mp member with here | there
    · exact (known pair here).mono (List.subset_append_left ..)
    · exact (known' pair there).mono (List.subset_append_right ..)

/-- Two forests without a common id are one forest. -/
theorem append (left : Interlinked nodes) (right : Interlinked more)
    (apart : ∀ id ∈ nodes.map Node.id, id ∉ more.map Node.id) : Interlinked (nodes ++ more) where
  unique := by
    rw [List.map_append]
    exact List.nodup_append.mpr
      ⟨left.unique, right.unique, fun a inLeft b inRight same => apart a inLeft (same ▸ inRight)⟩
  reciprocal := left.reciprocal_append right apart
  root_previous := by
    intro node member
    exact (List.mem_append.mp member).elim (left.root_previous node) (right.root_previous node)
  rooted := by
    intro node member free
    rcases List.mem_append.mp member with here | there
    · exact (left.rooted node here free).imp_right fun ⟨holder, direct⟩ =>
        ⟨holder, direct.mono (List.subset_append_left ..)⟩
    · exact (right.rooted node there free).imp_right fun ⟨holder, direct⟩ =>
        ⟨holder, direct.mono (List.subset_append_right ..)⟩
  chained := by
    intro holder holderIn held heldIn slot forward link
    rcases List.mem_append.mp holderIn with here | there
    · have inside := (left.mem_ids_of_holds ⟨forward, holder, here, rfl, link⟩).2
      rcases List.mem_append.mp heldIn with heldHere | heldThere
      · exact left.chained holder here held heldHere slot forward link
      · exact (apart held.id inside (List.mem_map_of_mem heldThere)).elim
    · have inside := (right.mem_ids_of_holds ⟨forward, holder, there, rfl, link⟩).2
      rcases List.mem_append.mp heldIn with heldHere | heldThere
      · exact (apart held.id (List.mem_map_of_mem heldHere) inside).elim
      · exact right.chained holder there held heldThere slot forward link
  wellFounded := by
    refine ⟨fun id => ?_⟩
    by_cases outside : id ∈ more.map Node.id
    · have swapped : Acc (fun held holder => Leads (more ++ nodes) holder held) id :=
        right.acc_append (fun id inRight inLeft => apart id inLeft inRight)
          fun inLeft => apart id inLeft outside
      have same : (fun held holder => Leads (nodes ++ more) holder held) =
          fun held holder => Leads (more ++ nodes) holder held := by
        funext held holder
        rw [leads_append, leads_append, or_comm]
      rw [same]
      exact swapped
    · exact left.acc_append apart outside

end Interlinked

end Graph

end TuneGraph
