import TuneGraph.Proofs.Graph.Interlinked

/-! # What repeats leave as it is

Repeats are spliced in by changing the links of calls and of other repeats, and the slot in which
an instrument-setter holds the first line. Everything else stays as it was emitted: the still nodes
of a graph (`Graph.stillNodes`), in which calls have no links, are the same after each of these
changes (`Graph.stillNodes_relink`).
-/

namespace TuneGraph

open TuneGraph.Graph

namespace NodeKind

/-- Whether nodes of a kind are among the still nodes. -/
def isStill (kind : NodeKind) : Bool := kind != .repetition && kind != .repeatCount

/-- Whether nodes of a kind keep all their links. -/
def isFixed (kind : NodeKind) : Bool :=
  kind.isStill && kind != .lineCall && kind != .instrumentSetter

end NodeKind

namespace Node

def unlinked (node : Node) : Node :=
  { node with links := List.replicate node.kind.arity none, arity := List.length_replicate }

/-- What a node has that repeats do not change; nothing if it belongs to a repeat. -/
def still? (node : Node) : Option Node :=
  match node.kind with
  | .repetition | .repeatCount => none
  | .lineCall => some node.unlinked
  | .instrumentSetter => some (node.setLink Slot.instrumentBody none)
  | _ => some node

variable {node still : Node}

theorem setLink_setLink (slot : Nat) (first second : Option Int) :
    (node.setLink slot first).setLink slot second = node.setLink slot second := by
  simp only [setLink, List.set_set]

/-- A chain kind, or a chain slot of any kind, may have another target. -/
theorem still?_setLink {slot : Nat}
    (loose : isChainKind node.kind = true ∨ isChainSlot node.kind slot = true)
    (target : Option Int) : (node.setLink slot target).still? = node.still? := by
  unfold still?
  rw [setLink_kind]
  split
  case h_4 setter =>
    rw [setter] at loose
    obtain rfl : slot = Slot.instrumentBody := by simpa [isChainKind, isChainSlot] using loose
    rw [setLink_setLink]
  case h_5 =>
    cases kind : node.kind <;> simp_all [isChainKind, isChainSlot]
  all_goals rfl

theorem isSome_still? (node : Node) : node.still?.isSome = node.kind.isStill := by
  unfold still?
  split
  case h_5 =>
    cases kind : node.kind <;> simp_all [NodeKind.isStill]
  all_goals simp_all [NodeKind.isStill]

theorem still?_eq_some (same : node.still? = some still) :
    still.id = node.id ∧ still.kind = node.kind ∧ still.value = node.value := by
  unfold still? at same
  split at same <;> cases same <;> exact ⟨rfl, rfl, rfl⟩

theorem still?_of_fixed (fixed : node.kind.isFixed = true) : node.still? = some node := by
  unfold still?
  split
  case h_5 => rfl
  all_goals simp_all [NodeKind.isFixed, NodeKind.isStill]

theorem still?_of_setter (setter : node.kind = .instrumentSetter) :
    node.still? = some (node.setLink Slot.instrumentBody none) := by
  simp only [still?, setter]

end Node

namespace Graph

/-- What repeats leave as it is in a graph. -/
def stillNodes (nodes : List Node) : List Node := nodes.filterMap Node.still?

variable {nodes more : List Node} {id : Int} {slot : Nat} {kind : NodeKind} {still : Node}

@[simp] theorem stillNodes_append :
    stillNodes (nodes ++ more) = stillNodes nodes ++ stillNodes more :=
  List.filterMap_append

theorem stillNodes_subset (inside : nodes ⊆ more) : stillNodes nodes ⊆ stillNodes more := by
  intro node member
  obtain ⟨whole, known, same⟩ := List.mem_filterMap.mp member
  exact List.mem_filterMap.mpr ⟨whole, inside known, same⟩

/-- Changing a link of a call or of a repeat, or the line that is held, leaves the still nodes. -/
theorem stillNodes_relink (unique : (nodes.map Node.id).Nodup)
    (known : kindOf nodes id = some kind)
    (loose : isChainKind kind = true ∨ isChainSlot kind slot = true) (target : Option Int) :
    stillNodes (relink nodes id slot target) = stillNodes nodes := by
  unfold stillNodes relink
  rw [List.filterMap_map]
  apply List.filterMap_congr
  intro node member
  rw [Function.comp_apply]
  split
  · rename_i here
    rw [← here, kindOf_of_mem unique member] at known
    obtain rfl := Option.some.inj known
    exact Node.still?_setLink loose target
  · rfl

/-- The ids of a kind can be read off the still nodes. -/
theorem idsOf_stillNodes (kept : kind.isStill = true) (nodes : List Node) :
    idsOf kind (stillNodes nodes) = idsOf kind nodes := by
  induction nodes with
  | nil => rfl
  | cons node rest ih =>
      unfold stillNodes idsOf at ih ⊢
      cases still : node.still? with
      | none =>
          have away : node.kind ≠ kind := by
            rintro rfl
            rw [← node.isSome_still?, still] at kept
            cases kept
          rw [List.filterMap_cons_none still, ih, List.filter_cons_of_neg (by simpa using away)]
      | some same =>
          obtain ⟨sameId, sameKind, -⟩ := Node.still?_eq_some still
          rw [List.filterMap_cons_some still, List.filter_cons, List.filter_cons, sameKind]
          split
          · rw [List.map_cons, List.map_cons, sameId, ih]
          · exact ih

/-- A still node shows the id, the kind and the value of a node of the graph. -/
theorem exists_of_mem_stillNodes (unique : (nodes.map Node.id).Nodup)
    (member : still ∈ stillNodes nodes) : ∃ node, findNode? nodes still.id = some node ∧
      node.kind = still.kind ∧ node.value = still.value ∧ node.still? = some still := by
  obtain ⟨node, present, same⟩ := List.mem_filterMap.mp member
  obtain ⟨sameId, sameKind, sameValue⟩ := Node.still?_eq_some same
  exact ⟨node, sameId ▸ findNode?_of_mem unique present, sameKind.symm, sameValue.symm, same⟩

/-- A still node of a fixed kind is a node of the graph. -/
theorem findNode?_of_mem_stillNodes (unique : (nodes.map Node.id).Nodup)
    (member : still ∈ stillNodes nodes) (fixed : still.kind.isFixed = true) :
    findNode? nodes still.id = some still := by
  obtain ⟨node, found, sameKind, -, same⟩ := exists_of_mem_stillNodes unique member
  rw [Node.still?_of_fixed (sameKind ▸ fixed)] at same
  rw [found, Option.some.inj same]

end Graph

end TuneGraph
