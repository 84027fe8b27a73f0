import TuneGraph.Graph.Summary
import TuneGraph.Proofs.Graph.Link
import Mathlib.Data.List.Forall2

/-! # Graphs that begin at different ids

A graph is moved by adding a distance to all its ids and links (`Graph.shift`), which keeps its
shape (`Graph.normalized?_shift`). Two lists of nodes are parallel if each node of the second is the
node in its place of the first, moved by a common distance, with a payload that is alike
(`Node.Parallel`). Lookups and changes of links keep to this: whatever is found or written at an id
in the first list is found or written at the moved id in the second.
-/

namespace TuneGraph

/-- A node with a distance added to its id and to all its links. -/
def Node.shift (node : Node) (distance : Int) : Node :=
  { node with
    id := node.id + distance
    links := node.links.map (Option.map (· + distance))
    arity := by rw [List.length_map]; exact node.arity }

/-- A graph with a distance added to all its ids and links. -/
def Graph.shift (graph : Graph) (distance : Int) : Graph :=
  { graph with nodes := graph.nodes.map (·.shift distance) }

/-- Whether a node is another one, moved by a distance. The payloads only have to be alike. -/
structure Node.Parallel (distance : Int)
    (alike : Option (List (String × Datum)) → Option (List (String × Datum)) → Prop)
    (node other : Node) : Prop where
  id : other.id = node.id + distance
  kind : other.kind = node.kind
  links : other.links = node.links.map (Option.map (· + distance))
  position : other.position = node.position
  payload : alike node.payload other.payload

variable {distance : Int}
  {alike : Option (List (String × Datum)) → Option (List (String × Datum)) → Prop}

/-- Links that are shifted alike are the same. -/
theorem map_add_injective (distance : Int) :
    Function.Injective (Option.map (· + distance) : Option Int → Option Int) :=
  Option.map_injective fun _ _ same => (Int.add_left_inj distance).mp same

namespace Node.Parallel

variable {node other : Node}

/-- The links of parallel nodes are shifted. -/
theorem link (parallel : node.Parallel distance alike other) (slot : Nat) :
    other.link slot = (node.link slot).map (· + distance) := by
  rw [Node.link, parallel.links, List.getElem?_map, Option.join_map_eq_map_join]
  rfl

/-- What is before parallel nodes is shifted. -/
theorem previous (parallel : node.Parallel distance alike other) :
    other.previous = node.previous.map (· + distance) := parallel.link Slot.previous

/-- To set a link keeps nodes parallel. -/
theorem setLink (parallel : node.Parallel distance alike other) (slot : Nat)
    (target : Option Int) :
    (node.setLink slot target).Parallel distance alike
      (other.setLink slot (target.map (· + distance))) where
  id := parallel.id
  kind := parallel.kind
  links := by
    show other.links.set slot _ = (node.links.set slot target).map _
    rw [parallel.links, List.map_set]
  position := parallel.position
  payload := parallel.payload

/-- A target and the moved target stand in the same slot. -/
theorem slotOf (parallel : node.Parallel distance alike other) (target : Option Int)
    (start : Nat) :
    other.slotOf (target.map (· + distance)) start = node.slotOf target start := by
  unfold Node.slotOf
  rw [parallel.links, List.length_map]
  congr 1
  funext slot
  rw [Bool.eq_iff_iff, beq_iff_eq, beq_iff_eq, List.getElem?_map]
  exact (Option.map_injective (map_add_injective distance)).eq_iff (b := some target)

/-- Nodes that are parallel and alike are shifted. -/
theorem eq_shift (parallel : node.Parallel distance Eq other) : other = node.shift distance := by
  obtain ⟨id, kind, links, payload, position, arity⟩ := node
  obtain ⟨id', kind', links', payload', position', arity'⟩ := other
  obtain ⟨sameId, sameKind, sameLinks, samePosition, samePayload⟩ := parallel
  dsimp only at sameId sameKind sameLinks samePosition samePayload
  subst sameId sameKind sameLinks samePosition samePayload
  rfl

end Node.Parallel

namespace Graph

variable {nodes others : List Node}

/-- Parallel nodes are found under shifted ids. -/
theorem findNode?_parallel (parallel : List.Forall₂ (Node.Parallel distance alike) nodes others)
    (id : Int) : Option.Rel (Node.Parallel distance alike) (findNode? nodes id)
      (findNode? others (id + distance)) := by
  unfold findNode?
  induction parallel with
  | nil => exact .none
  | @cons node other _ _ here _ ih =>
      have same : (other.id == id + distance) = (node.id == id) := by
        rw [here.id, Bool.eq_iff_iff, beq_iff_eq, beq_iff_eq, Int.add_left_inj]
      rw [List.find?_cons, List.find?_cons, same]
      cases node.id == id with
      | true => exact .some here
      | false => exact ih

/-- A link that is changed in parallel lists leaves them parallel. -/
theorem relink_parallel (parallel : List.Forall₂ (Node.Parallel distance alike) nodes others)
    (id : Int) (slot : Nat) (target : Option Int) :
    List.Forall₂ (Node.Parallel distance alike) (relink nodes id slot target)
      (relink others (id + distance) slot (target.map (· + distance))) := by
  rw [relink, relink, List.forall₂_map_left_iff, List.forall₂_map_right_iff]
  refine parallel.imp fun node other here => ?_
  by_cases changed : node.id = id
  · rw [if_pos changed, if_pos (by rw [here.id, changed])]
    exact here.setLink slot target
  · rw [if_neg changed, if_neg (by rw [here.id]; omega)]
    exact here

/-- Parallel graphs have as many nodes of each kind. -/
theorem countP_parallel (parallel : List.Forall₂ (Node.Parallel distance alike) nodes others)
    (kind : NodeKind) : others.countP (·.kind == kind) = nodes.countP (·.kind == kind) := by
  induction parallel with
  | nil => rfl
  | cons here _ ih => rw [List.countP_cons, List.countP_cons, ih, here.kind]

/-- Lists with equal payloads are parallel if one is the other, moved. -/
theorem forall₂_parallel_iff : List.Forall₂ (Node.Parallel distance Eq) nodes others ↔
    others = nodes.map (·.shift distance) := by
  constructor
  · intro parallel
    induction parallel with
    | nil => rfl
    | cons here _ ih => rw [List.map_cons, ih, here.eq_shift]
  · rintro rfl
    rw [List.forall₂_map_right_iff, List.forall₂_same]
    exact fun node _ => ⟨rfl, rfl, rfl, rfl, rfl⟩

/-- The least id of a graph is shifted with it. -/
theorem leastId_shift {graph : Graph} (inhabited : graph.nodes ≠ []) :
    (graph.shift distance).leastId = graph.leastId + distance := by
  obtain ⟨first, rest, nodes⟩ := List.exists_cons_of_ne_nil inhabited
  simp only [leastId, shift, nodes, List.map_cons, List.map_map, List.min?_cons', Option.getD_some,
    Function.comp_def]
  have moved : rest.map (fun node => (node.shift distance).id) =
      (rest.map Node.id).map (· + distance) := by
    rw [List.map_map]
    rfl
  rw [moved, List.foldl_map]
  refine List.foldl_hom (· + distance) fun least id => ?_
  omega

/-- The shape of a node above a base is shifted with the base. -/
theorem shape?_shift (node : Node) (base : Int) :
    (node.shift distance).shape? (base + distance) = node.shape? base := by
  have link : ∀ target : Int, target + distance - (base + distance) = target - base := by omega
  refine congrArg (Option.map · _) (funext fun payload => ?_)
  simp only [Node.shift, List.map_map, NodeShape.mk.injEq, link, true_and]
  refine List.map_congr_left fun target _ => ?_
  cases target with
  | none => rfl
  | some target => exact congrArg some (link target)

/-- A graph that is moved keeps its shape, or has none that can be written out before and after. -/
theorem normalized?_shift (graph : Graph) (distance : Int) :
    (graph.shift distance).normalized? = graph.normalized? := by
  unfold normalized?
  by_cases empty : graph.nodes = []
  · rw [shift, empty]
    rfl
  · rw [leastId_shift empty, shift, List.mapM_map]
    exact congrArg (List.mapM · graph.nodes)
      (funext fun node => shape?_shift node graph.leastId)

end Graph

end TuneGraph
