import TuneGraph.Graph.Basic
import Mathlib.Data.List.Nodup

/-! # Links by id

The links of a graph are read and changed by id: `Graph.linkOf` is the target of a slot, and
`Graph.relink` puts another one there. A node holds another one through any slot but the
first (`Graph.Holds`). Emitted nodes have ids that run on without a gap (`Graph.RunsFrom`),
so that every id below the next one names a single node.
-/

namespace TuneGraph

namespace Node

variable (node : Node)

/-- A node keeps its kind when one of its links is set. -/
@[simp] theorem setLink_kind (slot : Nat) (target : Option Int) :
    (node.setLink slot target).kind = node.kind := rfl

/-- A node keeps the links of its other slots when one is set. -/
theorem link_setLink_of_ne {slot other : Nat} (different : other ≠ slot) (target : Option Int) :
    (node.setLink slot target).link other = node.link other := by
  unfold link setLink
  rw [List.getElem?_set_ne (Ne.symm different)]

/-- A changed slot holds its new target, and the others what they held. -/
theorem link_setLink (slot other : Nat) (target : Option Int) (inside : slot < node.kind.arity) :
    (node.setLink slot target).link other = if other = slot then target else node.link other := by
  rw [← node.arity] at inside
  by_cases same : other = slot
  · subst same
    unfold link setLink
    simp only [List.getElem?_set_self inside, Option.join_some, ↓reduceIte]
  · rw [node.link_setLink_of_ne same, if_neg same]

/-- What holds something is a slot that nodes of the kind have. -/
theorem lt_arity_of_link {slot : Nat} {target : Int} (held : node.link slot = some target) :
    slot < node.kind.arity := by
  rw [← node.arity]
  by_contra outside
  rw [link, List.getElem?_eq_none (Nat.le_of_not_lt outside)] at held
  cases held

/-- The slot that is found holds the target, and it is not the first. -/
theorem of_slotOf_eq_some {slot : Nat} {target : Int}
    (found : node.slotOf (some target) = some slot) :
    1 ≤ slot ∧ node.link slot = some target := by
  have stored := List.find?_some found
  obtain ⟨earlier, place⟩ := List.mem_iff_getElem?.mp (List.mem_of_find?_eq_some found)
  rw [List.getElem?_drop] at place
  obtain ⟨inside, rfl⟩ := List.getElem?_eq_some_iff.mp place
  rw [List.getElem_range] at stored ⊢
  exact ⟨Nat.le_add_right 1 earlier, Option.join_eq_some_iff.mpr (beq_iff_eq.mp stored)⟩

/-- A target is found if a slot behind the first holds it. -/
theorem isSome_slotOf_iff {target : Int} :
    (node.slotOf (some target)).isSome = true ↔
      ∃ slot, 1 ≤ slot ∧ node.link slot = some target := by
  constructor
  · intro known
    obtain ⟨slot, found⟩ := Option.isSome_iff_exists.mp known
    exact ⟨slot, node.of_slotOf_eq_some found⟩
  · rintro ⟨slot, forward, held⟩
    have inside : slot < node.links.length := by
      rw [node.arity]
      exact node.lt_arity_of_link held
    rw [slotOf, List.find?_isSome]
    refine ⟨slot, ?_, beq_iff_eq.mpr (Option.join_eq_some_iff.mp held)⟩
    obtain ⟨earlier, rfl⟩ := Nat.exists_eq_add_of_le forward
    refine List.mem_iff_getElem?.mpr ⟨earlier, ?_⟩
    rw [List.getElem?_drop, List.getElem?_range inside]

end Node

namespace Graph

/-- The target of a slot of the node of an id. -/
def linkOf (nodes : List Node) (id : Int) (slot : Nat) : Option Int :=
  (findNode? nodes id).bind (·.link slot)

/-- The kind of the node of an id. -/
def kindOf (nodes : List Node) (id : Int) : Option NodeKind := (findNode? nodes id).map (·.kind)

/-- The ids of the nodes of a kind, in order. -/
def idsOf (kind : NodeKind) (nodes : List Node) : List Int :=
  (nodes.filter (·.kind == kind)).map Node.id

/-- Nodes with another target in a slot of the node of an id. -/
def relink (nodes : List Node) (id : Int) (slot : Nat) (target : Option Int) : List Node :=
  nodes.map fun node => if node.id = id then node.setLink slot target else node

/-- Whether a node holds another one through a slot: any but the first. -/
def Holds (nodes : List Node) (holder : Int) (slot : Nat) (held : Int) : Prop :=
  1 ≤ slot ∧ ∃ node ∈ nodes, node.id = holder ∧ node.link slot = some held

/-- Whether a forward link leads from one node to another. -/
def Leads (nodes : List Node) (holder held : Int) : Prop := ∃ slot, Holds nodes holder slot held

/-- Whether the ids of the nodes run on from an id without a gap. -/
def RunsFrom (base : Int) : List Node → Prop
  | [] => True
  | node :: rest => node.id = base ∧ RunsFrom (base + 1) rest

section Lookup

variable {nodes : List Node} {id : Int} {node : Node}

/-- What is found is one of the nodes. -/
theorem mem_of_findNode? (found : findNode? nodes id = some node) : node ∈ nodes :=
  List.mem_of_find?_eq_some found

/-- What is found under an id has that id. -/
theorem id_of_findNode? (found : findNode? nodes id = some node) : node.id = id := by
  simpa using List.find?_some found

/-- Every id in use names a node. -/
theorem exists_findNode? (member : id ∈ nodes.map Node.id) :
    ∃ node, findNode? nodes id = some node := by
  obtain ⟨node, present, rfl⟩ := List.mem_map.mp member
  exact Option.isSome_iff_exists.mp (List.find?_isSome.mpr ⟨node, present, by simp⟩)

/-- Where no id is used twice, a node is found by its id. -/
theorem findNode?_of_mem (unique : (nodes.map Node.id).Nodup) (member : node ∈ nodes) :
    findNode? nodes node.id = some node := by
  obtain ⟨found, lookup⟩ := exists_findNode? (List.mem_map_of_mem (f := Node.id) member)
  have same := List.inj_on_of_nodup_map unique (mem_of_findNode? lookup) member
    (id_of_findNode? lookup)
  rw [lookup, same]

/-- What has a kind is one of the ids. -/
theorem mem_ids_of_kindOf {kind : NodeKind} (known : kindOf nodes id = some kind) :
    id ∈ nodes.map Node.id := by
  obtain ⟨node, found, -⟩ := Option.map_eq_some_iff.mp known
  exact List.mem_map.mpr ⟨node, mem_of_findNode? found, id_of_findNode? found⟩

/-- Where no id is used twice, what is read by id is what the node has. -/
theorem linkOf_of_mem (unique : (nodes.map Node.id).Nodup) (member : node ∈ nodes) (slot : Nat) :
    linkOf nodes node.id slot = node.link slot := by
  rw [linkOf, findNode?_of_mem unique member, Option.bind_some]

/-- Among nodes of different ids a node has its own kind. -/
theorem kindOf_of_mem (unique : (nodes.map Node.id).Nodup) (member : node ∈ nodes) :
    kindOf nodes node.id = some node.kind := by
  rw [kindOf, findNode?_of_mem unique member, Option.map_some]

/-- The ids of a kind are those of its nodes. -/
theorem mem_idsOf {kind : NodeKind} :
    id ∈ idsOf kind nodes ↔ ∃ node ∈ nodes, node.kind = kind ∧ node.id = id := by
  simp only [idsOf, List.mem_map, List.mem_filter, beq_iff_eq, and_assoc]

/-- Among nodes of different ids those of a kind are found as such. -/
theorem kindOf_of_mem_idsOf (unique : (nodes.map Node.id).Nodup) {kind : NodeKind}
    (member : id ∈ idsOf kind nodes) : kindOf nodes id = some kind := by
  obtain ⟨node, inside, rfl, rfl⟩ := mem_idsOf.mp member
  exact kindOf_of_mem unique inside

/-- The ids of a kind are some of the ids, in order. -/
theorem idsOf_sublist (kind : NodeKind) : (idsOf kind nodes).Sublist (nodes.map Node.id) :=
  List.filter_sublist.map Node.id

/-- Among nodes of different ids a node holds what is in its later slots. -/
theorem holds_iff_linkOf (unique : (nodes.map Node.id).Nodup) {slot : Nat} {held : Int} :
    Holds nodes id slot held ↔ 1 ≤ slot ∧ linkOf nodes id slot = some held := by
  constructor
  · rintro ⟨forward, node, member, rfl, link⟩
    exact ⟨forward, (linkOf_of_mem unique member slot).trans link⟩
  · rintro ⟨forward, link⟩
    obtain ⟨node, found, target⟩ := Option.bind_eq_some_iff.mp link
    exact ⟨forward, node, mem_of_findNode? found, id_of_findNode? found, target⟩

end Lookup

section Relink

variable (nodes : List Node) (changed id : Int) (slot : Nat) (target : Option Int)

/-- To change a link keeps the ids. -/
theorem map_id_relink : (relink nodes changed slot target).map Node.id = nodes.map Node.id := by
  rw [relink, List.map_map]
  apply List.map_congr_left
  intro node _
  simp only [Function.comp_apply]
  split <;> rfl

/-- Changing a link does not change which nodes have a kind. -/
@[simp] theorem idsOf_relink (kind : NodeKind) :
    idsOf kind (relink nodes changed slot target) = idsOf kind nodes := by
  induction nodes with
  | nil => rfl
  | cons node rest ih =>
      have same : (if node.id = changed then node.setLink slot target else node).kind =
          node.kind := by split <;> rfl
      have sameId : (if node.id = changed then node.setLink slot target else node).id =
          node.id := by split <;> rfl
      unfold relink idsOf at ih ⊢
      simp only [List.map_cons, List.filter_cons, same]
      split
      · simp only [List.map_cons, sameId, ih]
      · exact ih

/-- A node is found as before when a link is changed, but for that link. -/
theorem findNode?_relink : findNode? (relink nodes changed slot target) id =
    (findNode? nodes id).map fun node =>
      if node.id = changed then node.setLink slot target else node := by
  unfold findNode? relink
  rw [List.find?_map]
  congr 2
  funext node
  simp only [Function.comp_apply]
  split <;> rfl

/-- To change a link keeps the kinds. -/
@[simp] theorem kindOf_relink :
    kindOf (relink nodes changed slot target) id = kindOf nodes id := by
  rw [kindOf, findNode?_relink, Option.map_map]
  unfold kindOf
  congr 1
  funext node
  simp only [Function.comp_apply]
  split <;> rfl

variable {nodes changed id slot target}

/-- Changing a link changes what its slot holds and nothing else. -/
theorem linkOf_relink {kind : NodeKind} (known : kindOf nodes changed = some kind)
    (inside : slot < kind.arity) (query : Nat) :
    linkOf (relink nodes changed slot target) id query =
      if id = changed ∧ query = slot then target else linkOf nodes id query := by
  obtain ⟨node, found, rfl⟩ := Option.map_eq_some_iff.mp known
  unfold linkOf
  rw [findNode?_relink]
  by_cases here : id = changed
  · subst here
    rw [found, Option.map_some, Option.bind_some, Option.bind_some]
    simp only [id_of_findNode? found, true_and, ↓reduceIte]
    exact node.link_setLink slot query target inside
  · simp only [here, false_and, ↓reduceIte]
    cases other : findNode? nodes id with
    | none => rfl
    | some node =>
        have away : node.id ≠ changed := fun same => here ((id_of_findNode? other).symm.trans same)
        simp only [Option.map_some, Option.bind_some, away, ↓reduceIte]

end Relink

section Append

variable {nodes more : List Node} {id : Int}

/-- What is found among the first nodes is found if more follow. -/
theorem findNode?_append_left (member : id ∈ nodes.map Node.id) :
    findNode? (nodes ++ more) id = findNode? nodes id := by
  obtain ⟨node, found⟩ := exists_findNode? member
  unfold findNode? at found ⊢
  rw [List.find?_append, found, Option.some_or]

/-- What is not among the first nodes is found behind them. -/
theorem findNode?_append_right (absent : id ∉ nodes.map Node.id) :
    findNode? (nodes ++ more) id = findNode? more id := by
  have missing : findNode? nodes id = none := by
    apply List.find?_eq_none.mpr
    intro node member same
    exact absent (List.mem_map.mpr ⟨node, member, by simpa using same⟩)
  unfold findNode? at missing ⊢
  rw [List.find?_append, missing, Option.none_or]

/-- The ids of a kind come in the order of the nodes. -/
theorem idsOf_append (kind : NodeKind) :
    idsOf kind (nodes ++ more) = idsOf kind nodes ++ idsOf kind more := by
  rw [idsOf, List.filter_append, List.map_append, idsOf, idsOf]

/-- The links of the first nodes stay if more follow. -/
theorem linkOf_append_left (member : id ∈ nodes.map Node.id) (slot : Nat) :
    linkOf (nodes ++ more) id slot = linkOf nodes id slot := by
  rw [linkOf, findNode?_append_left member, linkOf]

/-- The links of the nodes behind are their own. -/
theorem linkOf_append_right (absent : id ∉ nodes.map Node.id) (slot : Nat) :
    linkOf (nodes ++ more) id slot = linkOf more id slot := by
  rw [linkOf, findNode?_append_right absent, linkOf]

/-- The kinds of the first nodes stay if more follow. -/
theorem kindOf_append_left (member : id ∈ nodes.map Node.id) :
    kindOf (nodes ++ more) id = kindOf nodes id := by
  rw [kindOf, findNode?_append_left member, kindOf]

/-- The kinds of the nodes behind are their own. -/
theorem kindOf_append_right (absent : id ∉ nodes.map Node.id) :
    kindOf (nodes ++ more) id = kindOf more id := by
  rw [kindOf, findNode?_append_right absent, kindOf]

end Append

namespace RunsFrom

variable {base : Int} {nodes more : List Node}

/-- Ids run on through two lists of nodes if those of the second run on from those of the first. -/
theorem append_iff : RunsFrom base (nodes ++ more) ↔
    RunsFrom base nodes ∧ RunsFrom (base + nodes.length) more := by
  induction nodes generalizing base with
  | nil => simp [RunsFrom]
  | cons node rest ih =>
      simp only [List.cons_append, RunsFrom, ih, List.length_cons, and_assoc]
      rw [show base + 1 + (rest.length : Int) = base + ((rest.length + 1 : Nat) : Int) by omega]

/-- The ids in use are those from the base up to the number of nodes. -/
theorem mem_ids_iff (run : RunsFrom base nodes) {id : Int} :
    id ∈ nodes.map Node.id ↔ base ≤ id ∧ id < base + nodes.length := by
  induction nodes generalizing base with
  | nil => simp only [List.map_nil, List.not_mem_nil, List.length_nil, false_iff]; omega
  | cons node rest ih =>
      obtain ⟨first, later⟩ := run
      rw [List.map_cons, List.mem_cons, ih later, first, List.length_cons]
      omega

/-- Ids that run on are different. -/
theorem nodup (run : RunsFrom base nodes) : (nodes.map Node.id).Nodup := by
  induction nodes generalizing base with
  | nil => exact List.nodup_nil
  | cons node rest ih =>
      obtain ⟨first, later⟩ := run
      refine List.nodup_cons.mpr ⟨fun member => ?_, ih later⟩
      have := (mem_ids_iff later).mp member
      omega

/-- That ids run on depends on the ids alone. -/
theorem of_map_id_eq (run : RunsFrom base nodes)
    (same : more.map Node.id = nodes.map Node.id) : RunsFrom base more := by
  induction nodes generalizing base more with
  | nil => rw [List.map_eq_nil_iff.mp same]; trivial
  | cons node rest ih =>
      obtain ⟨other, others, rfl, head, tail⟩ := List.map_eq_cons_iff.mp same
      exact ⟨head.trans run.1, ih run.2 tail⟩

end RunsFrom

end Graph

end TuneGraph
