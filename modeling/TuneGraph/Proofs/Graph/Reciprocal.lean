import TuneGraph.Proofs.Graph.Link
import Mathlib.Data.List.Perm.Basic

/-! # Forward links and the links back

Every forward link of a graph is listed once in `Graph.heldPairs`, and every link back once in
`Graph.previousPairs`. The two lists are permutations of each other up to the pairs of nodes
that are held without a link back (`Graph.Reciprocal`). Changing a link moves one pair of one
of the lists (`Graph.heldPairs_relink`, `Graph.previousPairs_relink`), so that splicing a node
between two others keeps the lists in step.
-/

namespace TuneGraph

namespace Graph

/-- The ids that a node holds, each paired with its own. -/
def heldPairsOf (node : Node) : List (Int × Int) :=
  (node.links.drop 1).filterMap fun link => link.map (node.id, ·)

/-- The pairs of a holder and an id that it holds. -/
def heldPairs (nodes : List Node) : List (Int × Int) := nodes.flatMap heldPairsOf

/-- The pairs of the id in the first slot of a node and the id of the node. -/
def previousPairs (nodes : List Node) : List (Int × Int) :=
  nodes.filterMap fun node => node.previous.map (·, node.id)

/-- Forward links are answered by links back, apart from those of the direct pairs. -/
def Reciprocal (nodes : List Node) (direct : List (Int × Int)) : Prop :=
  (heldPairs nodes).Perm (previousPairs nodes ++ direct)

theorem heldPairs_append (nodes more : List Node) :
    heldPairs (nodes ++ more) = heldPairs nodes ++ heldPairs more := List.flatMap_append

theorem previousPairs_append (nodes more : List Node) :
    previousPairs (nodes ++ more) = previousPairs nodes ++ previousPairs more :=
  List.filterMap_append

theorem mem_heldPairsOf {node : Node} {pair : Int × Int} :
    pair ∈ heldPairsOf node ↔
      node.id = pair.1 ∧ ∃ slot, 1 ≤ slot ∧ node.link slot = some pair.2 := by
  rw [heldPairsOf, List.mem_filterMap]
  constructor
  · rintro ⟨link, member, rest⟩
    obtain ⟨held, rfl, rfl⟩ := Option.map_eq_some_iff.mp rest
    obtain ⟨slot, stored⟩ := List.mem_iff_getElem?.mp member
    rw [List.getElem?_drop] at stored
    exact ⟨rfl, 1 + slot, Nat.le_add_right 1 slot, by rw [Node.link, stored, Option.join_some]⟩
  · rintro ⟨same, slot, forward, held⟩
    obtain ⟨earlier, rfl⟩ := Nat.exists_eq_add_of_le forward
    refine ⟨some pair.2, List.mem_iff_getElem?.mpr ⟨earlier, ?_⟩, by rw [same, Option.map_some]⟩
    rw [List.getElem?_drop]
    exact Option.join_eq_some_iff.mp held

theorem mem_heldPairs {nodes : List Node} {holder held : Int} :
    (holder, held) ∈ heldPairs nodes ↔ Leads nodes holder held := by
  simp only [heldPairs, List.mem_flatMap, mem_heldPairsOf, Leads, Holds]
  constructor
  · rintro ⟨node, member, same, slot, forward, link⟩
    exact ⟨slot, forward, node, member, same, link⟩
  · rintro ⟨slot, forward, node, member, same, link⟩
    exact ⟨node, member, same, slot, forward, link⟩

theorem mem_previousPairs {nodes : List Node} {holder held : Int} :
    (holder, held) ∈ previousPairs nodes ↔
      ∃ node ∈ nodes, node.id = held ∧ node.previous = some holder := by
  simp only [previousPairs, List.mem_filterMap, Option.map_eq_some_iff, Prod.mk.injEq]
  constructor
  · rintro ⟨node, member, previous, link, rfl, rfl⟩
    exact ⟨node, member, rfl, link⟩
  · rintro ⟨node, member, same, link⟩
    exact ⟨node, member, holder, link, rfl, same⟩

/-- A node is in the first place of at most one link back, its own. -/
theorem previousPairs_snd_sublist (nodes : List Node) :
    ((previousPairs nodes).map Prod.snd).Sublist (nodes.map Node.id) := by
  induction nodes with
  | nil => exact List.Sublist.refl _
  | cons node rest ih =>
      unfold previousPairs at ih ⊢
      rw [List.filterMap_cons]
      cases node.previous with
      | none => exact ih.cons _
      | some holder => exact ih.cons_cons _

section Relink

variable {nodes : List Node} {changed : Int} {slot : Nat} {kind : NodeKind}

theorem relink_of_notMem (absent : changed ∉ nodes.map Node.id) (target : Option Int) :
    relink nodes changed slot target = nodes := by
  have same : ∀ node ∈ nodes, (if node.id = changed then node.setLink slot target else node) =
      id node := by
    intro node member
    exact if_neg fun here => absent (List.mem_map.mpr ⟨node, member, here⟩)
  exact (List.map_congr_left same).trans (List.map_id nodes)

/-- A node of a known id stands alone: changing its links leaves its neighbours as they are. -/
theorem exists_relink_eq (unique : (nodes.map Node.id).Nodup)
    (known : kindOf nodes changed = some kind) :
    ∃ before node after, nodes = before ++ node :: after ∧ node.id = changed ∧
      node.kind = kind ∧ (∀ slot, linkOf nodes changed slot = node.link slot) ∧
      ∀ slot target,
        relink nodes changed slot target = before ++ node.setLink slot target :: after := by
  obtain ⟨node, found, rfl⟩ := Option.map_eq_some_iff.mp known
  have link : ∀ slot, linkOf nodes changed slot = node.link slot := by
    intro slot
    rw [linkOf, found, Option.bind_some]
  obtain ⟨before, after, rfl⟩ := List.append_of_mem (mem_of_findNode? found)
  have here : node.id = changed := id_of_findNode? found
  refine ⟨before, node, after, rfl, here, rfl, link, fun slot target => ?_⟩
  rw [List.map_append, List.map_cons, here] at unique
  have absent := (List.nodup_cons.mp (List.nodup_middle.mp unique)).1
  rw [List.mem_append, not_or] at absent
  have left : relink before changed slot target = before := relink_of_notMem absent.1 target
  have right : relink after changed slot target = after := relink_of_notMem absent.2 target
  unfold relink at left right ⊢
  rw [List.map_append, List.map_cons, left, right, if_pos here]

/-- Putting another element into a list exchanges what the two are mapped to. -/
theorem filterMap_set_perm {α β : Type} (f : α → Option β) (items : List α) (index : Nat)
    (old new : α) (stored : items[index]? = some old) :
    ((items.set index new).filterMap f ++ (f old).toList).Perm
      (items.filterMap f ++ (f new).toList) := by
  have split : ∀ (item : α) (rest : List α),
      (item :: rest).filterMap f = (f item).toList ++ rest.filterMap f := by
    intro item rest
    rw [List.filterMap_cons]
    cases f item <;> rfl
  induction items generalizing index with
  | nil => cases stored
  | cons item rest ih =>
      cases index with
      | zero =>
          obtain rfl : item = old := Option.some.inj stored
          rw [List.set_cons_zero, split, split, List.append_assoc, List.append_assoc]
          exact List.perm_append_comm.trans (List.Perm.of_eq (List.append_assoc ..)) |>.trans
            (List.perm_append_comm_assoc ..)
      | succ index =>
          rw [List.set_cons_succ, split, split, List.append_assoc, List.append_assoc]
          exact (ih index stored).append_left _

/-- Neighbours do not matter to an exchange of elements. -/
theorem perm_exchange_between {α : Type} [DecidableEq α] {middle other old new : List α}
    (front back : List α) (exchange : (other ++ old).Perm (middle ++ new)) :
    ((front ++ (other ++ back)) ++ old).Perm ((front ++ (middle ++ back)) ++ new) := by
  apply List.perm_iff_count.mpr
  intro pair
  have counts := exchange.count_eq pair
  simp only [List.count_append] at counts ⊢
  omega

/-- Changing a forward link exchanges one pair for another. -/
theorem heldPairs_relink (unique : (nodes.map Node.id).Nodup)
    (known : kindOf nodes changed = some kind) (forward : 1 ≤ slot) (inside : slot < kind.arity)
    (target : Option Int) :
    (heldPairs (relink nodes changed slot target) ++
        ((linkOf nodes changed slot).map (changed, ·)).toList).Perm
      (heldPairs nodes ++ (target.map (changed, ·)).toList) := by
  obtain ⟨before, node, after, rfl, rfl, rfl, link, changes⟩ := exists_relink_eq unique known
  obtain ⟨earlier, rfl⟩ := Nat.exists_eq_add_of_le forward
  have stored : (node.links.drop 1)[earlier]? = some (node.link (1 + earlier)) := by
    rw [← node.arity] at inside
    rw [List.getElem?_drop, Node.link, List.getElem?_eq_getElem inside, Option.join_some]
  have exchange := filterMap_set_perm (fun link => link.map (node.id, ·)) (node.links.drop 1)
    earlier (node.link (1 + earlier)) target stored
  have changedNode : heldPairsOf (node.setLink (1 + earlier) target) =
      ((node.links.drop 1).set earlier target).filterMap fun link => link.map (node.id, ·) := by
    rw [List.set_drop]
    rfl
  rw [changes, link, heldPairs, heldPairs, List.flatMap_append, List.flatMap_append,
    List.flatMap_cons, List.flatMap_cons, changedNode]
  exact perm_exchange_between _ _ exchange

/-- A link back is no forward link. -/
theorem heldPairs_relink_previous (target : Option Int) :
    heldPairs (relink nodes changed Slot.previous target) = heldPairs nodes := by
  have same : ∀ node : Node,
      heldPairsOf (if node.id = changed then node.setLink Slot.previous target else node) =
        heldPairsOf node := by
    intro node
    split
    · have kept : (node.links.set Slot.previous target).drop 1 = node.links.drop 1 :=
        List.drop_set_of_lt Nat.zero_lt_one
      exact congrArg (List.filterMap fun link => link.map (node.id, ·)) kept
    · rfl
  unfold heldPairs relink
  rw [List.flatMap_map]
  exact List.flatMap_congr fun node _ => same node

/-- Changing a link back exchanges one pair for another. -/
theorem previousPairs_relink (unique : (nodes.map Node.id).Nodup)
    (known : kindOf nodes changed = some kind) (target : Option Int) (inside : 0 < kind.arity) :
    (previousPairs (relink nodes changed Slot.previous target) ++
        ((linkOf nodes changed Slot.previous).map (·, changed)).toList).Perm
      (previousPairs nodes ++ (target.map (·, changed)).toList) := by
  obtain ⟨before, node, after, rfl, rfl, rfl, link, changes⟩ := exists_relink_eq unique known
  have single : ∀ one : Node, previousPairs [one] = (one.previous.map (·, one.id)).toList := by
    intro one
    rw [previousPairs, List.filterMap_cons]
    cases one.previous <;> rfl
  have exchange : (previousPairs [node.setLink Slot.previous target] ++
      ((node.link Slot.previous).map (·, node.id)).toList).Perm
        (previousPairs [node] ++ (target.map (·, node.id)).toList) := by
    rw [single, single, Node.previous, node.link_setLink Slot.previous Slot.previous target inside,
      if_pos rfl]
    exact List.perm_append_comm
  have apart : ∀ (front back : List Node) (one : Node), previousPairs (front ++ one :: back) =
      previousPairs front ++ (previousPairs [one] ++ previousPairs back) := by
    intro front back one
    rw [← previousPairs_append, ← previousPairs_append, List.singleton_append]
  rw [changes, link, apart, apart]
  exact perm_exchange_between _ _ exchange

/-- A forward link is no link back. -/
theorem previousPairs_relink_forward (forward : 1 ≤ slot) (target : Option Int) :
    previousPairs (relink nodes changed slot target) = previousPairs nodes := by
  have same : ∀ node : Node,
      (if node.id = changed then node.setLink slot target else node).previous = node.previous := by
    intro node
    split
    · exact node.link_setLink_of_ne (Nat.ne_of_lt forward) target
    · rfl
  have sameId : ∀ node : Node,
      (if node.id = changed then node.setLink slot target else node).id = node.id := by
    intro node
    split <;> rfl
  unfold previousPairs relink
  rw [List.filterMap_map]
  apply List.filterMap_congr
  intro node _
  simp only [Function.comp_apply, same, sameId]

end Relink

end Graph

end TuneGraph
