import TuneGraph.Proofs.Graph.Interlinked

/-! # What a chain plays

A chain is played from a link: a line-call is heard and its next link is followed, and a repeat
plays its body as often as its count says before its own next link is followed. A chain plays
at most one sequence of calls (`Graph.Plays.unique`). If every count is positive, the calls
that are heard are the calls that forward links reach from there
(`Graph.Plays.mem_iff_reached`).
-/

namespace TuneGraph

/-- The count, in a repeat. -/
def Slot.repeatCount : Nat := 1

/-- A repeat leads to its count, to its body and to what follows it. -/
theorem Slot.repeat_cases {slot : Nat} (forward : 1 ≤ slot)
    (inside : slot < NodeKind.repetition.arity) :
    slot = Slot.repeatCount ∨ slot = Slot.repeatBody ∨ slot = Slot.repeatNext := by
  have arity : NodeKind.repetition.arity = 4 := rfl
  unfold Slot.repeatCount Slot.repeatBody Slot.repeatNext
  omega

/-- What is in a block that is played some times is in the block. -/
theorem mem_flatten_replicate {α : Type} {times : Nat} (often : times ≠ 0) {block : List α}
    {item : α} : item ∈ (List.replicate times block).flatten ↔ item ∈ block := by
  simp only [List.mem_flatten, List.mem_replicate]
  constructor
  · rintro ⟨_, ⟨_, rfl⟩, member⟩
    exact member
  · exact fun member => ⟨block, ⟨often, rfl⟩, member⟩

namespace Graph

/-- The calls that are heard from a link on, by id. -/
inductive Plays (nodes : List Node) : Option Int → List Int → Prop where
  | silence : Plays nodes none []
  | call {id : Int} {node : Node} {rest : List Int} (found : findNode? nodes id = some node)
      (kind : node.kind = .lineCall) (next : Plays nodes (node.link Slot.callNext) rest) :
      Plays nodes (some id) (id :: rest)
  | repetition {id count times : Int} {node counter : Node} {body rest : List Int}
      (found : findNode? nodes id = some node) (kind : node.kind = .repetition)
      (counted : node.link Slot.repeatCount = some count)
      (counterFound : findNode? nodes count = some counter)
      (counterKind : counter.kind = .repeatCount) (value : counter.value = .integer times)
      (inner : Plays nodes (node.link Slot.repeatBody) body)
      (next : Plays nodes (node.link Slot.repeatNext) rest) :
      Plays nodes (some id) ((List.replicate times.toNat body).flatten ++ rest)

/-- Whether forward links lead from a link to an id in any number of steps. -/
def Reached (nodes : List Node) (link : Option Int) (id : Int) : Prop :=
  ∃ first, link = some first ∧ Relation.ReflTransGen (Leads nodes) first id

section Play

variable {nodes : List Node} {link : Option Int} {heard : List Int}

/-- A chain plays at most one sequence of calls. -/
theorem Plays.unique (plays : Plays nodes link heard) {other : List Int}
    (also : Plays nodes link other) : heard = other := by
  induction plays generalizing other with
  | silence =>
      cases also
      rfl
  | call found kind next ih =>
      cases also with
      | call found' kind' next' =>
          obtain rfl := Option.some.inj (found.symm.trans found')
          rw [ih next']
      | repetition found' kind' =>
          obtain rfl := Option.some.inj (found.symm.trans found')
          rw [kind] at kind'
          cases kind'
  | repetition found kind counted counterFound counterKind value inner next innerIh nextIh =>
      cases also with
      | call found' kind' next' =>
          obtain rfl := Option.some.inj (found.symm.trans found')
          rw [kind] at kind'
          cases kind'
      | repetition found' kind' counted' counterFound' counterKind' value' inner' next' =>
          obtain rfl := Option.some.inj (found.symm.trans found')
          obtain rfl := Option.some.inj (counted.symm.trans counted')
          obtain rfl := Option.some.inj (counterFound.symm.trans counterFound')
          obtain rfl : _ = _ := Datum.integer.inj (value.symm.trans value')
          rw [innerIh inner', nextIh next']

/-- What is reached from a node is the node itself or is reached through one of its forward
links. -/
theorem reached_some_iff (unique : (nodes.map Node.id).Nodup) {id target : Int} {node : Node}
    (found : findNode? nodes id = some node) : Reached nodes (some id) target ↔
      target = id ∨ ∃ slot, 1 ≤ slot ∧ Reached nodes (node.link slot) target := by
  have leads : ∀ held, Leads nodes id held ↔ ∃ slot, 1 ≤ slot ∧ node.link slot = some held := by
    intro held
    refine exists_congr fun slot => ?_
    rw [holds_iff_linkOf unique, linkOf, found, Option.bind_some]
  unfold Reached
  constructor
  · rintro ⟨first, same, path⟩
    obtain rfl := Option.some.inj same
    rcases path.cases_head with equal | ⟨held, step, path⟩
    · exact Or.inl equal.symm
    · obtain ⟨slot, forward, link⟩ := (leads held).mp step
      exact Or.inr ⟨slot, forward, held, link, path⟩
  · rintro (rfl | ⟨slot, forward, held, link, path⟩)
    · exact ⟨target, rfl, .refl⟩
    · exact ⟨id, rfl, path.head ((leads held).mpr ⟨slot, forward, link⟩)⟩

theorem not_reached_none {target : Int} : ¬Reached nodes none target := by
  rintro ⟨first, missing, -⟩
  cases missing

/-- The calls heard are the calls reached, if no repeat plays its body less than once. -/
theorem Plays.mem_iff_reached (plays : Plays nodes link heard)
    (unique : (nodes.map Node.id).Nodup)
    (positive : ∀ counter ∈ nodes, counter.kind = .repeatCount → ∀ times : Int,
      counter.value = .integer times → 1 ≤ times) {call : Int}
    (isCall : kindOf nodes call = some .lineCall) :
    call ∈ heard ↔ Reached nodes link call := by
  induction plays with
  | silence => simp only [List.not_mem_nil, not_reached_none]
  | @call id node rest found kind next ih =>
      rw [List.mem_cons, ih, reached_some_iff unique found]
      refine or_congr_right ⟨fun reached => ⟨_, by decide, reached⟩, ?_⟩
      rintro ⟨slot, forward, first, link, path⟩
      have inside := node.lt_arity_of_link link
      rw [kind] at inside
      obtain rfl : slot = Slot.callNext := Nat.le_antisymm (Nat.le_of_lt_succ inside) forward
      exact ⟨first, link, path⟩
  | @repetition id count times node counter body rest found kind counted counterFound counterKind
      value inner next innerIh nextIh =>
      have often : times.toNat ≠ 0 := by
        have := positive counter (mem_of_findNode? counterFound) counterKind times value
        omega
      have different : call ≠ id := by
        rintro rfl
        rw [kindOf, found, Option.map_some, kind] at isCall
        cases isCall
      have notCounter : ¬Reached nodes (node.link Slot.repeatCount) call := by
        rw [counted, reached_some_iff unique counterFound]
        rintro (rfl | ⟨slot, forward, first, link, -⟩)
        · rw [kindOf, counterFound, Option.map_some, counterKind] at isCall
          cases isCall
        · have inside := counter.lt_arity_of_link link
          rw [counterKind] at inside
          exact absurd inside (Nat.not_lt_of_le forward)
      rw [List.mem_append, mem_flatten_replicate often, innerIh, nextIh,
        reached_some_iff unique found]
      constructor
      · rintro (reached | reached)
        · exact Or.inr ⟨_, by decide, reached⟩
        · exact Or.inr ⟨_, by decide, reached⟩
      · rintro (same | ⟨slot, forward, reached⟩)
        · exact absurd same different
        · obtain ⟨first, link, path⟩ := reached
          have inside := node.lt_arity_of_link link
          rw [kind] at inside
          rcases Slot.repeat_cases forward inside with rfl | rfl | rfl
          · exact (notCounter ⟨first, link, path⟩).elim
          · exact Or.inl ⟨first, link, path⟩
          · exact Or.inr ⟨first, link, path⟩

end Play

end Graph

end TuneGraph
