import TuneGraph.Compile.Line
import TuneGraph.Proofs.Graph.Interlinked

/-! # Headers and lines as fragments

The nodes of a header and those of a line have ids that run on, hold only nodes of greater ids,
and have empty chain slots: such nodes are a fragment (`Graph.Fragment`). Links back answer the
forward links, save that the call of a line has the call of the line before in front of it
(`Header.reciprocal`, `lineChain_reciprocal`).
-/

namespace TuneGraph

open TuneGraph.Graph

/-- A node as headers and lines have it: no chain leads on from it, and nothing is in front of it
if it is a root. -/
structure Node.Plain (node : Node) : Prop where
  unchained : ∀ slot, isChainSlot node.kind slot = true → node.link slot = none
  rooted : node.previous = none → isRootKind node.kind = true ∨ node.kind = .lineCall
  root : isRootKind node.kind = true → node.previous = none
  uncounted : node.kind ≠ .repeatCount
  unrepeated : node.kind ≠ .repetition

/-- Kinds that stand behind another node and lead into no chain. -/
def NodeKind.isInner (kind : NodeKind) : Bool :=
  !isRootKind kind && !isChainKind kind && kind != .instrumentSetter && kind != .repeatCount

/-- An inner node has no slots of the chain. -/
theorem NodeKind.isChainSlot_of_isInner {kind : NodeKind} (inner : kind.isInner = true)
    (slot : Nat) : isChainSlot kind slot = false := by
  cases kind <;> first
    | rfl
    | exact absurd inner (by decide)

namespace Node.Plain

variable {node : Node} {before : Int}

/-- A node that is no root is plain if it leads into no chain and is not emitted with repeats. -/
theorem of_unrooted (unrooted : isRootKind node.kind = false)
    (front : node.previous = none → node.kind = .lineCall)
    (unchained : ∀ slot, isChainSlot node.kind slot = true → node.link slot = none)
    (uncounted : node.kind ≠ .repeatCount) (unrepeated : node.kind ≠ .repetition) :
    node.Plain where
  unchained := unchained
  rooted := fun free => Or.inr (front free)
  root := by
    intro root
    rw [unrooted] at root
    cases root
  uncounted := uncounted
  unrepeated := unrepeated

/-- An inner node with something before it is plain. -/
theorem of_previous (previous : node.previous = some before) (inner : node.kind.isInner = true) :
    node.Plain := by
  have other : ∀ kind : NodeKind, kind.isInner = false → node.kind ≠ kind := by
    intro kind outer same
    rw [same, outer] at inner
    cases inner
  apply of_unrooted
  · cases root : isRootKind node.kind with
    | false => rfl
    | true => exact (other node.kind (by rw [NodeKind.isInner, root]; rfl) rfl).elim
  · intro free
    rw [previous] at free
    cases free
  · intro slot chain
    rw [NodeKind.isChainSlot_of_isInner inner] at chain
    cases chain
  · exact other _ rfl
  · exact other _ rfl

/-- The setter of an instrument without a body is plain. -/
theorem of_setter (kind : node.kind = .instrumentSetter) (previous : node.previous = some before)
    (body : node.link Slot.instrumentBody = none) : node.Plain := by
  apply of_unrooted
  · rw [kind]
    rfl
  · intro free
    rw [previous] at free
    cases free
  · intro slot chain
    rw [kind] at chain
    obtain rfl : slot = Slot.instrumentBody := beq_iff_eq.mp chain
    exact body
  · rw [kind]
    decide
  · rw [kind]
    decide

/-- A call without a next one is plain. -/
theorem of_call (kind : node.kind = .lineCall) (next : node.link Slot.callNext = none) :
    node.Plain := by
  apply of_unrooted
  · rw [kind]
    rfl
  · exact fun _ => kind
  · intro slot chain
    rw [kind] at chain
    obtain rfl : slot = Slot.callNext := beq_iff_eq.mp chain
    exact next
  · rw [kind]
    decide
  · rw [kind]
    decide

/-- A root with nothing before it is plain. -/
theorem of_root (root : isRootKind node.kind = true) (previous : node.previous = none) :
    node.Plain := by
  have kinds : node.kind = .start ∨ node.kind = .lineLabel := by
    simpa [isRootKind] using root
  refine ⟨fun slot chain => ?_, fun _ => Or.inl root, fun _ => previous, ?_, ?_⟩
  · rcases kinds with kind | kind <;> rw [kind] at chain <;> cases chain
  · rcases kinds with kind | kind <;> rw [kind] <;> decide
  · rcases kinds with kind | kind <;> rw [kind] <;> decide

end Node.Plain

/-- Plain nodes with ids that run on, each of which holds greater ids. -/
structure Graph.Fragment (base : Int) (nodes : List Node) : Prop where
  run : RunsFrom base nodes
  ascending : ∀ pair ∈ heldPairs nodes, pair.1 < pair.2
  plain : ∀ node ∈ nodes, node.Plain

/-- Two fragments make one if the ids of the second run on from those of the first. -/
theorem Graph.Fragment.append {base : Int} {nodes more : List Node} (left : Fragment base nodes)
    (right : Fragment (base + nodes.length) more) : Fragment base (nodes ++ more) where
  run := RunsFrom.append_iff.mpr ⟨left.run, right.run⟩
  ascending := by
    intro pair member
    rw [heldPairs_append] at member
    exact (List.mem_append.mp member).elim (left.ascending pair) (right.ascending pair)
  plain := by
    intro node member
    exact (List.mem_append.mp member).elim (left.plain node) (right.plain node)

/-- A last pair that may be missing ascends like those before it. -/
theorem Graph.ascending_append {pairs : List (Int × Int)} {holder : Int} {target : Option Int}
    (inside : ∀ pair ∈ pairs, pair.1 < pair.2) (last : ∀ id, target = some id → holder < id) :
    ∀ pair ∈ pairs ++ (target.map (holder, ·)).toList, pair.1 < pair.2 := by
  intro pair member
  rcases List.mem_append.mp member with early | late
  · exact inside pair early
  · obtain ⟨id, same, rfl⟩ := Option.map_eq_some_iff.mp (Option.mem_toList.mp late)
    exact last id same

namespace Header

variable (b : Int) (title voiceName : String) (meter : Meter) (key : KeySignature)
  (instrument : String)

/-- What the nodes of a header hold. -/
theorem heldPairs_nodes : heldPairs (nodes b title voiceName meter key instrument) =
    [(b, b + 1), (b + 1, b + 2), (b + 1, b + 3), (b + 3, b + 4), (b + 3, b + 5), (b + 5, b + 6),
      (b + 5, b + 7), (b + 5, b + 10), (b + 7, b + 8), (b + 7, b + 9), (b + 10, b + 11),
      (b + 11, b + 12), (b + 11, b + 13), (b + 11, b + 14), (b + 14, b + 15),
      (b + 14, b + 16)] := rfl

/-- What is before the nodes of a header. -/
theorem previousPairs_nodes : previousPairs (nodes b title voiceName meter key instrument) =
    [(b, b + 1), (b + 1, b + 2), (b + 1, b + 3), (b + 3, b + 4), (b + 3, b + 5), (b + 5, b + 6),
      (b + 5, b + 7), (b + 7, b + 8), (b + 7, b + 9), (b + 5, b + 10), (b + 10, b + 11),
      (b + 11, b + 12), (b + 11, b + 13), (b + 11, b + 14), (b + 14, b + 15),
      (b + 14, b + 16)] := rfl

/-- The links of a header agree in both directions. -/
theorem reciprocal : Reciprocal (nodes b title voiceName meter key instrument) [] := by
  rw [Reciprocal, heldPairs_nodes, previousPairs_nodes, List.append_nil]
  apply List.perm_iff_count.mpr
  intro pair
  simp only [List.count_cons, List.count_nil]
  omega

/-- A header is a fragment. -/
theorem fragment : Fragment b (nodes b title voiceName meter key instrument) where
  run := by simp [RunsFrom, nodes, Int.add_assoc]
  ascending := by
    rw [heldPairs_nodes]
    simp
  plain := by
    simp only [nodes, List.forall_mem_cons]
    refine ⟨.of_root rfl rfl, ?_, ?_, ?_, ?_, ?_, ?_, ?_, ?_, ?_, ?_, ?_, ?_, ?_,
      .of_setter rfl rfl rfl, ?_, ?_, List.forall_mem_nil _⟩
    all_goals exact .of_previous rfl rfl

end Header

namespace Cluster

variable (b previous : Int) (encoded : EncodedNote) (next : Option Int)

/-- What the nodes of a note hold. -/
theorem heldPairs_nodes : heldPairs (nodes b previous encoded next) =
    [(b, b + 1), (b, b + 4), (b, b + 8), (b + 1, b + 2), (b + 1, b + 3), (b + 4, b + 5),
      (b + 5, b + 6), (b + 5, b + 7)] ++ (next.map (b + 8, ·)).toList := by
  cases next <;> rfl

/-- What is before the nodes of a note. -/
theorem previousPairs_nodes : previousPairs (nodes b previous encoded next) =
    [(previous, b), (b, b + 1), (b + 1, b + 2), (b + 1, b + 3), (b, b + 4), (b + 4, b + 5),
      (b + 5, b + 6), (b + 5, b + 7), (b, b + 8)] := rfl

/-- The links of a note agree in both directions, save where the row goes on. -/
theorem links_perm : (heldPairs (nodes b previous encoded next) ++ [(previous, b)]).Perm
    (previousPairs (nodes b previous encoded next) ++ (next.map (b + 8, ·)).toList) := by
  rw [heldPairs_nodes, previousPairs_nodes]
  apply List.perm_iff_count.mpr
  intro pair
  simp only [List.count_append, List.count_cons, List.count_nil]
  omega

/-- A note is a fragment if the next note has a later id. -/
theorem fragment (ascending : ∀ id, next = some id → b + 8 < id) :
    Fragment b (nodes b previous encoded next) where
  run := by simp [RunsFrom, nodes, Int.add_assoc]
  ascending := by
    rw [heldPairs_nodes]
    exact ascending_append (by simp) ascending
  plain := by
    simp only [nodes, List.forall_mem_cons]
    refine ⟨?_, ?_, ?_, ?_, ?_, ?_, ?_, ?_, ?_, List.forall_mem_nil _⟩
    all_goals exact .of_previous rfl rfl

/-- A row is its first note, led on to the next one if there is one, and the rest. -/
theorem row_cons (b : Int) (encoded : EncodedNote) (rest : List EncodedNote) :
    row b (encoded :: rest) =
      nodes b (b - 1) encoded (if rest.isEmpty then none else some (b + width)) ++
        row (b + width) rest := by
  cases rest with
  | nil => exact (List.append_nil _).symm
  | cons => rfl

/-- The notes of a row are a fragment. -/
theorem row_fragment (notes : List EncodedNote) : Fragment b (row b notes) := by
  fun_induction row b notes with
  | case1 b => exact ⟨trivial, nofun, nofun⟩
  | case2 b encoded => exact fragment b (b - 1) encoded none nofun
  | case3 b encoded rest _ ih =>
      refine (fragment b (b - 1) encoded (some (b + width)) fun id same => ?_).append ih
      obtain rfl := Option.some.inj same
      exact Int.add_lt_add_left (by decide) b

/-- Nothing but the first note of a row is held from outside, by the node before it. -/
theorem row_links_perm (notes : List EncodedNote) :
    (heldPairs (row b notes) ++ if notes.isEmpty then [] else [(b - 1, b)]).Perm
      (previousPairs (row b notes)) := by
  fun_induction row b notes with
  | case1 b => exact List.Perm.refl _
  | case2 b encoded => simpa using links_perm b (b - 1) encoded none
  | case3 b encoded rest more ih =>
      have first := links_perm b (b - 1) encoded (some (b + width))
      have before : b + width - 1 = b + 8 := Int.add_sub_assoc b 9 1
      have nonempty : rest.isEmpty = false := List.isEmpty_eq_false_iff.mpr more
      rw [nonempty, if_neg Bool.false_ne_true, before] at ih
      rw [heldPairs_append, previousPairs_append, List.isEmpty_cons, if_neg Bool.false_ne_true]
      apply List.perm_iff_count.mpr
      intro pair
      have here := first.count_eq pair
      have later := ih.count_eq pair
      simp only [List.count_append, Option.map_some, Option.toList_some] at here later ⊢
      omega

/-- A row has no node of a kind that a note lacks. -/
theorem idsOf_row {kind : NodeKind} (foreign : ∀ b previous encoded next,
    idsOf kind (nodes b previous encoded next) = []) (notes : List EncodedNote) :
    idsOf kind (row b notes) = [] := by
  fun_induction row b notes with
  | case1 b => rfl
  | case2 b encoded => exact foreign b (b - 1) encoded none
  | case3 b encoded rest _ ih => rw [idsOf_append, foreign, ih, List.nil_append]

end Cluster

namespace Wrapper

variable (b : Int) (label : String) (previousCall first : Option Int)

/-- What the nodes around a line hold. -/
theorem heldPairs_nodes : heldPairs (nodes b label previousCall first) =
    [(b + 1, b + 2), (b + 1, b + 3)] ++ (first.map (b + 3, ·)).toList := by
  cases first <;> rfl

/-- What is before the nodes around a line. -/
theorem previousPairs_nodes : previousPairs (nodes b label previousCall first) =
    (previousCall.map (·, b)).toList ++ [(b + 1, b + 2), (b + 1, b + 3)] := by
  cases previousCall <;> rfl

/-- The nodes around a line are a fragment if the first note has a later id. -/
theorem fragment (ascending : ∀ id, first = some id → b + 3 < id) :
    Fragment b (nodes b label previousCall first) where
  run := by simp [RunsFrom, nodes, Int.add_assoc]
  ascending := by
    rw [heldPairs_nodes]
    exact ascending_append (by simp) ascending
  plain := by
    simp only [nodes, List.forall_mem_cons]
    refine ⟨.of_call rfl rfl, .of_root rfl rfl, ?_, ?_, List.forall_mem_nil _⟩
    all_goals exact .of_previous rfl rfl

end Wrapper

variable (b : Int) (label : String) (previousCall : Option Int) (notes : List EncodedNote)

/-- The nodes of a line are a fragment. -/
theorem lineChain_fragment : Fragment b (lineChain b label previousCall notes) := by
  refine (Wrapper.fragment b label previousCall _ fun id same => ?_).append
    (Cluster.row_fragment _ notes)
  split at same
  · cases same
  · obtain rfl := Option.some.inj same
    exact Int.add_lt_add_left (by decide) b

/-- Nothing but the call of a line is held from outside, by the call of the line before. -/
theorem lineChain_links_perm :
    (heldPairs (lineChain b label previousCall notes) ++ (previousCall.map (·, b)).toList).Perm
      (previousPairs (lineChain b label previousCall notes)) := by
  have row := Cluster.row_links_perm (b + Wrapper.width) notes
  have before : b + Wrapper.width - 1 = b + 3 := Int.add_sub_assoc b 4 1
  rw [lineChain, heldPairs_append, previousPairs_append, Wrapper.heldPairs_nodes,
    Wrapper.previousPairs_nodes]
  apply List.perm_iff_count.mpr
  intro pair
  have later := row.count_eq pair
  rw [before] at later
  cases x : notes.isEmpty <;>
    simp only [x, List.count_append, Option.map_some, Option.map_none, Option.toList_some,
      Option.toList_none, List.count_nil, ↓reduceIte, Bool.false_eq_true] at later ⊢ <;>
    omega

/-- The only call of a line is its first node. -/
theorem idsOf_lineCall_lineChain :
    idsOf .lineCall (lineChain b label previousCall notes) = [b] := by
  rw [lineChain, idsOf_append, Cluster.idsOf_row _ fun _ _ _ _ => rfl]
  rfl

/-- A line has nodes of its own kinds only. -/
theorem idsOf_lineChain {kind : NodeKind}
    (outer : kind = .start ∨ kind = .instrumentSetter ∨ kind = .repetition) :
    idsOf kind (lineChain b label previousCall notes) = [] := by
  rw [lineChain, idsOf_append]
  rcases outer with rfl | rfl | rfl <;> rw [Cluster.idsOf_row _ fun _ _ _ _ => rfl] <;> rfl

/-- The call of a line is found with the call before it, and with none behind it. -/
theorem findNode?_lineChain_call : ∃ node, findNode? (lineChain b label previousCall notes) b =
    some node ∧ node.link Slot.previous = previousCall ∧ node.link Slot.callNext = none := by
  refine ⟨_, List.find?_cons_of_pos (beq_self_eq_true b), ?_, rfl⟩
  cases previousCall <;> rfl

/-- The call of a line has the call of the line before in front of it. -/
theorem linkOf_lineChain_previous :
    linkOf (lineChain b label previousCall notes) b Slot.previous = previousCall := by
  obtain ⟨node, found, previous, -⟩ := findNode?_lineChain_call b label previousCall notes
  rw [linkOf, found, Option.bind_some, previous]

/-- The call of a new line has no next one. -/
theorem linkOf_lineChain_next :
    linkOf (lineChain b label previousCall notes) b Slot.callNext = none := by
  obtain ⟨node, found, -, next⟩ := findNode?_lineChain_call b label previousCall notes
  rw [linkOf, found, Option.bind_some, next]

end TuneGraph
