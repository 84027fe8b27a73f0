import TuneGraph.Compile.Staff
import TuneGraph.Proofs.Compile.Line
import TuneGraph.Proofs.Compile.Marker

/-! # Sound staves

Whatever happens to a staff, its ids run on, its calls and repeats are those that it keeps
account of, and chain slots hold calls and repeats while the other slots hold nodes of greater ids
(`StaffAssembly.Sound`). While lines are appended, the calls are linked with their neighbours and
links agree in both directions (`StaffAssembly.Lined`).
-/

namespace TuneGraph

open TuneGraph.Graph

/-- Whether the targets of a node suit its slots: chain slots hold ids of the chain, and the other
slots hold greater ids below a limit that are not in the chain. -/
def Node.Tiered (limit : Int) (chain : List Int) (node : Node) : Prop :=
  ∀ slot held, 1 ≤ slot → node.link slot = some held →
    if isChainSlot node.kind slot = true then held ∈ chain
    else held ∉ chain ∧ node.id < held ∧ held < limit

/-- Every kind has a first slot. -/
theorem NodeKind.arity_pos (kind : NodeKind) : Slot.previous < kind.arity := by
  cases kind <;> decide

/-- A node stays tiered below a higher limit, if the ids that become chain ids are new. -/
theorem Node.Tiered.mono {limit more : Int} {chain longer : List Int} {node : Node}
    (tiered : node.Tiered limit chain) (later : limit ≤ more) (subset : chain ⊆ longer)
    (fresh : ∀ id ∈ longer, id ∈ chain ∨ limit ≤ id) : node.Tiered more longer := by
  intro slot held forward link
  have known := tiered slot held forward link
  split at known
  · rename_i chained
    rw [if_pos chained]
    exact subset known
  · rename_i loose
    rw [if_neg loose]
    refine ⟨fun member => ?_, known.2.1, Int.lt_of_lt_of_le known.2.2 later⟩
    rcases fresh held member with old | new
    · exact known.1 old
    · exact Int.not_lt.mpr new known.2.2

/-- A fragment whose links are answered in it suits any chain of ids before its first one. -/
theorem Graph.Fragment.tiered {base : Int} {nodes : List Node} (fragment : Fragment base nodes)
    (answered : ∀ pair ∈ heldPairs nodes, pair ∈ previousPairs nodes) {chain : List Int}
    (early : ∀ id ∈ chain, id ≤ base) :
    ∀ node ∈ nodes, node.Tiered (base + nodes.length) chain := by
  intro node member slot held forward link
  have pair : (node.id, held) ∈ heldPairs nodes :=
    mem_heldPairs.mpr ⟨slot, forward, node, member, rfl, link⟩
  have greater : node.id < held := fragment.ascending _ pair
  obtain ⟨target, inside, rfl, -⟩ := mem_previousPairs.mp (answered _ pair)
  have first := (fragment.run.mem_ids_iff.mp (List.mem_map_of_mem member)).1
  have last := (fragment.run.mem_ids_iff.mp (List.mem_map_of_mem inside)).2
  split
  · rename_i chained
    rw [(fragment.plain node member).unchained slot chained] at link
    cases link
  · refine ⟨fun inChain => ?_, greater, last⟩
    have := early _ inChain
    omega

namespace Graph

/-- What holds of all nodes and of the changed ones holds after a change. -/
theorem forall_mem_relink {nodes : List Node} {changed : Int} {slot : Nat} {target : Option Int}
    {P : Node → Prop} (old : ∀ node ∈ nodes, P node)
    (new : ∀ node ∈ nodes, node.id = changed → P (node.setLink slot target)) :
    ∀ node ∈ relink nodes changed slot target, P node := by
  intro node member
  obtain ⟨before, inside, rfl⟩ := List.mem_map.mp member
  split
  · rename_i same
    exact new before inside same
  · exact old before inside

/-- Behind a change of a link, nodes can be appended before or after it. -/
theorem relink_append (nodes more : List Node) (changed : Int) (slot : Nat)
    (target : Option Int) : relink (nodes ++ more) changed slot target =
      relink nodes changed slot target ++ relink more changed slot target := List.map_append

end Graph

namespace StaffAssembly

variable {base times : Int} {staff : StaffAssembly}

/-- The ids of the calls and of the repeats. -/
def chainIds (staff : StaffAssembly) : List Int := staff.calls ++ staff.ranges.map Prod.fst

/-- A staff whose nodes are accounted for. -/
structure Sound (base times : Int) (staff : StaffAssembly) : Prop where
  run : RunsFrom base staff.nodes
  next_eq : staff.next = base + staff.nodes.length
  starts : idsOf .start staff.nodes = [base]
  setters : idsOf .instrumentSetter staff.nodes = [staff.instrument]
  calls : idsOf .lineCall staff.nodes = staff.calls
  repeats : idsOf .repetition staff.nodes = staff.ranges.map Prod.fst
  counters : ∀ node ∈ staff.nodes, node.kind = .repeatCount → node.value = .integer times
  tiered : ∀ node ∈ staff.nodes, node.Tiered staff.next staff.chainIds
  root_previous : ∀ node ∈ staff.nodes, isRootKind node.kind = true → node.previous = none
  rooted : ∀ node ∈ staff.nodes, node.previous = none →
    isRootKind node.kind = true ∨ staff.calls.head? = some node.id

section Calls

/-- A line has a call if it is one of the lines of the staff. -/
theorem callOf_eq_some_iff {line call : Int} :
    staff.callOf line = some call ↔ 0 ≤ line ∧ staff.calls[line.toNat]? = some call := by
  unfold callOf
  split
  · rename_i nonneg
    simp only [nonneg, true_and]
  · rename_i negative
    simp only [negative, false_and, reduceCtorEq]

/-- The call of a line that is given by its place. -/
theorem callOf_natCast (line : Nat) : staff.callOf line = staff.calls[line]? := by
  rw [callOf, if_pos (Int.natCast_nonneg line), Int.toNat_natCast]

/-- What is the call of a line is one of the calls. -/
theorem callOf_mem {line call : Int} (known : staff.callOf line = some call) :
    call ∈ staff.calls :=
  List.mem_of_getElem? (callOf_eq_some_iff.mp known).2

/-- Exactly the lines of the staff have a call. -/
theorem isSome_callOf {line : Int} :
    (staff.callOf line).isSome = true ↔ 0 ≤ line ∧ line < staff.calls.length := by
  unfold callOf
  split
  · rw [Option.isSome_iff_ne_none, ne_eq, List.getElem?_eq_none_iff]
    omega
  · simp only [Option.isSome_none, Bool.false_eq_true, false_iff]
    omega

/-- A line of the staff has a call. -/
theorem exists_callOf {line : Int} (inside : 0 ≤ line ∧ line < staff.calls.length) :
    ∃ call, staff.callOf line = some call :=
  Option.isSome_iff_exists.mp (isSome_callOf.mpr inside)

/-- A line outside the staff has none. -/
theorem callOf_eq_none {line : Int} (outside : line < 0 ∨ staff.calls.length ≤ line) :
    staff.callOf line = none := by
  rw [← Option.not_isSome_iff_eq_none, isSome_callOf]
  omega

/-- Every call is the call of a line. -/
theorem exists_callOf_of_mem {call : Int} (member : call ∈ staff.calls) :
    ∃ line, staff.callOf line = some call := by
  obtain ⟨line, known⟩ := List.mem_iff_getElem?.mp member
  exact ⟨line, (callOf_natCast line).trans known⟩

/-- No node is the call of two lines. -/
theorem callOf_inj (unique : staff.calls.Nodup) {line other call : Int}
    (left : staff.callOf line = some call) (right : staff.callOf other = some call) :
    line = other := by
  obtain ⟨nonneg, first⟩ := callOf_eq_some_iff.mp left
  obtain ⟨nonneg', second⟩ := callOf_eq_some_iff.mp right
  obtain ⟨inside, -⟩ := List.getElem?_eq_some_iff.mp first
  have := (List.getElem?_inj inside unique).mp (first.trans second.symm)
  omega

/-- The first line has the first call. -/
theorem callOf_zero : staff.callOf 0 = staff.calls.head? := by
  rw [callOf, if_pos (Int.le_refl 0), Int.toNat_zero, List.head?_eq_getElem?]

/-- The last call is that of the last line. -/
theorem lastCall_eq : staff.lastCall = staff.callOf (staff.calls.length - 1) := by
  rw [lastCall, List.getLast?_eq_getElem?]
  unfold callOf
  split
  · congr 1
    omega
  · have empty : staff.calls.length = 0 := by omega
    rw [List.getElem?_eq_none (by omega)]

/-- One more call is the call of the next line. -/
theorem callOf_concat {longer : StaffAssembly} {call : Int}
    (extended : longer.calls = staff.calls ++ [call]) (line : Int) :
    longer.callOf line = if line = staff.calls.length then some call else staff.callOf line := by
  unfold callOf
  rw [extended]
  by_cases last : line = staff.calls.length
  · subst last
    rw [if_pos rfl, if_pos (Int.natCast_nonneg _), Int.toNat_natCast, List.getElem?_concat_length]
  · rw [if_neg last]
    split
    · rcases Nat.lt_or_ge line.toNat staff.calls.length with inside | outside
      · rw [List.getElem?_append_left inside]
      · rw [List.getElem?_eq_none outside, List.getElem?_eq_none]
        rw [List.length_append, List.length_singleton]
        omega
    · rfl

end Calls

namespace Sound

/-- A sound staff has no id twice. -/
theorem nodup (sound : Sound base times staff) : (staff.nodes.map Node.id).Nodup :=
  sound.run.nodup

/-- No call stands for two lines. -/
theorem calls_nodup (sound : Sound base times staff) : staff.calls.Nodup :=
  sound.calls ▸ sound.nodup.sublist (idsOf_sublist .lineCall)

/-- No repeat stands for two ranges. -/
theorem ranges_nodup (sound : Sound base times staff) : (staff.ranges.map Prod.fst).Nodup :=
  sound.repeats ▸ sound.nodup.sublist (idsOf_sublist .repetition)

/-- The ids of a staff are those from its first one up to the next one. -/
theorem mem_ids_iff (sound : Sound base times staff) {id : Int} :
    id ∈ staff.nodes.map Node.id ↔ base ≤ id ∧ id < staff.next := by
  rw [sound.run.mem_ids_iff, sound.next_eq]

/-- Calls are found among the nodes as calls. -/
theorem kindOf_call (sound : Sound base times staff) {call : Int} (member : call ∈ staff.calls) :
    kindOf staff.nodes call = some .lineCall :=
  kindOf_of_mem_idsOf sound.nodup (sound.calls ▸ member)

/-- Repeats are found among the nodes as repeats. -/
theorem kindOf_repeat (sound : Sound base times staff) {id : Int}
    (member : id ∈ staff.ranges.map Prod.fst) : kindOf staff.nodes id = some .repetition :=
  kindOf_of_mem_idsOf sound.nodup (sound.repeats ▸ member)

/-- The instrument is found among the nodes as the setter of the instrument. -/
theorem kindOf_instrument (sound : Sound base times staff) :
    kindOf staff.nodes staff.instrument = some .instrumentSetter :=
  kindOf_of_mem_idsOf sound.nodup (sound.setters ▸ List.mem_singleton_self _)

/-- What is found among the nodes has an id of the staff. -/
theorem lt_next (sound : Sound base times staff) {id : Int} {kind : NodeKind}
    (known : kindOf staff.nodes id = some kind) : base ≤ id ∧ id < staff.next :=
  sound.mem_ids_iff.mp (mem_ids_of_kindOf known)

/-- The nodes of the chain are the calls and the repeats. -/
theorem mem_chainIds_iff (sound : Sound base times staff) {node : Node}
    (member : node ∈ staff.nodes) : node.id ∈ staff.chainIds ↔ isChainKind node.kind = true := by
  have known := kindOf_of_mem sound.nodup member
  unfold chainIds isChainKind
  rw [List.mem_append, Bool.or_eq_true, beq_iff_eq, beq_iff_eq]
  constructor
  · rintro (call | range)
    · exact Or.inl (Option.some.inj (known.symm.trans (sound.kindOf_call call)))
    · exact Or.inr (Option.some.inj (known.symm.trans (sound.kindOf_repeat range)))
  · rintro (call | range)
    · exact Or.inl (sound.calls ▸ mem_idsOf.mpr ⟨node, member, call, rfl⟩)
    · exact Or.inr (sound.repeats ▸ mem_idsOf.mpr ⟨node, member, range, rfl⟩)

/-- Calls are on the chain. -/
theorem mem_chainIds_of_call {call : Int} (member : call ∈ staff.calls) :
    call ∈ staff.chainIds := List.mem_append_left _ member

/-- What is on the chain has an id of the staff. -/
theorem chainIds_lt (sound : Sound base times staff) {id : Int} (member : id ∈ staff.chainIds) :
    base ≤ id ∧ id < staff.next := by
  rcases List.mem_append.mp member with call | range
  · exact sound.lt_next (sound.kindOf_call call)
  · exact sound.lt_next (sound.kindOf_repeat range)

/-- What is on the chain is found among the nodes as a call or a repeat. -/
theorem kindOf_chainIds (sound : Sound base times staff) {id : Int} (member : id ∈ staff.chainIds) :
    ∃ kind, kindOf staff.nodes id = some kind ∧ isChainKind kind = true := by
  rcases List.mem_append.mp member with call | range
  · exact ⟨_, sound.kindOf_call call, rfl⟩
  · exact ⟨_, sound.kindOf_repeat range, rfl⟩

/-- A changed link leaves kinds, ids and values as they are. -/
theorem relinked (sound : Sound base times staff) {id : Int} {slot : Nat} {target : Option Int}
    (tiered : ∀ node ∈ staff.nodes, node.id = id →
      (node.setLink slot target).Tiered staff.next staff.chainIds)
    (root_previous : ∀ node ∈ staff.nodes, node.id = id → isRootKind node.kind = true →
      (node.setLink slot target).previous = none)
    (rooted : ∀ node ∈ staff.nodes, node.id = id → (node.setLink slot target).previous = none →
      isRootKind node.kind = true ∨ staff.calls.head? = some node.id) :
    Sound base times (staff.setLink id slot target) where
  run := sound.run.of_map_id_eq (map_id_relink ..)
  next_eq := sound.next_eq.trans (by rw [StaffAssembly.setLink, List.length_map])
  starts := (idsOf_relink ..).trans sound.starts
  setters := (idsOf_relink ..).trans sound.setters
  calls := (idsOf_relink ..).trans sound.calls
  repeats := (idsOf_relink ..).trans sound.repeats
  counters := forall_mem_relink sound.counters fun node member _ => sound.counters node member
  tiered := forall_mem_relink sound.tiered tiered
  root_previous := forall_mem_relink sound.root_previous root_previous
  rooted := forall_mem_relink sound.rooted rooted

/-- A chain slot may be given any target of the chain. -/
theorem setLink (sound : Sound base times staff) {id : Int} {slot : Nat} {target : Option Int}
    {kind : NodeKind} (known : kindOf staff.nodes id = some kind)
    (chained : isChainSlot kind slot = true) (suits : ∀ held, target = some held →
      held ∈ staff.chainIds) : Sound base times (staff.setLink id slot target) := by
  have forward : 1 ≤ slot := one_le_of_isChainSlot chained
  have previous : ∀ node : Node, (node.setLink slot target).previous = node.previous :=
    fun node => node.link_setLink_of_ne (Nat.ne_of_lt forward) target
  apply sound.relinked
  · intro node member same other held positive link
    have here : node.kind = kind :=
      Option.some.inj ((kindOf_of_mem sound.nodup member).symm.trans (same ▸ known))
    by_cases changed : other = slot
    · subst changed
      have inside : other < node.kind.arity := by
        rw [here]
        exact lt_arity_of_isChainSlot chained
      rw [node.link_setLink other other target inside, if_pos rfl] at link
      rw [Node.setLink_kind, here, if_pos chained]
      exact suits held link
    · rw [node.link_setLink_of_ne changed] at link
      exact sound.tiered node member other held positive link
  · intro node member _ root
    rw [previous node]
    exact sound.root_previous node member root
  · intro node member _ free
    rw [previous node] at free
    exact sound.rooted node member free

/-- What is in front of a node that is no root may be changed. -/
theorem setPrevious (sound : Sound base times staff) {id holder : Int} {kind : NodeKind}
    (known : kindOf staff.nodes id = some kind) (inner : isRootKind kind = false) :
    Sound base times (staff.setLink id Slot.previous (some holder)) := by
  apply sound.relinked
  · intro node member _ slot held forward link
    have inner : slot ≠ Slot.previous := Nat.ne_of_gt forward
    rw [node.link_setLink_of_ne inner] at link
    exact sound.tiered node member slot held forward link
  · intro node member same root
    have here : node.kind = kind :=
      Option.some.inj ((kindOf_of_mem sound.nodup member).symm.trans (same ▸ known))
    rw [here, inner] at root
    cases root
  · intro node member _ free
    rw [Node.previous, node.link_setLink _ _ _ node.kind.arity_pos, if_pos rfl] at free
    cases free

/-- A staff may be extended by nodes that are accounted for. -/
theorem extend (sound : Sound base times staff) {longer : StaffAssembly} {more : List Node}
    (nodes : longer.nodes = staff.nodes ++ more)
    (next : longer.next = staff.next + more.length)
    (instrument : longer.instrument = staff.instrument)
    (calls : longer.calls = staff.calls ++ idsOf .lineCall more)
    (repeats : longer.ranges.map Prod.fst = staff.ranges.map Prod.fst ++ idsOf .repetition more)
    (run : RunsFrom staff.next more)
    (foreign : idsOf .start more = [] ∧ idsOf .instrumentSetter more = [])
    (counters : ∀ node ∈ more, node.kind = .repeatCount → node.value = .integer times)
    (tiered : ∀ node ∈ more, node.Tiered longer.next longer.chainIds)
    (root_previous : ∀ node ∈ more, isRootKind node.kind = true → node.previous = none)
    (rooted : ∀ node ∈ more, node.previous = none →
      isRootKind node.kind = true ∨ longer.calls.head? = some node.id) :
    Sound base times longer := by
  have both : ∀ {P : Node → Prop}, (∀ node ∈ staff.nodes, P node) → (∀ node ∈ more, P node) →
      ∀ node ∈ longer.nodes, P node := by
    intro P old new node member
    rw [nodes] at member
    exact (List.mem_append.mp member).elim (old node) (new node)
  have fresh : ∀ kind, ∀ id ∈ idsOf kind more, staff.next ≤ id := fun kind id member =>
    (run.mem_ids_iff.mp ((idsOf_sublist kind).subset member)).1
  refine
    { run := ?_
      next_eq := ?_
      starts := by rw [nodes, idsOf_append, sound.starts, foreign.1, List.append_nil]
      setters := by rw [nodes, idsOf_append, sound.setters, foreign.2, instrument, List.append_nil]
      calls := by rw [nodes, idsOf_append, sound.calls, calls]
      repeats := by rw [nodes, idsOf_append, sound.repeats, repeats]
      counters := both sound.counters counters
      tiered := both (fun node member => (sound.tiered node member).mono ?_ ?_ ?_) tiered
      root_previous := both sound.root_previous root_previous
      rooted := both (fun node member free => ?_) rooted }
  · rw [nodes]
    exact RunsFrom.append_iff.mpr ⟨sound.run, sound.next_eq ▸ run⟩
  · rw [next, sound.next_eq, nodes, List.length_append]
    omega
  · rw [next]
    omega
  · unfold chainIds
    rw [calls, repeats]
    intro id present
    simp only [List.mem_append] at present ⊢
    exact present.imp Or.inl Or.inl
  · unfold chainIds
    rw [calls, repeats]
    intro id present
    simp only [List.mem_append] at present ⊢
    rcases present with (old | new) | (old | new)
    · exact Or.inl (Or.inl old)
    · exact Or.inr (fresh _ id new)
    · exact Or.inl (Or.inr old)
    · exact Or.inr (fresh _ id new)
  · refine (sound.rooted node member free).imp_right fun first => ?_
    rw [calls, List.head?_append, first, Option.some_or]

end Sound

/-- The calls of a staff under the voices that it has so far, before any repeat. -/
structure Lined (base times : Int) (voices : List Voice) (staff : StaffAssembly) : Prop where
  sound : Sound base times staff
  ranges : staff.ranges = []
  dropped : staff.dropped = []
  markers : staff.markers = RepeatMarker.ofVoices voices
  lines : staff.calls.length = voices.length
  reciprocal : Reciprocal staff.nodes []
  next : ∀ line call, staff.callOf line = some call →
    linkOf staff.nodes call Slot.callNext = staff.callOf (line + 1)
  previous : ∀ line call, staff.callOf line = some call →
    linkOf staff.nodes call Slot.previous = staff.callOf (line - 1)
  body : linkOf staff.nodes staff.instrument Slot.instrumentBody = none

/-- No staff begins at a negative id. -/
theorem begin_nonneg {title voiceName instrument : String} {meter : Meter} {key : KeySignature}
    (begun : begin base title voiceName meter key instrument = .ok staff) : 0 ≤ base := by
  unfold begin at begun
  split at begun
  · cases begun
  · rename_i nonneg
    exact Int.not_lt.mp nonneg

/-- A staff begins with the nodes of its header. -/
theorem nodes_begin {title voiceName instrument : String} {meter : Meter} {key : KeySignature}
    (begun : begin base title voiceName meter key instrument = .ok staff) :
    staff.nodes = Header.nodes base title voiceName meter key instrument := by
  unfold begin at begun
  split at begun <;> cases begun
  rfl

/-- A header is a staff without lines. -/
theorem begin_lined {title voiceName instrument : String} {meter : Meter} {key : KeySignature}
    (begun : begin base title voiceName meter key instrument = .ok staff) :
    Lined base times [] staff := by
  unfold begin at begun
  split at begun
  · cases begun
  · obtain rfl := Except.ok.inj begun
    have fragment := Header.fragment base title voiceName meter key instrument
    have reciprocal := Header.reciprocal base title voiceName meter key instrument
    have answered : ∀ pair ∈ heldPairs (Header.nodes base title voiceName meter key instrument),
        pair ∈ previousPairs (Header.nodes base title voiceName meter key instrument) := by
      intro pair member
      exact (List.mem_append.mp (reciprocal.mem_iff.mp member)).resolve_right List.not_mem_nil
    have uncalled : ∀ node ∈ Header.nodes base title voiceName meter key instrument,
        node.kind ≠ .lineCall := by
      intro node member call
      have inside : node.id ∈ idsOf .lineCall
          (Header.nodes base title voiceName meter key instrument) :=
        mem_idsOf.mpr ⟨node, member, call, rfl⟩
      exact List.not_mem_nil inside
    have sound : Sound base times
        { nodes := Header.nodes base title voiceName meter key instrument
          instrument := base + Header.instrumentOffset
          next := base + Header.width } :=
      { run := fragment.run
        next_eq := rfl
        starts := rfl
        setters := rfl
        calls := rfl
        repeats := rfl
        counters := fun node member kind => ((fragment.plain node member).uncounted kind).elim
        tiered := fragment.tiered answered fun _ member => (List.not_mem_nil member).elim
        root_previous := fun node member => (fragment.plain node member).root
        rooted := fun node member free => Or.inl
          (((fragment.plain node member).rooted free).resolve_right (uncalled node member)) }
    refine ⟨sound, rfl, rfl, rfl, rfl, reciprocal, ?_, ?_, ?_⟩
    · intro line call known
      exact (List.not_mem_nil (callOf_mem known)).elim
    · intro line call known
      exact (List.not_mem_nil (callOf_mem known)).elim
    · obtain ⟨setter, found, kind⟩ := Option.map_eq_some_iff.mp sound.kindOf_instrument
      have unchained := (fragment.plain setter (mem_of_findNode? found)).unchained
      rw [linkOf, found, Option.bind_some]
      exact unchained Slot.instrumentBody (by rw [kind]; rfl)

/-- A staff with one more line that the call of the line before does not lead to yet. -/
def withLine (staff : StaffAssembly) (label : String) (notes : List EncodedNote)
    (markers : List RepeatMarker) : StaffAssembly :=
  let chain := staff.chainOf label notes
  { staff with
    nodes := staff.nodes ++ chain
    next := staff.next + chain.length
    calls := staff.calls ++ [staff.next]
    markers }

variable {label : String} {notes : List EncodedNote} {markers : List RepeatMarker}

/-- The call of the line before may be linked after the new line has been put there. -/
theorem Sound.appendLine_eq (sound : Sound base times staff) :
    staff.appendLine label notes markers = match staff.lastCall with
      | some last =>
        (staff.withLine label notes markers).setLink last Slot.callNext (some staff.next)
      | none => staff.withLine label notes markers := by
  cases known : staff.lastCall with
  | none =>
      unfold appendLine
      rw [known]
      rfl
  | some last =>
      have run := (lineChain_fragment staff.next label staff.lastCall notes).run
      have absent : last ∉ (staff.chainOf label notes).map Node.id := by
        intro member
        have early := (sound.lt_next (sound.kindOf_call (List.mem_of_getLast? known))).2
        exact absurd (run.mem_ids_iff.mp member).1 (Int.not_le.mpr early)
      have kept : relink (staff.nodes ++ staff.chainOf label notes) last Slot.callNext
          (some staff.next) = relink staff.nodes last Slot.callNext (some staff.next) ++
            staff.chainOf label notes := by
        rw [relink_append, relink_of_notMem absent]
      unfold appendLine
      rw [known]
      exact congrArg (fun nodes : List Node =>
        { staff.withLine label notes markers with nodes }) kept.symm

/-- A lined staff is sound with the nodes of one more line, before the line is linked. -/
theorem Lined.sound_withLine (lined : Lined base times voices staff) :
    Sound base times (staff.withLine label notes markers) := by
  have fragment := lineChain_fragment staff.next label staff.lastCall notes
  have links := lineChain_links_perm staff.next label staff.lastCall notes
  have calls := idsOf_lineCall_lineChain staff.next label staff.lastCall notes
  have chain : (staff.withLine label notes markers).chainIds = staff.calls ++ [staff.next] := by
    unfold chainIds withLine
    rw [lined.ranges, List.map_nil, List.append_nil]
  refine lined.sound.extend rfl rfl rfl (congrArg (staff.calls ++ ·) calls.symm) ?_ fragment.run
    ⟨idsOf_lineChain _ _ _ _ (Or.inl rfl), idsOf_lineChain _ _ _ _ (Or.inr (Or.inl rfl))⟩
    (fun node member kind => ((fragment.plain node member).uncounted kind).elim)
    (fragment.tiered ?_ ?_) (fun node member => (fragment.plain node member).root) ?_
  · have unrepeated := idsOf_lineChain staff.next label staff.lastCall notes (Or.inr (Or.inr rfl))
    rw [chainOf, unrepeated, List.append_nil]
    rfl
  · intro pair member
    exact links.subset (List.mem_append_left _ member)
  · rw [chain]
    intro id member
    rcases List.mem_append.mp member with old | new
    · exact Int.le_of_lt (lined.sound.lt_next (lined.sound.kindOf_call old)).2
    · exact Int.le_of_eq (List.mem_singleton.mp new)
  · intro node member free
    rcases (fragment.plain node member).rooted free with root | call
    · exact Or.inl root
    · have inside : node.id ∈ [staff.next] := calls ▸ mem_idsOf.mpr ⟨node, member, call, rfl⟩
      have here := List.mem_singleton.mp inside
      have before := linkOf_of_mem fragment.run.nodup member Slot.previous
      rw [here, linkOf_lineChain_previous] at before
      have empty : staff.calls = [] := List.getLast?_eq_none_iff.mp (before.trans free)
      right
      unfold withLine
      rw [empty, here]
      rfl

namespace Lined

/-- The new call is the only node that the new line has a link back to but no forward link. -/
theorem links_perm_withLine (lined : Lined base times voices staff) :
    (heldPairs (staff.withLine label notes markers).nodes ++
        (staff.lastCall.map (·, staff.next)).toList).Perm
      (previousPairs (staff.withLine label notes markers).nodes) := by
  have links := lineChain_links_perm staff.next label staff.lastCall notes
  have before := lined.reciprocal
  rw [Reciprocal, List.append_nil] at before
  unfold withLine chainOf
  rw [heldPairs_append, previousPairs_append, List.append_assoc]
  exact before.append links

/-- The nodes of one more line leave the links of the earlier nodes as they are. -/
theorem linkOf_withLine_of_kindOf {id : Int}
    {kind : NodeKind} (known : kindOf staff.nodes id = some kind) (slot : Nat) :
    linkOf (staff.withLine label notes markers).nodes id slot = linkOf staff.nodes id slot :=
  linkOf_append_left (mem_ids_of_kindOf known) slot

/-- The call of the new line has the links that the line gives to it. -/
theorem linkOf_withLine_next (lined : Lined base times voices staff) (slot : Nat) :
    linkOf (staff.withLine label notes markers).nodes staff.next slot =
      linkOf (staff.chainOf label notes) staff.next slot := by
  apply linkOf_append_right
  rw [lined.sound.mem_ids_iff]
  omega

/-- Appending a line gives the last call a next one and changes no other link. -/
theorem linkOf_appendLine (lined : Lined base times voices staff) (id : Int) (slot : Nat) :
    linkOf (staff.appendLine label notes markers).nodes id slot =
      if staff.lastCall = some id ∧ slot = Slot.callNext then some staff.next
      else linkOf (staff.withLine label notes markers).nodes id slot := by
  rw [lined.sound.appendLine_eq]
  cases known : staff.lastCall with
  | none => simp only [reduceCtorEq, false_and, ↓reduceIte]
  | some last =>
      have member : last ∈ staff.calls := List.mem_of_getLast? known
      have sound : Sound base times (staff.withLine label notes markers) := lined.sound_withLine
      have kind := sound.kindOf_call (List.mem_append_left _ member)
      simp only [Option.some.injEq, @eq_comm _ last id]
      exact linkOf_relink kind (by decide) slot

/-- The call of a line that is appended comes last. -/
theorem calls_appendLine (lined : Lined base times voices staff) :
    (staff.appendLine label notes markers).calls = staff.calls ++ [staff.next] := by
  rw [lined.sound.appendLine_eq]
  cases staff.lastCall <;> rfl

/-- A lined staff is sound after one more line. -/
theorem sound_appendLine (lined : Lined base times voices staff) :
    Sound base times (staff.appendLine label notes markers) := by
  have sound : Sound base times (staff.withLine label notes markers) := lined.sound_withLine
  rw [lined.sound.appendLine_eq]
  cases known : staff.lastCall with
  | none => exact sound
  | some last =>
      have member : last ∈ staff.calls := List.mem_of_getLast? known
      have called := sound.kindOf_call (List.mem_append_left _ member)
      refine sound.setLink called rfl fun held same => ?_
      obtain rfl := Option.some.inj same
      exact Sound.mem_chainIds_of_call (List.mem_append_right _ (List.mem_singleton_self _))

/-- The links of a lined staff are reciprocal after one more line. -/
theorem reciprocal_appendLine (lined : Lined base times voices staff) :
    Reciprocal (staff.appendLine label notes markers).nodes [] := by
  have sound : Sound base times (staff.withLine label notes markers) := lined.sound_withLine
  have links : (heldPairs (staff.withLine label notes markers).nodes ++
      (staff.lastCall.map (·, staff.next)).toList).Perm _ := lined.links_perm_withLine
  rw [lined.sound.appendLine_eq, Reciprocal, List.append_nil]
  cases known : staff.lastCall with
  | none =>
      rw [known, Option.map_none, Option.toList_none, List.append_nil] at links
      exact links
  | some last =>
      have member : last ∈ staff.calls := List.mem_of_getLast? known
      have kind := sound.kindOf_call (List.mem_append_left _ member)
      have free : linkOf (staff.withLine label notes markers).nodes last Slot.callNext = none := by
        rw [linkOf_withLine_of_kindOf (lined.sound.kindOf_call member),
          lined.next _ last (lastCall_eq ▸ known)]
        exact callOf_eq_none (by omega)
      have forward : 1 ≤ Slot.callNext := Nat.le_refl 1
      have exchange := heldPairs_relink sound.nodup kind forward (by decide) (some staff.next)
      rw [free, Option.map_none, Option.toList_none, List.append_nil] at exchange
      rw [known] at links
      refine exchange.trans (links.trans (List.Perm.of_eq ?_))
      exact (previousPairs_relink_forward forward (some staff.next)).symm

/-- A voice adds a line under the ones that a staff has. -/
theorem appendVoice (lined : Lined base times voices staff) (key : KeySignature)
    (meterDenominator bound : Int) (voice : Voice) : Lined base times (voices ++ [voice])
      (staff.appendVoice label key meterDenominator bound voice) := by
  unfold StaffAssembly.appendVoice
  generalize notesEq : Voice.encode key meterDenominator bound none voice = notes
  generalize markersEq : RepeatMarker.afterVoice staff.lineCount staff.markers voice = markers
  have calls : (staff.appendLine label notes markers).calls = _ := lined.calls_appendLine
  have link : ∀ id slot, linkOf (staff.appendLine label notes markers).nodes id slot = _ :=
    lined.linkOf_appendLine
  have callOf := callOf_concat calls
  refine ⟨lined.sound_appendLine, ?_, ?_, ?_, ?_, lined.reciprocal_appendLine, ?_, ?_, ?_⟩
  · rw [lined.sound.appendLine_eq]
    cases staff.lastCall <;> exact lined.ranges
  · rw [lined.sound.appendLine_eq]
    cases staff.lastCall <;> exact lined.dropped
  · have kept : (staff.appendLine label notes markers).markers = markers := by
      rw [lined.sound.appendLine_eq]
      cases staff.lastCall <;> rfl
    rw [kept, ← markersEq, lined.markers, RepeatMarker.ofVoices, RepeatMarker.ofVoices,
      RepeatMarker.afterVoices_concat, Int.zero_add, lineCount, lined.lines]
  · rw [calls, List.length_append, List.length_append, lined.lines]
    rfl
  · intro line call known
    rw [callOf] at known ⊢
    rw [link]
    split at known
    · rename_i last
      obtain rfl := Option.some.inj known
      have fresh : staff.lastCall ≠ some staff.next := fun same =>
        absurd (lined.sound.lt_next (lined.sound.kindOf_call (List.mem_of_getLast? same))).2
          (Int.lt_irrefl _)
      rw [if_neg fun both => fresh both.1, linkOf_withLine_next lined, chainOf,
        linkOf_lineChain_next, if_neg (by omega), callOf_eq_none (by omega)]
    · rw [linkOf_withLine_of_kindOf (lined.sound.kindOf_call (callOf_mem known)), lastCall_eq,
        lined.next line call known]
      by_cases last : line + 1 = staff.calls.length
      · rw [if_pos last, if_pos ⟨by rw [← known]; congr 1; omega, rfl⟩]
      · rw [if_neg last, if_neg]
        rintro ⟨same, -⟩
        have := callOf_inj lined.sound.calls_nodup same known
        omega
  · intro line call known
    rw [callOf] at known ⊢
    rw [link, if_neg fun both => absurd both.2 (by decide)]
    split at known
    · rename_i last
      obtain rfl := Option.some.inj known
      rw [linkOf_withLine_next lined, chainOf, linkOf_lineChain_previous, lastCall_eq,
        if_neg (by omega), last]
    · have inside := isSome_callOf.mp (Option.isSome_iff_exists.mpr ⟨call, known⟩)
      rw [linkOf_withLine_of_kindOf (lined.sound.kindOf_call (callOf_mem known)),
        lined.previous line call known, if_neg (by omega)]
  · have instrument : (staff.appendLine label notes markers).instrument = staff.instrument := by
      rw [lined.sound.appendLine_eq]
      cases staff.lastCall <;> rfl
    rw [instrument, link, if_neg fun both => absurd both.2 (by decide),
      linkOf_withLine_of_kindOf lined.sound.kindOf_instrument, lined.body]

end Lined

end StaffAssembly

end TuneGraph
