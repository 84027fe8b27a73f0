import TuneGraph.Host.Memory
import TuneGraph.Proofs.Except
import Mathlib.Data.List.Sort

/-! # What a host in memory holds

A host takes a list of blocks as a whole or not at all. What it holds afterwards is, for every id,
the last block of that id in the list or else the block that it held before
(`MemoryHost.get?_afterInstall`), and no id comes twice (`MemoryHost.Reachable.distinct`). So two
hosts that hold the same block of every id have the same blocks in the same order
(`MemoryHost.sameStore_of_find?`).
-/

namespace TuneGraph

/-- The id of a well-formed block: of a list of five that begins with an integer or a truth value
and ends with a list. -/
def Datum.blockId? : Datum → Option Int
  | .list [id, _, _, _, .list _] => Block.id? id
  | _ => none

/-- The error with which a value that is no block is refused, by its spelling. -/
def Datum.malformation : Datum → String → InstallError
  | .list [_, _, _, _, _] => .malformedFields
  | _ => .malformedBlock

/-- A well-formed block with its id. -/
def Datum.block? (value : Datum) : Option Block := value.blockId?.map (⟨·, value⟩)

/-- The last block of an id in a list of values. -/
def lastBlock? (values : List Datum) (id : Int) : Option Datum :=
  values.reverse.find? (·.blockId? == some id)

/-- The ids of the well-formed blocks in a list of values. -/
def blockIds (values : List Datum) : List Int := values.filterMap Datum.blockId?

namespace Block

/-- A value with the id of a block is a block. -/
theorem read_eq_ok {value : Datum} {id : Int} (known : value.blockId? = some id) :
    read value = .ok ⟨id, value⟩ := by
  unfold Datum.blockId? at known
  split at known
  next head name x y links =>
    simp only [read, known]
    rfl
  next => cases known

/-- A value that is no block is refused with an error that shows it. -/
theorem read_eq_error {value : Datum} (malformed : value.blockId? = none) :
    read value = .error (refusal value.malformation value) := by
  unfold read
  split
  next head name x y links =>
    split
    next id _ known =>
      simp only [Datum.blockId?, known] at malformed
      cases malformed
    next => rfl
  next none =>
    have other : value.malformation = .malformedBlock := by
      unfold Datum.malformation
      split
      · exact (none _ _ _ _ _ rfl).elim
      · rfl
    rw [other]
    rfl

/-- Well-formed blocks are all read. -/
theorem readAll_eq_ok {values : List Datum}
    (wellFormed : ∀ value ∈ values, value.blockId?.isSome = true) :
    readAll values = .ok (values.filterMap Datum.block?) := by
  rw [readAll, mapM_eq_ok_iff]
  induction values with
  | nil => exact .nil
  | cons value rest ih =>
      obtain ⟨here, later⟩ := List.forall_mem_cons.mp wellFormed
      obtain ⟨id, known⟩ := Option.isSome_iff_exists.mp here
      have block : value.block? = some ⟨id, value⟩ := by rw [Datum.block?, known, Option.map_some]
      rw [List.filterMap_cons_some block]
      exact .cons (read_eq_ok known) (ih later)

/-- Of a list of values the first that is no block is refused. -/
theorem readAll_eq_error {values : List Datum} {value : Datum}
    (first : values.find? (·.blockId?.isNone) = some value) :
    readAll values = .error (refusal value.malformation value) := by
  unfold readAll
  induction values with
  | nil => cases first
  | cons head rest ih =>
      rw [List.find?_cons] at first
      rw [List.mapM_cons]
      cases known : head.blockId? with
      | none =>
          rw [known] at first
          obtain rfl := Option.some.inj first
          rw [read_eq_error known]
          rfl
      | some id =>
          rw [known] at first
          rw [read_eq_ok known, ih first]
          rfl

/-- A refusal is an error of the installation exactly if the value can be spelled. -/
theorem refusal_cases (error : String → InstallError) (value : Datum) :
    (∀ spelling, value.literal? = some spelling →
      refusal error value = .install (error spelling)) ∧
    (value.literal? = none → refusal error value = .tooLong) := by
  unfold refusal
  refine ⟨fun spelling spelled => ?_, fun unspelled => ?_⟩
  · rw [spelled]
  · rw [unspelled]

end Block

namespace MemoryHost

/-- Stored blocks with more blocks, one after the other. -/
def putAll (blocks stored : List Block) : List Block :=
  blocks.foldl (fun stored block => put block stored) stored

section Put

variable {block : Block} {blocks stored : List Block} {id : Int}

theorem find?_put (block : Block) (stored : List Block) (id : Int) :
    (put block stored).find? (·.id == id) =
      if block.id = id then some block else stored.find? (·.id == id) := by
  induction stored with
  | nil => by_cases same : block.id = id <;> simp [put, same]
  | cons first rest ih =>
      by_cases found : first.id = block.id
      · rw [put, if_pos found]
        by_cases same : block.id = id <;> simp [found, same]
      · rw [put, if_neg found]
        by_cases same : block.id = id
        · have other : ¬first.id = id := fun equal => found (equal.trans same.symm)
          simp [ih, same, other]
        · simp [List.find?_cons, ih, same]

/-- A block with a new id comes last. -/
theorem put_of_new (absent : block.id ∉ stored.map Block.id) :
    put block stored = stored ++ [block] := by
  induction stored with
  | nil => rfl
  | cons first rest ih =>
      rw [List.map_cons, List.mem_cons, not_or] at absent
      rw [put, if_neg fun equal => absent.1 equal.symm, ih absent.2, List.cons_append]

/-- A block takes the place of the one of its id. -/
theorem map_id_put_of_mem (member : block.id ∈ stored.map Block.id) :
    (put block stored).map Block.id = stored.map Block.id := by
  induction stored with
  | nil => exact (List.not_mem_nil member).elim
  | cons first rest ih =>
      by_cases found : first.id = block.id
      · rw [put, if_pos found, List.map_cons, List.map_cons, found]
      · have later := (List.mem_cons.mp member).resolve_left fun equal => found equal.symm
        rw [put, if_neg found, List.map_cons, List.map_cons, ih later]

theorem nodup_put (distinct : (stored.map Block.id).Nodup) :
    ((put block stored).map Block.id).Nodup := by
  by_cases member : block.id ∈ stored.map Block.id
  · rwa [map_id_put_of_mem member]
  · rw [put_of_new member, List.map_append]
    refine List.nodup_append.mpr ⟨distinct, List.nodup_singleton _, ?_⟩
    rintro id inside _ last rfl
    exact member (List.mem_singleton.mp last ▸ inside)

theorem nodup_putAll (blocks : List Block) (distinct : (stored.map Block.id).Nodup) :
    ((putAll blocks stored).map Block.id).Nodup := by
  induction blocks generalizing stored with
  | nil => exact distinct
  | cons block rest ih => exact ih (nodup_put distinct)

/-- Of several blocks of one id the last one stays. -/
theorem find?_putAll (blocks stored : List Block) (id : Int) :
    (putAll blocks stored).find? (·.id == id) =
      (blocks.reverse.find? (·.id == id)).or (stored.find? (·.id == id)) := by
  induction blocks generalizing stored with
  | nil => rfl
  | cons block rest ih =>
      have last : [block].find? (·.id == id) = if block.id = id then some block else none := by
        by_cases same : block.id = id <;> simp [same]
      rw [putAll, List.foldl_cons, List.reverse_cons, List.find?_append, last, Option.or_assoc]
      refine (ih (put block stored)).trans ?_
      rw [find?_put]
      split <;> rfl

/-- Blocks with new ids come after the stored ones. -/
theorem putAll_of_new (distinct : ((stored ++ blocks).map Block.id).Nodup) :
    putAll blocks stored = stored ++ blocks := by
  induction blocks generalizing stored with
  | nil => exact (List.append_nil stored).symm
  | cons block rest ih =>
      have apart := distinct
      rw [List.map_append, List.nodup_append, List.map_cons] at apart
      have absent : block.id ∉ stored.map Block.id := fun member =>
        apart.2.2 _ member _ List.mem_cons_self rfl
      rw [List.append_cons] at distinct ⊢
      rw [putAll, List.foldl_cons, put_of_new absent]
      exact ih distinct

end Put

/-- A host after an installation, whether the blocks were taken or refused. -/
def afterInstall (host : MemoryHost) (values : List Datum) : MemoryHost :=
  match host.install values with
  | .ok next => next
  | .error _ => host

/-- The hosts that installations and clearings make of a new one. -/
inductive Reachable : MemoryHost → Prop
  | new : Reachable {}
  | install {host : MemoryHost} (reachable : Reachable host) (values : List Datum) :
      Reachable (host.afterInstall values)
  | clear {host : MemoryHost} (reachable : Reachable host) : Reachable host.clear

/-- Whether two hosts have the same blocks, found by their ids or listed in order. -/
structure SameStore (host other : MemoryHost) : Prop where
  get? : ∀ id, host.get? id = other.get? id
  blocks : host.blocks = other.blocks
  size : host.size = other.size

theorem SameStore.refl (host : MemoryHost) : SameStore host host := ⟨fun _ => rfl, rfl, rfl⟩

section Install

variable {host other : MemoryHost} {values others : List Datum} {value : Datum}

/-- Well-formed blocks are installed. -/
theorem install_eq_ok (host : MemoryHost)
    (wellFormed : ∀ value ∈ values, value.blockId?.isSome = true) :
    host.install values = .ok
      { stored := putAll (values.filterMap Datum.block?) host.stored
        installs := host.installs + 1 } := by
  rw [install, Block.readAll_eq_ok wellFormed]
  rfl

/-- If a value is no block, the first such value is refused. -/
theorem install_eq_error (host : MemoryHost)
    (first : values.find? (·.blockId?.isNone) = some value) :
    host.install values = .error (Block.refusal value.malformation value) := by
  rw [install, Block.readAll_eq_error first]
  rfl

/-- Either all values are blocks, or there is a first one that is none. -/
theorem wellFormed_or_malformed (values : List Datum) :
    (∀ value ∈ values, value.blockId?.isSome = true) ∨
      ∃ value, values.find? (·.blockId?.isNone) = some value := by
  cases found : values.find? (·.blockId?.isNone) with
  | none =>
      refine Or.inl fun value member => ?_
      exact Option.isSome_iff_ne_none.mpr fun none =>
        List.find?_eq_none.mp found value member (Option.isNone_iff_eq_none.mpr none)
  | some value => exact Or.inr ⟨value, rfl⟩

/-- A host that refuses a value stays as it was. -/
theorem afterInstall_of_malformed (host : MemoryHost)
    (malformed : ∃ value, values.find? (·.blockId?.isNone) = some value) :
    host.afterInstall values = host := by
  obtain ⟨value, first⟩ := malformed
  rw [afterInstall, host.install_eq_error first]

/-- A host puts well-formed blocks to those that it has and counts the installation. -/
theorem afterInstall_of_wellFormed (host : MemoryHost)
    (wellFormed : ∀ value ∈ values, value.blockId?.isSome = true) :
    host.afterInstall values =
      { stored := putAll (values.filterMap Datum.block?) host.stored
        installs := host.installs + 1 } := by
  rw [afterInstall, host.install_eq_ok wellFormed]

/-- A block that is found has the id that was looked for. -/
theorem find?_block? (values : List Datum) (id : Int) :
    ((values.filterMap Datum.block?).reverse.find? (·.id == id)).map Block.datum =
      lastBlock? values id := by
  have told : ∀ value : Datum, (value.block?.any (·.id == id)) = (value.blockId? == some id) := by
    intro value
    cases known : value.blockId? with
    | none => simp [Datum.block?, known]
    | some own => simp [Datum.block?, known]
  rw [← List.filterMap_reverse, List.find?_filterMap, lastBlock?]
  simp only [told]
  cases found : values.reverse.find? (·.blockId? == some id) with
  | none => rfl
  | some value =>
      have known : value.blockId? = some id := by simpa using List.find?_some found
      simp [Datum.block?, known]

/-- After an installation every id has its last block in the list, or else its block of before. -/
theorem get?_afterInstall (host : MemoryHost)
    (wellFormed : ∀ value ∈ values, value.blockId?.isSome = true) (id : Int) :
    (host.afterInstall values).get? id = (lastBlock? values id).or (host.get? id) := by
  rw [host.afterInstall_of_wellFormed wellFormed, get?, find?_putAll, Option.map_or, find?_block?]
  rfl

/-- No id comes twice in a host. -/
theorem Reachable.distinct (reachable : host.Reachable) : (host.stored.map Block.id).Nodup := by
  induction reachable with
  | new => exact List.nodup_nil
  | clear => exact List.nodup_nil
  | @install host _ values ih =>
      rcases wellFormed_or_malformed values with wellFormed | malformed
      · rw [host.afterInstall_of_wellFormed wellFormed]
        exact nodup_putAll _ ih
      · rwa [host.afterInstall_of_malformed malformed]

end Install

section Order

variable {host other : MemoryHost} {stored others : List Block}

/-- The order in which a host lists its blocks. -/
theorem pairwise_mergeSort_id (stored : List Block) :
    (stored.mergeSort fun a b => a.id ≤ b.id).Pairwise fun a b => a.id ≤ b.id := by
  refine (List.pairwise_mergeSort ?_ ?_ stored).imp of_decide_eq_true
  · intro a b c before after
    exact decide_eq_true (Int.le_trans (of_decide_eq_true before) (of_decide_eq_true after))
  · intro a b
    simpa using Int.le_total a.id b.id

/-- Blocks with different ids are in order in one way only. -/
theorem mergeSort_eq (perm : stored.Perm others)
    (ascending : others.Pairwise fun a b => a.id ≤ b.id)
    (distinct : (others.map Block.id).Nodup) :
    (stored.mergeSort fun a b => a.id ≤ b.id) = others := by
  have sorted := (List.mergeSort_perm stored fun a b => a.id ≤ b.id).trans perm
  refine sorted.eq_of_pairwise ?_ (pairwise_mergeSort_id stored) ascending
  intro a b inside member before after
  exact List.inj_on_of_nodup_map distinct (sorted.subset inside) member
    (Int.le_antisymm before after)

theorem mem_iff_find? (distinct : (stored.map Block.id).Nodup) {block : Block} :
    block ∈ stored ↔ stored.find? (·.id == block.id) = some block := by
  refine ⟨fun member => ?_, List.mem_of_find?_eq_some⟩
  have present : (stored.find? (·.id == block.id)).isSome = true :=
    List.find?_isSome.mpr ⟨block, member, beq_self_eq_true block.id⟩
  obtain ⟨found, known⟩ := Option.isSome_iff_exists.mp present
  have same : found.id = block.id := by simpa using List.find?_some known
  rw [known, List.inj_on_of_nodup_map distinct (List.mem_of_find?_eq_some known) member same]

/-- Hosts that hold the same block of every id list the same blocks. -/
theorem sameStore_of_find? (distinct : (host.stored.map Block.id).Nodup)
    (distinct' : (other.stored.map Block.id).Nodup)
    (same : ∀ id, host.stored.find? (·.id == id) = other.stored.find? (·.id == id)) :
    SameStore host other := by
  have perm : host.stored.Perm other.stored := by
    refine (List.perm_ext_iff_of_nodup distinct.of_map distinct'.of_map).mpr fun block => ?_
    rw [mem_iff_find? distinct, mem_iff_find? distinct', same]
  refine ⟨fun id => ?_, ?_, perm.length_eq⟩
  · rw [get?, get?, same]
  · have sorted := List.mergeSort_perm other.stored fun a b => a.id ≤ b.id
    rw [blocks, blocks, mergeSort_eq (perm.trans sorted.symm) (pairwise_mergeSort_id _)
      ((sorted.map Block.id).nodup_iff.mpr distinct')]

end Order

section Repeated

variable {host : MemoryHost} {values others : List Datum} {id : Int}

theorem mem_blockIds_of_find? {block : Block}
    (found : (values.filterMap Datum.block?).reverse.find? (·.id == id) = some block) :
    id ∈ blockIds values := by
  have known := find?_block? values id
  rw [found, Option.map_some, lastBlock?] at known
  refine List.mem_filterMap.mpr ⟨block.datum, ?_, ?_⟩
  · exact List.mem_reverse.mp (List.mem_of_find?_eq_some known.symm)
  · simpa using List.find?_some known.symm

/-- What is installed a second time is there already. -/
theorem Reachable.sameStore_twice (reachable : host.Reachable) (values : List Datum) :
    SameStore ((host.afterInstall values).afterInstall values) (host.afterInstall values) := by
  rcases wellFormed_or_malformed values with wellFormed | malformed
  · refine sameStore_of_find? ((reachable.install values).install values).distinct
      (reachable.install values).distinct fun id => ?_
    simp only [afterInstall_of_wellFormed _ wellFormed, find?_putAll, ← Option.or_assoc,
      Option.or_self]
  · rw [host.afterInstall_of_malformed malformed, host.afterInstall_of_malformed malformed]
    exact .refl host

/-- Lists without a common id may be installed in any order. -/
theorem Reachable.sameStore_swap (reachable : host.Reachable)
    (apart : List.Disjoint (blockIds values) (blockIds others)) :
    SameStore ((host.afterInstall values).afterInstall others)
      ((host.afterInstall others).afterInstall values) := by
  rcases wellFormed_or_malformed values with wellFormed | malformed
  · rcases wellFormed_or_malformed others with otherWellFormed | otherMalformed
    · refine sameStore_of_find? ((reachable.install values).install others).distinct
        ((reachable.install others).install values).distinct fun id => ?_
      simp only [afterInstall_of_wellFormed _ wellFormed,
        afterInstall_of_wellFormed _ otherWellFormed, find?_putAll]
      cases here : (values.filterMap Datum.block?).reverse.find? (·.id == id) with
      | none => rfl
      | some block =>
          cases there : (others.filterMap Datum.block?).reverse.find? (·.id == id) with
          | none => rfl
          | some other =>
              exact (apart (mem_blockIds_of_find? here) (mem_blockIds_of_find? there)).elim
    · rw [afterInstall_of_malformed _ otherMalformed, afterInstall_of_malformed _ otherMalformed]
      exact .refl _
  · rw [afterInstall_of_malformed _ malformed, afterInstall_of_malformed _ malformed]
    exact .refl _

/-- Installations are counted in any order. -/
theorem installs_swap (host : MemoryHost) (values others : List Datum) :
    ((host.afterInstall values).afterInstall others).installs =
      ((host.afterInstall others).afterInstall values).installs := by
  rcases wellFormed_or_malformed values with wellFormed | malformed
  · rcases wellFormed_or_malformed others with otherWellFormed | otherMalformed
    · simp only [afterInstall_of_wellFormed _ wellFormed,
        afterInstall_of_wellFormed _ otherWellFormed]
    · rw [afterInstall_of_malformed _ otherMalformed, afterInstall_of_malformed _ otherMalformed]
  · rw [afterInstall_of_malformed _ malformed, afterInstall_of_malformed _ malformed]

end Repeated

end MemoryHost

end TuneGraph
