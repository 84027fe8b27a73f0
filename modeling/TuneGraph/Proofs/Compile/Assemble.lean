import TuneGraph.Compile.Counter
import TuneGraph.Proofs.Compile.Tune

/-! # The staves that a compilation is made of

A compilation is the sum of the staves of its parts, assembled one after another with ids that run
on (`Tune.compile_eq`). Every marker of a staff either becomes a repeat or is dropped: the dropped
ones are those that are refused, in order (`Compile.dropped_of_staff`).
-/

namespace TuneGraph

open StaffAssembly

namespace RepeatMarker

/-- The markers for which no repeat is made, in order, after those for which one was. -/
def refusedAfter (lines : Nat) (accepted : List RepeatMarker) :
    List RepeatMarker → List RepeatMarker
  | [] => []
  | marker :: rest =>
    if marker.isAcceptable lines accepted then refusedAfter lines (accepted ++ [marker]) rest
    else marker :: refusedAfter lines accepted rest

/-- The markers of a staff for which no repeat is made: those that `accepted` leaves out. -/
def refused (lines : Nat) (markers : List RepeatMarker) : List RepeatMarker :=
  refusedAfter lines [] markers

end RepeatMarker

namespace IdCounter

variable {counter middle last : IdCounter} {count more first later : Int}

/-- As many ids as are asked for are handed out, from the first free one on. -/
theorem allocate_eq_ok_iff : counter.allocate count = .ok (first, middle) ↔
    1 ≤ count ∧ first = counter.next ∧ middle.next = first + count := by
  unfold allocate
  split
  · rename_i few
    exact iff_of_false nofun fun ⟨enough, _⟩ => Int.not_lt.mpr enough few
  · rename_i enough
    constructor
    · intro same
      cases same
      exact ⟨Int.not_lt.mp enough, rfl, rfl⟩
    · rintro ⟨-, rfl, ends⟩
      obtain ⟨next⟩ := middle
      cases ends
      rfl

/-- What is handed out later comes behind what was handed out before. -/
theorem le_of_allocate (before : counter.allocate count = .ok (first, middle))
    (behind : middle.allocate more = .ok (later, last)) : first + count ≤ later := by
  obtain ⟨-, -, ends⟩ := allocate_eq_ok_iff.mp before
  obtain ⟨-, starts, -⟩ := allocate_eq_ok_iff.mp behind
  exact le_of_eq (ends.symm.trans starts.symm)

end IdCounter

/-- The markers of a part for which no repeat is made, in order. -/
def refusedOf (part : List Staff) : List RepeatMarker :=
  RepeatMarker.refused (voicesOf part).length (RepeatMarker.ofVoices (voicesOf part))

namespace StaffAssembly

variable {staff next : StaffAssembly} {marker : RepeatMarker} {count id first : Int}

/-- A header takes the ids that the counter hands out for it. -/
theorem allocate_begin {base : Int} {title voiceName instrument : String} {meter : Meter}
    {key : KeySignature} (begun : begin base title voiceName meter key instrument = .ok staff) :
    (⟨base⟩ : IdCounter).allocate Header.width = .ok (base, ⟨staff.next⟩) := by
  unfold begin at begun
  split at begun
  · cases begun
  · cases begun
    exact IdCounter.allocate_eq_ok_iff.mpr ⟨by decide, rfl, rfl⟩

/-- A line takes the ids that the counter hands out for its chain. -/
theorem allocate_appendLine (staff : StaffAssembly) (label : String) (notes : List EncodedNote)
    (markers : List RepeatMarker) :
    (⟨staff.next⟩ : IdCounter).allocate (staff.chainOf label notes).length =
      .ok (staff.next, ⟨(staff.appendLine label notes markers).next⟩) := by
  have enough : 1 ≤ (staff.chainOf label notes).length := by
    rw [chainOf, lineChain, List.length_append, Wrapper.nodes]
    exact Nat.le_add_right_of_le (Nat.le_add_left 1 _)
  exact IdCounter.allocate_eq_ok_iff.mpr ⟨by omega, rfl, rfl⟩

/-- A repeat takes two ids from the counter. -/
theorem allocate_spliceRepeat (done : staff.spliceRepeat count marker first = .ok next) :
    (⟨staff.next⟩ : IdCounter).allocate 2 = .ok (staff.next, ⟨next.next⟩) := by
  simp only [spliceRepeat, bind_eq_ok_iff] at done
  obtain ⟨node, -, head, -, ⟨entered, holder⟩, -, ⟨left, after⟩, -, same⟩ := done
  cases same
  exact IdCounter.allocate_eq_ok_iff.mpr ⟨by decide, rfl, rfl⟩

/-- Whether two assemblies have the same calls, repeats and dropped markers. -/
def SameBooks (staff next : StaffAssembly) : Prop :=
  next.calls = staff.calls ∧ next.ranges = staff.ranges ∧ next.dropped = staff.dropped

theorem enterRepeat_books {head : Node} {holder : Int}
    (done : staff.enterRepeat id head = .ok (next, holder)) : SameBooks staff next := by
  simp only [enterRepeat, bind_eq_ok_iff] at done
  obtain ⟨node, -, same⟩ := done
  cases same
  split <;> exact ⟨rfl, rfl, rfl⟩

theorem leaveRepeat_books {after : Option Int}
    (done : staff.leaveRepeat id marker = .ok (next, after)) : SameBooks staff next := by
  unfold leaveRepeat at done
  split at done
  next =>
    cases done
    exact ⟨rfl, rfl, rfl⟩
  next following _ =>
    obtain ⟨node, -, done⟩ := bind_eq_ok_iff.mp done
    split at done
    next =>
      cases done
      exact ⟨rfl, rfl, rfl⟩
    next before _ =>
      obtain ⟨tail, -, done⟩ := bind_eq_ok_iff.mp done
      obtain ⟨enclosing, -, done⟩ := bind_eq_ok_iff.mp done
      split at done <;> cases done <;> exact ⟨rfl, rfl, rfl⟩

/-- A spliced marker is entered as a repeat, and nothing is dropped. -/
theorem spliceRepeat_books (done : staff.spliceRepeat count marker first = .ok next) :
    next.calls = staff.calls ∧ next.ranges.map Prod.snd = staff.ranges.map Prod.snd ++ [marker] ∧
      next.dropped = staff.dropped := by
  simp only [spliceRepeat, bind_eq_ok_iff] at done
  obtain ⟨node, -, head, -, ⟨entered, holder⟩, entering, ⟨left, after⟩, leaving, same⟩ := done
  cases same
  obtain ⟨calls, ranges, dropped⟩ := enterRepeat_books entering
  obtain ⟨calls', ranges', dropped'⟩ := leaveRepeat_books leaving
  refine ⟨calls'.trans calls, ?_, dropped'.trans dropped⟩
  rw [List.map_append, ranges', ranges]
  rfl

/-- Every marker is either a repeat afterwards or among the dropped ones. -/
theorem resolveMarker_books (done : resolveMarker count staff marker = .ok next) :
    next.calls = staff.calls ∧
      if marker.isAcceptable staff.calls.length (staff.ranges.map Prod.snd) then
        next.ranges.map Prod.snd = staff.ranges.map Prod.snd ++ [marker] ∧
          next.dropped = staff.dropped
      else next.ranges = staff.ranges ∧ next.dropped = staff.dropped ++ [marker] := by
  rw [resolveMarker_eq] at done
  by_cases acceptable : marker.isAcceptable staff.calls.length (staff.ranges.map Prod.snd) = true
  · obtain ⟨first, called⟩ : ∃ first, staff.callOf marker.startLine = some first := by
      rw [RepeatMarker.isAcceptable, Bool.and_eq_true, Bool.and_eq_true,
        RepeatMarker.isWithin_iff] at acceptable
      exact exists_callOf ⟨acceptable.1.2.1, acceptable.1.2.2.1⟩
    rw [if_pos acceptable, called] at done
    rw [if_pos acceptable]
    exact spliceRepeat_books done
  · rw [if_neg acceptable] at done
    rw [if_neg acceptable]
    cases done
    exact ⟨rfl, rfl, rfl⟩

theorem foldlM_resolveMarker_books {markers : List RepeatMarker}
    (done : markers.foldlM (resolveMarker count) staff = .ok next) :
    next.calls = staff.calls ∧ next.dropped = staff.dropped ++
      RepeatMarker.refusedAfter staff.calls.length (staff.ranges.map Prod.snd) markers := by
  induction markers generalizing staff with
  | nil =>
      cases done
      exact ⟨rfl, (List.append_nil _).symm⟩
  | cons marker markers ih =>
      rw [List.foldlM_cons, bind_eq_ok_iff] at done
      obtain ⟨middle, step, later⟩ := done
      obtain ⟨calls, entry⟩ := resolveMarker_books step
      obtain ⟨calls', dropped⟩ := ih later
      refine ⟨calls'.trans calls, ?_⟩
      rw [dropped, calls, RepeatMarker.refusedAfter]
      split at entry
      next acceptable => rw [if_pos acceptable, entry.1, entry.2]
      next refused => rw [if_neg refused, entry.1, entry.2, List.append_assoc]; rfl

end StaffAssembly

namespace Compile

variable {settings : Settings} {title instrument : String} {index : Nat} {first : Staff}
  {rest : List Staff} {base : Int} {staff : StaffAssembly} {tune : Tune}

/-- The staff of a part has all its lines before its markers are resolved. -/
theorem exists_lined
    (result : Compile.staff settings title instrument index first rest base = .ok staff) :
    ∃ voiceName begun lines,
      label settings.voiceLabel [("staff", index + 1)] = .ok voiceName ∧
      StaffAssembly.begin base title voiceName (first.meter.getD .common) first.key instrument =
        .ok begun ∧
      (first :: rest).foldlM (fun staff line =>
        addVoices settings index (first.meter.getD .common) line staff) begun = .ok lines ∧
      Lined base settings.repeatCount (voicesOf (first :: rest)) lines ∧
      lines.enterFirstLine.resolveRepeats settings.repeatCount = .ok staff := by
  simp only [Compile.staff, bind_eq_ok_iff] at result
  obtain ⟨voiceName, named, begun, began, lines, added, resolved⟩ := result
  exact ⟨voiceName, begun, lines, named, began, added, lined_of_begin began added, resolved⟩

/-- The dropped markers of a staff are the refused ones. -/
theorem dropped_of_staff
    (result : Compile.staff settings title instrument index first rest base = .ok staff) :
    staff.dropped = refusedOf (first :: rest) := by
  obtain ⟨-, -, lines, -, -, -, lined, resolved⟩ := exists_lined result
  have dropped : lines.enterFirstLine.dropped = [] := by
    unfold enterFirstLine
    cases lines.calls.head? <;> exact lined.dropped
  have length := lined.length_calls_enterFirstLine
  rw [StaffAssembly.resolveRepeats, lined.markers_enterFirstLine] at resolved
  have books := (foldlM_resolveMarker_books resolved).2
  rwa [dropped, length, lined.ranges_enterFirstLine, List.nil_append] at books

/-- The staves of parts that begin at a staff index and an id. -/
def assemble (settings : Settings) (tune : Tune) (index : Nat) (base : Int) :
    List (List Staff) → Except CompileError (List StaffAssembly)
  | [] => pure []
  | [] :: parts => assemble settings tune index base parts
  | (first :: rest) :: parts => do
    let staff ← Compile.staff settings tune.title tune.instrument index first rest base
    let staves ← assemble settings tune (index + 1) staff.next parts
    return staff :: staves

/-- Parts are added to a compilation by adding their staves. -/
theorem foldlM_addPart_eq (parts : List (List Staff)) (start : Compilation) :
    parts.foldlM (addPart settings tune) start =
      (assemble settings tune start.staves start.nextId parts).map (·.foldl addStaff start) := by
  induction parts generalizing start with
  | nil => rfl
  | cons part parts ih =>
      cases part with
      | nil => exact ih start
      | cons first rest =>
          rw [List.foldlM_cons, addPart_eq, assemble]
          cases Compile.staff settings tune.title tune.instrument start.staves first rest
              start.nextId with
          | error fault => rfl
          | ok staff =>
              have sum := ih (addStaff start staff)
              have number : (addStaff start staff).staves = start.staves + 1 := rfl
              have next : (addStaff start staff).nextId = staff.next := rfl
              rw [number, next] at sum
              refine sum.trans ?_
              show _ = Except.map _ (assemble settings tune (start.staves + 1) staff.next parts >>=
                fun staves => pure (staff :: staves))
              cases assemble settings tune (start.staves + 1) staff.next parts <;> rfl

theorem dropped_foldl_addStaff (staves : List StaffAssembly) (start : Compilation) :
    (staves.foldl addStaff start).dropped =
      start.dropped ++ staves.flatMap StaffAssembly.dropped := by
  induction staves generalizing start with
  | nil => exact (List.append_nil _).symm
  | cons staff staves ih =>
      rw [List.foldl_cons, ih, addStaff, List.flatMap_cons, List.append_assoc]

theorem nodes_foldl_addStaff (staves : List StaffAssembly) (start : Compilation) :
    (staves.foldl addStaff start).graph.nodes =
      start.graph.nodes ++ staves.flatMap StaffAssembly.nodes := by
  induction staves generalizing start with
  | nil => exact (List.append_nil _).symm
  | cons staff staves ih =>
      rw [List.foldl_cons, ih, addStaff, List.flatMap_cons, List.append_assoc]

/-- No staff depends on the name of its tune. -/
theorem assemble_rename (name : String) (base : Int) (parts : List (List Staff)) :
    assemble settings { tune with name } index base parts =
      assemble settings tune index base parts := by
  induction parts generalizing index base with
  | nil => rfl
  | cons part parts ih =>
      cases part with
      | nil => exact ih base
      | cons first rest => simp only [assemble, ih]

/-- Every staff is assembled from the part at its index. -/
theorem forall₂_of_assemble {parts : List (List Staff)} {staves : List StaffAssembly}
    (inhabited : ∀ part ∈ parts, part ≠ [])
    (done : assemble settings tune index base parts = .ok staves) :
    List.Forall₂ (fun place staff => ∃ first rest base, place.1 = first :: rest ∧
      Compile.staff settings tune.title tune.instrument place.2 first rest base = .ok staff)
      (parts.zipIdx index) staves := by
  induction parts generalizing index base staves with
  | nil =>
      cases done
      exact .nil
  | cons part parts ih =>
      obtain ⟨here, later⟩ := List.forall_mem_cons.mp inhabited
      obtain ⟨first, rest, rfl⟩ := List.exists_cons_of_ne_nil here
      simp only [assemble, bind_eq_ok_iff] at done
      obtain ⟨staff, assembled, others, remaining, same⟩ := done
      cases same
      exact .cons ⟨first, rest, base, rfl, assembled⟩ (ih later remaining)

end Compile

/-- The compilation of no staves. -/
def Compilation.empty (name : String) (startId : Int) : Compilation :=
  { graph := { name }, staves := 0, lines := 0, notes := 0, repeats := 0, dropped := []
    nextId := startId }

/-- A compilation with another name for its graph. -/
def Compilation.rename (name : String) (compilation : Compilation) : Compilation :=
  { compilation with graph := { compilation.graph with name } }

theorem flatMap_eq_of_forall₂ {α β γ : Type} {f : α → List γ} {g : β → List γ} {as : List α}
    {bs : List β} (same : List.Forall₂ (fun a b => f a = g b) as bs) :
    as.flatMap f = bs.flatMap g := by
  induction same with
  | nil => rfl
  | cons here _ ih => rw [List.flatMap_cons, List.flatMap_cons, here, ih]

namespace Tune

variable {tune : Tune} {settings : Settings} {startId : Int} {compilation : Compilation}

/-- The staves of a tune, one for each part. -/
def assemblies (tune : Tune) (settings : Settings) (startId : Int) :
    Except CompileError (List StaffAssembly) :=
  Compile.assemble settings tune 0 startId tune.parts

theorem compile_eq (tune : Tune) (settings : Settings) (startId : Int) :
    tune.compile settings startId =
      (tune.assemblies settings startId).map
        (·.foldl Compile.addStaff (.empty tune.name startId)) :=
  Compile.foldlM_addPart_eq tune.parts _

/-- A tune of another name is compiled into the same graph of another name. -/
theorem compile_rename (tune : Tune) (name : String) (settings : Settings) (startId : Int) :
    ({ tune with name } : Tune).compile settings startId =
      (tune.compile settings startId).map (Compilation.rename name) := by
  have renamed : ∀ (staves : List StaffAssembly) (start : Compilation),
      staves.foldl Compile.addStaff (start.rename name) =
        (staves.foldl Compile.addStaff start).rename name := by
    intro staves
    induction staves with
    | nil => exact fun start => rfl
    | cons staff staves ih => exact fun start => ih (Compile.addStaff start staff)
  have same : ({ tune with name } : Tune).assemblies settings startId =
      tune.assemblies settings startId := Compile.assemble_rename name startId tune.parts
  rw [compile_eq, compile_eq, same]
  cases tune.assemblies settings startId with
  | error fault => rfl
  | ok staves => exact congrArg Except.ok (renamed staves (.empty tune.name startId))

/-- A compilation has assembled the staves that it is made of. -/
theorem exists_assemblies (compiled : tune.compile settings startId = .ok compilation) :
    ∃ staves, tune.assemblies settings startId = .ok staves ∧
      compilation.dropped = staves.flatMap StaffAssembly.dropped ∧
      compilation.graph.nodes = staves.flatMap StaffAssembly.nodes ∧
      List.Forall₂ (fun place staff => ∃ first rest base, place.1 = first :: rest ∧
        Compile.staff settings tune.title tune.instrument place.2 first rest base = .ok staff)
        tune.parts.zipIdx staves := by
  rw [compile_eq] at compiled
  cases assembled : tune.assemblies settings startId with
  | error fault =>
      rw [assembled] at compiled
      cases compiled
  | ok staves =>
      rw [assembled] at compiled
      cases compiled
      exact ⟨staves, rfl, Compile.dropped_foldl_addStaff staves _,
        Compile.nodes_foldl_addStaff staves _,
        Compile.forall₂_of_assemble tune.part_ne_nil assembled⟩

/-- What holds of every staff and its part holds of the staves of a tune and its parts. -/
theorem forall₂_parts {holds : List Staff → StaffAssembly → Prop} {staves : List StaffAssembly}
    (each : List.Forall₂ (fun place staff => ∃ first rest base, place.1 = first :: rest ∧
      Compile.staff settings tune.title tune.instrument place.2 first rest base = .ok staff)
      tune.parts.zipIdx staves)
    (every : ∀ index first rest base staff,
      Compile.staff settings tune.title tune.instrument index first rest base = .ok staff →
        holds (first :: rest) staff) : List.Forall₂ holds tune.parts staves := by
  rw [← List.zipIdx_map_fst 0 tune.parts, List.forall₂_map_left_iff]
  refine each.imp fun place staff ⟨first, rest, base, part, result⟩ => ?_
  rw [part]
  exact every place.2 first rest base staff result

/-- What a compilation drops are the refused markers of the parts. -/
theorem dropped_eq (compiled : tune.compile settings startId = .ok compilation) :
    compilation.dropped = tune.parts.flatMap refusedOf := by
  obtain ⟨staves, -, dropped, -, each⟩ := exists_assemblies compiled
  rw [dropped]
  refine (flatMap_eq_of_forall₂ (forall₂_parts each ?_)).symm
  exact fun _ _ _ _ _ result => (Compile.dropped_of_staff result).symm

end Tune

end TuneGraph
