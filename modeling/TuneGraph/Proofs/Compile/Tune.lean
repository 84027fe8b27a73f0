import TuneGraph.Compile.Tune
import TuneGraph.Proofs.Compile.Forest
import TuneGraph.Proofs.Except

/-! # The staves of a compilation

A part of a tune is assembled into a staff with the repeats that its bars ask for
(`Compile.staff_assembled`), and no such staff fails its check
(`Compile.checkStaff_eq`). The only part that cannot be assembled, if its labels can
be filled in, is one with a marker that ends on the line before it begins
(`Compile.staff_returns`). The nodes of a compilation are those of its staves, one after
another (`Tune.exists_staves`).
-/

namespace TuneGraph

open TuneGraph.Graph StaffAssembly

/-- The voices of a part of a tune, line by line. -/
def voicesOf (part : List Staff) : List Voice := part.flatMap Staff.voices

/-- The markers of a part that become repeats, in order. -/
def acceptedOf (part : List Staff) : List RepeatMarker :=
  RepeatMarker.accepted (voicesOf part).length (RepeatMarker.ofVoices (voicesOf part))

/-- Whether a bar of a part closes a repeat on the line before its first one. -/
def hasBackward (part : List Staff) : Prop :=
  ∃ marker ∈ RepeatMarker.ofVoices (voicesOf part),
    marker.isBackward (voicesOf part).length = true

instance (part : List Staff) : Decidable (hasBackward part) :=
  inferInstanceAs (Decidable (∃ marker ∈ _, _))

/-- What becomes of a part: a staff with a line for every voice and the accepted repeats. -/
structure Assembled (base times : Int) (part : List Staff) (staff : StaffAssembly) : Prop where
  spliced : Spliced base times staff.ranges staff
  lines : staff.calls.length = (voicesOf part).length
  accepted : staff.ranges.map Prod.snd = acceptedOf part

/-- The repeats of a staff with all its lines are spliced in, or a backward marker spoils it. -/
theorem StaffAssembly.Lined.resolve_cases {base times : Int} {part : List Staff}
    {staff : StaffAssembly} (lined : Lined base times (voicesOf part) staff) :
    (¬hasBackward part ∧ ∃ final, staff.enterFirstLine.resolveRepeats times = .ok final ∧
      Assembled base times part final) ∨
    (hasBackward part ∧
      ∃ id, staff.enterFirstLine.resolveRepeats times = .error (.unknownNode id)) := by
  by_cases backward : hasBackward part
  · exact Or.inr ⟨backward, lined.resolveRepeats_backward backward⟩
  · obtain ⟨final, done, spliced, lines, -, accepted⟩ := lined.resolveRepeats
      fun marker member isBackward => backward ⟨marker, member, isBackward⟩
    exact Or.inl ⟨backward, final, done, spliced, lines, accepted⟩

namespace Compile

variable {settings : Settings} {index : Nat} {title instrument : String} {meter : Meter}
  {line first : Staff} {rest : List Staff} {base times : Int} {voices : List Voice}
  {staff next : StaffAssembly}

/-- A lined staff is lined after the voices of one more line. -/
theorem addVoices_lined (lined : Lined base times voices staff)
    (added : addVoices settings index meter line staff = .ok next) :
    Lined base times (voices ++ line.voices) next := by
  unfold addVoices at added
  generalize line.voices = more at added ⊢
  induction more generalizing voices staff with
  | nil =>
      cases added
      rw [List.append_nil]
      exact lined
  | cons voice more ih =>
      rw [List.foldlM_cons, bind_eq_ok_iff] at added
      obtain ⟨middle, step, later⟩ := added
      obtain ⟨name, -, same⟩ := bind_eq_ok_iff.mp step
      cases same
      have whole := ih (lined.appendVoice line.key meter.denominator settings.maxDenominator voice)
        later
      rwa [List.append_assoc] at whole

/-- A lined staff is lined after the voices of more lines. -/
theorem foldlM_addVoices_lined {lines : List Staff} (lined : Lined base times voices staff)
    (added : lines.foldlM (fun staff line => addVoices settings index meter line staff) staff =
      .ok next) : Lined base times (voices ++ voicesOf lines) next := by
  induction lines generalizing voices staff with
  | nil =>
      cases added
      rw [voicesOf, List.flatMap_nil, List.append_nil]
      exact lined
  | cons line lines ih =>
      rw [List.foldlM_cons, bind_eq_ok_iff] at added
      obtain ⟨middle, step, later⟩ := added
      have whole := ih (addVoices_lined lined step) later
      rwa [List.append_assoc] at whole

/-- A staff that has been begun, and has been given its lines, is lined. -/
theorem lined_of_begin {lines : List Staff} {begun : StaffAssembly} {voiceName : String}
    {key : KeySignature}
    (began : StaffAssembly.begin base title voiceName meter key instrument = .ok begun)
    (added : lines.foldlM (fun staff line => addVoices settings index meter line staff) begun =
      .ok staff) : Lined base times (voicesOf lines) staff := by
  have lined : Lined base times ([] ++ voicesOf lines) staff :=
    foldlM_addVoices_lined (begin_lined began) added
  rwa [List.nil_append] at lined

/-- A part that is assembled has no backward marker, and its repeats are the accepted ones. -/
theorem staff_assembled
    (result : Compile.staff settings title instrument index first rest base = .ok staff) :
    0 ≤ base ∧ ¬hasBackward (first :: rest) ∧
      Assembled base settings.repeatCount (first :: rest) staff := by
  simp only [Compile.staff, bind_eq_ok_iff] at result
  obtain ⟨name, -, begun, began, assembled, added, resolved⟩ := result
  have lined : Lined base settings.repeatCount (voicesOf (first :: rest)) assembled :=
    lined_of_begin began added
  rcases lined.resolve_cases with ⟨forward, final, done, result⟩ | ⟨-, id, failed⟩
  · rw [done] at resolved
    cases resolved
    exact ⟨begin_nonneg began, forward, result⟩
  · rw [failed] at resolved
    cases resolved

/-- A label fails with an error of its own. -/
theorem label_error {template : String} {values : List (String × Nat)} {fault : CompileError}
    (failed : label template values = .error fault) : ∃ error, fault = .label error := by
  unfold label at failed
  split at failed
  · cases failed
  · cases failed
    exact ⟨_, rfl⟩

/-- A part is not assembled for want of a label, of ids that may be used, or of a node. -/
theorem staff_error {fault : CompileError}
    (failed : Compile.staff settings title instrument index first rest base = .error fault) :
    (∃ error, fault = .label error) ∨ (∃ id, fault = .negativeId id) ∨
      ∃ id, fault = .unknownNode id := by
  simp only [Compile.staff, bind_eq_error_iff] at failed
  rcases failed with labelled |
    ⟨voiceName, -, began | ⟨begun, began, added | ⟨assembled, added, resolved⟩⟩⟩
  · exact Or.inl (label_error labelled)
  · unfold StaffAssembly.begin at began
    split at began
    · exact Or.inr (Or.inl ⟨base, (Except.error.inj began).symm⟩)
    · cases began
  · obtain ⟨state, line, step⟩ := exists_step_of_foldlM_error added
    obtain ⟨state, voice, failed⟩ := exists_step_of_foldlM_error step
    rcases bind_eq_error_iff.mp failed with labelled | ⟨text, -, done⟩
    · exact Or.inl (label_error labelled)
    · cases done
  · have lined : Lined base settings.repeatCount (voicesOf (first :: rest)) assembled :=
      lined_of_begin began added
    rcases lined.resolve_cases with ⟨-, final, done, -⟩ | ⟨-, id, failed⟩
    · rw [done] at resolved
      cases resolved
    · rw [failed] at resolved
      exact Or.inr (Or.inr ⟨id, (Except.error.inj resolved).symm⟩)

/-- A template that can be filled makes a label. -/
theorem exists_label {template : String} {values : List (String × Nat)}
    (filled : (Text.Template.fill template values).isOk = true) :
    ∃ name, label template values = .ok name := by
  unfold label
  cases known : Text.Template.fill template values with
  | ok text => exact ⟨text, rfl⟩
  | error fault =>
      rw [known] at filled
      cases filled

/-- Whether the names of all staves and lines can be filled in. -/
def LabelsFill (settings : Settings) : Prop :=
  (∀ staff, ∃ name, label settings.voiceLabel [("staff", staff)] = .ok name) ∧
    ∀ staff line, ∃ name, label settings.lineLabel [("staff", staff), ("line", line)] = .ok name

/-- If labels can be filled, the voices of a line are added. -/
theorem exists_addVoices (fill : LabelsFill settings) (index : Nat) (meter : Meter) (line : Staff)
    (staff : StaffAssembly) : ∃ next, addVoices settings index meter line staff = .ok next := by
  unfold addVoices
  generalize line.voices = voices
  induction voices generalizing staff with
  | nil => exact ⟨staff, rfl⟩
  | cons voice voices ih =>
      obtain ⟨name, named⟩ := fill.2 (index + 1) (staff.lineCount + 1)
      rw [List.foldlM_cons, named]
      exact ih _

/-- If labels can be filled, the voices of all lines are added. -/
theorem exists_foldlM_addVoices (fill : LabelsFill settings) (index : Nat) (meter : Meter)
    (lines : List Staff) (staff : StaffAssembly) : ∃ next, lines.foldlM
      (fun staff line => addVoices settings index meter line staff) staff = .ok next := by
  induction lines generalizing staff with
  | nil => exact ⟨staff, rfl⟩
  | cons line lines ih =>
      obtain ⟨middle, added⟩ := exists_addVoices fill index meter line staff
      rw [List.foldlM_cons, added]
      exact ih middle

/-- A part whose labels can be filled in is assembled unless it has a backward marker. -/
theorem staff_returns (fill : LabelsFill settings) (nonneg : 0 ≤ base) (title instrument : String)
    (index : Nat) (first : Staff) (rest : List Staff) :
    (¬hasBackward (first :: rest) → ∃ staff,
      Compile.staff settings title instrument index first rest base = .ok staff) ∧
    (hasBackward (first :: rest) → ∃ id,
      Compile.staff settings title instrument index first rest base =
        .error (.unknownNode id)) := by
  obtain ⟨name, named⟩ := fill.1 (index + 1)
  obtain ⟨begun, began⟩ : ∃ begun, StaffAssembly.begin base title name (first.meter.getD .common)
      first.key instrument = .ok begun := by
    rw [StaffAssembly.begin, if_neg (Int.not_lt.mpr nonneg)]
    exact ⟨_, rfl⟩
  obtain ⟨assembled, added⟩ :=
    exists_foldlM_addVoices fill index (first.meter.getD .common) (first :: rest) begun
  have lined : Lined base settings.repeatCount (voicesOf (first :: rest)) assembled :=
    lined_of_begin began added
  have same : Compile.staff settings title instrument index first rest base =
      assembled.enterFirstLine.resolveRepeats settings.repeatCount := by
    simp only [Compile.staff, named, began, added, bind, Except.bind]
  rw [same]
  rcases lined.resolve_cases with ⟨forward, final, done, -⟩ | ⟨backward, failed⟩
  · exact ⟨fun _ => ⟨final, done⟩, fun backward => (forward backward).elim⟩
  · exact ⟨fun forward => (forward backward).elim, fun _ => failed⟩

/-- The check of a staff has nothing to say about a forest. -/
theorem checkStaff_eq {nodes : List Node} (forest : Interlinked nodes) (number : Int)
    (name : String) : checkStaff settings number name nodes = .ok () := by
  unfold checkStaff
  have clean : ({ name, nodes } : Graph).check = some ⟨[]⟩ := by
    rw [Graph.check, forest.faults_eq_nil]
    rfl
  rw [clean]
  cases settings.checkGraph <;> rfl

/-- To add a part is to assemble its staff and to add that. -/
theorem addPart_eq (tune : Tune) (compilation : Compilation) :
    addPart settings tune compilation (first :: rest) =
      (Compile.staff settings tune.title tune.instrument compilation.staves first rest
        compilation.nextId).map (addStaff compilation) := by
  unfold addPart
  cases assembled : Compile.staff settings tune.title tune.instrument compilation.staves first rest
      compilation.nextId with
  | error fault =>
      simp only [assembled, bind, Except.bind]
      rfl
  | ok staff =>
      have forest := (staff_assembled assembled).2.2.spliced.interlinked
      simp only [assembled, checkStaff_eq forest, bind, Except.bind]
      rfl

variable {tune : Tune} {parts : List (List Staff)} {start final : Compilation}

/-- A part is added if its staff is assembled. -/
theorem addPart_eq_ok_iff :
    addPart settings tune start (first :: rest) = .ok final ↔
      ∃ staff, Compile.staff settings tune.title tune.instrument start.staves first rest
        start.nextId = .ok staff ∧ addStaff start staff = final := by
  rw [addPart_eq]
  cases Compile.staff settings tune.title tune.instrument start.staves first rest start.nextId with
  | error fault => exact ⟨nofun, fun ⟨_, same, _⟩ => nomatch same⟩
  | ok staff =>
      constructor
      · intro same
        exact ⟨staff, rfl, Except.ok.inj same⟩
      · rintro ⟨other, same, rfl⟩
        cases same
        rfl

/-- The nodes of a compilation are those of its staves, with ids that run on. -/
theorem foldlM_addPart (inhabited : ∀ part ∈ parts, part ≠ [])
    (done : parts.foldlM (addPart settings tune) start = .ok final) :
    ∃ staves : List StaffAssembly,
      final.graph.nodes = start.graph.nodes ++ staves.flatMap StaffAssembly.nodes ∧
      RunsFrom start.nextId (staves.flatMap StaffAssembly.nodes) ∧
      List.Forall₂ (fun part staff => ∃ base, Assembled base settings.repeatCount part staff)
        parts staves := by
  induction parts generalizing start with
  | nil =>
      cases done
      exact ⟨[], (List.append_nil _).symm, trivial, .nil⟩
  | cons part parts ih =>
      obtain ⟨here, later⟩ := List.forall_mem_cons.mp inhabited
      obtain ⟨first, rest, rfl⟩ := List.exists_cons_of_ne_nil here
      rw [List.foldlM_cons, bind_eq_ok_iff] at done
      obtain ⟨middle, added, remaining⟩ := done
      obtain ⟨staff, assembled, rfl⟩ := addPart_eq_ok_iff.mp added
      have result := (staff_assembled assembled).2.2
      obtain ⟨staves, nodes, run, all⟩ := ih later remaining
      refine ⟨staff :: staves, ?_, ?_, .cons ⟨start.nextId, result⟩ all⟩
      · rw [nodes, List.flatMap_cons, addStaff, List.append_assoc]
      · rw [List.flatMap_cons]
        refine RunsFrom.append_iff.mpr ⟨result.spliced.sound.run, ?_⟩
        rw [← result.spliced.sound.next_eq]
        exact run

/-- If labels can be filled, the parts are added unless one of them has a repeat that runs back;
then a lookup fails. -/
theorem foldlM_addPart_returns (fill : LabelsFill settings)
    (inhabited : ∀ part ∈ parts, part ≠ []) (nonneg : 0 ≤ start.nextId) :
    ((∀ part ∈ parts, ¬hasBackward part) → ∃ final,
      parts.foldlM (addPart settings tune) start = .ok final) ∧
    ((∃ part ∈ parts, hasBackward part) → ∃ id,
      parts.foldlM (addPart settings tune) start = .error (.unknownNode id)) := by
  induction parts generalizing start with
  | nil => exact ⟨fun _ => ⟨start, rfl⟩, fun ⟨_, member, _⟩ => (List.not_mem_nil member).elim⟩
  | cons part parts ih =>
      obtain ⟨here, later⟩ := List.forall_mem_cons.mp inhabited
      obtain ⟨first, rest, rfl⟩ := List.exists_cons_of_ne_nil here
      obtain ⟨returns, fails⟩ :=
        staff_returns fill nonneg tune.title tune.instrument start.staves first rest
      rw [List.foldlM_cons, addPart_eq]
      by_cases backward : hasBackward (first :: rest)
      · obtain ⟨id, failed⟩ := fails backward
        rw [failed]
        refine ⟨fun forward => ?_, fun _ => ⟨id, rfl⟩⟩
        exact (forward _ List.mem_cons_self backward).elim
      · obtain ⟨staff, assembled⟩ := returns backward
        have result := (staff_assembled assembled).2.2
        have next : 0 ≤ (addStaff start staff).nextId := by
          have := result.spliced.sound.next_eq
          have : (addStaff start staff).nextId = staff.next := rfl
          omega
        obtain ⟨rest, failed⟩ := ih later next
        rw [assembled]
        refine ⟨fun forward => rest fun part member => forward part (List.mem_cons_of_mem _ member),
          ?_⟩
        rintro ⟨part, member, isBackward⟩
        rcases List.mem_cons.mp member with rfl | inside
        · exact (backward isBackward).elim
        · exact failed ⟨part, inside, isBackward⟩

end Compile

namespace Tune

/-- Some line has as many staves as the tune has parts. -/
theorem lt_staffCount {index : Nat} (tune : Tune) (inside : index < tune.staffCount) :
    ∃ line ∈ tune.lines, index < line.staves.length := by
  unfold staffCount at inside
  have most : ∀ (lines : List TuneLine) (most : Nat),
      index < lines.foldl (fun most line => max most line.staves.length) most →
        index < most ∨ ∃ line ∈ lines, index < line.staves.length := by
    intro lines
    induction lines with
    | nil => exact fun most below => Or.inl below
    | cons line lines ih =>
        intro most below
        rcases ih _ below with first | ⟨other, member, later⟩
        · rcases lt_max_iff.mp first with earlier | here
          · exact Or.inl earlier
          · exact Or.inr ⟨line, List.mem_cons_self, here⟩
        · exact Or.inr ⟨other, List.mem_cons_of_mem _ member, later⟩
  exact (most tune.lines 0 inside).resolve_left (Nat.not_lt_zero index)

/-- No part of a tune is empty. -/
theorem part_ne_nil (tune : Tune) : ∀ part ∈ tune.parts, part ≠ [] := by
  intro part member
  obtain ⟨index, inside, rfl⟩ := List.mem_map.mp member
  obtain ⟨line, present, staffInside⟩ := tune.lt_staffCount (List.mem_range.mp inside)
  have staff : line.staves[index] ∈ tune.part index :=
    List.mem_filterMap.mpr ⟨line, present, List.getElem?_eq_getElem staffInside⟩
  exact List.ne_nil_of_mem staff

/-- The labels of the standard settings can be filled. -/
theorem standard_labelsFill : Compile.LabelsFill .standard :=
  ⟨fun _ => Compile.exists_label rfl, fun _ _ => Compile.exists_label rfl⟩

/-- A tune whose labels can be filled in is compiled unless a part has a backward marker. -/
theorem compile_returns {settings : Settings} {startId : Int} (tune : Tune)
    (fill : Compile.LabelsFill settings) (nonneg : 0 ≤ startId) :
    ((∀ part ∈ tune.parts, ¬hasBackward part) →
      ∃ compilation, tune.compile settings startId = .ok compilation) ∧
    ((∃ part ∈ tune.parts, hasBackward part) →
      ∃ id, tune.compile settings startId = .error (.unknownNode id)) := by
  unfold compile
  apply Compile.foldlM_addPart_returns fill tune.part_ne_nil
  exact nonneg

/-- The nodes of a compilation are those of its staves, one for each part. -/
theorem exists_staves {tune : Tune} {settings : Settings} {startId : Int}
    {compilation : Compilation} (compiled : tune.compile settings startId = .ok compilation) :
    ∃ staves : List StaffAssembly,
      compilation.graph.nodes = staves.flatMap StaffAssembly.nodes ∧
      RunsFrom startId (staves.flatMap StaffAssembly.nodes) ∧
      List.Forall₂ (fun part staff => ∃ base, Assembled base settings.repeatCount part staff)
        tune.parts staves := by
  unfold compile at compiled
  exact Compile.foldlM_addPart tune.part_ne_nil compiled

/-- With the standard settings a tune is compiled exactly if no bar closes a repeat on the line
before its first one; otherwise the node that should be in front of that line is missing. -/
theorem compile_standard_iff (tune : Tune) {startId : Int} (nonneg : 0 ≤ startId) :
    ((∃ compilation, tune.compile .standard startId = .ok compilation) ↔
      ∀ part ∈ tune.parts, ¬hasBackward part) ∧
    ((∃ part ∈ tune.parts, hasBackward part) →
      ∃ id, tune.compile .standard startId = .error (.unknownNode id)) := by
  obtain ⟨returns, fails⟩ := tune.compile_returns standard_labelsFill nonneg
  refine ⟨⟨?_, returns⟩, fails⟩
  rintro ⟨compilation, done⟩ part member backward
  obtain ⟨id, failed⟩ := fails ⟨part, member, backward⟩
  rw [failed] at done
  cases done

/-- A tune of one part, with the given voices on the staff of a single line. -/
def ofVoices (voices : List Voice) : Tune :=
  { name := "tune", lines := [{ staves := [{ voices }] }] }

theorem compiles_repeat_of_two_lines : 0 ≤ (0 : Int) ∧ ∃ compilation,
    (ofVoices [[.bar .repeatOpen, .note {}], [.note {}, .bar .repeatClose]]).compile .standard 0 =
      .ok compilation := by
  refine ⟨by decide, ?_⟩
  exact (compile_standard_iff _ (by decide)).1.mpr (by decide)

/-- A repeat that is opened and closed behind the last note of a line is not compiled if another
line follows. -/
theorem refuses_repeat_behind_line : ∃ id,
    (ofVoices [[.note {}, .bar .repeatOpen, .bar .repeatClose], [.note {}]]).compile .standard 0 =
      .error (.unknownNode id) := by
  refine (compile_returns _ standard_labelsFill (by decide)).2 ?_
  exact ⟨_, List.mem_cons_self, by decide⟩

/-- The voices of three lines with two repeats that overlap, so that the second one is dropped. -/
def crossingVoices : List Voice :=
  [[.bar .repeatOpen, .note {}], [.bar .repeatOpen, .note {}, .bar .repeatClose],
    [.note {}, .bar .repeatClose]]

/-- The tune of crossing repeats compiles from every start. -/
theorem compile_crossing {startId : Int} (nonneg : 0 ≤ startId) :
    ∃ compilation, (ofVoices crossingVoices).compile .standard startId = .ok compilation :=
  ((ofVoices crossingVoices).compile_returns standard_labelsFill nonneg).1 (by decide)

end Tune

end TuneGraph
