import TuneGraph.Proofs.Compile.Assemble

/-! # What is emitted for a staff

Links change while a staff is assembled, but no node is removed and none changes its kind. So the
kinds of its nodes, in the order of emission, can be told from its part alone: those of the header,
for every voice those of its line, and for every accepted marker those of a repeat
(`Compile.map_kind_staff`).
-/

namespace TuneGraph

open TuneGraph.Graph StaffAssembly

/-- The kinds of the nodes of a header. -/
def Header.kinds : List NodeKind :=
  [.start, .print, .text, .displayNameSetter, .text, .meter, .number, .divide, .number, .number,
    .vspace, .keySetter, .noteName, .modeName, .instrumentSetter, .voiceName, .hidden]

/-- The kinds of the nodes that name a line. -/
def Wrapper.kinds : List NodeKind := [.lineCall, .lineLabel, .text, .hidden]

/-- The kinds of the nodes of a note. -/
def Cluster.kinds : List NodeKind :=
  [.noteRoot, .divide, .number, .number, .vspace, .pitch, .noteName, .number, .hidden]

/-- The kinds of a repeat and its count. -/
def repeatKinds : List NodeKind := [.repetition, .repeatCount]

/-- The kinds of the nodes of a line with a number of notes. -/
def lineKinds (notes : Nat) : List NodeKind :=
  Wrapper.kinds ++ (List.replicate notes Cluster.kinds).flatten

/-- The kinds of the nodes of the staff of a part, in the order of emission. -/
def staffKinds (part : List Staff) : List NodeKind :=
  Header.kinds ++ (voicesOf part).flatMap (fun voice => lineKinds voice.notes.length) ++
    (List.replicate (acceptedOf part).length repeatKinds).flatten

/-- A row of notes has the kinds of as many notes. -/
theorem Cluster.map_kind_row (b : Int) (notes : List EncodedNote) :
    (row b notes).map Node.kind = (List.replicate notes.length kinds).flatten := by
  fun_induction row b notes with
  | case1 => rfl
  | case2 => rfl
  | case3 b encoded rest more ih =>
      rw [List.map_append, ih, List.length_cons, List.replicate_succ, List.flatten_cons]
      rfl

/-- The chain of a line has the kinds of its wrapper and its notes. -/
theorem map_kind_lineChain (b : Int) (label : String) (previousCall : Option Int)
    (notes : List EncodedNote) :
    (lineChain b label previousCall notes).map Node.kind = lineKinds notes.length := by
  rw [lineChain, List.map_append, Cluster.map_kind_row]
  rfl

/-- As many notes are encoded as there are. -/
theorem Voice.length_encode (key : KeySignature) (meterDenominator bound : Int)
    (triplet : Option Int) (voice : Voice) :
    (Voice.encode key meterDenominator bound triplet voice).length = voice.notes.length := by
  induction voice generalizing triplet with
  | nil => rfl
  | cons event rest ih =>
      cases event with
      | bar type => exact ih triplet
      | note note => exact congrArg (· + 1) (ih _)

namespace Graph

@[simp] theorem map_kind_relink (nodes : List Node) (id : Int) (slot : Nat) (target : Option Int) :
    (relink nodes id slot target).map Node.kind = nodes.map Node.kind := by
  rw [relink, List.map_map]
  refine List.map_congr_left fun node _ => ?_
  rw [Function.comp_apply]
  split <;> rfl

end Graph

namespace StaffAssembly

variable {staff next : StaffAssembly} {id count first : Int} {marker : RepeatMarker}

/-- To set a link keeps the kinds. -/
theorem map_kind_setLink (staff : StaffAssembly) (id : Int) (slot : Nat) (target : Option Int) :
    (staff.setLink id slot target).nodes.map Node.kind = staff.nodes.map Node.kind :=
  map_kind_relink staff.nodes id slot target

/-- To enter the first line keeps the kinds. -/
theorem map_kind_enterFirstLine (staff : StaffAssembly) :
    staff.enterFirstLine.nodes.map Node.kind = staff.nodes.map Node.kind := by
  unfold enterFirstLine
  split
  · exact map_kind_setLink ..
  · rfl

/-- A voice that is appended adds the kinds of its line. -/
theorem map_kind_appendVoice (staff : StaffAssembly) (label : String) (key : KeySignature)
    (meterDenominator bound : Int) (voice : Voice) :
    (staff.appendVoice label key meterDenominator bound voice).nodes.map Node.kind =
      staff.nodes.map Node.kind ++ lineKinds voice.notes.length := by
  unfold appendVoice appendLine chainOf
  rw [List.map_append, map_kind_lineChain, Voice.length_encode]
  cases staff.lastCall with
  | none => rfl
  | some last => exact congrArg (· ++ _) (map_kind_setLink ..)

/-- To enter a repeat keeps the kinds. -/
theorem enterRepeat_map_kind {head : Node} {holder : Int}
    (done : staff.enterRepeat id head = .ok (next, holder)) :
    next.nodes.map Node.kind = staff.nodes.map Node.kind := by
  simp only [enterRepeat, bind_eq_ok_iff] at done
  obtain ⟨node, -, same⟩ := done
  cases same
  rw [map_kind_setLink]
  split
  · exact map_kind_setLink ..
  · rfl

/-- To leave a repeat keeps the kinds. -/
theorem leaveRepeat_map_kind {after : Option Int}
    (done : staff.leaveRepeat id marker = .ok (next, after)) :
    next.nodes.map Node.kind = staff.nodes.map Node.kind := by
  unfold leaveRepeat at done
  split at done
  next =>
    cases done
    rfl
  next following _ =>
    obtain ⟨node, -, done⟩ := bind_eq_ok_iff.mp done
    split at done
    next =>
      cases done
      rfl
    next before _ =>
      obtain ⟨tail, -, done⟩ := bind_eq_ok_iff.mp done
      obtain ⟨enclosing, -, done⟩ := bind_eq_ok_iff.mp done
      split at done
      next =>
        cases done
        rfl
      next =>
        cases done
        rw [map_kind_setLink, map_kind_setLink]

/-- Whether the nodes of a staff have some kinds, followed by those of the repeats so far. -/
def HasEmitted (front : List NodeKind) (staff : StaffAssembly) : Prop :=
  staff.nodes.map Node.kind =
    front ++ (List.replicate staff.ranges.length repeatKinds).flatten

namespace HasEmitted

variable {front : List NodeKind} (emitted : HasEmitted front staff)

include emitted

/-- To splice a repeat emits its two kinds. -/
theorem spliceRepeat (done : staff.spliceRepeat count marker first = .ok next) :
    HasEmitted front next := by
  simp only [StaffAssembly.spliceRepeat, bind_eq_ok_iff] at done
  obtain ⟨node, -, head, -, ⟨entered, holder⟩, entering, ⟨left, after⟩, leaving, same⟩ := done
  cases same
  have kept : left.ranges = staff.ranges :=
    (leaveRepeat_books leaving).2.1.trans (enterRepeat_books entering).2.1
  have kinds : left.nodes.map Node.kind = staff.nodes.map Node.kind :=
    (leaveRepeat_map_kind leaving).trans (enterRepeat_map_kind entering)
  unfold HasEmitted at emitted ⊢
  rw [List.map_append, kinds, emitted, kept, List.length_append, List.length_singleton,
    List.replicate_succ', List.flatten_append, List.flatten_singleton, List.append_assoc]
  rfl

/-- A marker adds a repeat, or it is dropped and adds nothing. -/
theorem resolveMarker (done : StaffAssembly.resolveMarker count staff marker = .ok next) :
    HasEmitted front next := by
  unfold StaffAssembly.resolveMarker at done
  split at done
  next first _ =>
    split at done
    next =>
      cases done
      exact emitted
    next => exact emitted.spliceRepeat done
  next =>
    cases done
    exact emitted

/-- To resolve the markers emits two kinds for each repeat that is made. -/
theorem resolveRepeats (done : staff.resolveRepeats count = .ok next) :
    HasEmitted front next := by
  unfold StaffAssembly.resolveRepeats at done
  generalize staff.markers = markers at done
  induction markers generalizing staff with
  | nil =>
      cases done
      exact emitted
  | cons marker markers ih =>
      rw [List.foldlM_cons, bind_eq_ok_iff] at done
      obtain ⟨middle, step, later⟩ := done
      exact ih (emitted.resolveMarker step) later

end HasEmitted

end StaffAssembly

namespace Compile

variable {settings : Settings} {title instrument : String} {index : Nat} {meter : Meter}
  {line first : Staff} {rest : List Staff} {base : Int} {staff next : StaffAssembly}

/-- The voices of a line add the kinds of their lines. -/
theorem map_kind_addVoices (added : addVoices settings index meter line staff = .ok next) :
    next.nodes.map Node.kind = staff.nodes.map Node.kind ++
      line.voices.flatMap fun voice => lineKinds voice.notes.length := by
  unfold addVoices at added
  generalize line.voices = voices at added ⊢
  induction voices generalizing staff with
  | nil =>
      cases added
      exact (List.append_nil _).symm
  | cons voice voices ih =>
      rw [List.foldlM_cons, bind_eq_ok_iff] at added
      obtain ⟨middle, step, later⟩ := added
      obtain ⟨name, -, same⟩ := bind_eq_ok_iff.mp step
      cases same
      rw [ih later, map_kind_appendVoice, List.flatMap_cons, List.append_assoc]

/-- The voices of all lines add the kinds of their lines. -/
theorem map_kind_foldlM_addVoices {lines : List Staff}
    (added : lines.foldlM (fun staff line => addVoices settings index meter line staff) staff =
      .ok next) : next.nodes.map Node.kind = staff.nodes.map Node.kind ++
        (voicesOf lines).flatMap fun voice => lineKinds voice.notes.length := by
  induction lines generalizing staff with
  | nil =>
      cases added
      exact (List.append_nil _).symm
  | cons line lines ih =>
      rw [List.foldlM_cons, bind_eq_ok_iff] at added
      obtain ⟨middle, step, later⟩ := added
      rw [ih later, map_kind_addVoices step, voicesOf, voicesOf, List.flatMap_cons,
        List.flatMap_append, List.append_assoc]

/-- The kinds of the nodes of a staff, in order, are those that its part asks for. -/
theorem map_kind_staff
    (result : Compile.staff settings title instrument index first rest base = .ok staff) :
    staff.nodes.map Node.kind = staffKinds (first :: rest) := by
  obtain ⟨voiceName, begun, lines, -, began, added, lined, resolved⟩ := exists_lined result
  have accepted := (staff_assembled result).2.2.accepted
  have emitted : HasEmitted (Header.kinds ++
      (voicesOf (first :: rest)).flatMap fun voice => lineKinds voice.notes.length)
      lines.enterFirstLine := by
    unfold HasEmitted
    rw [map_kind_enterFirstLine, map_kind_foldlM_addVoices added, lined.ranges_enterFirstLine,
      nodes_begin began]
    exact (List.append_nil _).symm
  rw [staffKinds, ← accepted, List.length_map]
  exact emitted.resolveRepeats resolved

end Compile

end TuneGraph
