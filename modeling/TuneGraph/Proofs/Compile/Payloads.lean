import TuneGraph.Graph.Summary
import TuneGraph.Proofs.Compile.Shift
import TuneGraph.Proofs.Compile.Staves
import TuneGraph.Proofs.Document.Written

/-! # What payloads hold

The payload of a node is nothing, whether its block is folded, a text or an integer
(`Node.IsPlain`). The nodes of headers, lines and repeats are built that way, and no step of an
assembly writes a payload, so it is true of all nodes of a compilation
(`Tune.isPlain_of_compile`). A graph of such nodes has no real numbers in its written forms.
-/

namespace TuneGraph

open TuneGraph.Graph StaffAssembly

/-- The payloads that a node can be given. -/
inductive IsPlainPayload : Option (List (String × Datum)) → Prop
  | none : IsPlainPayload none
  | collapsed (isCollapsed : Bool) : IsPlainPayload (collapsedPayload isCollapsed)
  | text (value : String) : IsPlainPayload (valuePayload (.text value))
  | integer (value : Int) : IsPlainPayload (valuePayload (.integer value))

/-- Whether the payload of a node is one that it can be given. -/
def Node.IsPlain (node : Node) : Prop := IsPlainPayload node.payload

/-- The nodes of a header are plain. -/
theorem Header.isPlain_nodes (b : Int) (title voiceName : String) (meter : Meter)
    (key : KeySignature) (instrument : String) :
    ∀ node ∈ nodes b title voiceName meter key instrument, node.IsPlain := by
  simp only [nodes, List.forall_mem_cons]
  refine ⟨?_, ?_, ?_, ?_, ?_, ?_, ?_, ?_, ?_, ?_, ?_, ?_, ?_, ?_, ?_, ?_, ?_,
    List.forall_mem_nil _⟩ <;> constructor

/-- The nodes around a line are plain. -/
theorem Wrapper.isPlain_nodes (b : Int) (label : String) (previousCall first : Option Int) :
    ∀ node ∈ nodes b label previousCall first, node.IsPlain := by
  simp only [nodes, List.forall_mem_cons]
  refine ⟨?_, ?_, ?_, ?_, List.forall_mem_nil _⟩ <;> constructor

/-- The nodes of a note are plain. -/
theorem Cluster.isPlain_nodes (b previous : Int) (encoded : EncodedNote) (next : Option Int) :
    ∀ node ∈ nodes b previous encoded next, node.IsPlain := by
  simp only [nodes, List.forall_mem_cons]
  refine ⟨?_, ?_, ?_, ?_, ?_, ?_, ?_, ?_, ?_, List.forall_mem_nil _⟩ <;> constructor

/-- The nodes of a row of notes are plain. -/
theorem Cluster.isPlain_row (b : Int) (notes : List EncodedNote) :
    ∀ node ∈ row b notes, node.IsPlain := by
  fun_induction row b notes with
  | case1 => exact List.forall_mem_nil _
  | case2 b encoded => exact isPlain_nodes _ _ _ _
  | case3 b encoded rest more ih => exact List.forall_mem_append.mpr ⟨isPlain_nodes _ _ _ _, ih⟩

/-- The nodes of a line are plain. -/
theorem isPlain_lineChain (b : Int) (label : String) (previousCall : Option Int)
    (notes : List EncodedNote) : ∀ node ∈ lineChain b label previousCall notes, node.IsPlain :=
  List.forall_mem_append.mpr ⟨Wrapper.isPlain_nodes _ _ _ _, Cluster.isPlain_row _ _⟩

/-- Nodes are parallel to themselves, with whatever is true of their payloads. -/
theorem forall₂_parallel_self {holds : Option (List (String × Datum)) → Prop} {nodes : List Node} :
    List.Forall₂ (Node.Parallel 0 fun _ payload => holds payload) nodes nodes ↔
      ∀ node ∈ nodes, holds node.payload := by
  have unmoved : ∀ node : Node, node.links.map (Option.map (· + 0)) = node.links := by
    intro node
    simp
  rw [List.forall₂_same]
  exact forall₂_congr fun node _ => ⟨fun parallel => parallel.payload,
    fun plain => ⟨(Int.add_zero _).symm, rfl, (unmoved node).symm, rfl, plain⟩⟩

/-- Staves with the same books, whose nodes differ in payloads at most, all of them plain. -/
abbrev StaffAssembly.BothPlain : StaffAssembly → StaffAssembly → Prop :=
  StaffAssembly.Parallel 0 fun _ payload => IsPlainPayload payload

/-- A staff begins with plain nodes. -/
theorem StaffAssembly.begin_bothPlain (base : Int) (title voiceName : String) (meter : Meter)
    (key : KeySignature) (instrument : String) :
    Together 0 BothPlain (begin base title voiceName meter key instrument)
      (begin base title voiceName meter key instrument) := by
  unfold begin
  split
  · exact .error rfl
  · exact .ok
      { nodes := forall₂_parallel_self.mpr (Header.isPlain_nodes base _ _ _ _ _)
        instrument := (Int.add_zero _).symm
        next := (Int.add_zero _).symm
        calls := rfl
        markers := rfl
        ranges := rfl
        dropped := rfl }

/-- A voice is appended in plain nodes. -/
theorem StaffAssembly.Parallel.appendVoice_bothPlain {staff other : StaffAssembly}
    (plain : staff.BothPlain other) (label : String) (key : KeySignature)
    (meterDenominator bound : Int) (voice : Voice) :
    (staff.appendVoice label key meterDenominator bound voice).BothPlain
      (other.appendVoice label key meterDenominator bound voice) := by
  have unmoved : staff.lastCall.map (· + (0 : Int)) = staff.lastCall := by simp
  unfold StaffAssembly.appendVoice
  rw [plain.lineCount, plain.markers]
  refine plain.appendLine _ ?_
  rw [chainOf, chainOf, plain.next, plain.lastCall, Int.add_zero, unmoved]
  exact forall₂_parallel_self.mpr (isPlain_lineChain staff.next _ _ _)

namespace Compile

variable {settings : Settings} {title instrument : String} {index : Nat} {base : Int}
  {first : Staff} {rest : List Staff} {staff : StaffAssembly}

/-- The voices of a line are added in plain nodes. -/
theorem addVoices_bothPlain (settings : Settings) (index : Nat) (meter : Meter) (line : Staff)
    {staff other : StaffAssembly} (plain : staff.BothPlain other) :
    Together 0 BothPlain (addVoices settings index meter line staff)
      (addVoices settings index meter line other) := by
  unfold addVoices
  refine InStep.foldlM (fun state otherState states voice _ => ?_) plain
  rw [states.lineCount]
  refine (label_together 0 _ _).bind fun name _ same => ?_
  subst same
  exact .ok (states.appendVoice_bothPlain name _ _ _ voice)

/-- A part is assembled of plain nodes. -/
theorem isPlain_staff
    (result : Compile.staff settings title instrument index first rest base = .ok staff) :
    ∀ node ∈ staff.nodes, node.IsPlain := by
  have together : Together 0 BothPlain
      (Compile.staff settings title instrument index first rest base)
      (Compile.staff settings title instrument index first rest base) := by
    unfold Compile.staff
    refine (label_together 0 _ _).bind fun voiceName _ same => ?_
    subst same
    refine (begin_bothPlain base title voiceName _ first.key instrument).bind
      fun begun otherBegun begins => ?_
    refine InStep.bind (InStep.foldlM (fun state other states line _ => ?_) begins)
      fun lines otherLines plain => plain.enterFirstLine.resolveRepeats .none (.integer _)
    exact addVoices_bothPlain settings index _ line states
  rw [result] at together
  exact forall₂_parallel_self.mp together.of_ok.nodes

end Compile

/-- Every node of a compilation has a plain payload. -/
theorem Tune.isPlain_of_compile {tune : Tune} {settings : Settings} {startId : Int}
    {compilation : Compilation} (compiled : tune.compile settings startId = .ok compilation) :
    ∀ node ∈ compilation.graph.nodes, node.IsPlain := by
  obtain ⟨staves, -, -, nodes, each⟩ := exists_assemblies compiled
  rw [nodes]
  intro node member
  obtain ⟨staff, isStaff, holds⟩ := List.mem_flatMap.mp member
  obtain ⟨place, first, rest, base, -, result⟩ := exists_of_mem_right each isStaff
  exact Compile.isPlain_staff result node holds

section Written

variable {node : Node} {graph : Graph}

/-- A link is no number that is not finite. -/
theorem allFinite_linkDatum (link : Option Int) : (linkDatum link).allFinite = true := by
  cases link <;> rfl

/-- The links of a node are finite. -/
theorem Node.allFinite_links (node : Node) :
    (Datum.list (node.links.map linkDatum)).allFinite = true := by
  simp [allFinite_linkDatum]

/-- A plain payload is finite. -/
theorem IsPlainPayload.allFinite {entries : List (String × Datum)}
    (plain : IsPlainPayload (some entries)) : (Datum.mapping entries).allFinite = true := by
  cases plain <;> rfl

/-- The block of a plain node is finite. -/
theorem Node.IsPlain.allFinite_block (plain : node.IsPlain) : node.block.allFinite = true := by
  unfold Node.IsPlain at plain
  unfold Node.block
  cases payload : node.payload with
  | none =>
      simp only [Datum.allFinite_list, List.all_cons, node.allFinite_links]
      rfl
  | some entries =>
      rw [payload] at plain
      simp only [Datum.allFinite_list, List.all_cons, plain.allFinite, node.allFinite_links]
      rfl

/-- The document of a plain node is finite. -/
theorem Node.IsPlain.allFinite_document (plain : node.IsPlain) :
    node.document.allFinite = true := by
  unfold Node.IsPlain at plain
  unfold Node.document
  have position : (if node.position = (0, 0) then [] else [("position",
      Datum.list [.integer node.position.1, .integer node.position.2])]).all
        (·.2.allFinite) = true := by
    split <;> rfl
  cases payload : node.payload with
  | none =>
      simp only [Datum.allFinite_mapping, List.all_append, List.all_cons, node.allFinite_links,
        position]
      rfl
  | some entries =>
      rw [payload] at plain
      simp only [Datum.allFinite_mapping, List.all_append, List.all_cons, node.allFinite_links,
        position, Option.map_some, Option.toList_some, plain.allFinite]
      rfl

/-- The blocks of plain nodes are finite. -/
theorem Graph.allFinite_blocks (plain : ∀ node ∈ graph.nodes, node.IsPlain) :
    (Datum.list graph.blocks).allFinite = true := by
  rw [Datum.allFinite_list, List.all_eq_true]
  exact List.forall_mem_map.mpr fun node member => (plain node member).allFinite_block

/-- The document of plain nodes is finite. -/
theorem Graph.allFinite_document (plain : ∀ node ∈ graph.nodes, node.IsPlain) :
    graph.document.allFinite = true := by
  have nodes : (Datum.list (graph.nodes.map Node.document)).allFinite = true := by
    rw [Datum.allFinite_list, List.all_eq_true]
    exact List.forall_mem_map.mpr fun node member => (plain node member).allFinite_document
  simp only [Graph.document, Datum.allFinite_mapping, List.all_cons, nodes]
  rfl

/-- Counts are integers. -/
@[simp] theorem Graph.allFinite_summary (graph : Graph) : graph.summary.allFinite = true := by
  simp [Graph.summary]

@[simp] theorem Compilation.allFinite_document (compilation : Compilation) :
    compilation.document.allFinite = true := rfl

end Written

end TuneGraph
