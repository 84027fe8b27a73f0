import TuneGraph.Proofs.Except
import TuneGraph.Proofs.Graph.Chain

/-! # What a check of a graph decides

A graph is valid if its ids are different, its links lead to its nodes, and its chains enter calls
and repeats only, each of them from one place (`Graph.WellChained`). The check looks up no node
that is missing, and it comes to a report unless there is a fault with an id that cannot be written
out, which is not so for graphs of ids that can. A report accepts the valid graphs and no others,
and it warns of the calls and repeats of a valid graph that no chain reaches and of the nodes that
the node before them does not hold, each once and in the order of the nodes
(`Graph.check_decides`).
-/

namespace TuneGraph

namespace GraphFault

variable {fault : GraphFault} {issue : Issue}

/-- The ids that a fault is reported with. -/
def mentions : GraphFault → List Int
  | duplicateId id | revisited id | strayNode _ id | unreachable _ id => [id]
  | danglingLink id _ target => [id, target]
  | oneWayLink parent id => [parent, id]

/-- A fault is reported exactly if all ids that it is reported with can be written out. -/
theorem isSome_issue? (fault : GraphFault) :
    fault.issue?.isSome = fault.mentions.all Numeral.isShort := by
  cases fault with
  | duplicateId id | revisited id | strayNode kind id | unreachable kind id =>
      simp only [mentions, List.all_cons, ← Numeral.isSome_ofInt?, issue?, message?, GraphFault.id]
      cases Numeral.ofInt? id <;> rfl
  | danglingLink id slot other | oneWayLink other id =>
      simp only [mentions, List.all_cons, ← Numeral.isSome_ofInt?, issue?, message?, GraphFault.id]
      cases Numeral.ofInt? id <;> cases Numeral.ofInt? other <;> rfl

/-- An issue is as grave as the fault that it reports. -/
theorem severity_of_issue? (reported : fault.issue? = some issue) :
    issue.severity = fault.severity := by
  simp only [issue?, bind, Option.bind_eq_some_iff] at reported
  obtain ⟨message, -, id, -, same⟩ := reported
  obtain rfl := Option.some.inj same
  rfl

end GraphFault

namespace Graph

/-- Whether the ids of nodes are different, their links lead to them, and their chains are sound. -/
structure WellChained (nodes : List Node) : Prop where
  unique : (nodes.map Node.id).Nodup
  closed : Closed nodes
  entered : Entered nodes

/-- Whether a check looks up nodes that are there: along the chains, and in front of every node. -/
structure Searchable (nodes : List Node) : Prop where
  chains : Walks nodes [] (chainStarts nodes) (walk nodes [] (chainStarts nodes))
  before : ∀ node ∈ nodes, ∀ parent, node.previous = some parent →
    ∃ holder, findNode? nodes parent = some holder

/-- Whether issues are the warnings of a graph: of the calls and repeats that no chain reaches, and
then of the calls, repeats and notes that the node before them does not hold. -/
structure Warns (nodes unreached unheld : List Node) (issues : List Issue) : Prop where
  unreached_sublist : unreached.Sublist nodes
  mem_unreached : ∀ node ∈ nodes, node ∈ unreached ↔
    isChainKind node.kind = true ∧ ¬ChainReached nodes node.id
  unheld_sublist : unheld.Sublist nodes
  mem_unheld : ∀ node ∈ nodes, node ∈ unheld ↔
    (isChainKind node.kind = true ∨ node.kind = .noteRoot) ∧
      ∃ parent, node.previous = some parent ∧ ¬Leads nodes parent node.id
  issues_eq : issues.map some =
    unreached.map (fun node => (GraphFault.unreachable node.kind node.id).issue?) ++
      unheld.filterMap fun node =>
        node.previous.map fun parent => (GraphFault.oneWayLink parent node.id).issue?

section Index

variable {nodes : List Node} {node : Node} {entered : List Int}

theorem isSome_findNode?_iff {id : Int} :
    (findNode? nodes id).isSome = true ↔ id ∈ nodes.map Node.id := by
  simp [findNode?, List.find?_isSome]

/-- An index of nodes whose ids are all different is the list of the nodes. -/
theorem index_eq (unique : (nodes.map Node.id).Nodup) : index nodes = nodes := by
  have last : ∀ (node : Node) (done : List Node), node.id ∉ done.map Node.id →
      indexNode node done = done ++ [node] := by
    intro node done absent
    induction done with
    | nil => rfl
    | cons first rest ih =>
        rw [List.map_cons, List.mem_cons, not_or] at absent
        rw [indexNode, if_neg (Ne.symm absent.1), ih absent.2, List.cons_append]
  suffices all : ∀ done more : List Node, ((done ++ more).map Node.id).Nodup →
      more.foldl (fun done node => indexNode node done) done = done ++ more by
    exact all [] nodes unique
  intro done more
  induction more generalizing done with
  | nil => intro _; rw [List.foldl_nil, List.append_nil]
  | cons node rest ih =>
      intro unique
      have absent : node.id ∉ done.map Node.id := by
        rw [List.map_append, List.map_cons] at unique
        intro member
        exact (List.nodup_append.mp unique).2.2 _ member _ List.mem_cons_self rfl
      rw [List.foldl_cons, last node done absent, ih _ (by simpa using unique),
        List.append_assoc, List.singleton_append]

theorem duplicates_eq_nil_iff {seen : List Int} : duplicates seen nodes = [] ↔
    (nodes.map Node.id).Nodup ∧ ∀ id ∈ nodes.map Node.id, id ∉ seen := by
  induction nodes generalizing seen with
  | nil => exact iff_of_true rfl ⟨List.nodup_nil, nofun⟩
  | cons node rest ih =>
      have fresh : (if seen.contains node.id then [GraphFault.duplicateId node.id] else []) = [] ↔
          node.id ∉ seen := by
        split <;> simp_all
      rw [duplicates, List.append_eq_nil_iff, fresh, ih, List.map_cons, List.nodup_cons,
        List.forall_mem_cons]
      simp only [List.mem_cons, not_or]
      constructor
      · rintro ⟨unseen, nodup, apart⟩
        exact ⟨⟨fun member => (apart node.id member).1 rfl, nodup⟩, unseen,
          fun id member => (apart id member).2⟩
      · rintro ⟨⟨first, nodup⟩, unseen, apart⟩
        refine ⟨unseen, nodup, fun id member => ⟨?_, apart id member⟩⟩
        rintro rfl
        exact first member

theorem danglingFrom_eq_nil_iff {id : Int} {slot : Nat} {links : List (Option Int)} :
    danglingFrom nodes id slot links = [] ↔
      ∀ target, some target ∈ links → target ∈ nodes.map Node.id := by
  induction links generalizing slot with
  | nil => exact iff_of_true rfl nofun
  | cons link rest ih =>
      unfold danglingFrom
      rw [List.append_eq_nil_iff, ih]
      cases link with
      | none => simp
      | some target =>
          have known : (if (findNode? nodes target).isSome then []
              else [GraphFault.danglingLink id slot target]) = [] ↔
                target ∈ nodes.map Node.id := by
            rw [← isSome_findNode?_iff]
            split <;> simp_all
          simp only [known, List.mem_cons, Option.some.injEq, forall_eq_or_imp]

theorem dangling_eq_nil_iff : dangling nodes = [] ↔ Closed nodes := by
  simp only [dangling, List.flatMap_eq_nil_iff, danglingFrom_eq_nil_iff]
  refine forall_congr' fun node => forall_congr' fun member => ?_
  constructor
  · exact fun known slot target link => known target
      (List.mem_iff_getElem?.mpr ⟨slot, Option.join_eq_some_iff.mp link⟩)
  · intro known target linked
    obtain ⟨slot, stored⟩ := List.mem_iff_getElem?.mp linked
    exact known slot target (Option.join_eq_some_iff.mpr stored)

/-- An index of nodes holds nothing else. -/
theorem mem_of_mem_index (member : node ∈ index nodes) : node ∈ nodes := by
  have put : ∀ (first : Node) (done : List Node), node ∈ indexNode first done →
      node = first ∨ node ∈ done := by
    intro first done
    induction done with
    | nil => exact fun inside => Or.inl (List.mem_singleton.mp inside)
    | cons head rest ih =>
        intro inside
        rw [indexNode] at inside
        split at inside
        · exact (List.mem_cons.mp inside).imp_right (List.mem_cons_of_mem head)
        · rcases List.mem_cons.mp inside with same | later
          · exact Or.inr (same ▸ List.mem_cons_self)
          · exact (ih later).imp_right (List.mem_cons_of_mem head)
  suffices all : ∀ more done : List Node,
      node ∈ more.foldl (fun done node => indexNode node done) done → node ∈ more ∨ node ∈ done by
    exact (all nodes [] member).resolve_right List.not_mem_nil
  intro more
  induction more with
  | nil => exact fun done inside => Or.inr inside
  | cons first rest ih =>
      intro done inside
      rcases ih _ inside with later | earlier
      · exact Or.inl (List.mem_cons_of_mem first later)
      · rcases put first done earlier with same | before
        · exact Or.inl (same ▸ List.mem_cons_self)
        · exact Or.inr before

/-- If ids and links are not found fault with, they are sound. -/
theorem sound_of_basic (basic : duplicates [] nodes ++ dangling (index nodes) = []) :
    (nodes.map Node.id).Nodup ∧ Closed nodes := by
  obtain ⟨distinct, known⟩ := List.append_eq_nil_iff.mp basic
  have unique := (duplicates_eq_nil_iff.mp distinct).1
  rw [index_eq unique] at known
  exact ⟨unique, dangling_eq_nil_iff.mp known⟩

/-- Faults of ids and links are errors. -/
theorem severity_of_mem_duplicates {seen : List Int} {fault : GraphFault}
    (member : fault ∈ duplicates seen nodes) : fault.severity = .error := by
  induction nodes generalizing seen with
  | nil => cases member
  | cons node rest ih =>
      rcases List.mem_append.mp member with here | later
      · split at here
        · rw [List.mem_singleton.mp here]
          rfl
        · cases here
      · exact ih later

theorem severity_of_mem_danglingFrom {id : Int} {slot : Nat} {links : List (Option Int)}
    {fault : GraphFault} (member : fault ∈ danglingFrom nodes id slot links) :
    fault.severity = .error := by
  induction links generalizing slot with
  | nil => cases member
  | cons link rest ih =>
      unfold danglingFrom at member
      rcases List.mem_append.mp member with here | later
      · cases link with
        | none => cases here
        | some target =>
            dsimp only at here
            split at here
            · cases here
            · rw [List.mem_singleton.mp here]
              rfl
      · exact ih later

/-- Faults of ids are about ids of nodes. -/
theorem mentions_of_mem_duplicates {seen : List Int} {fault : GraphFault} {id : Int}
    (member : fault ∈ duplicates seen nodes) (mentioned : id ∈ fault.mentions) :
    id ∈ nodes.map Node.id := by
  induction nodes generalizing seen with
  | nil => cases member
  | cons node rest ih =>
      rcases List.mem_append.mp member with here | later
      · split at here
        · rw [List.mem_singleton.mp here] at mentioned
          rw [List.mem_singleton.mp mentioned]
          exact List.mem_cons_self
        · cases here
      · exact List.mem_cons_of_mem _ (ih later)

/-- Faults of links are about the id of the node and the target of the link. -/
theorem mentions_of_mem_danglingFrom {holder id : Int} {slot : Nat} {links : List (Option Int)}
    {fault : GraphFault} (member : fault ∈ danglingFrom nodes holder slot links)
    (mentioned : id ∈ fault.mentions) : id = holder ∨ some id ∈ links := by
  induction links generalizing slot with
  | nil => cases member
  | cons link rest ih =>
      unfold danglingFrom at member
      rcases List.mem_append.mp member with here | later
      · cases link with
        | none => cases here
        | some target =>
            dsimp only at here
            split at here
            · cases here
            · rw [List.mem_singleton.mp here] at mentioned
              rcases List.mem_cons.mp mentioned with same | last
              · exact Or.inl same
              · rw [List.mem_singleton.mp last]
                exact Or.inr List.mem_cons_self
      · exact (ih later).imp_right (List.mem_cons_of_mem _)

/-- Faults of chains are about ids of nodes. -/
theorem mentions_of_mem_walk (closed : Closed nodes) {fault : GraphFault} {id : Int}
    (met : fault ∈ (walk nodes [] (chainStarts nodes)).2) (mentioned : id ∈ fault.mentions) :
    id ∈ nodes.map Node.id := by
  obtain ⟨visited, toured⟩ := (walks_chains closed).exists_toured
  rcases toured.blamed fault met with ⟨same, entered⟩ | ⟨node, member, -, rfl⟩
  · rw [same] at mentioned
    rw [List.mem_singleton.mp mentioned]
    rw [toured.entered_eq, List.append_nil, List.mem_reverse] at entered
    exact List.map_subset _ toured.inside entered
  · rw [List.mem_singleton.mp mentioned]
    exact List.mem_map_of_mem member

/-- Warnings are about ids of nodes and of the nodes before them. -/
theorem mentions_of_mem_warnings {fault : GraphFault} {id : Int}
    (member : fault ∈ unreachable nodes entered ++ oneWayLinks nodes)
    (mentioned : id ∈ fault.mentions) :
    ∃ node ∈ nodes, id = node.id ∨ some id ∈ node.links := by
  rcases List.mem_append.mp member with stray | loose
  · obtain ⟨node, inside, rfl⟩ := List.mem_map.mp stray
    exact ⟨node, (List.mem_filter.mp inside).1, Or.inl (List.mem_singleton.mp mentioned)⟩
  · obtain ⟨node, inside, known⟩ := List.mem_filterMap.mp loose
    refine ⟨node, (List.mem_filter.mp inside).1, ?_⟩
    simp only [oneWayLink?, bind, Option.bind_eq_some_iff] at known
    obtain ⟨parent, previous, before, -, same⟩ := known
    split at same
    · cases same
    · obtain rfl := Option.some.inj same
      rcases List.mem_cons.mp mentioned with first | last
      · rw [first]
        exact Or.inr (List.mem_iff_getElem?.mpr ⟨_, Option.join_eq_some_iff.mp previous⟩)
      · exact Or.inl (List.mem_singleton.mp last)

end Index

section Warnings

variable {nodes : List Node} {node : Node} {fault : GraphFault}

/-- A node is found fault with if the node before it does not hold it. -/
theorem oneWayLink?_eq_some_iff (unique : (nodes.map Node.id).Nodup) (closed : Closed nodes)
    (member : node ∈ nodes) : oneWayLink? nodes node = some fault ↔ ∃ parent,
      node.previous = some parent ∧ ¬Leads nodes parent node.id ∧
        fault = .oneWayLink parent node.id := by
  unfold oneWayLink?
  cases previous : node.previous with
  | none =>
      refine iff_of_false (fun same => ?_) (fun blamed => ?_)
      · cases same
      · obtain ⟨_, known, -⟩ := blamed
        cases known
  | some parent =>
      obtain ⟨before, found⟩ := exists_findNode? (closed node member _ parent previous)
      have held : (before.slotOf (some node.id)).isSome = true ↔ Leads nodes parent node.id := by
        rw [Node.isSome_slotOf_iff, Leads]
        refine exists_congr fun slot => ?_
        rw [holds_iff_linkOf unique, linkOf, found, Option.bind_some]
      simp only [Option.bind_eq_bind, Option.bind_some, found, held, Option.some.injEq,
        exists_eq_left']
      split
      · rename_i known
        refine iff_of_false (fun same => ?_) fun blamed => blamed.1 (held.mp known)
        cases same
      · rename_i loose
        rw [held] at loose
        simp only [Option.some.injEq, loose, not_false_eq_true, true_and, eq_comm]

/-- Where ids and links are sound, what the last checks find is the warnings. -/
theorem exists_warns (unique : (nodes.map Node.id).Nodup) (closed : Closed nodes)
    (sound : Entered nodes) {issues : List Issue}
    (reported : (unreachable nodes (walk nodes [] (chainStarts nodes)).1 ++ oneWayLinks nodes).map
      GraphFault.issue? = issues.map some) :
    ∃ unreached unheld, Warns nodes unreached unheld issues := by
  have found : ∀ node ∈ nodes, (oneWayLink? nodes node).isSome = true ↔
      ∃ parent, node.previous = some parent ∧ ¬Leads nodes parent node.id := by
    intro node member
    simp only [Option.isSome_iff_exists, oneWayLink?_eq_some_iff unique closed member]
    exact ⟨fun ⟨_, parent, previous, loose, _⟩ => ⟨parent, previous, loose⟩,
      fun ⟨parent, previous, loose⟩ => ⟨_, parent, previous, loose, rfl⟩⟩
  refine ⟨nodes.filter fun node => isChainKind node.kind &&
      !(walk nodes [] (chainStarts nodes)).1.contains node.id,
    nodes.filter fun node => (isChainKind node.kind || node.kind == .noteRoot) &&
      (oneWayLink? nodes node).isSome,
    { unreached_sublist := List.filter_sublist
      mem_unreached := ?_
      unheld_sublist := List.filter_sublist
      mem_unheld := ?_
      issues_eq := ?_ }⟩
  · intro node member
    simp [member, ← mem_walk_iff unique closed sound]
  · intro node member
    simp only [List.mem_filter, member, true_and, found node member, Bool.and_eq_true,
      Bool.or_eq_true, beq_iff_eq]
  · rw [← reported, List.map_append, unreachable, List.map_map, oneWayLinks, List.map_filterMap,
      List.filterMap_filter, List.filterMap_filter]
    refine congrArg₂ _ rfl (List.filterMap_congr fun node member => ?_)
    cases blamed : oneWayLink? nodes node with
    | none =>
        simp only [Option.map_none, Option.isSome_none, Bool.and_false, Bool.false_eq_true,
          ↓reduceIte, ite_self]
    | some fault =>
        obtain ⟨parent, previous, -, rfl⟩ :=
          (oneWayLink?_eq_some_iff unique closed member).mp blamed
        simp only [previous, Option.map_some, Option.isSome_some, Bool.and_true]

end Warnings

section Verdict

variable {graph : Graph}

/-- With sound ids and links, the faults are those of the chains and what is worth a warning. -/
theorem faults_of_sound (unique : (graph.nodes.map Node.id).Nodup) (closed : Closed graph.nodes) :
    graph.faults = (walk graph.nodes [] (chainStarts graph.nodes)).2 ++
      (unreachable graph.nodes (walk graph.nodes [] (chainStarts graph.nodes)).1 ++
        oneWayLinks graph.nodes) := by
  have distinct : duplicates [] graph.nodes = [] :=
    duplicates_eq_nil_iff.mpr ⟨unique, fun _ _ => List.not_mem_nil⟩
  simp only [faults, index_eq unique, distinct, dangling_eq_nil_iff.mpr closed, List.append_nil,
    List.isEmpty_nil, ↓reduceIte, List.append_assoc]

/-- A report holds the issues of the faults, one by one. -/
theorem issues_of_check {report : Report} (checked : graph.check = some report) :
    graph.faults.map GraphFault.issue? = report.issues.map some := by
  obtain ⟨issues, reported, rfl⟩ := Option.map_eq_some_iff.mp checked
  exact mapM_eq_some_iff.mp reported

/-- A fault is about an id of a node or the target of a link. -/
theorem mentions_of_mem_faults {fault : GraphFault} (member : fault ∈ graph.faults) {id : Int}
    (mentioned : id ∈ fault.mentions) :
    ∃ node ∈ graph.nodes, id = node.id ∨ some id ∈ node.links := by
  have of_id : ∀ {nodes : List Node}, id ∈ nodes.map Node.id →
      ∃ node ∈ nodes, id = node.id ∨ some id ∈ node.links := by
    intro nodes inside
    obtain ⟨node, member, same⟩ := List.mem_map.mp inside
    exact ⟨node, member, Or.inl same.symm⟩
  by_cases basic : duplicates [] graph.nodes ++ dangling (index graph.nodes) = []
  · obtain ⟨unique, closed⟩ := sound_of_basic basic
    rw [faults_of_sound unique closed] at member
    rcases List.mem_append.mp member with met | warned
    · exact of_id (mentions_of_mem_walk closed met mentioned)
    · exact mentions_of_mem_warnings warned mentioned
  · simp only [faults, List.isEmpty_iff, if_neg basic] at member
    rcases List.mem_append.mp member with repeated | loose
    · exact of_id (mentions_of_mem_duplicates repeated mentioned)
    · obtain ⟨node, inside, here⟩ := List.mem_flatMap.mp loose
      exact ⟨node, mem_of_mem_index inside, mentions_of_mem_danglingFrom here mentioned⟩

/-- There is a report exactly if all ids that would be in it can be written out. -/
theorem exists_check_iff : (∃ report, graph.check = some report) ↔
    ∀ fault ∈ graph.faults, ∀ id ∈ fault.mentions, Numeral.isShort id = true := by
  rw [← Option.isSome_iff_exists, check, Option.isSome_map, isSome_mapM_iff]
  simp only [GraphFault.isSome_issue?, List.all_eq_true]

/-- What the check finds in a valid graph is the warnings. -/
theorem WellChained.exists_warns_check (sound : WellChained graph.nodes) {report : Report}
    (checked : graph.check = some report) :
    ∃ unreached unheld, Warns graph.nodes unreached unheld report.issues := by
  have reported := issues_of_check checked
  rw [faults_of_sound sound.unique sound.closed,
    (walk_faultless_iff sound.unique sound.closed).mpr sound.entered, List.nil_append] at reported
  exact exists_warns sound.unique sound.closed sound.entered reported

theorem isValid_iff {report : Report} : report.isValid = true ↔
    ∀ issue ∈ report.issues, issue.severity ≠ .error := by
  rw [Report.isValid, Report.errors, Report.ofSeverity, List.isEmpty_iff, List.filter_eq_nil_iff]
  simp only [beq_iff_eq, ne_eq]

/-- A report is valid exactly if none of the faults is an error. -/
theorem isValid_iff_faults {report : Report} (checked : graph.check = some report) :
    report.isValid = true ↔ ∀ fault ∈ graph.faults, fault.severity ≠ .error := by
  have reported := issues_of_check checked
  rw [isValid_iff]
  constructor
  · intro valid fault member
    obtain ⟨issue, met, same⟩ := List.mem_map.mp (reported ▸ List.mem_map_of_mem member)
    rw [← GraphFault.severity_of_issue? same.symm]
    exact valid issue met
  · intro faultless issue met
    obtain ⟨fault, member, same⟩ := List.mem_map.mp (reported.symm ▸ List.mem_map_of_mem met)
    rw [GraphFault.severity_of_issue? same]
    exact faultless fault member

/-- The warnings of a graph are no errors. -/
theorem severity_of_mem_warnings {nodes : List Node} {entered : List Int} {fault : GraphFault}
    (member : fault ∈ unreachable nodes entered ++ oneWayLinks nodes) :
    fault.severity ≠ .error := by
  rcases List.mem_append.mp member with stray | loose
  · obtain ⟨node, -, rfl⟩ := List.mem_map.mp stray
    exact nofun
  · obtain ⟨node, -, known⟩ := List.mem_filterMap.mp loose
    simp only [oneWayLink?, bind, Option.bind_eq_some_iff] at known
    obtain ⟨parent, -, before, -, same⟩ := known
    split at same
    · cases same
    · obtain rfl := Option.some.inj same
      exact nofun

/-- A graph is well chained exactly if none of its faults is an error. -/
theorem wellChained_iff_faults :
    WellChained graph.nodes ↔ ∀ fault ∈ graph.faults, fault.severity ≠ .error := by
  constructor
  · intro sound fault member
    rw [faults_of_sound sound.unique sound.closed,
      (walk_faultless_iff sound.unique sound.closed).mpr sound.entered, List.nil_append] at member
    exact severity_of_mem_warnings member
  · intro faultless
    have basic : duplicates [] graph.nodes ++ dangling (index graph.nodes) = [] := by
      by_contra faulty
      have all : graph.faults = duplicates [] graph.nodes ++ dangling (index graph.nodes) := by
        simp only [faults, List.isEmpty_iff, if_neg faulty]
      obtain ⟨fault, member⟩ := List.exists_mem_of_ne_nil _ faulty
      refine faultless fault (all ▸ member) ?_
      rcases List.mem_append.mp member with repeated | loose
      · exact severity_of_mem_duplicates repeated
      · obtain ⟨node, -, here⟩ := List.mem_flatMap.mp loose
        exact severity_of_mem_danglingFrom here
    obtain ⟨unique, closed⟩ := sound_of_basic basic
    refine ⟨unique, closed, (walk_faultless_iff unique closed).mp ?_⟩
    rw [List.eq_nil_iff_forall_not_mem]
    intro fault met
    refine faultless fault ?_ (severity_of_mem_walk closed met)
    rw [faults_of_sound unique closed]
    exact List.mem_append_left _ met

/-- A graph of ids that can be written out has a report. -/
theorem exists_check_of_short (short : ∀ node ∈ graph.nodes, Numeral.isShort node.id = true ∧
    ∀ target, some target ∈ node.links → Numeral.isShort target = true) :
    ∃ report, graph.check = some report := by
  rw [exists_check_iff]
  intro fault member id mentioned
  obtain ⟨node, inside, same | linked⟩ := mentions_of_mem_faults member mentioned
  · exact same ▸ (short node inside).1
  · exact (short node inside).2 id linked

/-- The check of a graph looks up no node that is missing, and it comes to a report unless there is
a fault with an id that cannot be written out, as there is none if all ids can. The report decides
whether the graph is valid. The chains of a valid graph do not lead back, and it is warned of the
nodes that they do not reach and of those that the node before them does not hold. -/
theorem check_decides (graph : Graph) :
    (duplicates [] graph.nodes ++ dangling (index graph.nodes) = [] →
      Searchable (index graph.nodes)) ∧
    ((∃ report, graph.check = some report) ↔
      ∀ fault ∈ graph.faults, ∀ id ∈ fault.mentions, Numeral.isShort id = true) ∧
    ((∀ node ∈ graph.nodes, Numeral.isShort node.id = true ∧
        ∀ target, some target ∈ node.links → Numeral.isShort target = true) →
      ∃ report, graph.check = some report) ∧
    ∀ report, graph.check = some report →
      (report.isValid = true ↔ WellChained graph.nodes) ∧
      (report.isValid = true →
        (∀ id, ChainReached graph.nodes id →
          ¬Relation.TransGen (ChainLeads graph.nodes) id id) ∧
        ∃ unreached unheld, Warns graph.nodes unreached unheld report.issues) := by
  refine ⟨fun basic => ?_, exists_check_iff, exists_check_of_short, fun report checked => ?_⟩
  · obtain ⟨unique, closed⟩ := sound_of_basic basic
    rw [index_eq unique]
    exact ⟨walks_chains closed, fun node member parent previous =>
      exists_findNode? (closed node member _ parent previous)⟩
  · have decides : report.isValid = true ↔ WellChained graph.nodes := by
      rw [isValid_iff_faults checked, wellChained_iff_faults]
    refine ⟨decides, fun valid => ?_⟩
    have sound := decides.mp valid
    exact ⟨fun id reached => sound.entered.acyclic sound.unique reached,
      sound.exists_warns_check checked⟩

/-- A graph of one repeat, which no chain reaches, with the least id that has too many digits. -/
def longRepeat : Graph where
  nodes := [{ id := Numeral.tooLong, kind := .repetition, links := [none, none, none, none] }]

/-- The check of a graph breaks down where it has to write an id out that has too many digits. -/
theorem unchecked_longRepeat : longRepeat.check = none := by
  have faults : GraphFault.unreachable .repetition Numeral.tooLong ∈ longRepeat.faults := by
    simp [longRepeat, Graph.faults, index, indexNode, duplicates, dangling, danglingFrom,
      chainStarts, walk, unreachable, isChainKind]
  have long : Numeral.isShort Numeral.tooLong = false := by decide +kernel
  refine Option.not_isSome_iff_eq_none.mp fun checked => ?_
  have short := exists_check_iff.mp (Option.isSome_iff_exists.mp checked) _ faults _
    (List.mem_singleton_self _)
  rw [long] at short
  cases short

end Verdict

end Graph

end TuneGraph
