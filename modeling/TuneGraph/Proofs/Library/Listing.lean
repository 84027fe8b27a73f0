import TuneGraph.Proofs.Library.Query

/-! # Listed scores

A list of the scores holds a summary of every score file that is read as a tune, and of nothing
else (`Library.mem_summaries_iff`). The tunes that are read on the way are those of the score
files, up to the first that stops the list (`Library.mem_listed`).
-/

namespace TuneGraph

open LibraryAction

namespace Files

variable {files : Files} {reader : Reader} {path : Path} {paths : List Path} {tune : Tune}
  {modified : Nat}

/-- What is read from score files is read from one of them. -/
theorem mem_scores (member : tune ∈ files.scores reader paths) :
    ∃ path ∈ paths, ∃ modified, files.score reader path = .ok (tune, modified) := by
  induction paths with
  | nil => cases member
  | cons path rest ih =>
      have later (inRest : tune ∈ files.scores reader rest) :
          ∃ other ∈ path :: rest, ∃ modified, files.score reader other = .ok (tune, modified) := by
        obtain ⟨other, listed, read⟩ := ih inRest
        exact ⟨other, List.mem_cons_of_mem _ listed, read⟩
      rw [scores] at member
      cases here : files.score reader path with
      | ok found =>
          rw [here] at member
          rcases List.mem_cons.mp member with rfl | inRest
          · exact ⟨path, List.mem_cons_self, found.2, here⟩
          · exact later inRest
      | error error =>
          rw [here] at member
          dsimp only at member
          split at member
          · exact later member
          · cases member

/-- If all score files can be summed up, the tunes of all that can be read are among them. -/
theorem mem_scores_of_returns (summedUp : Returns (paths.mapM (files.summary? reader)))
    (listed : path ∈ paths) (read : files.score reader path = .ok (tune, modified)) :
    tune ∈ files.scores reader paths := by
  rw [returns_mapM_iff] at summedUp
  induction paths with
  | nil => cases listed
  | cons first rest ih =>
      obtain ⟨⟨summary, here⟩, later⟩ := List.forall_mem_cons.mp summedUp
      rw [scores]
      rcases List.mem_cons.mp listed with rfl | inRest
      · rw [read]
        exact List.mem_cons_self
      · rw [summary?] at here
        cases found : files.score reader first with
        | ok found => exact List.mem_cons_of_mem _ (ih later inRest)
        | error error =>
            rw [found] at here
            dsimp only at here ⊢
            split at here
            · rw [if_pos ‹_›]
              exact ih later inRest
            · cases here

/-- What a folder is said to hold are paths inside it. -/
theorem exists_of_mem_children {folder : Path} (held : files.children folder = .ok paths)
    (member : path ∈ paths) : ∃ name, path = folder ++ [name] := by
  unfold children at held
  split at held
  · cases held
    obtain ⟨inside, isChild⟩ := List.mem_filter.mp member
    rw [Bool.and_eq_true, bne_iff_ne, beq_iff_eq] at isChild
    obtain ⟨away, rfl⟩ := isChild
    exact ⟨path.getLast away, (List.dropLast_concat_getLast away).symm⟩
  · cases held
  · cases held

/-- What is recorded at a path is among the entries. -/
theorem mem_paths_of_find? {entry : Entry} (there : files.find? path = some entry) :
    path ∈ files.entries.map (·.1) := by
  obtain ⟨front, back, same, -⟩ := List.lookup_eq_some_iff.mp there
  rw [same]
  simp

/-- What is found in a folder is what the folder is said to hold. -/
theorem mem_children {folder : Path} {name : String} {entry : Entry}
    (held : files.children folder = .ok paths)
    (located : files.locate (folder ++ [name]) = .ok entry) : folder ++ [name] ∈ paths := by
  have there := find?_of_walk (locate_eq_ok_iff.mp located).2
  unfold children at held
  split at held
  · cases held
    exact List.mem_filter.mpr ⟨mem_paths_of_find? there, by simp⟩
  · cases held
  · cases held

/-- A folder that something is found in is not absent. -/
theorem contains_ne_false_of_inside {folder : Path} {name : String} {entry : Entry}
    (located : files.locate (folder ++ [name]) = .ok entry) :
    files.contains folder ≠ .ok false := by
  obtain ⟨valid, way⟩ := locate_eq_ok_iff.mp located
  have isFolder : files.walk [] folder = .ok .folder := by
    rw [walk_concat] at way
    split at way
    · assumption
    · cases way
    · cases way
  intro absent
  rw [contains, locate, valid.encodable_of_append, valid.clean_of_append, isFolder] at absent
  cases short : folder.isLong with
  | true =>
      rw [short] at absent
      cases absent
  | false =>
      rw [short] at absent
      cases absent

/-- A score file is summed up exactly if it is read as a tune. -/
theorem summary?_eq_some_iff {summary : ScoreSummary} :
    files.summary? reader path = .ok (some summary) ↔
      ∃ tune modified, files.score reader path = .ok (tune, modified) ∧
        summary = .ofTune tune modified := by
  unfold summary?
  cases files.score reader path with
  | ok found =>
      constructor
      · intro same
        cases same
        exact ⟨found.1, found.2, rfl, rfl⟩
      · rintro ⟨tune, modified, same, rfl⟩
        cases same
        rfl
  | error error =>
      refine iff_of_false (fun same => ?_) nofun
      dsimp only at same
      split at same <;> cases same

/-- A score that can be read is a file that is found. -/
theorem exists_locate_of_score {found : Tune × Nat} (read : files.score reader path = .ok found) :
    ∃ entry, files.locate path = .ok entry := by
  unfold score Files.read at read
  cases located : files.locate path with
  | ok entry => exact ⟨entry, rfl⟩
  | error error =>
      rw [located] at read
      cases read

end Files

namespace Library

variable {library : Library} {tune : Tune}

/-- The score files are files of the folder of the scores. -/
theorem mem_scorePaths {paths : List Path} {path : Path} (listed : library.scorePaths = .ok paths)
    (member : path ∈ paths) :
    ∃ file, path = library.setup.scores ++ [file] ∧ path.isScore = true := by
  unfold scorePaths at listed
  split at listed
  · cases listed
  · cases listed
    cases member
  · split at listed
    · cases listed
    · rename_i held
      cases listed
      obtain ⟨inside, isScore⟩ := List.mem_filter.mp member
      obtain ⟨file, same⟩ := Files.exists_of_mem_children held inside
      exact ⟨file, same, isScore⟩

/-- The tunes that are read to list the scores, by the paths of the score files. -/
theorem listed_eq (library : Library) : library.listed = match library.scorePaths with
    | .ok paths => library.files.scores library.setup.reader paths
    | .error _ => [] := by
  unfold listed scorePaths
  cases library.files.contains library.setup.scores with
  | error error => rfl
  | ok present =>
      cases present with
      | false => rfl
      | true => cases library.files.children library.setup.scores <;> rfl

/-- The tunes that are read to list the scores are those of the score files. -/
theorem mem_listed (member : tune ∈ library.listed) :
    ∃ file modified, Path.isScore (library.setup.scores ++ [file]) = true ∧
      library.files.score library.setup.reader (library.setup.scores ++ [file]) =
        .ok (tune, modified) := by
  rw [listed_eq] at member
  split at member
  · rename_i paths listed
    obtain ⟨path, inside, modified, read⟩ := Files.mem_scores member
    obtain ⟨file, rfl, isScore⟩ := mem_scorePaths listed inside
    exact ⟨file, modified, isScore, read⟩
  · cases member

/-- Every score that is found among the files is a score file. -/
theorem mem_scorePaths_of_locate {paths : List Path} {file : String} {entry : Entry}
    (listed : library.scorePaths = .ok paths)
    (located : library.files.locate (library.setup.scores ++ [file]) = .ok entry)
    (isScore : Path.isScore (library.setup.scores ++ [file]) = true) :
    library.setup.scores ++ [file] ∈ paths := by
  unfold scorePaths at listed
  split at listed
  · cases listed
  · exact (Files.contains_ne_false_of_inside located ‹_›).elim
  · split at listed
    · cases listed
    · rename_i held
      cases listed
      exact List.mem_filter.mpr ⟨Files.mem_children held located, isScore⟩

/-- If the scores are listed, all score files have been summed up. -/
theorem exists_summedUp {found : List ScoreSummary} (done : (summaries.run library).1 = .ok found) :
    ∃ paths results, library.scorePaths = .ok paths ∧
      paths.mapM (library.files.summary? library.setup.reader) = .ok results ∧
      found = (results.filterMap id).mergeSort fun a b => b.modified ≤ a.modified := by
  rw [run_summaries] at done
  obtain ⟨paths, listed, done⟩ := bind_eq_ok_iff.mp done
  cases reached : library.scorePaths with
  | error error =>
      rw [reached] at listed
      cases listed
  | ok others =>
      rw [reached] at listed
      cases listed
      cases summedUp : paths.mapM (library.files.summary? library.setup.reader) with
      | error error =>
          rw [summedUp] at done
          cases done
      | ok results =>
          rw [summedUp] at done
          exact ⟨paths, results, rfl, summedUp, (Except.ok.inj done).symm⟩

/-- The scores that are listed are those that can be read. -/
theorem mem_summaries_iff {found : List ScoreSummary} {summary : ScoreSummary}
    (done : (summaries.run library).1 = .ok found) : summary ∈ found ↔
      ∃ file tune modified, Path.isScore (library.setup.scores ++ [file]) = true ∧
        library.files.score library.setup.reader (library.setup.scores ++ [file]) =
          .ok (tune, modified) ∧
        summary = .ofTune tune modified := by
  obtain ⟨paths, results, listed, summedUp, rfl⟩ := exists_summedUp done
  rw [List.mem_mergeSort, List.mem_filterMap]
  simp only [id_eq, exists_eq_right, mem_iff_of_mapM_eq_ok summedUp]
  constructor
  · rintro ⟨path, member, sums⟩
    obtain ⟨file, rfl, isScore⟩ := mem_scorePaths listed member
    obtain ⟨tune, modified, read, rfl⟩ := Files.summary?_eq_some_iff.mp sums
    exact ⟨file, tune, modified, isScore, read, rfl⟩
  · rintro ⟨file, tune, modified, isScore, read, rfl⟩
    obtain ⟨entry, located⟩ := Files.exists_locate_of_score read
    exact ⟨_, mem_scorePaths_of_locate listed located isScore,
      Files.summary?_eq_some_iff.mpr ⟨tune, modified, read, rfl⟩⟩

/-- What is answered to a request for a list of the scores. -/
theorem answer_listScores (library : Library) :
    (library.answer .listScores).1 = match (summaries.run library).1 with
      | .ok found => some (.success [("scores", .list (found.map ScoreSummary.document)),
          ("count", .integer found.length)])
      | .error error => some (.failure (error.message library.setup.root)) := by
  unfold Library.answer perform listScores
  rw [run_bind, run_adapt]
  rcases summaries.run library with ⟨_ | found, after⟩ <;> rfl

end Library

end TuneGraph
