import TuneGraph.Proofs.Library.Query

/-! # Scores of other names

Memory goes by names, files by file names, in which blanks and slashes are underscores. So what is
done under other names leaves a tune in memory (`Library.known?_changed`), but leaves its score only
if the other names are different as file names, too (`Library.saved_changed`). Requests that are not
queries are made of such changes (`Library.snd_answer_of_not_isQuery`).

A tune that has been imported and saved is answered as long as the library runs, and by a library
that has been restarted if no other name has taken its file and the reader gets the tune back
(`Library.getScore_after_changes`): a library that is restarted answers a name with the tune that is
saved under its file name (`Library.getScore_restart_of_saved`).
-/

namespace TuneGraph

open LibraryAction

/-- A change of the stored tunes. -/
inductive Change where
  /-- A document is read as a tune, which is remembered but not saved. -/
  | importDocument (document name : Datum)
  | save (tune : Tune)
  | delete (name : String)

namespace Change

/-- The name under which a change is made. -/
def name? : Change → Option String
  | importDocument document name => (Tune.read document name).toOption.map (·.name)
  | save tune => some tune.name
  | delete name => some name

/-- The file name, without an ending, that a change is about. -/
def fileStem? : Change → Option String
  | importDocument .. => none
  | save tune => some (Library.fileStem tune.name)
  | delete name => some (Library.fileStem name)

/-- What a change does. -/
def action : Change → LibraryAction LibraryError Unit
  | importDocument document name => do
    let _ ← Library.importDocument document name
    return ()
  | save tune => do
    let _ ← Library.save tune
    return ()
  | delete name => do
    let _ ← Library.delete name
    return ()

end Change

/-- The changes that a request makes. -/
def ToolRequest.changes : ToolRequest → List Change
  | .importScore json name saved =>
    match Json.parse json with
    | .error _ => []
    | .ok document => .importDocument document name ::
      match saved, Tune.read document name with
      | true, .ok tune => [.save tune]
      | _, _ => []
  | .deleteScore name => [.delete name]
  | _ => []

namespace Library

variable {library kept : Library} {setup : Setup} {path : Path} {name json : String} {tune : Tune}
  {change : Change} {answer : ToolAnswer}

/-- A library after a change, as far as the change could be made. -/
def changed (library : Library) (change : Change) : Library := (change.action.run library).2

/-- To import a document is a change. -/
theorem changed_importDocument (document name : Datum) (library : Library) :
    library.changed (.importDocument document name) =
      ((importDocument document name).run library).2 := snd_run_bind (fun _ _ => rfl) library

/-- To save a tune is a change. -/
theorem changed_save (tune : Tune) (library : Library) :
    library.changed (.save tune) = ((save tune).run library).2 :=
  snd_run_bind (fun _ _ => rfl) library

/-- To delete a score is a change. -/
theorem changed_delete (name : String) (library : Library) :
    library.changed (.delete name) = ((delete name).run library).2 :=
  snd_run_bind (fun _ _ => rfl) library

/-- A request that is no query does nothing but its changes. -/
theorem snd_answer_of_not_isQuery {request : ToolRequest} (stores : request.isQuery = false) :
    (library.answer request).2 = request.changes.foldl changed library := by
  rw [snd_answer]
  cases request with
  | importScore json name saved =>
      show ((importScore json name saved).run library).2 = _
      unfold importScore parseJson
      rw [ToolRequest.changes]
      cases Json.parse json with
      | error fault => rfl
      | ok document =>
          show (((importDocument document name).adapt ToolError.library >>= _).run library).2 = _
          rw [run_bind, run_adapt, List.foldl_cons, changed_importDocument, run_importDocument]
          cases Tune.read document name with
          | error error => cases saved <;> rfl
          | ok tune =>
              cases saved with
              | false => rfl
              | true =>
                  rw [List.foldl_cons, List.foldl_nil, changed_save]
                  refine (snd_run_bind (fun _ _ => rfl) _).trans ?_
                  exact snd_run_bind (fun _ _ => rfl) (library.remember tune)
  | deleteScore name =>
      rw [ToolRequest.changes, List.foldl_cons, List.foldl_nil, changed_delete]
      exact snd_run_bind (fun removed _ => by cases removed <;> rfl) library
  | _ => cases stores

/-- What is done under other names leaves what is in memory. -/
theorem known?_changed (others : change.name? ≠ some name) :
    (library.changed change).known? name = library.known? name := by
  have keeps : Preserves (fun after => after.known? name = library.known? name) change.action := by
    cases change with
    | importDocument document said =>
        refine (preserves_importDocument fun tune reads after same => ?_).bind fun _ => .pure _
        have different : name ≠ tune.name := by
          rintro rfl
          exact others (by rw [Change.name?, reads]; rfl)
        exact (known?_remember_of_ne different).trans same
    | save tune =>
        have different : name ≠ tune.name := fun same => others (congrArg some same.symm)
        refine (preserves_save (fun _ _ => preserves_makeFolders fun _ => id)
          (fun _ _ => preserves_writeFile fun _ _ _ => id) fun after same => ?_).bind
            fun _ => .pure _
        exact (known?_remember_of_ne different).trans same
    | delete said =>
        have different : name ≠ said := fun same => others (congrArg some same.symm)
        refine (preserves_delete (fun after same => ?_) fun _ _ _ _ =>
          preserves_removeIfPresent fun _ _ _ => id).bind fun _ => .pure _
        exact (known?_forget_of_ne different).trans same
  exact keeps library rfl

section Saved

variable {stem ending : String}

/-- The endings of score files are of one length. -/
theorem length_of_mem_scoreEndings :
    ∀ ending ∈ scoreEndings, ending.toList.length = ".tune.yaml".toList.length := by
  decide

/-- The score of another file name is not on the way to a score. -/
theorem ne_of_onWay {folder : Path} (onWay : path <+: folder ++ [fileStem name ++ ".tune.yaml"])
    (isEnding : ending ∈ scoreEndings) (apart : stem ≠ fileStem name) :
    path ≠ folder ++ [stem ++ ending] := by
  rintro rfl
  have same := onWay.eq_of_length (by simp)
  have texts := congrArg String.toList (List.singleton_inj.mp (List.append_inj' same rfl).2)
  rw [String.toList_append, String.toList_append] at texts
  have stems := (List.append_inj' texts (length_of_mem_scoreEndings ending isEnding)).1
  exact apart (String.toList_inj.mp stems)

/-- Whether a library of a certain setup has saved a tune. -/
def SavedAt (setup : Setup) (tune : Tune) (library : Library) : Prop :=
  library.setup = setup ∧ library.Saved tune

/-- A saved tune stays saved if everything on the way to its score is kept. -/
theorem SavedAt.of_kept {files : Files} (kept : ∀ path entry,
    path <+: setup.scores ++ [fileStem tune.name ++ ".tune.yaml"] →
      library.files.find? path = some entry → files.find? path = some entry)
    (saved : library.SavedAt setup tune) : SavedAt setup tune { library with files } := by
  obtain ⟨rfl, modified, reads⟩ := saved
  exact ⟨rfl, modified, Files.read_of_kept kept reads⟩

/-- Folders that are made leave a saved tune. -/
theorem savedAt_makeFolders : Preserves (SavedAt setup tune) (makeFolders path) :=
  preserves_makeFolders fun library =>
    SavedAt.of_kept fun _ _ _ => (Files.grown_makeFolders library.files path).kept

variable (apart : stem ≠ fileStem tune.name)

include apart

/-- Writing the score of another file name leaves a saved tune. -/
theorem savedAt_writeFile (content : Content) : Preserves (SavedAt setup tune)
    (writeFile (setup.scores ++ [stem ++ ".tune.yaml"]) content) := by
  refine preserves_writeFile fun library files wrote => ?_
  obtain rfl := (Files.write_eq_ok_iff.mp wrote).2
  refine SavedAt.of_kept fun path entry onWay there => ?_
  rwa [Files.find?_put_of_ne (ne_of_onWay onWay List.mem_cons_self apart)]

/-- Removing a score of another file name leaves a saved tune. -/
theorem savedAt_removeIfPresent (isEnding : ending ∈ scoreEndings) :
    Preserves (SavedAt setup tune) (removeIfPresent (setup.scores ++ [stem ++ ending])) := by
  refine preserves_removeIfPresent fun library files removed => ?_
  obtain rfl := (Files.of_remove_eq_ok removed).2
  refine SavedAt.of_kept fun path entry onWay there => ?_
  rwa [Files.find?_erase_of_ne (ne_of_onWay onWay isEnding apart)]

end Saved

/-- What is done under other file names leaves a saved tune. -/
theorem saved_changed (apart : change.fileStem? ≠ some (fileStem tune.name))
    (saved : library.Saved tune) : (library.changed change).Saved tune := by
  have keeps : Preserves (SavedAt library.setup tune) change.action := by
    cases change with
    | importDocument document said =>
        exact (preserves_importDocument fun _ _ _ => id).bind fun _ => .pure _
    | save other =>
        have different : fileStem other.name ≠ fileStem tune.name :=
          fun same => apart (congrArg some same)
        refine (preserves_save (fun _ _ => savedAt_makeFolders) (fun start ⟨same, _⟩ => ?_)
          fun _ => id).bind fun _ => .pure _
        rw [scorePath, same]
        exact savedAt_writeFile different _
    | delete said =>
        have different : fileStem said ≠ fileStem tune.name :=
          fun same => apart (congrArg some same)
        refine (preserves_delete (fun _ => id) fun start ⟨same, _⟩ path member => ?_).bind
          fun _ => .pure _
        obtain ⟨ending, isEnding, rfl⟩ := List.mem_map.mp member
        rw [same]
        exact savedAt_removeIfPresent different isEnding
  exact (keeps library ⟨rfl, saved⟩).2

/-- A library that has been restarted answers with the tune that is saved under the file name, if
its reader gets it back. -/
theorem getScore_restart_of_saved (restores : Restores library.setup.reader tune)
    (storable : tune.Storable) (saved : library.Saved tune)
    (same : fileStem name = fileStem tune.name) :
    (library.restart.answer (.getScore name)).1 =
      some (.success [("score", tune.document)] false) := by
  have fresh : library.restart.Saved tune := saved
  have candidates : library.restart.candidates name = library.restart.candidates tune.name := by
    rw [Library.candidates, Library.candidates, same]
  have found := run_find?_of_saved (show Restores library.restart.setup.reader tune from restores)
    storable fresh rfl
  rw [run_find?] at found
  have filed : library.restart.filed tune.name = .ok (some tune) := (Prod.ext_iff.mp found).1
  rw [Library.filed, ← candidates] at filed
  rw [answer_getScore, Library.found, Library.filed, filed]
  rfl

/-- A saved tune is known. -/
theorem known?_of_save (done : (save tune).run library = (.ok path, kept)) :
    kept.known? tune.name = some tune := by
  obtain ⟨-, -, made, written, -, -, rfl⟩ := run_save_eq_ok_iff.mp done
  exact known?_remember written tune

/-- A change does not touch what a library is given. -/
theorem setup_changed (change : Change) (library : Library) :
    (library.changed change).setup = library.setup := by
  have keeps : Preserves (·.setup = library.setup) change.action := by
    have stable := stable_setup library.setup
    cases change with
    | importDocument document name =>
        exact (stable.preserves_importDocument document name).bind fun _ => .pure _
    | save tune => exact (stable.preserves_save tune).bind fun _ => .pure _
    | delete name => exact (stable.preserves_delete name).bind fun _ => .pure _
  exact keeps library rfl

variable {changes : List Change}

/-- Changes under other names leave what is known under a name. -/
theorem known?_foldl_changed (others : ∀ change ∈ changes, change.name? ≠ some name) :
    (changes.foldl changed library).known? name = library.known? name := by
  induction changes generalizing library with
  | nil => rfl
  | cons change rest ih =>
      obtain ⟨here, later⟩ := List.forall_mem_cons.mp others
      exact (ih later).trans (known?_changed here)

/-- Changes leave the setup. -/
theorem setup_foldl_changed (changes : List Change) (library : Library) :
    (changes.foldl changed library).setup = library.setup := by
  induction changes generalizing library with
  | nil => rfl
  | cons change rest ih => exact (ih _).trans (setup_changed change library)

/-- Changes under other file names leave a tune saved. -/
theorem saved_foldl_changed
    (apart : ∀ change ∈ changes, change.fileStem? ≠ some (fileStem tune.name))
    (saved : library.Saved tune) : (changes.foldl changed library).Saved tune := by
  induction changes generalizing library with
  | nil => exact saved
  | cons change rest ih =>
      obtain ⟨here, later⟩ := List.forall_mem_cons.mp apart
      exact ih later (saved_changed here saved)

/-- A tune that was imported and saved under a name is answered after whatever has been done under
other names, and also by a library that is restarted then if no other name was the same as a file
name and the reader gets the tune back. -/
theorem getScore_after_changes {named : Datum}
    (imported : library.answer (.importScore json named true) = (some answer, kept))
    (succeeds : answer.Succeeds)
    (told : ((answer.document.get "score").get "name").text? = some name)
    (others : ∀ change ∈ changes, change.name? ≠ some name) :
    ∃ document tune, Json.parse json = .ok document ∧ Tune.read document named = .ok tune ∧
      tune.name = name ∧
      ((changes.foldl changed kept).answer (.getScore name)).1 =
        some (.success [("score", tune.document)] false) ∧
      ((∀ change ∈ changes, change.fileStem? ≠ some (fileStem name)) →
        Restores kept.setup.reader tune →
          ((changes.foldl changed kept).restart.answer (.getScore name)).1 =
            some (.success [("score", tune.document)] false)) := by
  obtain ⟨document, tune, path, parsed, read, saves, isName⟩ :=
    exists_save (perform_of_succeeds imported succeeds)
  rw [isName] at told
  cases told
  have known : (changes.foldl changed kept).known? tune.name = some tune :=
    (known?_foldl_changed others).trans (known?_of_save saves)
  refine ⟨document, tune, parsed, read, rfl, ?_, fun apart restores => ?_⟩
  · rw [answer_getScore, found, known]
  · rw [← setup_foldl_changed changes kept] at restores
    exact getScore_restart_of_saved restores (Tune.storable_of_read read)
      (saved_foldl_changed apart (saved_of_save saves)) rfl

/-- An empty document is imported and saved as "a b". -/
def firstRequest : ToolRequest := .importScore "\x7b\x7d" (.text "a b")

/-- A name with the same file name is used without saving, and another one is deleted. -/
def harmlessChanges : List Change :=
  (ToolRequest.importScore "\x7b\x7d" (.text "a_b") false).changes ++ [.delete "c"]

/-- The first request is answered with its tune. -/
theorem exists_firstAnswer : ∃ answer kept,
    emptyLibrary.answer firstRequest = (some answer, kept) ∧ answer.Succeeds ∧
      ((answer.document.get "score").get "name").text? = some "a b" := by
  have told : (emptyLibrary.answer firstRequest).1.map statusAndName =
      some (some "success", some "a b") := by decide +kernel
  obtain ⟨answer, answered, both⟩ := Option.map_eq_some_iff.mp told
  obtain ⟨status, name⟩ := Prod.mk.inj both
  exact ⟨answer, _, Prod.ext answered rfl, status, name⟩

theorem getScore_after_harmlessChanges :
    ∃ answer kept, emptyLibrary.answer firstRequest = (some answer, kept) ∧ answer.Succeeds ∧
      ((answer.document.get "score").get "name").text? = some "a b" ∧
      (∀ change ∈ harmlessChanges, change.name? ≠ some "a b") ∧
      (∀ change ∈ harmlessChanges, change.fileStem? ≠ some (fileStem "a b")) ∧
      ∃ tune : Tune, tune.name = "a b" ∧ Restores kept.setup.reader tune ∧
        ((harmlessChanges.foldl changed kept).answer (.getScore "a b")).1 =
          some (.success [("score", tune.document)] false) ∧
        ((harmlessChanges.foldl changed kept).restart.answer (.getScore "a b")).1 =
          some (.success [("score", tune.document)] false) := by
  obtain ⟨answer, kept, imported, status, told⟩ := exists_firstAnswer
  have others : ∀ change ∈ harmlessChanges, change.name? ≠ some "a b" := by decide +kernel
  have apart : ∀ change ∈ harmlessChanges, change.fileStem? ≠ some (fileStem "a b") := by
    decide +kernel
  obtain ⟨_, tune, _, _, named, running, restarted⟩ :=
    getScore_after_changes imported status told others
  have setup := (stable_setup emptyLibrary.setup).answer rfl firstRequest
  rw [imported] at setup
  have restores : Restores kept.setup.reader tune := by
    dsimp only at setup
    rw [setup]
    exact restores_yamlReader tune
  exact ⟨answer, kept, imported, status, told, others, apart, tune, named, restores, running,
    restarted apart restores⟩

/-- An empty document is imported and saved under a name with the same file name. -/
def secondRequest : ToolRequest := .importScore "\x7b\x7d" (.text "a_b")

/-- The second request takes the file of the first one, and a library that is restarted answers with
its tune. -/
theorem told_secondRequest :
    ((emptyLibrary.answer firstRequest).2.answer secondRequest).1.map statusAndName =
      some (some "success", some "a_b") ∧
    ((emptyLibrary.answer firstRequest).2.answer (.getScore "a b")).1.map statusAndName =
      some (some "success", some "a b") ∧
    ((secondRequest.changes.foldl changed (emptyLibrary.answer firstRequest).2).restart.answer
      (.getScore "a b")).1.map statusAndName = some (some "success", some "a_b") := by
  decide +kernel

/-- A library that is restarted answers with the tune that was saved last under the file name. -/
theorem getScore_changed_by_fileName :
    ∃ answer kept, emptyLibrary.answer firstRequest = (some answer, kept) ∧ answer.Succeeds ∧
      ((answer.document.get "score").get "name").text? = some "a b" ∧
      kept.Succeeds secondRequest ∧
      (∀ change ∈ secondRequest.changes, change.name? ≠ some "a b") ∧
      ((secondRequest.changes.foldl changed kept).restart.answer (.getScore "a b")).1 ≠
        (kept.answer (.getScore "a b")).1 := by
  obtain ⟨answer, kept, imported, status, told⟩ := exists_firstAnswer
  obtain ⟨again, before, after⟩ := told_secondRequest
  have others : ∀ change ∈ secondRequest.changes, change.name? ≠ some "a b" := by decide +kernel
  rw [imported] at again before after
  obtain ⟨second, answered, both⟩ := Option.map_eq_some_iff.mp again
  refine ⟨answer, kept, imported, status, told, ⟨second, answered, (Prod.mk.inj both).1⟩, others,
    fun same => ?_⟩
  rw [same, before] at after
  exact absurd (Option.some.inj (Prod.mk.inj (Option.some.inj after)).2) (by decide)

end Library

end TuneGraph
