import TuneGraph.Proofs.Library.Ownership

/-! # Imports and deletions that fail

An import or a deletion that fails changes nothing if it is refused for its arguments. If it is met
by an error of the library, what was done before stays done: an import has remembered its tune,
which is answered from then on although no file holds it, and may have opened its score, which then
holds a part of the tune or nothing instead of what it held; a deletion has forgotten the name and
may have removed the first of its score files (`Library.after_failure`).
-/

namespace TuneGraph

open LibraryAction

/-- Whether a file that is to be removed cannot be looked for, or is there and cannot be removed. -/
def Files.Keeps (files : Files) (path : Path) (error : FileError) : Prop :=
  files.contains path = .error error ∨
    files.contains path = .ok true ∧ files.remove path = .error error

namespace Library

variable {library after : Library} {name : String} {tune : Tune} {request : ToolRequest}

/-- How far a request gets that is met by an error. -/
inductive Interrupted (library : Library) : ToolRequest → LibraryError → Library → Prop
  /-- The folder of the scores cannot be made. The tune and the folders made so far stay. -/
  | makingFolder {json : String} {name : Datum} {tune : Tune} {files : Files} {error : FileError}
      (stores : (ToolRequest.importScore json name).tune? = some tune)
      (refused : library.files.makeFolders library.setup.scores = (files, some error)) :
      Interrupted library (.importScore json name) (.file error)
        { library.remember tune with files }
  /-- The score cannot be opened. The tune and the folder stay. -/
  | opening {json : String} {name : Datum} {tune : Tune} {files : Files} {error : FileError}
      (stores : (ToolRequest.importScore json name).tune? = some tune)
      (made : library.files.makeFolders library.setup.scores = (files, none))
      (refused : files.write (library.scorePath tune.name)
        (library.files.receive (library.scorePath tune.name) (scoreContent tune)).1 library.now =
          .error error) :
      Interrupted library (.importScore json name) (.file error)
        { library.remember tune with files }
  /-- The disk breaks off. The tune, the folder and what the score has received stay. -/
  | writing {json : String} {name : Datum} {tune : Tune} {made files : Files} {part : Content}
      {error : SystemError} (stores : (ToolRequest.importScore json name).tune? = some tune)
      (makes : library.files.makeFolders library.setup.scores = (made, none))
      (broken : library.files.disk.breaksOff (library.scorePath tune.name) (scoreContent tune) =
        some (part, error))
      (wrote : made.write (library.scorePath tune.name) part library.now = .ok files) :
      Interrupted library (.importScore json name) (.file (.brokenOff error))
        { library.remember tune with files }
  /-- The tune cannot be written out. The tune, the folder and an empty score stay. -/
  | writingOut {json : String} {name : Datum} {tune : Tune} {made files : Files}
      (stores : (ToolRequest.importScore json name).tune? = some tune)
      (makes : library.files.makeFolders library.setup.scores = (made, none))
      (unfit : Json.fits tune.document = false)
      (whole : library.files.disk.breaksOff (library.scorePath tune.name) (.text "") = none)
      (wrote : made.write (library.scorePath tune.name) (.text "") library.now = .ok files) :
      Interrupted library (.importScore json name) .tooLong { library.remember tune with files }
  /-- No score file is removed. The name is forgotten. -/
  | removing {name : String} {path : Path} {error : FileError}
      (candidate : path ∈ library.candidates name) (refused : library.files.Keeps path error) :
      Interrupted library (.deleteScore name) (.file error) (library.forget name)
  /-- The first score file is removed, and the other one is not. -/
  | removingNext {name : String} {path : Path} {files : Files} {error : FileError}
      (removed : library.files.remove (library.scorePath name) = .ok files)
      (candidate : path ∈ library.candidates name) (refused : files.Keeps path error) :
      Interrupted library (.deleteScore name) (.file error) { library.forget name with files }

/-- A name that is not known need not be forgotten. -/
theorem forget_of_unknown (unknown : library.known? name = none) :
    library.forget name = library := by
  have all : library.memory.filter (·.1 != name) = library.memory := by
    refine List.filter_eq_self.mpr fun entry member => ?_
    have other := List.lookup_eq_none_iff.mp unknown entry member
    rw [bne_iff_ne] at other ⊢
    exact Ne.symm other
  rw [forget, all]

/-- A tune whose score has been opened is saved, unless an import of it is interrupted. -/
theorem interrupted_of_saveOutcome {json : String} {named : Datum} {made files : Files}
    {error : LibraryError} (stores : (ToolRequest.importScore json named).tune? = some tune)
    (makes : library.files.makeFolders library.setup.scores = (made, none))
    (wrote : made.write (library.scorePath tune.name)
      (library.files.receive (library.scorePath tune.name) (scoreContent tune)).1 library.now =
        .ok files)
    (outcome : library.saveOutcome tune = .error error) :
    Interrupted library (.importScore json named) error { library.remember tune with files } := by
  unfold saveOutcome Files.receive at outcome
  rw [Files.receive] at wrote
  cases broken : library.files.disk.breaksOff (library.scorePath tune.name) (scoreContent tune) with
  | some found =>
      rw [broken] at outcome wrote
      cases outcome
      exact .writing stores makes broken wrote
  | none =>
      rw [broken] at outcome wrote
      cases unfit : Json.fits tune.document with
      | true =>
          rw [unfit] at outcome
          cases outcome
      | false =>
          rw [unfit] at outcome
          cases outcome
          have empty : scoreContent tune = .text "" := by
            rw [scoreContent, unfit]
            rfl
          rw [empty] at broken wrote
          exact .writingOut stores makes unfit broken wrote

/-- An import that fails changes nothing or is interrupted. -/
theorem after_failed_import {json : String} {named : Datum} {saved : Bool}
    (fails : ¬library.Succeeds (.importScore json named saved)) :
    (library.answer (.importScore json named saved)).2 = library ∨
      ∃ error : LibraryError, (library.answer (.importScore json named saved)).1 =
          some (.failure (error.message library.setup.root)) ∧
        Interrupted library (.importScore json named saved) error
          (library.answer (.importScore json named saved)).2 := by
  rcases importScore_cases json named saved library with
    ⟨-, error, ran⟩ | ⟨tune, stores, reply, succeeds, ran⟩
  · rw [answer_of_error (.importScore json named saved) ran]
    exact Or.inl rfl
  · cases saved with
    | false => exact (fails (succeeds_iff.mpr ⟨_, _, ran, succeeds none⟩)).elim
    | true =>
        rcases save_cases tune (library.remember tune) with
          ⟨files, error, refused, saves⟩ | ⟨files, error, made, refused, saves⟩ |
          ⟨made, files, makes, wrote, saves⟩
        · rw [saves] at ran
          rw [answer_of_error (.importScore json named true) ran]
          exact Or.inr ⟨_, rfl, .makingFolder stores refused⟩
        · rw [saves] at ran
          rw [answer_of_error (.importScore json named true) ran]
          exact Or.inr ⟨_, rfl, .opening stores made refused⟩
        · cases outcome : (library.remember tune).saveOutcome tune with
          | ok path =>
              rw [saves, outcome] at ran
              exact (fails (succeeds_iff.mpr ⟨_, _, ran, succeeds _⟩)).elim
          | error error =>
              rw [saves, outcome] at ran
              rw [answer_of_error (.importScore json named true) ran]
              exact Or.inr ⟨error, rfl, interrupted_of_saveOutcome stores makes wrote outcome⟩

/-- A file is there and cannot be removed, or there is none, or it is removed. -/
theorem removeIfPresent_cases (path : Path) (library : Library) :
    (∃ error, library.files.Keeps path error ∧
      (removeIfPresent path).run library = (.error (.file error), library)) ∨
    (removeIfPresent path).run library = (.ok false, library) ∨
    ∃ files, library.files.remove path = .ok files ∧
      (removeIfPresent path).run library = (.ok true, { library with files }) := by
  rw [run_removeIfPresent]
  cases looked : library.files.contains path with
  | error error => exact Or.inl ⟨error, Or.inl looked, rfl⟩
  | ok present =>
      cases present with
      | false => exact Or.inr (Or.inl rfl)
      | true =>
          cases removed : library.files.remove path with
          | error error => exact Or.inl ⟨error, Or.inr ⟨looked, removed⟩, rfl⟩
          | ok files => exact Or.inr (Or.inr ⟨files, rfl, rfl⟩)

/-- Nothing has changed if no file was there to be removed. -/
theorem eq_of_nothing_removed {paths : List Path} {removed : List Bool}
    (done : (paths.mapM removeIfPresent).run library = (.ok removed, after))
    (nothing : removed.any id = false) : after = library := by
  induction paths generalizing library removed with
  | nil =>
      cases done
      rfl
  | cons path rest ih =>
      rw [List.mapM_cons] at done
      obtain ⟨there, middle, here, done⟩ := run_bind_eq_ok_iff.mp done
      obtain ⟨others, last, later, done⟩ := run_bind_eq_ok_iff.mp done
      cases done
      rw [List.any_cons, Bool.or_eq_false_iff] at nothing
      obtain rfl := ih later nothing.2
      rcases removeIfPresent_cases path library with ⟨_, -, ran⟩ | ran | ⟨_, -, ran⟩
      · cases ran.symm.trans here
      · cases ran.symm.trans here
        rfl
      · cases ran.symm.trans here
        cases nothing.1

/-- A deletion that finds nothing changes nothing. -/
theorem eq_of_delete_eq_false (done : (delete name).run library = (.ok false, after)) :
    after = library := by
  rw [run_delete] at done
  split at done
  · rename_i removed last removing
    obtain ⟨nothing, rfl⟩ := Prod.ext_iff.mp done
    obtain ⟨unknown, none⟩ := Bool.or_eq_false_iff.mp (Except.ok.inj nothing)
    rw [Option.isSome_eq_false_iff, Option.isNone_iff_eq_none] at unknown
    exact (eq_of_nothing_removed removing none).trans (forget_of_unknown unknown)
  · cases done

/-- A deletion that goes wrong is interrupted. -/
theorem interrupted_of_delete {error : LibraryError}
    (done : (delete name).run library = (.error error, after)) :
    Interrupted library (.deleteScore name) error after := by
  obtain ⟨other, both⟩ : ∃ other, library.candidates name = [library.scorePath name, other] :=
    ⟨_, rfl⟩
  have isFirst : library.scorePath name ∈ library.candidates name := List.mem_cons_self
  have isSecond : other ∈ library.candidates name :=
    both ▸ List.mem_cons_of_mem _ List.mem_cons_self
  rw [run_delete] at done
  simp only [both, List.mapM_cons, List.mapM_nil, run_bind] at done
  rcases removeIfPresent_cases (library.scorePath name) (library.forget name) with
    ⟨refusal, refused, first⟩ | first | ⟨files, removed, first⟩
  · rw [first] at done
    cases done
    exact .removing isFirst refused
  · rcases removeIfPresent_cases other (library.forget name) with
      ⟨refusal, refused, second⟩ | second | ⟨files, removed, second⟩
    · simp only [first, second] at done
      cases done
      exact .removing isSecond refused
    · simp only [first, second] at done
      cases done
    · simp only [first, second] at done
      cases done
  · rcases removeIfPresent_cases other { library.forget name with files } with
      ⟨refusal, refused, second⟩ | second | ⟨others, _, second⟩
    · simp only [first, second] at done
      cases done
      exact .removingNext removed isSecond refused
    · simp only [first, second] at done
      cases done
    · simp only [first, second] at done
      cases done

/-- A deletion that fails changes nothing or is interrupted. -/
theorem after_failed_delete (fails : ¬library.Succeeds (.deleteScore name)) :
    (library.answer (.deleteScore name)).2 = library ∨
      ∃ error : LibraryError, (library.answer (.deleteScore name)).1 =
          some (.failure (error.message library.setup.root)) ∧
        Interrupted library (.deleteScore name) error (library.answer (.deleteScore name)).2 := by
  rcases done : (delete name).run library with ⟨error | there, after⟩
  · have ran : (perform (.deleteScore name)).run library = (.error (.library error), after) := by
      show (deleteScore name).run library = _
      unfold deleteScore
      rw [run_bind, run_adapt, done]
      rfl
    rw [answer_of_error (.deleteScore name) ran]
    exact Or.inr ⟨error, rfl, interrupted_of_delete done⟩
  · have ran : (perform (.deleteScore name)).run library =
        (if there then .ok (.success [("deleted", .text name)]) else .error (.notFound name),
          after) := by
      show (deleteScore name).run library = _
      unfold deleteScore
      rw [run_bind, run_adapt, done]
      cases there <;> rfl
    cases there with
    | true => exact (fails (succeeds_iff.mpr ⟨_, _, ran, rfl⟩)).elim
    | false =>
        rw [answer_of_error (.deleteScore name) ran]
        exact Or.inl (eq_of_delete_eq_false done)

/-- The files of an import whose score has been opened were there before, but for the score, which
holds what it received. -/
theorem find?_file_of_opened {json : String} {named : Datum} {made files : Files} {path : Path}
    {content : Content} {modified : Nat}
    (stores : (ToolRequest.importScore json named).tune? = some tune)
    (makes : library.files.makeFolders library.setup.scores = (made, none))
    (wrote : made.write (library.scorePath tune.name)
      (library.files.receive (library.scorePath tune.name) (scoreContent tune)).1 library.now =
        .ok files)
    (there : files.find? path = some (.file content modified)) :
    library.files.find? path = some (.file content modified) ∨
      path ∈ (ToolRequest.importScore json named).written library.setup ∧ modified = library.now ∧
        ∃ tune, (ToolRequest.importScore json named).tune? = some tune ∧
          content = (library.files.receive path (scoreContent tune)).1 := by
  obtain ⟨-, rfl⟩ := Files.write_eq_ok_iff.mp wrote
  by_cases here : path = library.scorePath tune.name
  · rw [here] at there ⊢
    cases (Files.find?_put _ _ _).symm.trans there
    refine Or.inr ⟨?_, rfl, tune, stores, rfl⟩
    rw [ToolRequest.written, stores]
    exact List.mem_singleton_self _
  · have before : made.find? path = some (.file content modified) :=
      (Files.find?_put_of_ne here made _).symm.trans there
    exact Or.inl ((Files.grown_of_makeFolders makes).find?_file before)

/-- The files of a request that is interrupted were there before, but for the score that it has
begun, which holds what it received. -/
theorem Interrupted.find?_file {error : LibraryError} {path : Path} {content : Content}
    {modified : Nat} (interrupted : Interrupted library request error after)
    (there : after.files.find? path = some (.file content modified)) :
    library.files.find? path = some (.file content modified) ∨
      path ∈ request.written library.setup ∧ modified = library.now ∧
        ∃ tune, request.tune? = some tune ∧
          content = (library.files.receive path (scoreContent tune)).1 := by
  cases interrupted with
  | makingFolder _ made => exact Or.inl ((Files.grown_of_makeFolders made).find?_file there)
  | opening _ made => exact Or.inl ((Files.grown_of_makeFolders made).find?_file there)
  | writing stores makes broken wrote =>
      refine find?_file_of_opened stores makes ?_ there
      rw [Files.receive, broken]
      exact wrote
  | writingOut stores makes unfit whole wrote =>
      refine find?_file_of_opened stores makes ?_ there
      rw [Files.receive, scoreContent, unfit, if_neg Bool.false_ne_true, whole]
      exact wrote
  | removing => exact Or.inl there
  | removingNext removed =>
      obtain rfl := (Files.of_remove_eq_ok removed).2
      rcases Files.lost_erase library.files (library.scorePath _) path with same | gone
      · exact Or.inl (same.symm.trans there)
      · cases gone.symm.trans there

/-- An import or a deletion that fails changes nothing, or it is interrupted. Then it has written no
file but the score of its tune perhaps, which holds what it received. -/
theorem after_failure (stores : request.isQuery = false) (fails : ¬library.Succeeds request) :
    (library.answer request).2 = library ∨ ∃ error : LibraryError,
      (library.answer request).1 = some (.failure (error.message library.setup.root)) ∧
      Interrupted library request error (library.answer request).2 ∧
      ∀ path content modified,
        (library.answer request).2.files.find? path = some (.file content modified) →
          library.files.find? path = some (.file content modified) ∨
          path ∈ request.written library.setup ∧ modified = library.now ∧
            ∃ tune, request.tune? = some tune ∧
              content = (library.files.receive path (scoreContent tune)).1 := by
  have interrupted : (library.answer request).2 = library ∨ ∃ error : LibraryError,
      (library.answer request).1 = some (.failure (error.message library.setup.root)) ∧
      Interrupted library request error (library.answer request).2 := by
    cases request with
    | importScore json name saved => exact after_failed_import fails
    | deleteScore name => exact after_failed_delete fails
    | _ => cases stores
  exact interrupted.imp_right fun ⟨error, told, halfway⟩ =>
    ⟨error, told, halfway, fun _ _ _ => halfway.find?_file⟩

/-- A library that cannot make the folder of its scores, because a file has its name. -/
def blockedLibrary : Library :=
  { emptyLibrary with files := ({} : Files).put ["scores"] (.file (.text "") 0) }

/-- A file comes to stand where the folder of the scores would be. -/
theorem reachable_blockedLibrary : Reachable yamlSetup blockedLibrary := by
  have tree : Files.IsTree (({} : Files).put ([] ++ ["scores"]) (.file (.text "") 0)) :=
    Files.isTree_empty.put rfl (by exact nofun) _
  exact .elsewhere tree 0 .fresh

/-- The import fails, but its tune is found afterwards, which was not there before. -/
theorem told_blockedImport :
    (blockedLibrary.answer (.importScore (reelJson "first"))).1.bind statusOf = some "error" ∧
    (blockedLibrary.answer (.getScore "reel")).1.bind statusOf = some "error" ∧
    ((blockedLibrary.answer (.importScore (reelJson "first"))).2.answer
      (.getScore "reel")).1.bind statusOf = some "success" := by
  decide +kernel

/-- The import does not succeed. -/
theorem not_succeeds_blockedImport :
    ¬blockedLibrary.Succeeds (.importScore (reelJson "first")) := by
  rintro ⟨answer, answered, succeeds⟩
  have told := told_blockedImport.1
  rw [answered] at told
  exact absurd (Option.some.inj (succeeds.symm.trans told)) (by decide)

theorem after_failure_blocked :
    (ToolRequest.importScore (reelJson "first")).isQuery = false ∧
    ¬blockedLibrary.Succeeds (.importScore (reelJson "first")) ∧
    ((blockedLibrary.answer (.importScore (reelJson "first"))).2 = blockedLibrary ∨
      ∃ error : LibraryError, (blockedLibrary.answer (.importScore (reelJson "first"))).1 =
          some (.failure (error.message "library")) ∧
        Interrupted blockedLibrary (.importScore (reelJson "first")) error
          (blockedLibrary.answer (.importScore (reelJson "first"))).2 ∧
        ∀ path content modified,
          (blockedLibrary.answer (.importScore (reelJson "first"))).2.files.find? path =
              some (.file content modified) →
            blockedLibrary.files.find? path = some (.file content modified) ∨
            path ∈ (ToolRequest.importScore (reelJson "first")).written yamlSetup ∧ modified = 0 ∧
              ∃ tune, (ToolRequest.importScore (reelJson "first")).tune? = some tune ∧
                content = (blockedLibrary.files.receive path (scoreContent tune)).1) :=
  ⟨rfl, not_succeeds_blockedImport, after_failure rfl not_succeeds_blockedImport⟩

/-- An import that has failed is answered afterwards. -/
theorem getScore_changed_by_failure :
    Reachable yamlSetup blockedLibrary ∧
    ¬blockedLibrary.Succeeds (.importScore (reelJson "first")) ∧
    ((blockedLibrary.answer (.importScore (reelJson "first"))).2.answer (.getScore "reel")).1 ≠
      (blockedLibrary.answer (.getScore "reel")).1 := by
  obtain ⟨-, before, after⟩ := told_blockedImport
  refine ⟨reachable_blockedLibrary, not_succeeds_blockedImport, fun same => ?_⟩
  rw [same, before] at after
  exact absurd (Option.some.inj after) (by decide)

end Library

end TuneGraph
