import TuneGraph.Library.Tool
import TuneGraph.Proofs.Library.Files
import TuneGraph.Proofs.Score.RoundTrip

/-! # A saved tune is found again

A library that has forgotten everything but its files finds a tune under its name as it was when it
was saved: the score is the first one that is looked for, its content is the document of the tune,
and that document is read as the tune, provided that the reader gets it back
(`Library.run_find?_of_saved`).
-/

namespace TuneGraph

namespace LibraryAction

variable {ε ε' α β : Type} {library after : Library}

/-- Two actions run one after the other, the second from what the first leaves behind. -/
theorem run_bind (action : LibraryAction ε α) (next : α → LibraryAction ε β) (library : Library) :
    (action >>= next).run library = match action.run library with
      | (.ok value, after) => (next value).run after
      | (.error error, after) => (.error error, after) := by
  have split : (action >>= next).run library =
      (match (action.run library).1 with
        | .ok value => (next value).run
        | .error error => pure (.error error)) (action.run library).2 := rfl
  rw [split]
  rcases action.run library with ⟨_ | _, after⟩ <;> rfl

/-- A chain of two actions succeeds if both do, the second one where the first one ended. -/
theorem run_bind_eq_ok_iff {action : LibraryAction ε α} {next : α → LibraryAction ε β}
    {result : β} : (action >>= next).run library = (.ok result, after) ↔
      ∃ value middle, action.run library = (.ok value, middle) ∧
        (next value).run middle = (.ok result, after) := by
  rw [run_bind]
  rcases action.run library with ⟨_ | value, middle⟩
  · exact ⟨nofun, fun ⟨_, _, same, _⟩ => nomatch same⟩
  · refine ⟨fun done => ⟨value, middle, rfl, done⟩, ?_⟩
    rintro ⟨_, _, same, done⟩
    cases same
    exact done

/-- A look at the library gives the library. -/
theorem run_get_bind (next : Library → LibraryAction ε β) (library : Library) :
    (get >>= next).run library = (next library).run library := rfl

/-- To rename errors changes neither results nor effects. -/
theorem run_adapt (action : LibraryAction ε α) (f : ε → ε') (library : Library) :
    (action.adapt f).run library = ((action.run library).1.mapError f, (action.run library).2) :=
  rfl

/-- An action whose errors are renamed has the same results. -/
theorem run_adapt_eq_ok_iff {action : LibraryAction ε α} {f : ε → ε'} {result : α} :
    (action.adapt f).run library = (.ok result, after) ↔
      action.run library = (.ok result, after) := by
  rw [run_adapt]
  rcases action.run library with ⟨_ | _, middle⟩
  · exact ⟨nofun, nofun⟩
  · constructor <;> (intro done; cases done; rfl)

end LibraryAction

namespace Library

open LibraryAction

variable {library after : Library} {tune : Tune} {path : Path} {content : Content}

/-- A look at the files does nothing to the library. -/
theorem run_ofFiles_bind {α β : Type} (outcome : Except FileError α)
    (next : α → LibraryAction LibraryError β) (library : Library) :
    (ofFiles outcome >>= next).run library = match outcome with
      | .ok value => (next value).run library
      | .error error => (.error (.file error), library) := by
  cases outcome <;> rfl

/-- A document is imported if it is read as a tune, which is remembered then. -/
theorem run_importDocument (document name : Datum) (library : Library) :
    (importDocument document name).run library = match Tune.read document name with
      | .ok tune => (.ok tune, library.remember tune)
      | .error error => (.error (.notTune error), library) := by
  unfold importDocument
  cases Tune.read document name <;> rfl

/-- A document has been imported if it is read as the tune that is remembered. -/
theorem run_importDocument_eq_ok_iff {document name : Datum} :
    (importDocument document name).run library = (.ok tune, after) ↔
      Tune.read document name = .ok tune ∧ library.remember tune = after := by
  rw [run_importDocument]
  cases Tune.read document name with
  | error error => exact ⟨nofun, fun ⟨same, _⟩ => nomatch same⟩
  | ok found =>
      constructor
      · intro done
        cases done
        exact ⟨rfl, rfl⟩
      · rintro ⟨same, rfl⟩
        cases same
        rfl

/-- Making a folder changes nothing but files. -/
theorem run_makeFolders (path : Path) (library : Library) :
    (makeFolders path).run library = (match (library.files.makeFolders path).2 with
      | some error => .error (.file error)
      | none => .ok (), { library with files := (library.files.makeFolders path).1 }) := by
  unfold makeFolders
  rw [run_get_bind]
  rcases library.files.makeFolders path with ⟨files, _ | error⟩ <;> rfl

/-- Folders have been made if the files are with them. -/
theorem run_makeFolders_eq_ok_iff : (makeFolders path).run library = (.ok (), after) ↔
    ∃ files, library.files.makeFolders path = (files, none) ∧ { library with files } = after := by
  rw [run_makeFolders]
  rcases library.files.makeFolders path with ⟨files, _ | error⟩
  · constructor
    · intro done
      cases done
      exact ⟨files, rfl, rfl⟩
    · rintro ⟨_, same, rfl⟩
      cases same
      rfl
  · exact ⟨nofun, fun ⟨_, same, _⟩ => nomatch same⟩

/-- What is left of a file that is written is what it receives, and it is an error if that is not
all of it. -/
theorem run_writeFile (path : Path) (content : Content) (library : Library) :
    (writeFile path content).run library =
      match library.files.write path (library.files.receive path content).1 library.now with
      | .ok files => (match (library.files.receive path content).2 with
        | some error => .error (.file error)
        | none => .ok (), { library with files })
      | .error error => (.error (.file error), library) := by
  unfold writeFile
  rw [run_get_bind]
  rcases library.files.receive path content with ⟨received, failure⟩
  refine (run_ofFiles_bind _ _ library).trans ?_
  cases library.files.write path received library.now with
  | error error => rfl
  | ok files => cases failure <;> rfl

/-- A file is written if it receives all of the content. -/
theorem run_writeFile_eq_ok_iff : (writeFile path content).run library = (.ok (), after) ↔
    library.files.disk.breaksOff path content = none ∧
      ∃ files, library.files.write path content library.now = .ok files ∧
        { library with files } = after := by
  rw [run_writeFile, Files.receive]
  cases library.files.disk.breaksOff path content with
  | some broken =>
      refine iff_of_false (fun done => ?_) nofun
      dsimp only at done
      split at done <;> cases done
  | none =>
      cases library.files.write path content library.now with
      | error error => exact ⟨nofun, fun ⟨_, _, same, _⟩ => nomatch same⟩
      | ok files =>
          constructor
          · intro done
            cases done
            exact ⟨rfl, files, rfl, rfl⟩
          · rintro ⟨-, _, same, rfl⟩
            cases same
            rfl

/-- A tune is saved and remembered if its folder is made and its file receives all of its document,
which has to be such as can be written out. -/
theorem run_save_eq_ok_iff : (save tune).run library = (.ok path, after) ↔
    Json.fits tune.document = true ∧ path = library.scorePath tune.name ∧ ∃ made written,
      (makeFolders library.setup.scores).run library = (.ok (), made) ∧
      (writeFile path (.document tune.document)).run made = (.ok (), written) ∧
      written.remember tune = after := by
  unfold save scoreContent
  rw [run_get_bind]
  cases fits : Json.fits tune.document with
  | true =>
      constructor
      · intro done
        obtain ⟨_, made, making, done⟩ := run_bind_eq_ok_iff.mp done
        obtain ⟨_, written, writing, done⟩ := run_bind_eq_ok_iff.mp done
        cases done
        exact ⟨rfl, rfl, made, written, making, writing, rfl⟩
      · rintro ⟨-, rfl, made, written, making, writing, rfl⟩
        exact run_bind_eq_ok_iff.mpr ⟨_, _, making, run_bind_eq_ok_iff.mpr ⟨_, _, writing, rfl⟩⟩
  | false =>
      refine iff_of_false (fun done => ?_) nofun
      obtain ⟨_, made, -, done⟩ := run_bind_eq_ok_iff.mp done
      obtain ⟨_, written, -, done⟩ := run_bind_eq_ok_iff.mp done
      cases done

/-- Whether the score of a tune holds the tune. -/
def Saved (library : Library) (tune : Tune) : Prop :=
  ∃ modified, library.files.read (library.scorePath tune.name) =
    .ok (.document tune.document, modified)

/-- Whether a reader gets back what a tune is written as. -/
def Restores (reader : Reader) (tune : Tune) : Prop :=
  reader (.document tune.document) = .ok tune.document

/-- Saving a tune puts it into its score, whatever was there. -/
theorem saved_of_save (done : (save tune).run library = (.ok path, after)) :
    after.Saved tune := by
  obtain ⟨-, rfl, made, written, making, writing, rfl⟩ := run_save_eq_ok_iff.mp done
  obtain ⟨files, -, rfl⟩ := run_makeFolders_eq_ok_iff.mp making
  obtain ⟨-, kept, wrote, rfl⟩ := run_writeFile_eq_ok_iff.mp writing
  exact ⟨library.now, Files.read_of_write wrote⟩

/-- A score that holds a storable tune is read as the tune by a reader that gets it back. -/
theorem run_load_of_saved {modified : Nat} (restores : Restores library.setup.reader tune)
    (storable : tune.Storable)
    (saved : library.files.read path = .ok (.document tune.document, modified)) :
    (load path).run library = (.ok (tune, modified), library.remember tune) := by
  have named : (tune.document.get "name").isTruthy = true := bne_iff_ne.mpr storable.named
  have imports : (importDocument tune.document .null).run library =
      (.ok tune, library.remember tune) :=
    run_importDocument_eq_ok_iff.mpr ⟨storable.read_document, rfl⟩
  unfold load
  rw [run_get_bind, saved]
  refine run_bind_eq_ok_iff.mpr ⟨_, _, rfl, ?_⟩
  unfold Restores at restores
  simp only [restores, named, ↓reduceIte]
  exact run_bind_eq_ok_iff.mpr ⟨_, _, imports, rfl⟩

/-- A library that does not know a saved tune finds its score. -/
theorem run_find?_of_saved (restores : Restores library.setup.reader tune)
    (storable : tune.Storable) (saved : library.Saved tune)
    (unknown : library.known? tune.name = none) :
    (find? tune.name).run library = (.ok (some tune), library.remember tune) := by
  obtain ⟨modified, saved⟩ := saved
  have present : firstPresent? library.files (library.candidates tune.name) =
      .ok (some (library.scorePath tune.name)) :=
    bind_eq_ok_iff.mpr ⟨true, Files.contains_of_read saved, rfl⟩
  unfold find?
  rw [run_get_bind, unknown]
  refine run_bind_eq_ok_iff.mpr ⟨some (library.scorePath tune.name), library, ?_, ?_⟩
  · rw [present]
    rfl
  · exact run_bind_eq_ok_iff.mpr ⟨_, _, run_load_of_saved restores storable saved, rfl⟩

end Library

end TuneGraph
