import TuneGraph.Proofs.Library.Frame
import TuneGraph.Proofs.Library.Storage

/-! # Sessions

Every request is made of a few changes: a tune is remembered, a name is forgotten, folders are made,
a file is written or removed. What each of these keeps, every request keeps, also one that fails
(`Library.preserves_perform`). So all libraries that come about in a session, whatever else is done
to the files meanwhile, have trees for files (`Library.Reachable.isTree`).
-/

namespace TuneGraph

namespace LibraryAction

variable {ε ε' α β : Type} {holds : Library → Prop}

/-- Whether an action keeps what holds of a library, also if it fails. -/
def Preserves (holds : Library → Prop) (action : LibraryAction ε α) : Prop :=
  ∀ library, holds library → holds (action.run library).2

namespace Preserves

/-- To return a value preserves everything. -/
theorem pure (value : α) : Preserves holds (pure value : LibraryAction ε α) := fun _ kept => kept

/-- To fail preserves everything. -/
theorem throw (error : ε) : Preserves holds (throw error : LibraryAction ε α) := fun _ kept => kept

/-- What follows a look at the library may depend on what is preserved. -/
theorem get_bind {next : Library → LibraryAction ε α}
    (each : ∀ library, holds library → Preserves holds (next library)) :
    Preserves holds (get >>= next) :=
  fun library kept => each library kept library kept

/-- Two actions one after the other preserve what both preserve. -/
theorem bind {action : LibraryAction ε α} {next : α → LibraryAction ε β}
    (first : Preserves holds action) (later : ∀ value, Preserves holds (next value)) :
    Preserves holds (action >>= next) := by
  intro library kept
  have middle := first library kept
  rw [run_bind]
  revert middle
  rcases action.run library with ⟨_ | value, after⟩
  · exact id
  · exact later value after

/-- A choice preserves what both of its actions preserve. -/
theorem ite {condition : Prop} [Decidable condition] {action other : LibraryAction ε α}
    (first : Preserves holds action) (second : Preserves holds other) :
    Preserves holds (if condition then action else other) := by
  split
  · exact first
  · exact second

/-- An action preserves the same if its errors are renamed. -/
theorem adapt {action : LibraryAction ε α} (kept : Preserves holds action) (f : ε → ε') :
    Preserves holds (action.adapt f) := kept

/-- A computation without effects preserves everything. -/
theorem ofExcept (value : Except ε α) : Preserves holds (liftM value : LibraryAction ε α) := by
  intro library kept
  cases value <;> exact kept

/-- A look at the files preserves everything. -/
theorem ofFiles (outcome : Except FileError α) : Preserves holds (Library.ofFiles outcome) := by
  cases outcome with
  | ok value => exact pure value
  | error error => exact throw _

/-- A list of actions preserves what each of them preserves. -/
theorem mapM {action : α → LibraryAction ε β} {items : List α}
    (each : ∀ item ∈ items, Preserves holds (action item)) :
    Preserves holds (items.mapM action) := by
  induction items with
  | nil => exact pure []
  | cons item rest ih =>
      obtain ⟨here, later⟩ := List.forall_mem_cons.mp each
      rw [List.mapM_cons]
      exact here.bind fun _ => (ih later).bind fun _ => pure _

end Preserves

end LibraryAction

namespace Library

open LibraryAction

/-- A score file is summed up as it is loaded, or left out. -/
theorem run_summary? (path : Path) (library : Library) :
    (summary? path).run library = match (load path).run library with
      | (.ok (tune, modified), after) => (.ok (some (.ofTune tune modified)), after)
      | (.error error, after) =>
        (if error.isPassedOver then .ok none else .error error, after) := by
  -- Catching an error has no law of its own here: the run is unfolded, for any way of loading.
  unfold summary?
  generalize load path = action
  rcases outcome : action.run library with ⟨error | ⟨tune, modified⟩, after⟩
  · have ran : action library = (.error error, after) := outcome
    have stays : ∀ {β : Type} (value : β), (pure value : StateM Library β) after = (value, after) :=
      fun _ => rfl
    cases passed : error.isPassedOver <;>
      simp only [ExceptT.run, bind, ExceptT.bind, ExceptT.mk, StateT.bind, tryCatch,
        tryCatchThe, MonadExceptOf.tryCatch, ExceptT.tryCatch, ExceptT.bindCont, ran, stays,
        passed] <;>
      rfl
  · have ran : action library = (.ok (tune, modified), after) := outcome
    simp only [ExceptT.run, bind, ExceptT.bind, ExceptT.mk, StateT.bind, tryCatch,
      tryCatchThe, MonadExceptOf.tryCatch, ExceptT.tryCatch, ExceptT.bindCont, ran]
    rfl

/-- Compiling a tune that is not stored changes nothing. -/
theorem preserves_compileInline {holds : Library → Prop} (json : String) (startId : Int) :
    Preserves holds (compileInline json startId) := by
  refine (Preserves.ofExcept _).bind fun document => ?_
  cases Tune.read document .null with
  | error error => exact .throw _
  | ok tune => exact (Preserves.ofExcept _).bind fun _ => .ite (.pure _) (.throw _)

/-- A file is removed if there is something at its path. -/
theorem run_removeIfPresent (path : Path) (library : Library) :
    (removeIfPresent path).run library = match library.files.contains path with
      | .error error => (.error (.file error), library)
      | .ok false => (.ok false, library)
      | .ok true =>
        match library.files.remove path with
        | .error error => (.error (.file error), library)
        | .ok files => (.ok true, { library with files }) := by
  unfold removeIfPresent
  rw [run_get_bind, run_ofFiles_bind]
  cases library.files.contains path with
  | error error => rfl
  | ok present =>
      cases present with
      | false => rfl
      | true => cases library.files.remove path <;> rfl

/-- A name is forgotten before its score files are removed. -/
theorem run_delete (name : String) (library : Library) :
    (delete name).run library =
      match ((library.candidates name).mapM removeIfPresent).run (library.forget name) with
      | (.ok removed, after) => (.ok ((library.known? name).isSome || removed.any id), after)
      | (.error error, after) => (.error error, after) := by
  show ((library.candidates name).mapM removeIfPresent >>= fun removed =>
    pure ((library.known? name).isSome || removed.any id)).run (library.forget name) = _
  rw [run_bind]
  rcases ((library.candidates name).mapM removeIfPresent).run (library.forget name) with
    ⟨_ | removed, after⟩ <;> rfl

section Changes

variable {holds : Library → Prop} {path : Path} {tune : Tune}

/-- What is kept when the tune of a document is remembered is kept by importing the document. -/
theorem preserves_importDocument {document name : Datum}
    (remembers : ∀ tune, Tune.read document name = .ok tune → ∀ library, holds library →
      holds (library.remember tune)) : Preserves holds (importDocument document name) := by
  intro library kept
  rw [run_importDocument]
  cases reads : Tune.read document name with
  | error error => exact kept
  | ok tune => exact remembers tune reads library kept

/-- What is kept when folders are made, though perhaps not all of them, is kept by making them. -/
theorem preserves_makeFolders (makes : ∀ library, holds library →
    holds { library with files := (library.files.makeFolders path).1 }) :
    Preserves holds (makeFolders path) := by
  intro library kept
  rw [run_makeFolders]
  exact makes library kept

/-- What is kept when a file receives a content, or the part of it that it can take, is kept by
writing it. -/
theorem preserves_writeFile {content : Content} (writes : ∀ library files,
    library.files.write path (library.files.receive path content).1 library.now = .ok files →
      holds library → holds { library with files }) :
    Preserves holds (writeFile path content) := by
  intro library kept
  rw [run_writeFile]
  cases wrote : library.files.write path (library.files.receive path content).1 library.now with
  | error error => exact kept
  | ok files => exact writes library files wrote kept

/-- What is kept when a file is removed is kept by removing it if it is present. -/
theorem preserves_removeIfPresent (removes : ∀ library files,
    library.files.remove path = .ok files → holds library → holds { library with files }) :
    Preserves holds (removeIfPresent path) := by
  intro library kept
  rw [run_removeIfPresent]
  cases library.files.contains path with
  | error error => exact kept
  | ok present =>
      cases present with
      | false => exact kept
      | true =>
          cases removed : library.files.remove path with
          | error error => exact kept
          | ok files => exact removes library files removed kept

/-- What is kept by the steps of saving a tune is kept by saving it. -/
theorem preserves_save
    (makes : ∀ library, holds library → Preserves holds (makeFolders library.setup.scores))
    (writes : ∀ library, holds library →
      Preserves holds (writeFile (library.scorePath tune.name) (scoreContent tune)))
    (remembers : ∀ library, holds library → holds (library.remember tune)) :
    Preserves holds (save tune) :=
  .get_bind fun library kept => (makes library kept).bind fun _ =>
    (writes library kept).bind fun _ => .ite (.throw _) <|
      Preserves.bind remembers fun _ => .pure _

/-- What is kept by the steps of deleting a name is kept by deleting it. -/
theorem preserves_delete {name : String}
    (forgets : ∀ library, holds library → holds (library.forget name))
    (removes : ∀ library, holds library → ∀ path ∈ library.candidates name,
      Preserves holds (removeIfPresent path)) : Preserves holds (delete name) := by
  intro library kept
  have removed : Preserves holds ((library.candidates name).mapM removeIfPresent) :=
    .mapM (removes library kept)
  exact (removed.bind fun _ => .pure _) (library.forget name) (forgets library kept)

end Changes

/-- Whether what holds of a library is kept by all that is ever done to one. -/
structure Stable (holds : Library → Prop) : Prop where
  remember : ∀ library tune, holds library → holds (library.remember tune)
  forget : ∀ library name, holds library → holds (library.forget name)
  makeFolders : ∀ library path, holds library →
    holds { library with files := (library.files.makeFolders path).1 }
  write : ∀ library path content files,
    library.files.write path content library.now = .ok files → holds library →
    holds { library with files }
  remove : ∀ library path files, library.files.remove path = .ok files → holds library →
    holds { library with files }

namespace Stable

variable {holds : Library → Prop} (stable : Stable holds)

include stable

/-- To import a document preserves what is so whatever is remembered. -/
theorem preserves_importDocument (document name : Datum) :
    Preserves holds (importDocument document name) :=
  Library.preserves_importDocument fun tune _ library => stable.remember library tune

/-- To make folders preserves what is so whatever folders are made. -/
theorem preserves_makeFolders (path : Path) : Preserves holds (Library.makeFolders path) :=
  Library.preserves_makeFolders fun library => stable.makeFolders library path

/-- To write a file preserves what is so whatever is written. -/
theorem preserves_writeFile (path : Path) (content : Content) :
    Preserves holds (writeFile path content) :=
  Library.preserves_writeFile fun library => stable.write library path _

/-- To save a tune preserves what its three steps preserve. -/
theorem preserves_save (tune : Tune) : Preserves holds (save tune) :=
  Library.preserves_save (fun _ _ => stable.preserves_makeFolders _)
    (fun _ _ => stable.preserves_writeFile _ _) fun library => stable.remember library tune

/-- To delete a score preserves what its steps preserve. -/
theorem preserves_delete (name : String) : Preserves holds (delete name) :=
  Library.preserves_delete (fun library => stable.forget library name) fun _ _ path _ =>
    preserves_removeIfPresent fun library => stable.remove library path

/-- To load a score preserves what is so whatever is remembered. -/
theorem preserves_load (path : Path) : Preserves holds (load path) := by
  refine .get_bind fun library _ => (Preserves.ofFiles _).bind fun found => ?_
  dsimp only
  cases library.setup.reader found.1 with
  | error fault => exact .throw _
  | ok document => exact (stable.preserves_importDocument _ _).bind fun _ => .pure _

/-- To find a tune preserves what is so whatever is remembered. -/
theorem preserves_find? (name : String) : Preserves holds (Library.find? name) := by
  refine .get_bind fun library _ => ?_
  cases library.known? name with
  | some tune => exact .pure _
  | none =>
      refine (Preserves.ofFiles _).bind fun found => ?_
      cases found with
      | none => exact .pure _
      | some path => exact (stable.preserves_load path).bind fun _ => .pure _

/-- To sum up a score preserves what is so whatever is remembered. -/
theorem preserves_summary? (path : Path) : Preserves holds (summary? path) := by
  intro library kept
  have loaded := stable.preserves_load path library kept
  rw [run_summary?]
  revert loaded
  rcases (load path).run library with ⟨_ | _, after⟩ <;> exact id

/-- To list the scores preserves what is so whatever is remembered. -/
theorem preserves_summaries : Preserves holds summaries := by
  refine .get_bind fun library _ => (Preserves.ofFiles _).bind fun present => ?_
  cases present with
  | false => exact .pure _
  | true =>
      refine (Preserves.ofFiles _).bind fun paths => ?_
      exact (Preserves.mapM fun path _ => stable.preserves_summary? path).bind fun _ => .pure _

/-- To get a stored tune preserves what is so whatever is remembered. -/
theorem preserves_stored (name : String) : Preserves holds (stored name) := by
  refine ((stable.preserves_find? name).adapt _).bind fun found => ?_
  cases found with
  | none => exact .throw _
  | some tune => exact .pure _

/-- To write a project preserves what is so whatever folders are made and whatever is written. -/
theorem preserves_writeProject (folder : Path) (name : String) (blocks : List Datum) :
    Preserves holds (writeProject folder name blocks) := by
  refine .get_bind fun library _ => ?_
  cases Block.readAll blocks with
  | error error => exact .throw _
  | ok read =>
      have written := ((stable.preserves_makeFolders folder).bind fun _ =>
        stable.preserves_writeFile (projectPath folder name)
          (.text (Json.written (.list blocks)))).adapt (HostError.ofLibrary library.setup.root)
      refine written.bind fun _ => ?_
      cases Json.obstacle? (.list blocks) with
      | none => exact .pure _
      | some obstacle => exact .throw _

/-- What is kept by every change is kept by every request. -/
theorem preserves_perform (request : ToolRequest) : Preserves holds (perform request) := by
  cases request with
  | importScore json name saved =>
      refine .get_bind fun _ _ => (Preserves.ofExcept _).bind fun document => ?_
      refine ((stable.preserves_importDocument document name).adapt _).bind fun tune => ?_
      cases saved with
      | true =>
          exact (Preserves.bind ((stable.preserves_save tune).adapt _) fun _ => .pure _).bind
            fun _ => .pure _
      | false => exact .pure _
  | getScore name => exact (stable.preserves_stored name).bind fun _ => .pure _
  | listScores => exact (stable.preserves_summaries.adapt _).bind fun _ => .pure _
  | deleteScore name =>
      refine ((stable.preserves_delete name).adapt _).bind fun removed => ?_
      cases removed with
      | true => exact .pure _
      | false => exact .throw _
  | validateScore name => exact (stable.preserves_stored name).bind fun _ => .pure _
  | compileScore name outputName repeatCount =>
      refine (stable.preserves_stored name).bind fun tune => ?_
      cases Schema.settings (.mapping [("repeat_count", repeatCount)]) with
      | refused faults => exact .throw _
      | accepted settings =>
          refine (Preserves.ofExcept _).bind fun compilation => .get_bind fun _ _ => ?_
          exact ((stable.preserves_writeProject _ _ _).adapt _).bind fun _ => .pure _
  | compileInline json startId => exact preserves_compileInline json startId
  | describeGraph name includeNodes =>
      exact (stable.preserves_stored name).bind fun tune =>
        (Preserves.ofExcept _).bind fun _ => .pure _

end Stable

/-- What is kept by every change is kept by every request, whatever is answered. -/
theorem Stable.answer {holds : Library → Prop} (stable : Stable holds) {library : Library}
    (kept : holds library) (request : ToolRequest) : holds (library.answer request).2 := by
  have performed := stable.preserves_perform request library kept
  unfold Library.answer
  revert performed
  rcases (perform request).run library with ⟨_ | _, after⟩ <;> exact id

/-- What a library is given stays as it is. -/
theorem stable_setup (setup : Setup) : Stable (·.setup = setup) where
  remember _ _ := id
  forget _ _ := id
  makeFolders _ _ := id
  write _ _ _ _ _ := id
  remove _ _ _ _ := id

/-- The files of a library stay on their disk. -/
theorem stable_disk (disk : Disk) : Stable (·.files.disk = disk) where
  remember _ _ := id
  forget _ _ := id
  makeFolders library path same := (library.files.disk_makeFolders path).trans same
  write _ _ _ _ wrote same := (Files.disk_of_write wrote).trans same
  remove _ _ _ removed same := by
    rw [(Files.of_remove_eq_ok removed).2]
    exact same

/-- The files of a library stay a tree. -/
theorem stable_isTree : Stable (·.files.IsTree) where
  remember _ _ := id
  forget _ _ := id
  makeFolders _ path tree := tree.makeFolders path
  write _ _ _ _ wrote tree := tree.write wrote
  remove _ _ _ removed tree := tree.remove removed

/-- The libraries that come about in a session: requests are answered, the library is restarted, and
meanwhile time passes and files are changed by others. -/
inductive Reachable (setup : Setup) : Library → Prop
  | fresh : Reachable setup { setup }
  | request {library : Library} (request : ToolRequest) (reached : Reachable setup library) :
      Reachable setup (library.answer request).2
  | restart {library : Library} (reached : Reachable setup library) :
      Reachable setup library.restart
  | elsewhere {library : Library} {files : Files} (tree : files.IsTree) (now : Nat)
      (reached : Reachable setup library) : Reachable setup { library with files, now }

namespace Reachable

variable {setup : Setup} {library : Library}

/-- A session does not change its setup. -/
theorem setup_eq (reached : Reachable setup library) : library.setup = setup := by
  induction reached with
  | fresh => rfl
  | request request _ ih => exact (stable_setup setup).answer ih request
  | restart _ ih => exact ih
  | elsewhere _ _ _ ih => exact ih

/-- In a session every file is inside a folder. -/
theorem isTree (reached : Reachable setup library) : library.files.IsTree := by
  induction reached with
  | fresh => exact Files.isTree_empty
  | request request _ ih => exact stable_isTree.answer ih request
  | restart _ ih => exact ih
  | elsewhere tree => exact tree

end Reachable

end Library

end TuneGraph
