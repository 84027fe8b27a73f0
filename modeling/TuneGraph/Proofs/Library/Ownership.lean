import TuneGraph.Proofs.Library.Import

/-! # The files of a request

A request touches no files but its own: it writes the score of the tune that it imports or the
project that it compiles, and removes the scores of the name that it deletes. Whatever the names
are, these files are children of the folder of the scores or of the projects, which are the only
folders that are made. A compilation that fails leaves all files as they are, unless its project
has been opened and the writing stops: then the project ends there (`Library.files_after_answer`).
-/

namespace TuneGraph

open LibraryAction Library

namespace ToolRequest

/-- The folders that a request may make. -/
def folders (setup : Setup) : ToolRequest → List Path
  | .importScore _ _ true => [setup.scores]
  | .compileScore .. => [setup.projects]
  | _ => []

/-- The files that a request may write. -/
def written (setup : Setup) : ToolRequest → List Path
  | .importScore json name true =>
    ((ToolRequest.importScore json name).tune?.map fun tune =>
      setup.scores ++ [fileStem tune.name ++ ".tune.yaml"]).toList
  | .compileScore name outputName _ =>
    [projectPath setup.projects (if outputName = "" then name else outputName)]
  | _ => []

/-- The files that a request may remove. -/
def removed (setup : Setup) : ToolRequest → List Path
  | .deleteScore name => scoreEndings.map fun ending => setup.scores ++ [fileStem name ++ ending]
  | _ => []

end ToolRequest

namespace Files

variable {files next : Files} {written removed folders : List Path} {path : Path}

/-- Whether files differ from others only by files that are written and removed at some paths and
by new folders on the way to some folders. -/
def Confined (written removed folders : List Path) (files next : Files) : Prop :=
  ∀ path, next.find? path = files.find? path ∨
    (path ∈ written ∧ ∃ content modified, next.find? path = some (.file content modified)) ∨
    (path ∈ removed ∧ next.find? path = none) ∨
    ∃ folder ∈ folders, path <+: folder ∧ files.find? path = none ∧ next.find? path = some .folder

namespace Confined

/-- Nothing has changed. -/
theorem refl (files : Files) : Confined written removed folders files files := fun _ => Or.inl rfl

/-- New folders are confined if they are on the way to a folder that may be made. -/
theorem of_grown {folder : Path} (grown : Grown folder files next) (own : folder ∈ folders) :
    Confined written removed folders files next := fun path =>
  (grown path).imp_right fun new => Or.inr (Or.inr ⟨folder, own, new⟩)

/-- A file that is put is confined if it may be written. -/
theorem put (confined : Confined written removed folders files next) (own : path ∈ written)
    (content : Content) (modified : Nat) :
    Confined written removed folders files (next.put path (.file content modified)) := by
  intro other
  by_cases here : other = path
  · subst here
    exact Or.inr (Or.inl ⟨own, content, modified, find?_put next other _⟩)
  · rw [find?_put_of_ne here]
    exact confined other

/-- A file that is taken away is confined if it may be removed. -/
theorem erase (confined : Confined written removed folders files next) (own : path ∈ removed) :
    Confined written removed folders files (next.erase path) := by
  intro other
  by_cases here : other = path
  · subst here
    exact Or.inr (Or.inr (Or.inl ⟨own, find?_erase next other⟩))
  · rw [find?_erase_of_ne here]
    exact confined other

/-- News at a path are confined if the path may be written and its folder may be made. -/
theorem of_extended {folder : Path} (extended : Extended folder path files next)
    (own : path ∈ written) (ownFolder : folder ∈ folders) :
    Confined written removed folders files next := by
  obtain ⟨made, grown, rfl | ⟨content, modified, rfl⟩⟩ := extended
  · exact .of_grown grown ownFolder
  · exact (Confined.of_grown grown ownFolder).put own content modified

/-- What is found was there before, or is at a path that is written, or is a folder on the way to
one that is made. -/
theorem locate_cases {entry : Entry} (confined : Confined written removed folders files next)
    (tree : files.IsTree) (away : path ≠ []) (located : next.locate path = .ok entry) :
    files.locate path = .ok entry ∨ path ∈ written ∨
      (∃ folder ∈ folders, path <+: folder) ∧ entry = .folder := by
  have there : next.find? path = some entry := by
    obtain ⟨parent, name, rfl⟩ := List.eq_nil_or_concat path |>.resolve_left away
    rw [List.concat_eq_append] at located ⊢
    exact find?_of_walk (locate_eq_ok_iff.mp located).2
  rcases confined path with same | ⟨own, -⟩ | ⟨-, gone⟩ | ⟨folder, own, onWay, -, made⟩
  · exact Or.inl (tree.locate_of_find?_eq same away located)
  · exact Or.inr (Or.inl own)
  · cases gone.symm.trans there
  · exact Or.inr (Or.inr ⟨⟨folder, own, onWay⟩, Option.some.inj (there.symm.trans made)⟩)

end Confined

end Files

/-- Whether a path is inside a folder and stays there when it is written as a text: its last name
has no slash and does not stand for a folder. -/
def Path.IsChildOf (folder path : Path) : Prop :=
  ∃ name, path = folder ++ [name] ∧ '/' ∉ name.toList ∧ name ∉ ["", ".", ".."]

/-- The file name of a tune has no slash. -/
theorem slash_notMem_fileStem (name : String) : '/' ∉ (fileStem name).toList := by
  rw [fileStem, String.toList_map]
  intro member
  obtain ⟨c, -, same⟩ := List.mem_map.mp member
  split at same
  · exact absurd same (by decide)
  · rename_i other
    exact other (by simp [same])

/-- A file that is named for a name and ends in an ending is a child of its folder. -/
theorem isChildOf_stem (folder : Path) (name : String) {ending : String}
    (isEnding : ending ∈ ".json" :: scoreEndings) :
    Path.IsChildOf folder (folder ++ [fileStem name ++ ending]) := by
  have endings : ∀ ending ∈ ".json" :: scoreEndings,
      '/' ∉ ending.toList ∧ 2 < ending.toList.length := by decide
  obtain ⟨plain, long⟩ := endings ending isEnding
  refine ⟨_, rfl, ?_, fun special => ?_⟩
  · rw [String.toList_append, List.mem_append]
    exact fun member => member.elim (slash_notMem_fileStem name) plain
  · have short : ∀ name ∈ ["", ".", ".."], name.toList.length ≤ 2 := by decide
    have bound := short _ special
    rw [String.toList_append, List.length_append] at bound
    omega

namespace Library

variable {library : Library} {request : ToolRequest}

/-- The files of a request are children of their folders. -/
theorem isChildOf_of_mem {setup : Setup} {path : Path}
    (own : path ∈ request.written setup ++ request.removed setup) :
    Path.IsChildOf setup.scores path ∨ Path.IsChildOf setup.projects path := by
  rcases List.mem_append.mp own with written | removed
  · cases request with
    | importScore json name saved =>
        cases saved with
        | true =>
            obtain ⟨tune, -, rfl⟩ := Option.map_eq_some_iff.mp (Option.mem_toList.mp written)
            exact Or.inl (isChildOf_stem _ _ (List.mem_cons_of_mem _ List.mem_cons_self))
        | false => cases written
    | compileScore name outputName repeatCount =>
        obtain rfl := List.mem_singleton.mp written
        exact Or.inr (isChildOf_stem _ _ List.mem_cons_self)
    | _ => cases written
  · cases request with
    | deleteScore name =>
        obtain ⟨ending, isEnding, rfl⟩ := List.mem_map.mp removed
        exact Or.inl (isChildOf_stem _ _ (List.mem_cons_of_mem _ isEnding))
    | _ => cases removed

/-- What an import does to files. -/
theorem confined_import (json : String) (name : Datum) (saved : Bool) (library : Library) :
    Files.Confined ((ToolRequest.importScore json name saved).written library.setup) []
      ((ToolRequest.importScore json name saved).folders library.setup) library.files
      (library.answer (.importScore json name saved)).2.files := by
  rw [snd_answer]
  show Files.Confined _ _ _ _ ((importScore json name saved).run library).2.files
  rcases snd_run_importScore json name saved library with left | ⟨tune, stores, left⟩
  · rw [left]
    exact .refl library.files
  · rw [left]
    cases saved with
    | false => exact .refl library.files
    | true =>
        have own : library.scorePath tune.name ∈
            (ToolRequest.importScore json name).written library.setup := by
          rw [ToolRequest.written, stores]
          exact List.mem_singleton_self _
        obtain ⟨files, extended, saves⟩ := snd_run_save tune (library.remember tune)
        have confined :
            Files.Confined ((ToolRequest.importScore json name).written library.setup) []
            ((ToolRequest.importScore json name).folders library.setup) library.files files :=
          .of_extended extended own (List.mem_singleton_self _)
        dsimp only
        rcases saves with saves | saves
        · rw [saves]
          exact confined
        · rw [saves]
          exact confined

/-- What a deletion does to files. -/
theorem confined_delete (name : String) (library : Library) :
    Files.Confined [] (library.candidates name) [] library.files
      (library.answer (.deleteScore name)).2.files := by
  have keeps : Preserves (fun after => after.setup = library.setup ∧
      Files.Confined [] (library.candidates name) [] library.files after.files) (delete name) := by
    refine preserves_delete (fun _ kept => kept) fun start ⟨same, _⟩ path candidate => ?_
    refine preserves_removeIfPresent fun middle files removes ⟨given, confined⟩ => ⟨given, ?_⟩
    obtain rfl := (Files.of_remove_eq_ok removes).2
    rw [Library.candidates, same] at candidate
    exact confined.erase candidate
  rw [snd_answer]
  show Files.Confined _ _ _ _ ((deleteScore name).run library).2.files
  unfold deleteScore
  rw [snd_run_bind fun removed _ => by cases removed <;> rfl]
  exact (keeps library ⟨rfl, .refl library.files⟩).2

/-- Whether the writing of blocks to a project stops: not all of them can be written out, or they
hold lone surrogates, or the disk breaks off. -/
def Stops (library : Library) (path : Path) (blocks : List Datum) : Prop :=
  Json.fits (.list blocks) = false ∨
    (∃ message, Json.obstacle? (.list blocks) = some (.surrogates message)) ∨
    ∃ broken, library.files.disk.breaksOff path (.text (Json.written (.list blocks))) = some broken

/-- A project that has been opened is not written as a whole exactly if its writing stops. -/
theorem projectOutcome_eq_ok_iff {folder path : Path} {name : String} {blocks : List Datum} :
    library.projectOutcome folder name blocks = .ok path ↔
      path = projectPath folder name ∧ ¬library.Stops (projectPath folder name) blocks := by
  unfold projectOutcome Stops Files.receive
  cases broken : library.files.disk.breaksOff (projectPath folder name)
      (.text (Json.written (.list blocks))) with
  | some found => simp
  | none =>
      cases stops : Json.obstacle? (.list blocks) with
      | none => simp [Json.fits_of_unobstructed stops, eq_comm]
      | some obstacle =>
          cases obstacle with
          | surrogates message => simp
          | tooLong =>
              have unfit : Json.fits (.list blocks) = false :=
                Bool.eq_false_iff.mpr fun fits => Json.obstacle?_ne_tooLong fits stops
              simp [unfit]

/-- A compilation makes folders, and opens a project if the blocks can be compiled. It succeeds if
all of them are written. -/
theorem files_after_compile (name outputName : String) (repeatCount : Datum) (library : Library) :
    Files.Grown library.setup.projects library.files
      (library.answer (.compileScore name outputName repeatCount)).2.files ∨
    ∃ tune settings compilation made, library.found name = .ok tune ∧
      Schema.settings (.mapping [("repeat_count", repeatCount)]) = .accepted settings ∧
      tune.compile settings 0 = .ok compilation ∧
      Files.Grown library.setup.projects library.files made ∧
      (library.answer (.compileScore name outputName repeatCount)).2.files = made.put
        (projectPath library.setup.projects (if outputName = "" then name else outputName))
        (.file (library.files.receive
          (projectPath library.setup.projects (if outputName = "" then name else outputName))
          (.text (Json.written (.list compilation.graph.blocks)))).1 library.now) ∧
      (library.Succeeds (.compileScore name outputName repeatCount) ↔ ¬library.Stops
        (projectPath library.setup.projects (if outputName = "" then name else outputName))
        compilation.graph.blocks) := by
  rcases compileScore_cases name outputName repeatCount library with
    ⟨error, ran⟩ | ⟨tune, settings, compilation, found, accepted, compiles, reply, succeeds, ran⟩
  · rw [answer_of_error (.compileScore name outputName repeatCount) ran, files_rememberAll]
    exact Or.inl (.refl _ _)
  · obtain ⟨made, grown, written⟩ := writeProject_cases library.setup.projects
      (if outputName = "" then name else outputName) compilation.graph.blocks
      (library.rememberAll (library.sought name))
    rw [files_rememberAll] at grown
    rcases written with ⟨error, writes⟩ | ⟨files, wrote, writes⟩
    · rw [writes] at ran
      rw [answer_of_error (.compileScore name outputName repeatCount) ran]
      exact Or.inl grown
    · rw [now_rememberAll, files_rememberAll] at wrote
      rw [writes] at ran
      refine Or.inr ⟨tune, settings, compilation, made, found, accepted, compiles, grown, ?_⟩
      have put := (Files.write_eq_ok_iff.mp wrote).2.symm
      have stops : (library.rememberAll (library.sought name)).Stops (projectPath
          library.setup.projects (if outputName = "" then name else outputName))
            compilation.graph.blocks ↔ library.Stops (projectPath library.setup.projects
              (if outputName = "" then name else outputName)) compilation.graph.blocks := by
        rw [Stops, Stops, files_rememberAll]
      rw [← stops]
      cases outcome : (library.rememberAll (library.sought name)).projectOutcome
          library.setup.projects (if outputName = "" then name else outputName)
            compilation.graph.blocks with
      | ok path =>
          rw [outcome] at ran
          rw [answer_of_ok (.compileScore name outputName repeatCount) ran]
          refine ⟨put, iff_of_true ?_ (projectOutcome_eq_ok_iff.mp outcome).2⟩
          exact succeeds_iff.mpr ⟨_, _, ran, succeeds path⟩
      | error error =>
          rw [outcome] at ran
          rw [answer_of_error (.compileScore name outputName repeatCount) ran]
          refine ⟨put, iff_of_false (not_succeeds_of_error ran) fun whole => ?_⟩
          cases outcome.symm.trans (projectOutcome_eq_ok_iff.mpr ⟨rfl, whole⟩)

/-- What a compilation does to files. -/
theorem confined_compile (name outputName : String) (repeatCount : Datum) (library : Library) :
    Files.Confined ((ToolRequest.compileScore name outputName repeatCount).written library.setup)
      [] [library.setup.projects] library.files
      (library.answer (.compileScore name outputName repeatCount)).2.files := by
  rcases files_after_compile name outputName repeatCount library with
    grown | ⟨tune, settings, compilation, made, -, -, -, grown, put, -⟩
  · exact .of_grown grown (List.mem_singleton_self _)
  · rw [put]
    exact (Files.Confined.of_grown grown (List.mem_singleton_self _)).put
      (List.mem_singleton_self _) _ _

/-- What a request does to files. -/
theorem confined_answer (library : Library) (request : ToolRequest) :
    Files.Confined (request.written library.setup) (request.removed library.setup)
      (request.folders library.setup) library.files (library.answer request).2.files := by
  cases request with
  | importScore json name saved => exact confined_import json name saved library
  | deleteScore name => exact confined_delete name library
  | compileScore name outputName repeatCount =>
      exact confined_compile name outputName repeatCount library
  | _ =>
      rw [snd_answer, snd_run_reading _ rfl (by exact nofun), files_rememberAll]
      exact .refl library.files

/-- A request touches no files but its own, which are children of their folders. A compilation that
fails leaves new folders at most, unless the writing of its blocks stops: then its project holds
what has been received of what can be written. -/
theorem files_after_answer (library : Library) (request : ToolRequest) :
    Files.Confined (request.written library.setup) (request.removed library.setup)
      (request.folders library.setup) library.files (library.answer request).2.files ∧
    (∀ path ∈ request.written library.setup ++ request.removed library.setup,
      Path.IsChildOf library.setup.scores path ∨ Path.IsChildOf library.setup.projects path) ∧
    (∀ name outputName repeatCount, request = .compileScore name outputName repeatCount →
      library.Succeeds request ∨
      Files.Grown library.setup.projects library.files (library.answer request).2.files ∨
      ∃ tune settings compilation, library.found name = .ok tune ∧
        Schema.settings (.mapping [("repeat_count", repeatCount)]) = .accepted settings ∧
        tune.compile settings 0 = .ok compilation ∧
        ∀ path ∈ request.written library.setup, library.Stops path compilation.graph.blocks ∧
          (library.answer request).2.files.find? path = some (.file (library.files.receive path
            (.text (Json.written (.list compilation.graph.blocks)))).1 library.now)) := by
  refine ⟨confined_answer library request, fun path => isChildOf_of_mem, ?_⟩
  rintro name outputName repeatCount rfl
  rcases files_after_compile name outputName repeatCount library with
    grown | ⟨tune, settings, compilation, made, found, accepted, compiles, -, put, succeeds⟩
  · exact Or.inr (Or.inl grown)
  · by_cases stops : library.Stops (projectPath library.setup.projects
        (if outputName = "" then name else outputName)) compilation.graph.blocks
    · refine Or.inr (Or.inr ⟨tune, settings, compilation, found, accepted, compiles,
        fun path own => ?_⟩)
      obtain rfl := List.mem_singleton.mp own
      rw [put, Files.find?_put]
      exact ⟨stops, rfl⟩
    · exact Or.inl (succeeds.mpr stops)

/-- A number that can be written out, unlike its square. -/
def fineness : Nat := Nat.pow 10 2200

/-- The denominator is positive. -/
theorem fineness_pos : 0 < (fineness : Int) := by decide +kernel

/-- An air with a note whose length over the beats of its meter cannot be written out. -/
def fineAir : Tune where
  name := "air"
  lines := [{ staves := [{
    meter := some { Meter.common with denominator := fineness, denominator_pos := fineness_pos }
    voices := [[.note { startTriplet := some fineness }]] }] }]

/-- The blocks of the air cannot all be written out. -/
theorem not_fits_fineAir : ((fineAir.compile .standard 0).toOption.map fun compilation =>
    Json.fits (.list compilation.graph.blocks)) = some false := by
  rw [show fineAir.compile .standard 0 =
    fineAir.compile { Settings.standard with checkGraph := false } 0 from
      Tune.compile_checkGraph fineAir .standard 0 true false]
  decide +kernel

/-- Files among which is the air. -/
def fineFiles : Files :=
  (({} : Files).put ["scores"] .folder).put ["scores", "air.tune.yaml"]
    (.file (.document fineAir.document) 0)

/-- Everything in the files with a fine air is inside a folder. -/
theorem isTree_fineFiles : fineFiles.IsTree := by
  have air : Files.IsTree ((({} : Files).put ["scores"] .folder).put
      (["scores"] ++ ["air.tune.yaml"]) (.file (.document fineAir.document) 0)) :=
    isTree_scoresFolder.put rfl (by exact nofun) _
  exact air

/-- A library with these files. -/
def fineLibrary : Library := { emptyLibrary with files := fineFiles }

/-- The library with a fine air is reached when its files have come from elsewhere. -/
theorem reachable_fineLibrary : Reachable yamlSetup fineLibrary :=
  .elsewhere isTree_fineFiles 0 .fresh

/-- A compilation that fails leaves a project that was not there. -/
theorem project_of_failure :
    Reachable yamlSetup fineLibrary ∧ ¬fineLibrary.Succeeds (.compileScore "air") ∧
    (fineLibrary.answer (.compileScore "air")).2.files.find? ["output", "air.json"] ≠
      fineLibrary.files.find? ["output", "air.json"] := by
  have filed : fineLibrary.filed "air" = .ok (some fineAir) :=
    eq_ok_of_toOption (by decide +kernel)
  have unknown : fineLibrary.known? "air" = none := rfl
  have found : fineLibrary.found "air" = .ok fineAir := by rw [Library.found, unknown, filed]
  have sought :
      fineLibrary.rememberAll (fineLibrary.sought "air") = fineLibrary.remember fineAir := by
    rw [Library.sought, unknown, filed]
    rfl
  obtain ⟨compilation, compiled, unfit⟩ := Option.map_eq_some_iff.mp not_fits_fineAir
  obtain ⟨reply, -, ran⟩ := run_compileScore_of_compiled found settings_of_default
    (eq_ok_of_toOption compiled) ""
  -- The file can be opened, whatever it is to hold.
  have accepts : (fineFiles.makeFolders ["output"]).1.Accepts ["output"] "air.json" := by
    have opens : ((fineFiles.makeFolders ["output"]).1.write (["output"] ++ ["air.json"])
        (.text "") 0).toOption.isSome = true := by decide +kernel
    obtain ⟨files, wrote⟩ := Option.isSome_iff_exists.mp opens
    exact Files.accepts_of_write (eq_ok_of_toOption wrote)
  have place : projectPath ["output"] "air" = ["output"] ++ ["air.json"] := by decide +kernel
  have makes : fineFiles.makeFolders ["output"] = ((fineFiles.makeFolders ["output"]).1, none) :=
    Prod.ext rfl (by decide +kernel)
  have opened := Files.write_of_accepts accepts ((fineLibrary.remember fineAir).files.receive
    (projectPath ["output"] "air") (.text (Json.written (.list compilation.graph.blocks)))).1 0
  rw [← place] at opened
  rw [sought, if_pos rfl, show fineLibrary.setup.projects = ["output"] from rfl,
    run_writeProject_of_opened compilation.graph.returns_readAll_blocks makes opened] at ran
  cases outcome : (fineLibrary.remember fineAir).projectOutcome ["output"] "air"
      compilation.graph.blocks with
  | ok path => exact ((projectOutcome_eq_ok_iff.mp outcome).2 (Or.inl unfit)).elim
  | error error =>
      rw [outcome] at ran
      refine ⟨reachable_fineLibrary, not_succeeds_of_error ran, fun same => ?_⟩
      rw [answer_of_error (.compileScore "air") ran, place] at same
      cases (Files.find?_put _ _ _).symm.trans same

end Library

end TuneGraph
