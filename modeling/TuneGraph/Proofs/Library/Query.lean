import TuneGraph.Proofs.Library.Inline

/-! # What queries do to stored scores

A query leaves score files as they are. But whatever it reads from a score file it remembers, under
the name that the tune has in the file, in the place of a tune of that name that was in memory: a
list of scores reads all files, and a name that is not in memory the first file that it may stand
for (`Library.loaded`). So a query can change the answer to a later request for a score, to the last
tune of its name that the query has read, and in no other way (`Library.getScore_after_query`).
-/

namespace TuneGraph

open LibraryAction Library

/-- What a reader makes of a score file: a tune, named for the file if it has no name, and the time
of the last change. -/
def Files.score (files : Files) (reader : Reader) (path : Path) :
    Except LibraryError (Tune × Nat) :=
  match files.read path with
  | .error error => .error (.file error)
  | .ok (content, modified) =>
    match reader content with
    | .error fault => .error (.unread fault)
    | .ok document =>
      match Tune.read document
        (if (document.get "name").isTruthy then .null else .text path.stem) with
      | .error error => .error (.notTune error)
      | .ok tune => .ok (tune, modified)

/-- The tunes of score files, up to the first file that cannot be passed over. -/
def Files.scores (files : Files) (reader : Reader) : List Path → List Tune
  | [] => []
  | path :: rest =>
    match files.score reader path with
    | .ok (tune, _) => tune :: files.scores reader rest
    | .error error => if error.isPassedOver then files.scores reader rest else []

/-- The summary of a score file; nothing if it is left out of lists. -/
def Files.summary? (files : Files) (reader : Reader) (path : Path) :
    Except LibraryError (Option ScoreSummary) :=
  match files.score reader path with
  | .ok (tune, modified) => .ok (some (.ofTune tune modified))
  | .error error => if error.isPassedOver then .ok none else .error error

/-- Whether a request asks for something, so that it neither stores nor deletes a tune. -/
def ToolRequest.isQuery : ToolRequest → Bool
  | .importScore .. | .deleteScore _ => false
  | _ => true

/-- Whether a query can be noticed at a path: it compiles a score, and the project file is on the
way to the path, or the path is not off the way to the folder of the projects. -/
def ToolRequest.Disturbs (setup : Setup) (path : Path) : ToolRequest → Prop
  | .compileScore name outputName _ =>
    projectPath setup.projects (if outputName = "" then name else outputName) <+: path ∨
      ¬Path.OffWay setup.projects path
  | _ => False

namespace Library

variable {library : Library} {name : String} {tune : Tune}

/-- A library that has remembered tunes one after another. -/
def rememberAll (library : Library) (tunes : List Tune) : Library :=
  tunes.foldl remember library

/-- The tune that the files have for a name. -/
def filed (library : Library) (name : String) : Except LibraryError (Option Tune) :=
  match firstPresent? library.files (library.candidates name) with
  | .error error => .error (.file error)
  | .ok none => .ok none
  | .ok (some path) => (library.files.score library.setup.reader path).map (some ·.1)

/-- The tune of a name, from memory or else from a file. -/
def found (library : Library) (name : String) : Except ToolError Tune :=
  match library.known? name with
  | some tune => .ok tune
  | none =>
    match library.filed name with
    | .ok (some tune) => .ok tune
    | .ok none => .error (.notFound name)
    | .error error => .error (.library error)

/-- The tunes that are read to find the tune of a name. -/
def sought (library : Library) (name : String) : List Tune :=
  match library.known? name, library.filed name with
  | none, .ok (some tune) => [tune]
  | _, _ => []

/-- The paths of the score files. -/
def scorePaths (library : Library) : Except FileError (List Path) :=
  match library.files.contains library.setup.scores with
  | .error error => .error error
  | .ok false => .ok []
  | .ok true =>
    match library.files.children library.setup.scores with
    | .error error => .error error
    | .ok paths => .ok (paths.filter Path.isScore)

/-- The tunes that are read to list the scores. -/
def listed (library : Library) : List Tune :=
  match library.files.contains library.setup.scores,
    library.files.children library.setup.scores with
  | .ok true, .ok paths => library.files.scores library.setup.reader (paths.filter Path.isScore)
  | _, _ => []

/-- The tunes that a query reads from score files, in order. -/
def loaded (library : Library) : ToolRequest → List Tune
  | .getScore name | .validateScore name | .compileScore name .. | .describeGraph name _ =>
    library.sought name
  | .listScores => library.listed
  | _ => []

section Memory

/-- A tune that is remembered is known under its name. -/
theorem known?_remember (library : Library) (tune : Tune) :
    (library.remember tune).known? tune.name = some tune := List.lookup_cons_self

/-- To remember a tune does not change what is known under another name. -/
theorem known?_remember_of_ne (different : name ≠ tune.name) :
    (library.remember tune).known? name = library.known? name := by
  have skips : (name == tune.name) = false := beq_eq_false_iff_ne.mpr different
  rw [known?, remember, List.lookup_cons, skips]
  exact lookup_filter_of_ne different library.memory

/-- To forget a name does not change what is known under another one. -/
theorem known?_forget_of_ne {other : String} (different : name ≠ other) :
    (library.forget other).known? name = library.known? name :=
  lookup_filter_of_ne different library.memory

/-- To remember tunes does not change the files. -/
@[simp] theorem files_rememberAll (library : Library) (tunes : List Tune) :
    (library.rememberAll tunes).files = library.files := by
  induction tunes generalizing library with
  | nil => rfl
  | cons tune rest ih => exact ih (library.remember tune)

/-- To remember tunes does not change the setup. -/
@[simp] theorem setup_rememberAll (library : Library) (tunes : List Tune) :
    (library.rememberAll tunes).setup = library.setup := by
  induction tunes generalizing library with
  | nil => rfl
  | cons tune rest ih => exact ih (library.remember tune)

/-- To remember tunes takes no time. -/
@[simp] theorem now_rememberAll (library : Library) (tunes : List Tune) :
    (library.rememberAll tunes).now = library.now := by
  induction tunes generalizing library with
  | nil => rfl
  | cons tune rest ih => exact ih (library.remember tune)

/-- The last tune of a name is the one that is remembered. -/
theorem known?_rememberAll (library : Library) (tunes : List Tune) (name : String) :
    (library.rememberAll tunes).known? name =
      (tunes.reverse.find? (·.name == name)).or (library.known? name) := by
  induction tunes generalizing library with
  | nil => rfl
  | cons tune rest ih =>
      have step : (library.remember tune).known? name =
          ([tune].find? (·.name == name)).or (library.known? name) := by
        by_cases here : tune.name = name
        · subst here
          rw [known?_remember, List.find?_cons_of_pos (by simp)]
          rfl
        · rw [known?_remember_of_ne (Ne.symm here), List.find?_cons_of_neg (by simpa using here)]
          rfl
      -- The first tune is the last one of the reversed list, and it is remembered before the rest.
      rw [List.reverse_cons, List.find?_append, Option.or_assoc, ← step]
      exact ih (library.remember tune)

end Memory

section Runs

/-- A score file is loaded as what it is read as, which is remembered. -/
theorem run_load (path : Path) (library : Library) :
    (load path).run library = match library.files.score library.setup.reader path with
      | .ok found => (.ok found, library.remember found.1)
      | .error error => (.error error, library) := by
  unfold load Files.score
  rw [run_get_bind, run_ofFiles_bind]
  cases library.files.read path with
  | error error => rfl
  | ok found =>
      dsimp only
      cases library.setup.reader found.1 with
      | error fault => rfl
      | ok document =>
          dsimp only
          rw [run_bind, run_importDocument]
          cases Tune.read document
            (if (document.get "name").isTruthy then .null else .text path.stem) <;> rfl

/-- A tune is found in memory, or else in a file, and what is read is remembered. -/
theorem run_find? (name : String) (library : Library) :
    (find? name).run library = (match library.known? name with
      | some tune => .ok (some tune)
      | none => library.filed name, library.rememberAll (library.sought name)) := by
  unfold find? sought
  rw [run_get_bind]
  cases library.known? name with
  | some tune => rfl
  | none =>
      rw [run_ofFiles_bind]
      unfold filed
      cases firstPresent? library.files (library.candidates name) with
      | error error => rfl
      | ok present =>
          cases present with
          | none => rfl
          | some path =>
              dsimp only
              rw [run_bind, run_load]
              cases library.files.score library.setup.reader path <;> rfl

/-- A stored tune is what is found, and what has been sought for it is remembered. -/
theorem run_stored_eq (name : String) (library : Library) :
    (stored name).run library =
      (library.found name, library.rememberAll (library.sought name)) := by
  unfold stored found
  rw [run_bind, run_adapt, run_find?]
  cases library.known? name with
  | some tune => rfl
  | none =>
      rcases library.filed name with error | _ | tune <;> rfl

/-- An action that changes nothing may follow. -/
theorem snd_run_bind {ε α β : Type} {action : LibraryAction ε α} {next : α → LibraryAction ε β}
    (still : ∀ value library, ((next value).run library).2 = library) (library : Library) :
    ((action >>= next).run library).2 = (action.run library).2 := by
  rw [run_bind]
  rcases action.run library with ⟨_ | value, after⟩
  · rfl
  · exact still value after

/-- Score files are summed up one after another, and what is read is remembered. -/
theorem run_mapM_summary? (paths : List Path) (library : Library) :
    (paths.mapM summary?).run library =
      (paths.mapM (library.files.summary? library.setup.reader),
        library.rememberAll (library.files.scores library.setup.reader paths)) := by
  induction paths generalizing library with
  | nil => rfl
  | cons path rest ih =>
      have later : ∀ (summary : Option ScoreSummary) (middle : Library),
          ((do return summary :: (← rest.mapM summary?) :
              LibraryAction LibraryError _).run middle) =
            ((do return summary :: (← rest.mapM (middle.files.summary? middle.setup.reader))),
              middle.rememberAll (middle.files.scores middle.setup.reader rest)) := by
        intro summary middle
        rw [run_bind, ih]
        cases rest.mapM (middle.files.summary? middle.setup.reader) <;> rfl
      rw [List.mapM_cons, List.mapM_cons, run_bind, run_summary?, run_load, Files.scores,
        Files.summary?]
      cases library.files.score library.setup.reader path with
      | ok found => exact later _ (library.remember found.1)
      | error error =>
          dsimp only
          cases error.isPassedOver with
          | true => exact later none library
          | false => rfl

/-- The scores are listed as the score files are summed up, and what is read is remembered. -/
theorem run_summaries (library : Library) : summaries.run library =
    (library.scorePaths.mapError .file >>= fun paths =>
      (paths.mapM (library.files.summary? library.setup.reader)).map fun found =>
        (found.filterMap id).mergeSort fun a b => b.modified ≤ a.modified,
      library.rememberAll library.listed) := by
  unfold summaries listed scorePaths
  rw [run_get_bind, run_ofFiles_bind]
  cases library.files.contains library.setup.scores with
  | error error => rfl
  | ok present =>
      cases present with
      | false =>
          show (.ok [], library) = (Except.ok (List.mergeSort [] _), library)
          rw [List.mergeSort_nil]
      | true =>
          show ((ofFiles (library.files.children library.setup.scores) >>= fun paths => do
            let found ← (paths.filter Path.isScore).mapM summary?
            return (found.filterMap id).mergeSort fun a b => b.modified ≤ a.modified).run
              library) = _
          rw [run_ofFiles_bind]
          cases library.files.children library.setup.scores with
          | error error => rfl
          | ok paths =>
              dsimp only
              rw [run_bind, run_mapM_summary?]
              show _ = (((paths.filter Path.isScore).mapM
                (library.files.summary? library.setup.reader)).map _, _)
              cases (paths.filter Path.isScore).mapM
                (library.files.summary? library.setup.reader) <;> rfl

/-- A project that is not written leaves new folders at most; one that is written begins with what
can be written of its blocks. -/
theorem writeProject_cases (folder : Path) (name : String) (blocks : List Datum)
    (library : Library) : ∃ made, Files.Grown folder library.files made ∧
      ((∃ error, (writeProject folder name blocks).run library =
        (.error error, { library with files := made })) ∨
      ∃ files, made.write (projectPath folder name) (library.files.receive (projectPath folder name)
          (.text (Json.written (.list blocks)))).1 library.now = .ok files ∧
        (writeProject folder name blocks).run library =
          (library.projectOutcome folder name blocks, { library with files })) := by
  cases formed : Block.readAll blocks with
  | error error =>
      refine ⟨library.files, .refl folder library.files, Or.inl ⟨error, ?_⟩⟩
      unfold writeProject
      rw [run_get_bind, formed]
      rfl
  | ok read =>
      cases makes : library.files.makeFolders folder with
      | mk made failure =>
          refine ⟨made, Files.grown_of_makeFolders makes, ?_⟩
          cases failure with
          | some error =>
              refine Or.inl ⟨.ofLibrary library.setup.root (.file error), ?_⟩
              unfold writeProject
              rw [run_get_bind, formed]
              dsimp only
              rw [run_bind, run_adapt, run_bind, run_makeFolders, makes]
              rfl
          | none =>
              cases wrote : made.write (projectPath folder name) (library.files.receive
                  (projectPath folder name) (.text (Json.written (.list blocks)))).1
                    library.now with
              | ok files =>
                  exact Or.inr ⟨files, rfl, run_writeProject_of_opened ⟨read, formed⟩ makes wrote⟩
              | error error =>
                  refine Or.inl ⟨.ofLibrary library.setup.root (.file error), ?_⟩
                  unfold writeProject
                  rw [run_get_bind, formed]
                  dsimp only
                  rw [run_bind, run_adapt, run_bind, run_makeFolders, makes]
                  dsimp only
                  rw [run_writeFile]
                  dsimp only
                  rw [Files.receive_of_makeFolders makes, wrote]
                  rfl

/-- A tune that is found and compiles gets into a project. -/
theorem run_compileScore_of_compiled {tune : Tune} {settings : Settings} {compilation : Compilation}
    {repeatCount : Datum} (found : library.found name = .ok tune)
    (accepted : Schema.settings (.mapping [("repeat_count", repeatCount)]) = .accepted settings)
    (compiles : tune.compile settings 0 = .ok compilation) (outputName : String) :
    ∃ reply : Path → ToolAnswer, (∀ path, (reply path).Succeeds) ∧
      (compileScore name outputName repeatCount).run library =
        match (writeProject library.setup.projects (if outputName = "" then name else outputName)
          compilation.graph.blocks).run (library.rememberAll (library.sought name)) with
        | (.ok path, after) => (.ok (reply path), after)
        | (.error error, after) => (.error (.install error.installError), after) := by
  refine ⟨fun path => .success [("path", .text (path.text library.setup.root)),
    ("compilation", compilation.document),
    ("message", .text ("Compiled score '" ++ name ++ "' to " ++
      path.text library.setup.root ++ "."))], fun path => rfl, ?_⟩
  unfold compileScore
  rw [run_bind, run_stored_eq, found]
  dsimp only
  rw [accepted]
  dsimp only
  rw [run_bind, run_compiled, compiles]
  dsimp only [Except.mapError]
  rw [run_get_bind, run_bind, run_adapt, setup_rememberAll]
  rcases (writeProject library.setup.projects
    (if outputName = "" then name else outputName) compilation.graph.blocks).run
      (library.rememberAll (library.sought name)) with ⟨_ | path, after⟩ <;> rfl

/-- Compiling a score fails before anything is touched, or it writes a project. -/
theorem compileScore_cases (name outputName : String) (repeatCount : Datum) (library : Library) :
    (∃ error, (compileScore name outputName repeatCount).run library =
      (.error error, library.rememberAll (library.sought name))) ∨
    ∃ tune settings compilation, library.found name = .ok tune ∧
      Schema.settings (.mapping [("repeat_count", repeatCount)]) = .accepted settings ∧
      tune.compile settings 0 = .ok compilation ∧
      ∃ reply : Path → ToolAnswer, (∀ path, (reply path).Succeeds) ∧
        (compileScore name outputName repeatCount).run library =
          match (writeProject library.setup.projects (if outputName = "" then name else outputName)
            compilation.graph.blocks).run (library.rememberAll (library.sought name)) with
          | (.ok path, after) => (.ok (reply path), after)
          | (.error error, after) => (.error (.install error.installError), after) := by
  cases found : library.found name with
  | error error =>
      refine Or.inl ⟨error, ?_⟩
      unfold compileScore
      rw [run_bind, run_stored_eq, found]
  | ok tune =>
      cases accepted : Schema.settings (.mapping [("repeat_count", repeatCount)]) with
      | refused faults =>
          refine Or.inl ⟨.settings faults, ?_⟩
          unfold compileScore
          rw [run_bind, run_stored_eq, found]
          dsimp only
          rw [accepted]
          rfl
      | accepted settings =>
          cases compiles : tune.compile settings 0 with
          | error error =>
              refine Or.inl ⟨.compile error, ?_⟩
              unfold compileScore
              rw [run_bind, run_stored_eq, found]
              dsimp only
              rw [accepted]
              dsimp only
              rw [run_bind, run_compiled, compiles]
              rfl
          | ok compilation =>
              exact Or.inr ⟨tune, settings, compilation, rfl, rfl, compiles,
                run_compileScore_of_compiled found accepted compiles outputName⟩

end Runs

section Scores

variable {files : Files} {reader : Reader}

/-- Of some paths the first that is present is the same if each of them is there as before. -/
theorem firstPresent?_congr {paths : List Path}
    (same : ∀ path ∈ paths, files.contains path = library.files.contains path) :
    firstPresent? files paths = firstPresent? library.files paths := by
  induction paths with
  | nil => rfl
  | cons path rest ih =>
      obtain ⟨here, later⟩ := List.forall_mem_cons.mp same
      rw [firstPresent?, firstPresent?, here, ih later]

/-- The first path at which there is something is one of the paths. -/
theorem mem_of_firstPresent? {paths : List Path} {path : Path}
    (present : firstPresent? files paths = .ok (some path)) : path ∈ paths := by
  induction paths with
  | nil => cases present
  | cons first rest ih =>
      obtain ⟨there, -, next⟩ := bind_eq_ok_iff.mp present
      cases there with
      | true =>
          cases next
          exact List.mem_cons_self
      | false => exact List.mem_cons_of_mem _ (ih next)

/-- A score is read alike where a path is met alike. -/
theorem score_congr {path : Path} (same : files.locate path = library.files.locate path) :
    files.score reader path = library.files.score reader path := by
  rw [Files.score, Files.score, Files.read_congr same]

/-- Where no score file of a name differs, the files have the same tune for it. -/
theorem filed_of_same (after : Library) (setup : after.setup = library.setup)
    (same : ∀ path ∈ library.candidates name,
      after.files.locate path = library.files.locate path) :
    after.filed name = library.filed name := by
  have candidates : after.candidates name = library.candidates name := by
    rw [candidates, candidates, setup]
  have first : firstPresent? after.files (library.candidates name) =
      firstPresent? library.files (library.candidates name) :=
    firstPresent?_congr fun path member => Files.contains_congr (same path member)
  rw [filed, filed, candidates, first, setup]
  cases present : firstPresent? library.files (library.candidates name) with
  | error error => rfl
  | ok found =>
      cases found with
      | none => rfl
      | some path =>
          dsimp only
          rw [score_congr (same path (mem_of_firstPresent? present))]

end Scores

section Queries

/-- The library after a request is the one in which it was performed. -/
theorem snd_answer (library : Library) (request : ToolRequest) :
    (library.answer request).2 = ((perform request).run library).2 := by
  unfold Library.answer
  rcases (perform request).run library with ⟨_ | _, after⟩ <;> rfl

/-- A query that only reads leaves a library that remembers what was read. -/
theorem snd_run_reading (request : ToolRequest) (isQuery : request.isQuery = true)
    (reads : ∀ name outputName repeatCount,
      request ≠ .compileScore name outputName repeatCount) (library : Library) :
    ((perform request).run library).2 = library.rememberAll (library.loaded request) := by
  cases request with
  | importScore => cases isQuery
  | deleteScore => cases isQuery
  | compileScore name outputName repeatCount => exact (reads _ _ _ rfl).elim
  | getScore name =>
      refine (snd_run_bind (fun _ _ => rfl) library).trans ?_
      rw [run_stored_eq]
      rfl
  | listScores =>
      refine (snd_run_bind (fun _ _ => rfl) library).trans ?_
      rw [run_adapt, run_summaries]
      rfl
  | validateScore name =>
      refine (snd_run_bind (fun _ _ => rfl) library).trans ?_
      rw [run_stored_eq]
      rfl
  | compileInline json startId =>
      exact (show Preserves (· = library) _ from preserves_compileInline json startId) library rfl
  | describeGraph name includeNodes =>
      refine (snd_run_bind (fun tune library => ?_) library).trans ?_
      · exact (show Preserves (· = library) _ from
          (Preserves.ofExcept _).bind fun _ => .pure _) library rfl
      · rw [run_stored_eq]
        rfl

/-- Compiling a score leaves a library that remembers what was read, with a project among its
files. -/
theorem snd_run_compileScore (name outputName : String) (repeatCount : Datum)
    (library : Library) : ∃ files,
      Files.Extended library.setup.projects
        (projectPath library.setup.projects (if outputName = "" then name else outputName))
        library.files files ∧
      ((compileScore name outputName repeatCount).run library).2 =
        { library.rememberAll (library.sought name) with files } := by
  rcases compileScore_cases name outputName repeatCount library with
    ⟨error, ran⟩ | ⟨tune, settings, compilation, -, -, -, reply, -, ran⟩
  · rw [ran]
    refine ⟨library.files, .refl _ _ _, ?_⟩
    rw [← files_rememberAll library]
  · obtain ⟨made, grown, written⟩ := writeProject_cases library.setup.projects
      (if outputName = "" then name else outputName) compilation.graph.blocks
      (library.rememberAll (library.sought name))
    rw [files_rememberAll] at grown
    rcases written with ⟨error, writes⟩ | ⟨files, wrote, writes⟩
    · rw [ran, writes]
      exact ⟨made, ⟨made, grown, Or.inl rfl⟩, rfl⟩
    · rw [ran, writes]
      refine ⟨files, ⟨made, grown, Or.inr ⟨_, _, (Files.write_eq_ok_iff.mp wrote).2.symm⟩⟩, ?_⟩
      cases projectOutcome (library.rememberAll (library.sought name)) library.setup.projects
        (if outputName = "" then name else outputName) compilation.graph.blocks <;> rfl

/-- A query leaves a library that remembers what was read from score files. Its files have changed
nowhere but where the query can be noticed. -/
theorem snd_answer_of_isQuery (tree : library.files.IsTree) {request : ToolRequest}
    (isQuery : request.isQuery = true) : ∃ files,
      (∀ path, files.locate path = library.files.locate path ∨
        request.Disturbs library.setup path) ∧
      (library.answer request).2 = { library.rememberAll (library.loaded request) with files } := by
  rw [snd_answer]
  by_cases reads : ∀ name outputName repeatCount,
      request ≠ .compileScore name outputName repeatCount
  · rw [snd_run_reading request isQuery reads]
    refine ⟨library.files, fun path => Or.inl rfl, ?_⟩
    rw [← files_rememberAll library]
  · simp only [not_forall, not_not] at reads
    obtain ⟨name, outputName, repeatCount, rfl⟩ := reads
    obtain ⟨files, extended, left⟩ := snd_run_compileScore name outputName repeatCount library
    refine ⟨files, fun path => ?_, left⟩
    by_cases apart : projectPath library.setup.projects
        (if outputName = "" then name else outputName) <+: path
    · exact Or.inr (Or.inl apart)
    · by_cases off : Path.OffWay library.setup.projects path
      · exact Or.inl (extended.locate tree apart off)
      · exact Or.inr (Or.inr off)

/-- What is answered to a request for a score. -/
theorem answer_getScore (library : Library) (name : String) :
    (library.answer (.getScore name)).1 = match library.found name with
      | .ok tune => some (.success [("score", tune.document)] false)
      | .error error => (error.message? library.setup.root).map .failure := by
  have ran : (perform (.getScore name)).run library = ((library.found name).map fun tune =>
      .success [("score", tune.document)] false, library.rememberAll (library.sought name)) := by
    show (getScore name).run library = _
    unfold getScore
    rw [run_bind, run_stored_eq]
    cases library.found name <;> rfl
  unfold Library.answer
  rw [ran]
  cases library.found name <;> rfl

end Queries

variable {setup : Setup}

/-- After a query a request for a score is answered with the last tune of its name that the query
has read from a score file. If it has read none, the answer is what it was before. It is only
otherwise if the query has put a project file, or folders for one, in the way of the score. -/
theorem getScore_after_query (reached : Reachable setup library) {request : ToolRequest}
    (isQuery : request.isQuery = true) (name : String) :
    ((library.answer request).2.answer (.getScore name)).1 =
        (match (library.loaded request).reverse.find? (·.name == name) with
        | some tune => some (.success [("score", tune.document)] false)
        | none => (library.answer (.getScore name)).1) ∨
      ∃ path ∈ library.candidates name, request.Disturbs setup path := by
  obtain ⟨files, same, after⟩ := snd_answer_of_isQuery reached.isTree isQuery
  rw [reached.setup_eq] at same
  by_cases undisturbed : ∀ path ∈ library.candidates name, files.locate path =
      library.files.locate path
  · refine Or.inl ?_
    have filed := filed_of_same { library.rememberAll (library.loaded request) with files }
      (setup_rememberAll library _) undisturbed
    rw [after, answer_getScore, answer_getScore]
    have known : Library.known? { library.rememberAll (library.loaded request) with files } name =
        ((library.loaded request).reverse.find? (·.name == name)).or (library.known? name) :=
      known?_rememberAll library _ name
    rw [found, found, known, filed]
    cases (library.loaded request).reverse.find? (·.name == name) with
    | some tune => rfl
    | none =>
        dsimp only [Option.none_or]
        rw [setup_rememberAll]
  · simp only [not_forall] at undisturbed
    obtain ⟨path, member, differs⟩ := undisturbed
    exact Or.inr ⟨path, member, (same path).resolve_left differs⟩

/-- The setup of a library that reads YAML. -/
def yamlSetup : Setup := { root := "library", reader := Yaml.reader }

/-- A library that has nothing. -/
def emptyLibrary : Library where
  setup := yamlSetup

/-- A folder of scores is inside the root. -/
theorem isTree_scoresFolder : (({} : Files).put ["scores"] .folder).IsTree :=
  show (({} : Files).put ([] ++ ["scores"]) .folder).IsTree from
    Files.isTree_empty.put rfl (by exact nofun) .folder

/-- The text of a reel without lines that has a title. -/
def reelJson (title : String) : String := Json.write {} (.mapping [("name", .text "reel"),
  ("metaText", .mapping [("title", .text title)]), ("lines", .list [])])

/-- A library with a reel in a file that has been imported once more without being saved. -/
def revisedLibrary : Library :=
  ((emptyLibrary.answer (.importScore (reelJson "first"))).2.answer
    (.importScore (reelJson "second") .null false)).2

/-- The library with a revised tune is reached by its requests. -/
theorem reachable_revisedLibrary : Reachable yamlSetup revisedLibrary :=
  .request _ (.request _ .fresh)

theorem getScore_after_list_reel :
    Reachable yamlSetup revisedLibrary ∧ ToolRequest.listScores.isQuery = true ∧
    ∃ tune : Tune, tune.title = "first" ∧
      ((revisedLibrary.answer .listScores).2.answer (.getScore "reel")).1 =
        some (.success [("score", tune.document)] false) := by
  have last : ((revisedLibrary.loaded .listScores).reverse.find? (·.name == "reel")).map
      (·.title) = some "first" := by decide +kernel
  obtain ⟨tune, found, title⟩ := Option.map_eq_some_iff.mp last
  have isQuery : ToolRequest.listScores.isQuery = true := rfl
  have after := getScore_after_query reachable_revisedLibrary isQuery "reel"
  rw [found] at after
  refine ⟨reachable_revisedLibrary, isQuery, tune, title, after.resolve_right ?_⟩
  rintro ⟨path, -, disturbed⟩
  exact disturbed

/-- A list of scores brings back the reel as it was before it was imported once more. -/
theorem getScore_changed_by_list :
    Reachable yamlSetup revisedLibrary ∧ ToolRequest.listScores.isQuery = true ∧
    (revisedLibrary.answer (.getScore "reel")).1 ≠
      ((revisedLibrary.answer .listScores).2.answer (.getScore "reel")).1 := by
  have before : (revisedLibrary.answer (.getScore "reel")).1.bind (fun answer =>
      (((answer.document.get "score").get "metaText").get "title").text?) =
      some "second" := by decide +kernel
  have after : ((revisedLibrary.answer .listScores).2.answer (.getScore "reel")).1.bind
      (fun answer => (((answer.document.get "score").get "metaText").get "title").text?) =
      some "first" := by decide +kernel
  refine ⟨reachable_revisedLibrary, rfl, fun same => ?_⟩
  rw [same, after] at before
  exact absurd (Option.some.inj before) (by decide)

end Library

end TuneGraph
