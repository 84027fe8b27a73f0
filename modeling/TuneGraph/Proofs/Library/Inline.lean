import TuneGraph.Document.Yaml.Reader
import TuneGraph.Proofs.Compile.Assemble
import TuneGraph.Proofs.Compile.Staves
import TuneGraph.Proofs.Document.Parsed
import TuneGraph.Proofs.Document.Pieces
import TuneGraph.Proofs.Library.Session
import TuneGraph.Proofs.Score.Readable

/-! # Compiling a stored score is compiling it inline

A tune that is imported, saved and found again by a library that has forgotten it is the tune that
is read inline, but for its name, and the name of a tune does not get into its blocks. So the
project file of a stored score holds the blocks that the same text is compiled to without being
stored (`Library.compile_stored`).
-/

namespace TuneGraph

open LibraryAction
open Text (Shows)

/-- The blocks of a graph are well-formed. -/
theorem Graph.returns_readAll_blocks (graph : Graph) : Returns (Block.readAll graph.blocks) := by
  refine returns_mapM_iff.mpr fun block member => ?_
  obtain ⟨node, -, rfl⟩ := List.mem_map.mp member
  exact ⟨⟨node.id, node.block⟩, rfl⟩

/-- Whether an answer says that its request succeeded. -/
def ToolAnswer.Succeeds (answer : ToolAnswer) : Prop :=
  (answer.document.get "status").text? = some "success"

/-- An answer that tells of a failure does not say that its request succeeded. -/
theorem not_succeeds_failure (message : String) : ¬(ToolAnswer.failure message).Succeeds :=
  fun succeeds => absurd (Option.some.inj succeeds) (by decide)

namespace Library

variable {library after : Library} {name json : String} {tune : Tune} {answer : ToolAnswer}
  {compilation : Compilation}

/-- Whether a request succeeds in a library. -/
def Succeeds (library : Library) (request : ToolRequest) : Prop :=
  ∃ answer, (library.answer request).1 = some answer ∧ answer.Succeeds

/-- The status that an answer tells. -/
def statusOf (answer : ToolAnswer) : Option String := (answer.document.get "status").text?

/-- The status that an answer tells, and the name of the score that it is about. -/
def statusAndName (answer : ToolAnswer) : Option String × Option String :=
  (statusOf answer, ((answer.document.get "score").get "name").text?)

/-- Whether the project file of a name can be written with blocks: its folder is there or can be
made, it takes the file, the disk takes all of it, and there are no lone surrogates in it. -/
structure CanWriteProject (library : Library) (name : String) (blocks : List Datum) : Prop where
  made : (library.files.makeFolders library.setup.projects).2 = none
  taken : ∃ content, Returns ((library.files.makeFolders library.setup.projects).1.write
    (projectPath library.setup.projects name) content library.now)
  whole : (library.files.makeFolders library.setup.projects).1.disk.breaksOff
    (projectPath library.setup.projects name) (.text (Json.written (.list blocks))) = none
  encodable : ∀ message, Json.obstacle? (.list blocks) ≠ some (.surrogates message)

/-- Only a request that fails is answered with an error. -/
theorem perform_of_succeeds {request : ToolRequest}
    (answered : library.answer request = (some answer, after)) (succeeds : answer.Succeeds) :
    (perform request).run library = (.ok answer, after) := by
  unfold Library.answer at answered
  split at answered
  next done =>
    cases answered
    exact done
  next =>
    obtain ⟨failure, rfl⟩ := Prod.mk.inj answered
    obtain ⟨message, -, rfl⟩ := Option.map_eq_some_iff.mp failure
    exact (not_succeeds_failure _ succeeds).elim

/-- An import that succeeds ends with saving the tune that the text is read as, and tells its
name. -/
theorem exists_save {named : Datum}
    (done : (importScore json named true).run library = (.ok answer, after)) :
    ∃ document tune path, Json.parse json = .ok document ∧ Tune.read document named = .ok tune ∧
      (save tune).run (library.remember tune) = (.ok path, after) ∧
      (answer.document.get "score").get "name" = .text tune.name := by
  unfold importScore parseJson at done
  cases parsed : Json.parse json with
  | error fault =>
      rw [parsed] at done
      cases done
  | ok document =>
      rw [parsed, run_get_bind] at done
      obtain ⟨_, _, same, done⟩ := run_bind_eq_ok_iff.mp done
      cases same
      obtain ⟨tune, _, importing, done⟩ := run_bind_eq_ok_iff.mp done
      obtain ⟨read, rfl⟩ := run_importDocument_eq_ok_iff.mp (run_adapt_eq_ok_iff.mp importing)
      obtain ⟨path, _, saving, done⟩ := run_bind_eq_ok_iff.mp done
      obtain ⟨place, _, saves, same⟩ := run_bind_eq_ok_iff.mp saving
      cases done
      cases same
      exact ⟨document, tune, place, rfl, read, run_adapt_eq_ok_iff.mp saves, rfl⟩

/-- An import that succeeds has saved the tune that the text is read as, and tells its name. -/
theorem exists_imported {named : Datum}
    (done : (importScore json named true).run library = (.ok answer, after)) :
    ∃ document tune, Json.parse json = .ok document ∧ Tune.read document named = .ok tune ∧
      after.Saved tune ∧ (answer.document.get "score").get "name" = .text tune.name := by
  obtain ⟨document, tune, path, parsed, read, saves, isName⟩ := exists_save done
  exact ⟨document, tune, parsed, read, saved_of_save saves, isName⟩

/-- What comes of a project whose file has been opened: its path, if the disk takes all of the text
and nothing stops the blocks. -/
def projectOutcome (library : Library) (folder : Path) (name : String) (blocks : List Datum) :
    Except HostError Path :=
  match (library.files.receive (projectPath folder name)
      (.text (Json.written (.list blocks)))).2, Json.obstacle? (.list blocks) with
  | some error, _ => .error (.ofLibrary library.setup.root (.file error))
  | none, some obstacle => .error (.ofObstacle obstacle)
  | none, none => .ok (projectPath folder name)

/-- A project whose file can be opened receives what can be written of its blocks. -/
theorem run_writeProject_of_opened {folder : Path} {blocks : List Datum} {made files : Files}
    (formed : Returns (Block.readAll blocks))
    (makes : library.files.makeFolders folder = (made, none))
    (wrote : made.write (projectPath folder name) (library.files.receive (projectPath folder name)
      (.text (Json.written (.list blocks)))).1 library.now = .ok files) :
    (writeProject folder name blocks).run library =
      (library.projectOutcome folder name blocks, { library with files }) := by
  obtain ⟨read, formed⟩ := formed
  unfold writeProject projectOutcome
  rw [run_get_bind, formed]
  dsimp only
  rw [run_bind, run_adapt, run_bind, run_makeFolders, makes]
  dsimp only
  rw [run_writeFile]
  dsimp only
  rw [Files.receive_of_makeFolders makes, wrote]
  dsimp only
  cases (library.files.receive (projectPath folder name)
      (.text (Json.written (.list blocks)))).2 with
  | some error => rfl
  | none => cases Json.obstacle? (.list blocks) <;> rfl

/-- A project that can be written holds its blocks afterwards. -/
theorem run_writeProject {blocks : List Datum} (formed : Returns (Block.readAll blocks))
    (fits : Json.fits (.list blocks) = true) (writable : library.CanWriteProject name blocks) :
    ∃ files modified, (writeProject library.setup.projects name blocks).run library =
      (.ok (projectPath library.setup.projects name), { library with files }) ∧
      files.read (projectPath library.setup.projects name) =
        .ok (.text (Json.write {} (.list blocks)), modified) := by
  have unstopped : Json.obstacle? (.list blocks) = none := by
    cases stops : Json.obstacle? (.list blocks) with
    | none => rfl
    | some obstacle =>
        cases obstacle with
        | tooLong => exact (Json.obstacle?_ne_tooLong fits stops).elim
        | surrogates message => exact (writable.encodable message stops).elim
  have whole := writable.whole
  rw [Files.disk_makeFolders] at whole
  have received : library.files.receive (projectPath library.setup.projects name)
      (.text (Json.written (.list blocks))) = (.text (Json.written (.list blocks)), none) := by
    rw [Files.receive, whole]
  obtain ⟨content, final, written⟩ := writable.taken
  have wrote := Files.write_of_accepts (Files.accepts_of_write written)
    (.text (Json.written (.list blocks))) library.now
  have outcome : library.projectOutcome library.setup.projects name blocks =
      .ok (projectPath library.setup.projects name) := by
    rw [projectOutcome, received, unstopped]
  rw [← Json.written_of_unobstructed unstopped, ← outcome]
  refine ⟨_, _, run_writeProject_of_opened formed (Prod.ext rfl writable.made) ?_,
    Files.read_of_write wrote⟩
  rw [received]
  exact wrote

/-- A project is not written if its blocks cannot be written out. -/
theorem run_writeProject_ne_ok {blocks : List Datum} (unfit : Json.fits (.list blocks) = false)
    (folder : Path) (name : String) (place : Path) :
    (writeProject folder name blocks).run library ≠ (.ok place, after) := by
  intro done
  unfold writeProject at done
  rw [run_get_bind] at done
  cases formed : Block.readAll blocks with
  | error error =>
      rw [formed] at done
      cases done
  | ok read =>
      rw [formed] at done
      obtain ⟨_, middle, -, done⟩ := run_bind_eq_ok_iff.mp done
      cases stops : Json.obstacle? (.list blocks) with
      | none => exact Bool.false_ne_true (unfit.symm.trans (Json.fits_of_unobstructed stops))
      | some obstacle =>
          rw [stops] at done
          cases done

/-- A compilation repeats twice if nothing else is asked for. -/
theorem settings_of_default :
    Schema.settings (.mapping [("repeat_count", .integer 2)]) = .accepted .standard := by
  simp only [Schema.settings, Schema.record, Schema.defaulted, Datum.find?, List.find?_cons,
    List.find?_nil, beq_self_eq_true, Option.map_some, Option.map_none, String.reduceBEq]
  rfl

/-- The tune that is found under a name is the stored one. -/
theorem run_stored (found : (find? name).run library = (.ok (some tune), after)) :
    (stored name).run library = (.ok tune, after) :=
  run_bind_eq_ok_iff.mpr ⟨some tune, after, run_adapt_eq_ok_iff.mpr found, rfl⟩

/-- Compiling changes nothing. -/
theorem run_compiled (tune : Tune) (settings : Settings) (startId : Int) (library : Library) :
    (liftM (compiled tune settings startId) : LibraryAction ToolError Compilation).run library =
      ((tune.compile settings startId).mapError ToolError.compile, library) := by
  unfold compiled
  cases tune.compile settings startId <;> rfl

/-- A stored tune that compiles is compiled into a file with its blocks. -/
theorem run_compileScore_of_ok (found : (find? name).run library = (.ok (some tune), after))
    (compiles : tune.compile .standard 0 = .ok compilation)
    (fits : Json.fits (.list compilation.graph.blocks) = true)
    (writable : after.CanWriteProject name compilation.graph.blocks) :
    ∃ answer files modified, (compileScore name "" (.integer 2)).run library =
        (.ok answer, { after with files }) ∧ answer.Succeeds ∧
      answer.document.get "path" =
        .text ((projectPath after.setup.projects name).text after.setup.root) ∧
      files.read (projectPath after.setup.projects name) =
        .ok (.text (Json.write {} (.list compilation.graph.blocks)), modified) := by
  obtain ⟨files, modified, written, read⟩ :=
    run_writeProject compilation.graph.returns_readAll_blocks fits writable
  let place := (projectPath after.setup.projects name).text after.setup.root
  refine ⟨.success [("path", .text place), ("compilation", compilation.document),
    ("message", .text ("Compiled score '" ++ name ++ "' to " ++ place ++ "."))], files, modified,
    ?_, rfl, rfl, read⟩
  unfold compileScore
  refine run_bind_eq_ok_iff.mpr ⟨tune, after, run_stored found, ?_⟩
  rw [settings_of_default]
  refine run_bind_eq_ok_iff.mpr ⟨compilation, after, ?_, ?_⟩
  · rw [run_compiled, compiles]
    rfl
  rw [run_get_bind]
  exact run_bind_eq_ok_iff.mpr ⟨_, _, run_adapt_eq_ok_iff.mpr written, rfl⟩

/-- A stored tune that does not compile is answered with an error. -/
theorem run_compileScore_of_error {fault : CompileError}
    (found : (find? name).run library = (.ok (some tune), after))
    (fails : tune.compile .standard 0 = .error fault) :
    (compileScore name "" (.integer 2)).run library = (.error (.compile fault), after) := by
  unfold compileScore
  rw [run_bind, run_stored found]
  simp only [settings_of_default]
  rw [run_bind, run_compiled, fails]
  rfl

/-- A stored tune whose blocks cannot be written out is not compiled, either. -/
theorem run_compileScore_ne_ok {last : Library}
    (found : (find? name).run library = (.ok (some tune), after))
    (compiles : tune.compile .standard 0 = .ok compilation)
    (unfit : Json.fits (.list compilation.graph.blocks) = false) :
    (compileScore name "" (.integer 2)).run library ≠ (.ok answer, last) := by
  intro done
  unfold compileScore at done
  rw [run_bind, run_stored found] at done
  simp only [settings_of_default] at done
  rw [run_bind, run_compiled, compiles] at done
  dsimp only [Except.mapError] at done
  rw [run_get_bind] at done
  obtain ⟨place, middle, written, -⟩ := run_bind_eq_ok_iff.mp done
  exact run_writeProject_ne_ok unfit _ _ _ (run_adapt_eq_ok_iff.mp written)

/-- A JSON text is parsed before anything else. -/
theorem run_parseJson {document : Datum} (parsed : Json.parse json = .ok document)
    (library : Library) :
    (liftM (parseJson json) : LibraryAction ToolError Datum).run library =
      (.ok document, library) := by
  rw [parseJson, parsed]
  rfl

/-- A tune that is compiled inline is answered with its blocks, or with an error. -/
theorem run_compileInline {document : Datum} (parsed : Json.parse json = .ok document)
    (read : Tune.read document .null = .ok tune) (startId : Int) (library : Library) :
    (compileInline json startId).run library = match tune.compile .standard startId with
      | .ok compilation =>
        (if Json.fits (.list compilation.graph.blocks) then
          .ok (.success [("blocks", .list compilation.graph.blocks),
            ("summary", compilation.graph.summary), ("next_id", .integer compilation.nextId)] false)
          else .error .tooLong, library)
      | .error fault => (.error (.compile fault), library) := by
  unfold compileInline
  simp only [run_bind, run_parseJson parsed, read, run_compiled]
  cases tune.compile .standard startId with
  | error fault => rfl
  | ok compilation => cases fits : Json.fits (.list compilation.graph.blocks) <;> simp only [
      Except.mapError, fits, Bool.false_eq_true, ↓reduceIte] <;> rfl

/-- A request that is performed is answered with its result. -/
theorem answer_of_ok (request : ToolRequest)
    (done : (perform request).run library = (.ok answer, after)) :
    library.answer request = (some answer, after) := by
  rw [Library.answer, done]

/-- A request that fails is answered with its error, if that has a wording. -/
theorem answer_of_error (request : ToolRequest) {error : ToolError}
    (done : (perform request).run library = (.error error, after)) :
    library.answer request =
      ((error.message? library.setup.root).map ToolAnswer.failure, after) := by
  rw [Library.answer, done]

/-- A request succeeds exactly if it is performed with an answer that says so. -/
theorem succeeds_iff {request : ToolRequest} : library.Succeeds request ↔
    ∃ answer after, (perform request).run library = (.ok answer, after) ∧ answer.Succeeds := by
  constructor
  · rintro ⟨answer, answered, succeeds⟩
    exact ⟨answer, _, perform_of_succeeds (Prod.ext answered rfl) succeeds, succeeds⟩
  · rintro ⟨answer, after, done, succeeds⟩
    exact ⟨answer, by rw [answer_of_ok request done], succeeds⟩

/-- A request that fails does not succeed. -/
theorem not_succeeds_of_error {request : ToolRequest} {error : ToolError}
    (done : (perform request).run library = (.error error, after)) :
    ¬library.Succeeds request := by
  rw [succeeds_iff]
  rintro ⟨answer, last, same, -⟩
  cases done.symm.trans same

/-- A score that was imported from a text is compiled, by a library that has forgotten it, exactly
if the text is compiled inline, and then its project file holds the blocks of the inline answer. The
reader has to get the saved tune back, and the blocks must get into the project file. -/
theorem compile_stored (elsewhere : Library) {named : Datum}
    (own : ∀ document said, Json.parse json = .ok document → document.get "name" = .text said →
      said = "" ∨ Shows said)
    (imported : library.answer (.importScore json named true) = (some answer, after))
    (succeeds : answer.Succeeds)
    (known : ((answer.document.get "score").get "name").text? = some name)
    (restores : ∀ tune, after.Saved tune → tune.name = name →
      Restores after.setup.reader tune)
    (writable : ∀ inline blocks, (elsewhere.answer (.compileInline json)).1 = some inline →
      inline.document.get "blocks" = .list blocks → after.restart.CanWriteProject name blocks) :
    (after.restart.Succeeds (.compileScore name) ↔ elsewhere.Succeeds (.compileInline json)) ∧
    ∀ inline, (elsewhere.answer (.compileInline json)).1 = some inline → inline.Succeeds →
      ∃ stored, (after.restart.answer (.compileScore name)).1 = some stored ∧
        stored.document.get "path" =
          .text ((projectPath after.setup.projects name).text after.setup.root) ∧
        ∃ modified, (after.restart.answer (.compileScore name)).2.files.read
          (projectPath after.setup.projects name) =
            .ok (.text (Json.write {} (inline.document.get "blocks")), modified) := by
  obtain ⟨document, tune, parsed, read, saved, isName⟩ :=
    exists_imported (perform_of_succeeds imported succeeds)
  rw [isName] at known
  cases known
  have found : (find? tune.name).run after.restart =
      (.ok (some tune), after.restart.remember tune) :=
    run_find?_of_saved (restores tune saved rfl) (Tune.storable_of_read read) saved rfl
  have sayable := Json.isSayable_of_fits (Json.fits_get (Json.fits_of_parse parsed) "name")
  obtain ⟨other, unnamed⟩ := Tune.exists_read_unnamed read sayable fun said =>
    own document said parsed
  have inline := run_compileInline parsed unnamed 0 elsewhere
  rw [Tune.compile_rename] at inline
  have outcome : (¬after.restart.Succeeds (.compileScore tune.name) ∧
      ¬elsewhere.Succeeds (.compileInline json)) ∨ ∃ compilation,
        tune.compile .standard 0 = .ok compilation ∧
          Json.fits (.list compilation.graph.blocks) = true := by
    cases compiles : tune.compile .standard 0 with
    | error fault =>
        rw [compiles] at inline
        exact Or.inl ⟨not_succeeds_of_error (run_compileScore_of_error found compiles),
          not_succeeds_of_error inline⟩
    | ok compilation =>
        rw [compiles] at inline
        cases fits : Json.fits (.list compilation.graph.blocks) with
        | false =>
            have blocks : Json.fits (.list (compilation.rename other).graph.blocks) = false := fits
            simp only [Except.map, blocks] at inline
            refine Or.inl ⟨fun stored => ?_, not_succeeds_of_error inline⟩
            obtain ⟨answer, last, done, -⟩ := succeeds_iff.mp stored
            exact run_compileScore_ne_ok found compiles fits done
        | true => exact Or.inr ⟨compilation, rfl, fits⟩
  rcases outcome with ⟨stored, inlined⟩ | ⟨compilation, compiles, fits⟩
  · exact ⟨iff_of_false stored inlined, fun answer answered success =>
      (inlined ⟨answer, answered, success⟩).elim⟩
  · have blocks : (compilation.rename other).graph.blocks = compilation.graph.blocks := rfl
    rw [compiles] at inline
    simp only [Except.map, blocks, fits, ↓reduceIte] at inline
    have answered := answer_of_ok (.compileInline json) inline
    have can := writable _ compilation.graph.blocks (by rw [answered]) rfl
    obtain ⟨filed, files, modified, stored, success, path, holds⟩ :=
      run_compileScore_of_ok found compiles fits ⟨can.made, can.taken, can.whole, can.encodable⟩
    have kept := answer_of_ok (.compileScore tune.name) stored
    refine ⟨iff_of_true ⟨filed, by rw [kept], success⟩
      (succeeds_iff.mpr ⟨_, _, inline, rfl⟩), ?_⟩
    intro inline same succeeds
    rw [answered] at same
    obtain rfl := Option.some.inj same
    rw [kept]
    exact ⟨filed, rfl, path, modified, holds⟩

/-- A library that has another tune, an unreadable score and an old project under one name. -/
def crowdedLibrary : Library where
  setup := { root := "library", reader := Yaml.reader }
  files := { entries := [(["scores"], .folder),
    (["scores", "My_Song.tune.yaml"], .file (.text "-") 1),
    (["output"], .folder), (["output", "My_Song.json"], .file (.text "[]") 2)] }
  memory := [("My Song", { name := "My Song" })]
  now := 3

/-- The text of a song of one note that has a name of its own. -/
def songJson : String := Json.write {} (.mapping [("name", .text " Night Song "),
  ("lines", .list [.mapping [("staff", .list [.mapping [("voices", .list
    [.list [.mapping [("el_type", .text "note")]]])]])]])])

/-- The song is imported under another name. -/
def songRequest : ToolRequest := .importScore songJson (.text "My Song")

/-- The song under its own name. -/
def nightSong : Tune := { Tune.ofVoices [[.note {}]] with name := "Night Song" }

/-- Nothing stops the blocks of the song on their way into a file. -/
theorem obstacle?_nightSong : ((nightSong.compile .standard 0).toOption.map fun compilation =>
    Json.obstacle? (.list compilation.graph.blocks)) = some none := by
  rw [show nightSong.compile .standard 0 =
    nightSong.compile { Settings.standard with checkGraph := false } 0 from
      Tune.compile_checkGraph nightSong .standard 0 true false]
  decide +kernel

/-- The reader of YAML gets back every tune that is in a file as a document. -/
theorem restores_yamlReader (tune : Tune) : Restores Yaml.reader tune := rfl

/-- The song is read under its own name, without the blanks around it. -/
theorem exists_songDocument : ∃ document, Json.parse songJson = .ok document ∧
    (document.get "name").text? = some " Night Song " ∧
    Tune.read document .null = .ok nightSong := by
  have named : ((Json.parse songJson).toOption.bind fun document => (document.get "name").text?) =
      some " Night Song " := by decide +kernel
  have reads : ((Json.parse songJson).toOption.bind fun document =>
      (Tune.read document .null).toOption) = some nightSong := by decide +kernel
  obtain ⟨document, parsed, read⟩ := Option.bind_eq_some_iff.mp reads
  rw [parsed] at named
  exact ⟨document, eq_ok_of_toOption parsed, named, eq_ok_of_toOption read⟩

/-- The song is compiled inline to blocks that nothing stops on their way into a file. -/
theorem exists_songBlocks : ∃ answer blocks,
    (perform (.compileInline songJson)).run crowdedLibrary = (.ok answer, crowdedLibrary) ∧
      answer.Succeeds ∧ answer.document.get "blocks" = .list blocks ∧
      Json.obstacle? (.list blocks) = none := by
  obtain ⟨document, parsed, -, read⟩ := exists_songDocument
  obtain ⟨compilation, compiled⟩ := (Tune.compile_returns nightSong Tune.standard_labelsFill
    (Int.le_refl 0)).1 (by decide)
  have unstopped := obstacle?_nightSong
  rw [compiled] at unstopped
  have unstopped := Option.some.inj unstopped
  have inline := run_compileInline parsed read 0 crowdedLibrary
  rw [compiled] at inline
  simp only [Json.fits_of_unobstructed unstopped, ↓reduceIte] at inline
  exact ⟨_, compilation.graph.blocks, inline, rfl, rfl, unstopped⟩

theorem compile_stored_song :
    (∀ document said, Json.parse songJson = .ok document → document.get "name" = .text said →
      said = "" ∨ Shows said) ∧
    ∃ answer after, crowdedLibrary.answer songRequest = (some answer, after) ∧ answer.Succeeds ∧
      ((answer.document.get "score").get "name").text? = some "My Song" ∧
      (∀ tune, after.Saved tune → tune.name = "My Song" → Restores after.setup.reader tune) ∧
      (∀ inline blocks, (crowdedLibrary.answer (.compileInline songJson)).1 = some inline →
        inline.document.get "blocks" = .list blocks →
          after.restart.CanWriteProject "My Song" blocks) ∧
      after.restart.Succeeds (.compileScore "My Song") ∧
      crowdedLibrary.Succeeds (.compileInline songJson) ∧
      ∃ inline stored modified,
        (crowdedLibrary.answer (.compileInline songJson)).1 = some inline ∧
        (after.restart.answer (.compileScore "My Song")).1 = some stored ∧
        stored.document.get "path" =
          .text ((projectPath after.setup.projects "My Song").text after.setup.root) ∧
        (after.restart.answer (.compileScore "My Song")).2.files.read
          (projectPath after.setup.projects "My Song") =
            .ok (.text (Json.write {} (inline.document.get "blocks")), modified) := by
  obtain ⟨document, parsed, named, read⟩ := exists_songDocument
  have own : ∀ other said, Json.parse songJson = .ok other → other.get "name" = .text said →
      said = "" ∨ Shows said := by
    intro other said same isName
    obtain rfl := Except.ok.inj (parsed.symm.trans same)
    rw [isName] at named
    obtain rfl := Option.some.inj named
    exact Or.inr ⟨'N', by decide, by decide⟩
  obtain ⟨inline, blocks, compiled, success, isBlocks, unstopped⟩ := exists_songBlocks
  have inlined : crowdedLibrary.Succeeds (.compileInline songJson) :=
    succeeds_iff.mpr ⟨inline, _, compiled, success⟩
  have answered : (crowdedLibrary.answer (.compileInline songJson)).1 = some inline := by
    rw [answer_of_ok _ compiled]
  have told : (crowdedLibrary.answer songRequest).1.map statusAndName =
      some (some "success", some "My Song") := by decide +kernel
  have made : ((crowdedLibrary.answer songRequest).2.files.makeFolders ["output"]).2 = none := by
    decide +kernel
  have written : (((crowdedLibrary.answer songRequest).2.files.makeFolders ["output"]).1.write
      (projectPath ["output"] "My Song") (.text "")
      (crowdedLibrary.answer songRequest).2.now).toOption.isSome = true := by decide +kernel
  have setup := (stable_setup crowdedLibrary.setup).answer rfl songRequest
  have disk : (crowdedLibrary.answer songRequest).2.files.disk = {} :=
    (stable_disk {}).answer rfl songRequest
  obtain ⟨⟨imported, after⟩, same⟩ : ∃ result, crowdedLibrary.answer songRequest = result :=
    ⟨_, rfl⟩
  rw [same] at told made written setup disk
  dsimp only at setup disk
  obtain ⟨answer, rfl, both⟩ := Option.map_eq_some_iff.mp told
  obtain ⟨status, known⟩ := Prod.mk.inj both
  obtain ⟨files, written⟩ := Option.isSome_iff_exists.mp written
  have restores : ∀ tune, after.Saved tune → tune.name = "My Song" →
      Restores after.setup.reader tune := by
    intro tune _ _
    rw [setup]
    exact restores_yamlReader tune
  have writable : ∀ other blocks,
      (crowdedLibrary.answer (.compileInline songJson)).1 = some other →
        other.document.get "blocks" = .list blocks →
          after.restart.CanWriteProject "My Song" blocks := by
    intro other more again isMore
    obtain rfl := Option.some.inj (answered.symm.trans again)
    obtain rfl := Datum.list.inj (isBlocks.symm.trans isMore)
    have projects : after.restart.setup.projects = ["output"] := by
      show after.setup.projects = ["output"]
      rw [setup]
      rfl
    constructor
    · rw [projects]
      exact made
    · rw [projects]
      exact ⟨.text "", files, eq_ok_of_toOption written⟩
    · rw [Files.disk_makeFolders]
      show after.files.disk.breaksOff _ _ = none
      rw [disk]
    · intro message stops
      rw [unstopped] at stops
      cases stops
  have agree := compile_stored crowdedLibrary own same status known restores writable
  obtain ⟨stored, kept, path, modified, holds⟩ := agree.2 inline answered success
  exact ⟨own, answer, after, same, status, known, restores, writable, agree.1.mpr inlined, inlined,
    inline, stored, modified, answered, kept, path, holds⟩

end Library

end TuneGraph
