import TuneGraph.Proofs.Library.Query

/-! # What an import does

An import is refused for its arguments, or it remembers the tune that its text is read as and saves
it if that is wanted (`Library.importScore_cases`). A tune is saved by making the folder of the
scores and writing its score there. Either step can fail, and the score may be left with a part of
what it was to hold (`Library.save_cases`).
-/

namespace TuneGraph

open LibraryAction

/-- The tune that an import stores. -/
def ToolRequest.tune? : ToolRequest → Option Tune
  | .importScore json name _ =>
    (Json.parse json).toOption.bind fun document => (Tune.read document name).toOption
  | _ => none

namespace Library

variable {library after : Library} {tune : Tune}

/-- An import is refused for its arguments, or it remembers its tune, saves it if that is wanted,
and then succeeds. -/
theorem importScore_cases (json : String) (named : Datum) (saved : Bool) (library : Library) :
    ((ToolRequest.importScore json named).tune? = none ∧
      ∃ error, (importScore json named saved).run library = (.error error, library)) ∨
    ∃ tune, (ToolRequest.importScore json named).tune? = some tune ∧
      ∃ reply : Option Path → ToolAnswer, (∀ path, (reply path).Succeeds) ∧
        (importScore json named saved).run library =
          match saved, (save tune).run (library.remember tune) with
          | false, _ => (.ok (reply none), library.remember tune)
          | true, (.ok path, after) => (.ok (reply (some path)), after)
          | true, (.error error, after) => (.error (.library error), after) := by
  unfold importScore parseJson
  rw [ToolRequest.tune?]
  cases Json.parse json with
  | error fault => exact Or.inl ⟨rfl, _, rfl⟩
  | ok document =>
      show (Option.bind (some document) _ = none ∧ ∃ error,
        (((importDocument document named).adapt ToolError.library >>= _).run library) = _) ∨ _
      rw [Option.bind_some, run_bind, run_adapt, run_importDocument]
      cases read : Tune.read document named with
      | error fault => exact Or.inl ⟨rfl, _, rfl⟩
      | ok tune =>
          refine Or.inr ⟨tune, ?_, fun path => .success
            [("score", .mapping [("name", .text tune.name), ("title", .text tune.title),
                ("instrument", .text tune.instrument), ("staves", .integer tune.staffCount),
                ("lines", .integer tune.lines.length), ("notes", .integer tune.noteCount)]),
              ("path", Datum.ofOption (fun path => .text (path.text library.setup.root)) path),
              ("message", .text ("Imported score '" ++ tune.name ++ "'."))], fun path => rfl, ?_⟩
          · exact congrArg Except.toOption read
          · show (((importDocument document named).adapt ToolError.library >>= _).run library) = _
            rw [run_bind, run_adapt, run_importDocument, read]
            cases saved with
            | false => rfl
            | true =>
                show ((((save tune).adapt ToolError.library >>= fun path => pure (some path)) >>=
                  _).run (library.remember tune)) = _
                rw [run_bind, run_bind, run_adapt]
                rcases (save tune).run (library.remember tune) with ⟨_ | path, after⟩ <;> rfl

/-- An import leaves the library as it is, or remembers its tune and saves it if that is wanted. -/
theorem snd_run_importScore (json : String) (named : Datum) (saved : Bool) (library : Library) :
    ((importScore json named saved).run library).2 = library ∨
    ∃ tune, (ToolRequest.importScore json named).tune? = some tune ∧
      ((importScore json named saved).run library).2 = match saved with
        | true => ((save tune).run (library.remember tune)).2
        | false => library.remember tune := by
  rcases importScore_cases json named saved library with
    ⟨-, error, ran⟩ | ⟨tune, stores, reply, -, ran⟩
  · rw [ran]
    exact Or.inl rfl
  · refine Or.inr ⟨tune, stores, ?_⟩
    rw [ran]
    cases saved with
    | false => rfl
    | true => rcases (save tune).run (library.remember tune) with ⟨_ | path, after⟩ <;> rfl

/-- What comes of saving a tune whose score has been opened: its path, if the disk takes all of the
content and that is the document of the tune. -/
def saveOutcome (library : Library) (tune : Tune) : Except LibraryError Path :=
  match (library.files.receive (library.scorePath tune.name) (scoreContent tune)).2,
    Json.fits tune.document with
  | some error, _ => .error (.file error)
  | none, false => .error .tooLong
  | none, true => .ok (library.scorePath tune.name)

/-- The folder of the scores cannot be made, or the score cannot be opened, or the score receives
what the disk takes of its content. The tune is remembered only if that is its document. -/
theorem save_cases (tune : Tune) (library : Library) :
    (∃ files error, library.files.makeFolders library.setup.scores = (files, some error) ∧
      (save tune).run library = (.error (.file error), { library with files })) ∨
    (∃ files error, library.files.makeFolders library.setup.scores = (files, none) ∧
      files.write (library.scorePath tune.name)
        (library.files.receive (library.scorePath tune.name) (scoreContent tune)).1 library.now =
          .error error ∧
      (save tune).run library = (.error (.file error), { library with files })) ∨
    ∃ made files, library.files.makeFolders library.setup.scores = (made, none) ∧
      made.write (library.scorePath tune.name)
        (library.files.receive (library.scorePath tune.name) (scoreContent tune)).1 library.now =
          .ok files ∧
      (save tune).run library = (library.saveOutcome tune,
        match library.saveOutcome tune with
        | .ok _ => Library.remember { library with files } tune
        | .error _ => { library with files }) := by
  unfold save saveOutcome
  rw [run_get_bind, run_bind, run_makeFolders]
  cases made : library.files.makeFolders library.setup.scores with
  | mk files failure =>
      cases failure with
      | some error => exact Or.inl ⟨files, error, rfl, rfl⟩
      | none =>
          dsimp only
          rw [run_bind, run_writeFile]
          dsimp only
          rw [Files.receive_of_makeFolders made]
          cases wrote : files.write (library.scorePath tune.name)
              (library.files.receive (library.scorePath tune.name) (scoreContent tune)).1
                library.now with
          | error error => exact Or.inr (Or.inl ⟨files, error, rfl, wrote, rfl⟩)
          | ok written =>
              refine Or.inr (Or.inr ⟨files, written, rfl, wrote, ?_⟩)
              dsimp only
              cases (library.files.receive (library.scorePath tune.name) (scoreContent tune)).2 with
              | some error => rfl
              | none => cases Json.fits tune.document <;> rfl

/-- Saving a tune leaves a library with more files, and remembers the tune perhaps. -/
theorem snd_run_save (tune : Tune) (library : Library) : ∃ files,
    Files.Extended library.setup.scores (library.scorePath tune.name) library.files files ∧
      (((save tune).run library).2 = { library with files } ∨
        ((save tune).run library).2 = Library.remember { library with files } tune) := by
  rcases save_cases tune library with
    ⟨files, error, made, saves⟩ | ⟨files, error, made, -, saves⟩ |
    ⟨made, files, makes, wrote, saves⟩
  · rw [saves]
    exact ⟨files, ⟨files, Files.grown_of_makeFolders made, Or.inl rfl⟩, Or.inl rfl⟩
  · rw [saves]
    exact ⟨files, ⟨files, Files.grown_of_makeFolders made, Or.inl rfl⟩, Or.inl rfl⟩
  · rw [saves]
    refine ⟨files, ⟨made, Files.grown_of_makeFolders makes,
      Or.inr ⟨_, _, (Files.write_eq_ok_iff.mp wrote).2.symm⟩⟩, ?_⟩
    cases library.saveOutcome tune with
    | ok path => exact Or.inr rfl
    | error error => exact Or.inl rfl

end Library

end TuneGraph
