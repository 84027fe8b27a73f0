import TuneGraph.Proofs.Compile.Payloads
import TuneGraph.Proofs.Library.Query

/-! # Answers as JSON texts

Every answer is an object that begins with its status, and nearly every one is a JSON text that a
strict reader accepts. The exception is a score with a note whose length is not finite: such a
length is read from a number that is too large, and it is written as a name. There is an answer to
every request, unless a compilation fails for a node whose id cannot be written out
(`Library.isText_answer`).
-/

namespace TuneGraph

open LibraryAction

namespace LibraryAction

variable {ε α β : Type} {holds : α → Prop}

/-- Whether something is so of all that an action results in. -/
def Yields (holds : α → Prop) (action : LibraryAction ε α) : Prop :=
  ∀ library value, (action.run library).1 = .ok value → holds value

namespace Yields

/-- A value that is returned is the one that results. -/
theorem pure {value : α} (here : holds value) :
    Yields holds (pure value : LibraryAction ε α) := by
  intro library result done
  cases done
  exact here

/-- An action that fails has no result. -/
theorem throw (error : ε) : Yields holds (throw error : LibraryAction ε α) := nofun

/-- Nothing need be so of what an action results in. -/
theorem any (action : LibraryAction ε α) : Yields (fun _ => True) action := fun _ _ _ => trivial

/-- Of a computation without effects, its result is what an action results in. -/
theorem ofExcept {value : Except ε α} (each : ∀ result, value = .ok result → holds result) :
    Yields holds (liftM value : LibraryAction ε α) := by
  intro library result done
  cases value with
  | ok found =>
      cases done
      exact each _ rfl
  | error error => cases done

/-- Of two actions one after the other, the last one gives the result. -/
theorem bind {after : β → Prop} {action : LibraryAction ε α} {next : α → LibraryAction ε β}
    (first : Yields holds action) (later : ∀ value, holds value → Yields after (next value)) :
    Yields after (action >>= next) := by
  intro library result done
  have middle := first library
  rw [run_bind] at done
  revert middle done
  rcases action.run library with ⟨_ | value, left⟩
  · exact fun done => nomatch done
  · exact fun done middle => later value (middle value rfl) left result done

end Yields

variable {blamed : ε → Prop}

/-- Whether something is so of all errors of an action. -/
def Blames (blamed : ε → Prop) (action : LibraryAction ε α) : Prop :=
  ∀ library error, (action.run library).1 = .error error → blamed error

namespace Blames

/-- A value that is returned is no error. -/
theorem pure (value : α) : Blames blamed (pure value : LibraryAction ε α) := nofun

/-- An action that fails has the error that it is given. -/
theorem throw {error : ε} (here : blamed error) :
    Blames blamed (throw error : LibraryAction ε α) := by
  intro library result failed
  cases failed
  exact here

/-- To look at the library is no error. -/
theorem get : Blames blamed (get : LibraryAction ε Library) := nofun

/-- Of a computation without effects, its error is that of the action. -/
theorem ofExcept {value : Except ε α} (each : ∀ error, value = .error error → blamed error) :
    Blames blamed (liftM value : LibraryAction ε α) := by
  intro library result failed
  cases value with
  | ok found => cases failed
  | error error =>
      cases failed
      exact each _ rfl

/-- An error may be renamed to one that is blamed. -/
theorem adapt {ε' : Type} {f : ε' → ε} (each : ∀ error, blamed (f error))
    (action : LibraryAction ε' α) : Blames blamed (action.adapt f) := by
  intro library error failed
  rw [run_adapt] at failed
  revert failed
  rcases action.run library with ⟨cause | value, left⟩
  · intro failed
    cases failed
    exact each cause
  · exact fun failed => nomatch failed

/-- Of two actions one after the other, either may be the one that fails. -/
theorem bind {action : LibraryAction ε α} {next : α → LibraryAction ε β}
    (first : Blames blamed action) (later : ∀ value, Blames blamed (next value)) :
    Blames blamed (action >>= next) := by
  intro library error failed
  have here := first library
  rw [run_bind] at failed
  rcases ran : action.run library with ⟨cause | value, left⟩
  · rw [ran] at here failed
    cases failed
    exact here error rfl
  · rw [ran] at failed
    exact later value left error failed

end Blames

end LibraryAction

namespace ToolAnswer

variable {answer : ToolAnswer} {status : String}

/-- Whether an answer begins with a status and tells no other one. -/
def Tells (answer : ToolAnswer) (status : String) : Prop :=
  ∃ rest, answer.body = ("status", .text status) :: rest ∧ "status" ∉ rest.map Prod.fst

/-- A failure tells that it is an error. -/
theorem tells_failure (message : String) : (failure message).Tells "error" :=
  ⟨[("message", .text message)], rfl, by simp⟩

/-- A success tells that it is one, whatever else it tells. -/
theorem tells_success {body : List (String × Datum)} (ascii : Bool)
    (other : "status" ∉ body.map Prod.fst) : (success body ascii).Tells "success" :=
  ⟨body, rfl, other⟩

/-- There is no number in a failure. -/
theorem allFinite_failure (message : String) : (failure message).document.allFinite = true := rfl

/-- An answer is sent as it is, or a failure is sent. -/
theorem sent_cases (answer : ToolAnswer) :
    Json.fits answer.document = true ∧ answer.sent = answer ∨
      Json.fits answer.document = false ∧ answer.sent = failure Numeral.limitMessage := by
  unfold sent
  cases Json.fits answer.document <;> simp

/-- What is sent tells one of the two statuses, if what was meant to be sent does. -/
theorem Tells.sent (tells : answer.Tells status) (known : status ∈ ["success", "error"]) :
    ∃ told ∈ ["success", "error"], answer.sent.Tells told := by
  rcases answer.sent_cases with ⟨-, same⟩ | ⟨-, same⟩
  · exact ⟨status, known, same.symm ▸ tells⟩
  · exact ⟨"error", by decide, same.symm ▸ tells_failure _⟩

/-- What is sent has finite numbers, if what was meant to be sent has. -/
theorem allFinite_sent (finite : answer.document.allFinite = true) :
    answer.sent.document.allFinite = true := by
  rcases answer.sent_cases with ⟨-, same⟩ | ⟨-, same⟩
  · exact same.symm ▸ finite
  · exact same.symm ▸ allFinite_failure _

/-- The text of an answer is a JSON text exactly if all real numbers in it are finite. -/
theorem isText_text_iff : Json.IsText answer.text ↔ answer.sent.document.allFinite = true :=
  Json.isText_write_iff rfl _

end ToolAnswer

/-- Whether the lengths of all notes are finite. -/
def Tune.IsFinite (tune : Tune) : Prop :=
  ∀ line ∈ tune.lines, ∀ staff ∈ line.staves, ∀ note ∈ staff.notes, note.duration.isFinite = true

/-- The numbers of a note are finite if its length is. -/
theorem Note.allFinite_document_iff (note : Note) :
    note.document.allFinite = true ↔ note.duration.isFinite = true := by
  obtain ⟨pitches, duration, triplet, ends⟩ := note
  have pitch : ∀ pitch : Pitch, pitch.document.allFinite = true := by
    intro pitch
    cases word : pitch.accidental <;> simp [Pitch.document, word]
  cases triplet with
  | none => cases ends <;> simp [Note.document, pitch]
  | some factor =>
      by_cases zero : factor = 0 <;> cases ends <;> simp [Note.document, zero, pitch]

/-- The numbers of an event are finite if it is no note, or a note of finite length. -/
theorem Event.allFinite_document_iff (event : Event) : event.document.allFinite = true ↔
    ∀ note, event.note? = some note → note.duration.isFinite = true := by
  cases event with
  | note note => simp [Event.document, Event.note?, Note.allFinite_document_iff]
  | bar type => simp [Event.document, Event.note?]

/-- The numbers of a staff are finite if all lengths of its notes are. -/
theorem Staff.allFinite_document_iff (staff : Staff) : staff.document.allFinite = true ↔
    ∀ note ∈ staff.notes, note.duration.isFinite = true := by
  have key : staff.key.document.allFinite = true := by simp [KeySignature.document]
  have meter : ∀ meter : Meter, meter.document.allFinite = true := fun _ => rfl
  have voices : staff.document.allFinite = true ↔
      ∀ voice ∈ staff.voices, ∀ event ∈ voice, event.document.allFinite = true := by
    cases stated : staff.meter <;> simp [Staff.document, key, meter, stated]
  rw [voices]
  simp only [Event.allFinite_document_iff, Staff.notes, Voice.notes, List.mem_flatMap,
    List.mem_filterMap]
  constructor
  · rintro finite note ⟨voice, isVoice, event, isEvent, same⟩
    exact finite voice isVoice event isEvent note same
  · exact fun finite voice isVoice event isEvent note same =>
      finite note ⟨voice, isVoice, event, isEvent, same⟩

/-- The numbers of a tune are finite if all lengths of its notes are. -/
theorem Tune.allFinite_document_iff (tune : Tune) :
    tune.document.allFinite = true ↔ tune.IsFinite := by
  simp [Tune.document, TuneLine.document, Tune.IsFinite, Staff.allFinite_document_iff]

/-- The numbers of an issue are finite. -/
@[simp] theorem Issue.allFinite_document (issue : Issue) : issue.document.allFinite = true := by
  simp [Issue.document]

/-- The numbers of a marker are finite. -/
@[simp] theorem RepeatMarker.allFinite_document (marker : RepeatMarker) :
    marker.document.allFinite = true := rfl

/-- The numbers of a summary are finite. -/
@[simp] theorem ScoreSummary.allFinite_document (summary : ScoreSummary) :
    summary.document.allFinite = true := rfl

namespace Library

variable {library : Library}

/-- Whether an answer reports a success in finite numbers. -/
def Reports (answer : ToolAnswer) : Prop :=
  answer.Tells "success" ∧ answer.document.allFinite = true

/-- A success with finite numbers is reported. -/
theorem reports_success {body : List (String × Datum)} (ascii : Bool)
    (other : "status" ∉ body.map Prod.fst) (finite : (Datum.mapping body).allFinite = true) :
    Reports (.success body ascii) := by
  refine ⟨ToolAnswer.tells_success ascii other, ?_⟩
  rw [Datum.allFinite_mapping] at finite
  simp only [ToolAnswer.success, ToolAnswer.document, Datum.allFinite_mapping, List.all_cons,
    finite]
  rfl

/-- A compilation that is made for an answer has plain nodes. -/
theorem yields_compiled (tune : Tune) (settings : Settings) (startId : Int) :
    Yields (fun compilation => ∀ node ∈ compilation.graph.nodes, node.IsPlain)
      (liftM (compiled tune settings startId) : LibraryAction ToolError Compilation) := by
  refine .ofExcept fun compilation done => ?_
  unfold compiled at done
  cases compiles : tune.compile settings startId with
  | error error =>
      rw [compiles] at done
      cases done
  | ok result =>
      rw [compiles] at done
      cases done
      exact Tune.isPlain_of_compile compiles

/-- All requests but those for a score are answered in finite numbers. -/
theorem yields_perform {request : ToolRequest} (other : ∀ name, request ≠ .getScore name) :
    Yields Reports (perform request) := by
  cases request with
  | importScore json name saved =>
      refine (Yields.any _).bind fun library _ => (Yields.any _).bind fun document _ =>
        (Yields.any _).bind fun tune _ => ?_
      cases saved <;> exact (Yields.any _).bind fun path _ =>
        .pure (reports_success _ (by simp) (by simp))
  | getScore name => exact (other name rfl).elim
  | listScores =>
      exact (Yields.any _).bind fun found _ => .pure (reports_success _ (by simp) (by simp))
  | deleteScore name =>
      refine (Yields.any _).bind fun removed _ => ?_
      cases removed with
      | true => exact .pure (reports_success _ (by simp) (by simp))
      | false => exact .throw _
  | validateScore name =>
      exact (Yields.any _).bind fun tune _ => .pure (reports_success _ (by simp) (by simp))
  | compileScore name outputName repeatCount =>
      refine (Yields.any _).bind fun tune _ => ?_
      cases Schema.settings (.mapping [("repeat_count", repeatCount)]) with
      | refused faults => exact .throw _
      | accepted settings =>
          exact (Yields.any _).bind fun compilation _ => (Yields.any _).bind fun library _ =>
            (Yields.any _).bind fun path _ => .pure (reports_success _ (by simp) (by simp))
  | compileInline json startId =>
      refine (Yields.any _).bind fun document _ => ?_
      cases Tune.read document .null with
      | error error => exact .throw _
      | ok tune =>
          refine (yields_compiled tune .standard startId).bind fun compilation plain => ?_
          split
          · refine .pure (reports_success _ (by simp) ?_)
            simp only [Datum.allFinite_mapping, List.all_cons, Graph.allFinite_blocks plain,
              Graph.allFinite_summary]
            rfl
          · exact .throw _
  | describeGraph name includeNodes =>
      refine (Yields.any _).bind fun tune _ => (yields_compiled tune .standard 0).bind
        fun compilation plain => .pure ?_
      cases includeNodes with
      | true => exact reports_success _ (by simp) (by simp [Graph.allFinite_document plain])
      | false => exact reports_success _ (by simp) (by simp)

/-- The answer to another request than for a score tells its status in finite numbers. -/
theorem tells_answer {answer : ToolAnswer} {request : ToolRequest}
    (answered : (library.answer request).1 = some answer)
    (other : ∀ name, request ≠ .getScore name) : ∃ status ∈ ["success", "error"],
      answer.Tells status ∧ answer.document.allFinite = true := by
  have yields := yields_perform other library
  unfold Library.answer at answered
  rcases ran : (perform request).run library with ⟨error | result, after⟩
  · rw [ran] at answered
    obtain ⟨message, -, rfl⟩ := Option.map_eq_some_iff.mp answered
    exact ⟨"error", by decide, ToolAnswer.tells_failure _, ToolAnswer.allFinite_failure _⟩
  · rw [ran] at answered
    cases answered
    obtain ⟨tells, finite⟩ := yields answer (congrArg Prod.fst ran)
    exact ⟨"success", by decide, tells, finite⟩

/-- A score can be written out if its answer can. -/
theorem fits_score (tune : Tune) :
    Json.fits (ToolAnswer.success [("score", tune.document)] false).document =
      Json.fits tune.document := Bool.and_true _

/-- A score is sent in finite numbers, unless it can be written out and is not finite. -/
theorem allFinite_sent_score (tune : Tune) :
    (ToolAnswer.success [("score", tune.document)] false).sent.document.allFinite = true ↔
      (Json.fits tune.document = true → tune.IsFinite) := by
  rw [← fits_score, ← Tune.allFinite_document_iff]
  rcases ToolAnswer.sent_cases (.success [("score", tune.document)] false) with
    ⟨fits, same⟩ | ⟨fits, same⟩
  · rw [same, fits]
    simp [ToolAnswer.success, ToolAnswer.document]
  · rw [same, fits]
    exact iff_of_true (ToolAnswer.allFinite_failure _) nofun

/-- What a request compiles: a tune, by settings and from an id on. -/
def asked (library : Library) : ToolRequest → Option (Tune × Settings × Int)
  | .compileInline json startId =>
    match Json.parse json with
    | .ok document =>
      (Tune.read document .null).toOption.map fun tune => (tune, .standard, startId)
    | .error _ => none
  | .compileScore name _ repeatCount =>
    match library.found name, Schema.settings (.mapping [("repeat_count", repeatCount)]) with
    | .ok tune, .accepted settings => some (tune, settings, 0)
    | _, _ => none
  | .describeGraph name _ => (library.found name).toOption.map fun tune => (tune, .standard, 0)
  | _ => none

/-- Whether an error is not one of compiling. -/
def NotCompiling (error : ToolError) : Prop := ∀ fault, error ≠ .compile fault

/-- To get a stored tune does not fail for a compilation. -/
theorem blames_stored (name : String) : Blames NotCompiling (stored name) := by
  refine (Blames.adapt (fun _ => by exact nofun) _).bind fun found => ?_
  cases found with
  | none => exact .throw nofun
  | some tune => exact .pure _

/-- No tune is missing for a compilation. -/
theorem found_ne_compile (library : Library) (name : String) (fault : CompileError) :
    library.found name ≠ .error (.compile fault) := by
  intro failed
  have run := congrArg Prod.fst (run_stored_eq name library)
  exact blames_stored name library _ (run.trans failed) fault rfl

/-- To read a text does not fail for a compilation. -/
theorem blames_parseJson (json : String) :
    Blames NotCompiling (liftM (parseJson json) : LibraryAction ToolError Datum) := by
  refine .ofExcept fun error failed => ?_
  unfold parseJson at failed
  split at failed
  · cases failed
  · cases failed
    exact nofun

/-- What does not fail for a compilation is not the error of one. -/
theorem ne_compile_of_blames {α : Type} {action : LibraryAction ToolError α} {fault : CompileError}
    (blames : Blames NotCompiling action) (library : Library) :
    (action.run library).1 ≠ .error (.compile fault) :=
  fun failed => blames library _ failed fault rfl

/-- A request fails with an error of compiling exactly if what it compiles does. -/
theorem perform_eq_compile_error_iff {request : ToolRequest} {fault : CompileError} :
    ((perform request).run library).1 = .error (.compile fault) ↔
      ∃ tune settings startId, library.asked request = some (tune, settings, startId) ∧
        tune.compile settings startId = .error fault := by
  cases request with
  | importScore json name saved =>
      refine iff_of_false (ne_compile_of_blames ?_ library) nofun
      refine Blames.get.bind fun _ => (blames_parseJson json).bind fun document => ?_
      refine (Blames.adapt (fun _ => by exact nofun) _).bind fun tune => ?_
      cases saved with
      | false => exact (Blames.pure _).bind fun _ => .pure _
      | true =>
          exact (Blames.bind (.adapt (fun _ => by exact nofun) _) fun _ => .pure _).bind
            fun _ => .pure _
  | getScore name =>
      refine iff_of_false (ne_compile_of_blames ?_ library) nofun
      exact (blames_stored name).bind fun _ => .pure _
  | listScores =>
      refine iff_of_false (ne_compile_of_blames ?_ library) nofun
      exact (Blames.adapt (fun _ => by exact nofun) _).bind fun _ => .pure _
  | deleteScore name =>
      refine iff_of_false (ne_compile_of_blames ?_ library) nofun
      refine (Blames.adapt (fun _ => by exact nofun) _).bind fun removed => ?_
      cases removed with
      | true => exact .pure _
      | false => exact .throw (by exact nofun)
  | validateScore name =>
      refine iff_of_false (ne_compile_of_blames ?_ library) nofun
      exact (blames_stored name).bind fun _ => .pure _
  | compileScore name outputName repeatCount =>
      show ((compileScore name outputName repeatCount).run library).1 = _ ↔ _
      unfold compileScore asked
      rw [run_bind, run_stored_eq]
      have given := found_ne_compile library name fault
      cases missing : library.found name with
      | error error => simpa [missing] using given
      | ok tune =>
          dsimp only
          cases Schema.settings (.mapping [("repeat_count", repeatCount)]) with
          | refused faults => exact iff_of_false (by exact nofun) (by simp [missing])
          | accepted settings =>
              dsimp only
              rw [run_bind, run_compiled]
              cases compiles : tune.compile settings 0 with
              | error error => simp [Except.mapError, missing, compiles]
              | ok compilation =>
                  refine iff_of_false (ne_compile_of_blames ?_ _) (by simp [missing, compiles])
                  exact Blames.get.bind fun _ => (Blames.adapt (fun _ => by exact nofun) _).bind
                    fun _ => .pure _
  | compileInline json startId =>
      show ((compileInline json startId).run library).1 = _ ↔ _
      unfold asked
      cases parsed : Json.parse json with
      | error error =>
          refine iff_of_false ?_ (by simp [parsed])
          unfold compileInline parseJson
          rw [parsed]
          exact nofun
      | ok document =>
          cases read : Tune.read document .null with
          | error error =>
              have ran : ((compileInline json startId).run library).1 =
                  .error (.notTune error) := by
                unfold compileInline
                simp only [run_bind, run_parseJson parsed, read]
                rfl
              simp [ran, parsed, read, Except.toOption]
          | ok tune =>
              rw [run_compileInline parsed read]
              cases compiles : tune.compile .standard startId with
              | error error => simp [parsed, read, compiles, Except.toOption]
              | ok compilation =>
                  refine iff_of_false ?_ (by simp [parsed, read, compiles, Except.toOption])
                  dsimp only
                  split <;> exact nofun
  | describeGraph name includeNodes =>
      show ((describeGraph name includeNodes).run library).1 = _ ↔ _
      unfold describeGraph asked
      rw [run_bind, run_stored_eq]
      have given := found_ne_compile library name fault
      cases missing : library.found name with
      | error error => simpa [missing, Except.toOption] using given
      | ok tune =>
          dsimp only
          rw [run_bind, run_compiled]
          cases compiles : tune.compile .standard 0 with
          | error error => simp [Except.mapError, missing, compiles, Except.toOption]
          | ok compilation =>
              exact iff_of_false nofun (by simp [missing, compiles, Except.toOption])

/-- An error has no wording exactly if it is one of compiling, for a node whose id cannot be written
out. -/
theorem message?_eq_none_iff {error : ToolError} {root : String} : error.message? root = none ↔
    ∃ id, error = .compile (.unknownNode id) ∧ Numeral.isShort id = false := by
  have unknown : ∀ id, (CompileError.unknownNode id).message? = none ↔
      Numeral.isShort id = false := by
    intro id
    rw [CompileError.message?, Numeral.ofInt?]
    split <;> simp_all
  cases error with
  | compile error =>
      cases error with
      | unknownNode id => simpa [ToolError.message?] using unknown id
      | _ => simp [ToolError.message?, CompileError.message?]
  | _ => simp [ToolError.message?]

/-- There is no answer exactly if what is compiled fails for a node whose id cannot be written out.
-/
theorem answer_eq_none_iff {request : ToolRequest} : (library.answer request).1 = none ↔
    ∃ tune settings startId id, library.asked request = some (tune, settings, startId) ∧
      tune.compile settings startId = .error (.unknownNode id) ∧ Numeral.isShort id = false := by
  have unspoken : (library.answer request).1 = none ↔
      ∃ id, ((perform request).run library).1 = .error (.compile (.unknownNode id)) ∧
        Numeral.isShort id = false := by
    unfold Library.answer
    rcases (perform request).run library with ⟨error | answer, after⟩
    · simp only [Option.map_eq_none_iff, message?_eq_none_iff, Except.error.injEq]
    · exact iff_of_false nofun nofun
  rw [unspoken]
  simp only [perform_eq_compile_error_iff]
  constructor
  · rintro ⟨id, ⟨tune, settings, startId, asked, fails⟩, long⟩
    exact ⟨tune, settings, startId, id, asked, fails, long⟩
  · rintro ⟨tune, settings, startId, id, asked, fails, long⟩
    exact ⟨id, ⟨tune, settings, startId, asked, fails⟩, long⟩

/-- The text of an air with a repeat behind the last note of its first line. -/
def loopJson : String :=
  let bar (type : String) : Datum := .mapping [("el_type", .text "bar"), ("type", .text type)]
  let note : Datum := .mapping [("el_type", .text "note")]
  let voices : Datum := .list [.list [note, bar "bar_left_repeat", bar "bar_right_repeat"],
    .list [note]]
  Json.write {} (.mapping [("name", .text "air"),
    ("lines", .list [.mapping [("staff", .list [.mapping [("voices", voices)]])]])])

example : (emptyLibrary.answer (.compileInline loopJson (Nat.pow 10 4300))).1.isNone = true := by
  decide +kernel

/-- The answer to a request for a score is sent as an object that begins with its status. It is sent
in finite numbers, unless it holds a note whose length is not finite. -/
theorem sent_getScore {answer : ToolAnswer} {name : String}
    (answered : (library.answer (.getScore name)).1 = some answer) :
    (∃ status ∈ ["success", "error"], answer.sent.Tells status) ∧
    (answer.sent.document.allFinite = true ↔ ∀ tune, library.found name = .ok tune →
      Json.fits tune.document = true → tune.IsFinite) := by
  rw [answer_getScore] at answered
  cases found : library.found name with
  | error error =>
      rw [found] at answered
      obtain ⟨message, -, rfl⟩ := Option.map_eq_some_iff.mp answered
      refine ⟨(ToolAnswer.tells_failure _).sent (by decide), iff_of_true ?_ nofun⟩
      exact ToolAnswer.allFinite_sent (ToolAnswer.allFinite_failure _)
  | ok tune =>
      rw [found] at answered
      cases answered
      refine ⟨(ToolAnswer.tells_success false (by simp)).sent (by decide), ?_⟩
      rw [allFinite_sent_score]
      constructor
      · intro finite other same
        cases same
        exact finite
      · exact fun finite => finite tune rfl

/-- Every answer is sent as an object that begins with its status. It is a JSON text, unless it
holds a score with a note whose length is not finite. There is no answer exactly if what is
compiled fails for a node whose id cannot be written out. -/
theorem isText_answer (library : Library) (request : ToolRequest) :
    ((library.answer request).1 = none ↔
      ∃ tune settings startId id, library.asked request = some (tune, settings, startId) ∧
        tune.compile settings startId = .error (.unknownNode id) ∧
        Numeral.isShort id = false) ∧
    ∀ answer, (library.answer request).1 = some answer →
      (∃ status ∈ ["success", "error"], answer.sent.Tells status) ∧
      (Json.IsText answer.text ↔ ∀ name tune, request = .getScore name →
        library.found name = .ok tune → Json.fits tune.document = true → tune.IsFinite) := by
  refine ⟨answer_eq_none_iff, fun answer answered => ?_⟩
  rw [ToolAnswer.isText_text_iff]
  by_cases score : ∃ name, request = .getScore name
  · obtain ⟨name, rfl⟩ := score
    obtain ⟨tells, finite⟩ := sent_getScore answered
    refine ⟨tells, finite.trans
      ⟨fun each other tune same => ?_, fun each tune => each name tune rfl⟩⟩
    cases same
    exact each tune
  · have other : ∀ name, request ≠ .getScore name := fun name same => score ⟨name, same⟩
    obtain ⟨status, known, tells, finite⟩ := tells_answer answered other
    exact ⟨tells.sent known, iff_of_true (ToolAnswer.allFinite_sent finite)
      fun name _ same => (other name same).elim⟩

/-- The text of an air with a note of a length that is too large. -/
def longJson : String :=
  "\x7b\"name\": \"air\", \"lines\": [\x7b\"staff\": [\x7b\"voices\": [[\x7b\"el_type\": " ++
    "\"note\", \"duration\": 1e400\x7d]]\x7d]\x7d]\x7d"

/-- A library to which the air has been imported. -/
def longLibrary : Library := (emptyLibrary.answer (.importScore longJson)).2

/-- The text of the air is a JSON text. -/
theorem isText_longJson : Json.IsText longJson := by
  have string := Json.isString_writeString false
  have text : ∀ said, Json.Renders .value true (Json.writeString false said).toList :=
    fun said => .of_forms (.string (string said))
  have one : Json.IsWhole ['1'] := Json.isWhole_toDigits 1
  have power : Json.IsExponent (['e'] ++ [] ++ ['4', '0', '0']) :=
    .some (by decide) (by decide) (Json.isDigits_toDigits 400)
  have number : Json.Renders .value true ([] ++ ['1'] ++ [] ++ (['e'] ++ [] ++ ['4', '0', '0'])) :=
    .of_forms (.number (.parts (by decide) one .none power))
  have isRow : Json.Phrase.entries ≠ .value := nofun
  -- From the length outwards.
  have duration := number.entry (string "duration") Json.isGap_space
  have note := (((text "note").entry (string "el_type") Json.isGap_nil).more isRow duration).mapping
  have voices := (((note.item Json.isGap_nil).list).item Json.isGap_nil).list
  have staff := (voices.entry (string "voices") Json.isGap_nil).mapping
  have line := ((staff.item Json.isGap_nil).list.entry (string "staff") Json.isGap_nil).mapping
  have lines := (line.item Json.isGap_nil).list.entry (string "lines") Json.isGap_space
  have air := (((text "air").entry (string "name") Json.isGap_nil).more isRow lines).mapping
  exact ⟨[], _, [], Json.isGap_nil, air.forms rfl, Json.isGap_nil, by decide +kernel⟩

/-- A score that was imported from a JSON text is not answered with a JSON text. -/
theorem not_isText_of_long :
    Reachable yamlSetup longLibrary ∧ Json.IsText longJson ∧
    ∃ answer, (longLibrary.answer (.getScore "air")).1 = some answer ∧
      ¬Json.IsText answer.text := by
  have told : (longLibrary.answer (.getScore "air")).1.map
      (fun answer => answer.sent.document.allFinite) = some false := by decide +kernel
  obtain ⟨answer, answered, infinite⟩ := Option.map_eq_some_iff.mp told
  refine ⟨.request _ .fresh, isText_longJson, answer, answered, fun isText => ?_⟩
  rw [ToolAnswer.isText_text_iff, infinite] at isText
  exact absurd isText (by decide)

end Library

end TuneGraph
