import TuneGraph.Proofs.Library.Listing
import TuneGraph.Proofs.Library.Names
import TuneGraph.Proofs.Library.Ownership

/-! # Deleted scores

A score is deleted by the file name of its name, but read and listed under the name that the reader
finds in its file. A name that has been deleted is not found then. It stays so, whatever is asked
for, deleted or stored under other names, as long as no score file is read as a tune of that name.
Such a file is not touched by the deletion, and the next list of the scores brings the name back
(`Library.getScore_after_delete`).

What is not found stays away because a request writes no files but its own
(`Library.confined_answer`), so that nothing else can be read as a tune of the name
(`Library.Gone.answer`).
-/

namespace TuneGraph

open LibraryAction

/-- A folder is no score. -/
theorem Files.score_ne_ok_of_folder {files : Files} {reader : Reader} {path : Path}
    (located : files.locate path = .ok .folder) (found : Tune × Nat) :
    files.score reader path ≠ .ok found := by
  rw [Files.score, Files.read, located]
  intro same
  cases same

/-- The paths at which the score of a name may be are those of score files. -/
theorem isScore_candidate (folder : Path) (stem : String) {ending : String}
    (isEnding : ending ∈ scoreEndings) : Path.isScore (folder ++ [stem ++ ending]) = true := by
  refine List.any_eq_true.mpr ⟨ending, isEnding, ?_⟩
  simp [dropEnding?, Path.fileName]

namespace Library

variable {library kept : Library} {setup : Setup} {name : String} {tune : Tune}
  {request : ToolRequest}

/-- Whether a score file is read as a tune of a name. -/
def HoldsScore (library : Library) (name : String) : Prop :=
  ∃ file tune modified, Path.isScore (library.setup.scores ++ [file]) = true ∧
    library.files.score library.setup.reader (library.setup.scores ++ [file]) =
      .ok (tune, modified) ∧
    tune.name = name

/-- Whether a file system takes the paths at which the score of a name may be. -/
def IsBrief (library : Library) (name : String) : Prop :=
  ∀ path ∈ library.candidates name, path.isLong = false ∧
    ∀ part ∈ path, Path.isLongName part = false

/-- Whether a request for a score is refused, and answered with "not found" unless a file system
does not take the path. -/
def Misses (library : Library) (name : String) : Prop :=
  ¬library.Succeeds (.getScore name) ∧
    (library.IsBrief name → (library.answer (.getScore name)).1 =
      some (.failure ("Score '" ++ name ++ "' not found.")))

/-- Whether a request cannot bring back a name: it imports no tune of that name, it puts nothing
where the score of the name would be, and what it writes is not read as a tune of the name. -/
structure Harmless (library : Library) (name : String) (request : ToolRequest) : Prop where
  unstored : ∀ tune, request.tune? = some tune → tune.name ≠ name
  aside : ∀ path ∈ library.candidates name, path ∉ request.written library.setup ∧
    ∀ folder ∈ request.folders library.setup, ¬path <+: folder
  unread : ∀ path ∈ request.written library.setup, path.isScore = true → ∀ tune modified,
    (library.answer request).2.files.score library.setup.reader path = .ok (tune, modified) →
      tune.name ≠ name

/-- Whether nothing that a library has, in memory or among its files, stands for a name. -/
structure Gone (setup : Setup) (name : String) (library : Library) : Prop where
  setup_eq : library.setup = setup
  tree : library.files.IsTree
  unknown : library.known? name = none
  unfiled : ∀ path ∈ library.candidates name, ∀ entry, library.files.locate path ≠ .ok entry
  unread : ¬library.HoldsScore name

/-- A name that is forgotten is not known. -/
theorem known?_forget (library : Library) (name : String) :
    (library.forget name).known? name = none := by
  refine List.lookup_eq_none_iff.mpr fun entry member => ?_
  have kept := (List.mem_filter.mp member).2
  rw [bne_iff_ne] at kept
  exact bne_iff_ne.mpr (Ne.symm kept)

/-- The candidates of a name are named for it. -/
theorem mem_candidates {path : Path} (member : path ∈ library.candidates name) :
    ∃ ending ∈ scoreEndings, path = library.setup.scores ++ [fileStem name ++ ending] := by
  obtain ⟨ending, isEnding, rfl⟩ := List.mem_map.mp member
  exact ⟨ending, isEnding, rfl⟩

/-- What is read to find a name is what the files have for it. -/
theorem mem_sought (member : tune ∈ library.sought name) :
    library.known? name = none ∧ library.filed name = .ok (some tune) := by
  unfold sought at member
  split at member
  · obtain rfl := List.mem_singleton.mp member
    exact ⟨‹_›, ‹_›⟩
  · cases member

/-- What the files have for a name is read from one of its candidates. -/
theorem exists_score_of_filed (filed : library.filed name = .ok (some tune)) :
    ∃ path ∈ library.candidates name, ∃ modified,
      library.files.score library.setup.reader path = .ok (tune, modified) := by
  unfold Library.filed at filed
  split at filed
  · cases filed
  · cases filed
  · rename_i path present
    refine ⟨path, mem_of_firstPresent? present, ?_⟩
    cases read : library.files.score library.setup.reader path with
    | error error =>
        rw [read] at filed
        cases filed
    | ok found =>
        rw [read] at filed
        cases filed
        exact ⟨found.2, rfl⟩

/-- There is something at the first path at which there is something. -/
theorem contains_of_firstPresent? {files : Files} {paths : List Path} {path : Path}
    (present : firstPresent? files paths = .ok (some path)) : files.contains path = .ok true := by
  induction paths with
  | nil => cases present
  | cons first rest ih =>
      obtain ⟨there, looked, next⟩ := bind_eq_ok_iff.mp present
      cases there with
      | true =>
          cases next
          exact looked
      | false => exact ih next

/-- If there is nothing at any path, there is none at which there is something. -/
theorem firstPresent?_eq_none {files : Files} {paths : List Path}
    (absent : ∀ path ∈ paths, files.contains path = .ok false) :
    firstPresent? files paths = .ok none := by
  induction paths with
  | nil => rfl
  | cons path rest ih =>
      obtain ⟨here, later⟩ := List.forall_mem_cons.mp absent
      rw [firstPresent?, here]
      exact ih later

/-- A name that is neither in memory nor among the files is not found. -/
theorem answer_getScore_of_absent (unknown : library.known? name = none)
    (absent : ∀ path ∈ library.candidates name, library.files.contains path = .ok false) :
    (library.answer (.getScore name)).1 =
      some (.failure ("Score '" ++ name ++ "' not found.")) := by
  rw [answer_getScore, found, unknown, Library.filed, firstPresent?_eq_none absent]
  rfl

/-- A request for a score that is not found does not succeed. -/
theorem not_succeeds_getScore {error : ToolError} (missing : library.found name = .error error) :
    ¬library.Succeeds (.getScore name) := by
  rintro ⟨answer, answered, succeeds⟩
  rw [answer_getScore, missing] at answered
  obtain ⟨message, -, rfl⟩ := Option.map_eq_some_iff.mp answered
  exact not_succeeds_failure message succeeds

namespace Gone

variable (gone : Gone setup name library)

include gone

theorem restart : Gone setup name library.restart :=
  ⟨gone.setup_eq, gone.tree, rfl, gone.unfiled, gone.unread⟩

theorem wait (now : Nat) : Gone setup name { library with now } :=
  ⟨gone.setup_eq, gone.tree, gone.unknown, gone.unfiled, gone.unread⟩

/-- Nothing that is read to answer a request has the name. -/
theorem name_ne_of_loaded (request : ToolRequest) :
    ∀ tune ∈ library.loaded request, tune.name ≠ name := by
  have sought : ∀ asked, ∀ tune ∈ library.sought asked, tune.name ≠ name := by
    intro asked tune member isName
    obtain ⟨-, filed⟩ := mem_sought member
    obtain ⟨path, isCandidate, modified, read⟩ := exists_score_of_filed filed
    obtain ⟨ending, isEnding, rfl⟩ := mem_candidates isCandidate
    exact gone.unread ⟨_, tune, modified, isScore_candidate _ _ isEnding, read, isName⟩
  intro tune member
  unfold loaded at member
  split at member
  · exact sought _ tune member
  · exact sought _ tune member
  · exact sought _ tune member
  · exact sought _ tune member
  · obtain ⟨file, modified, isScore, read⟩ := mem_listed member
    exact fun isName => gone.unread ⟨file, tune, modified, isScore, read, isName⟩
  · cases member

/-- A name that is gone is not remembered, whatever else is stored, deleted or asked for. -/
theorem unknown_answer (unstored : ∀ tune, request.tune? = some tune → tune.name ≠ name) :
    (library.answer request).2.known? name = none := by
  cases isQuery : request.isQuery with
  | true =>
      obtain ⟨files, -, after⟩ := snd_answer_of_isQuery gone.tree isQuery
      have others : (library.loaded request).reverse.find? (·.name == name) = none := by
        refine List.find?_eq_none.mpr fun tune member => ?_
        simpa using gone.name_ne_of_loaded request tune (List.mem_reverse.mp member)
      rw [after]
      show (library.rememberAll (library.loaded request)).known? name = none
      rw [known?_rememberAll, others, gone.unknown]
      rfl
  | false =>
      rw [snd_answer]
      cases request with
      | importScore json named saved =>
          show ((importScore json named saved).run library).2.known? name = none
          rcases snd_run_importScore json named saved library with same | ⟨tune, stores, same⟩
          · rw [same]
            exact gone.unknown
          · have different : name ≠ tune.name := Ne.symm (unstored tune stores)
            have remembered : (library.remember tune).known? name = none :=
              (known?_remember_of_ne different).trans gone.unknown
            rw [same]
            cases saved with
            | false => exact remembered
            | true =>
                obtain ⟨files, -, saves | saves⟩ := snd_run_save tune (library.remember tune)
                · rw [saves]
                  exact remembered
                · rw [saves]
                  exact (known?_remember_of_ne different).trans remembered
      | deleteScore said =>
          have keeps : Preserves (·.known? name = none) (deleteScore said) := by
            refine ((preserves_delete (fun after unknown => ?_) fun _ _ _ _ =>
              preserves_removeIfPresent fun _ _ _ => id).adapt _).bind fun removed => ?_
            · by_cases same : name = said
              · exact same ▸ known?_forget after name
              · exact (known?_forget_of_ne same).trans unknown
            · cases removed with
              | true => exact .pure _
              | false => exact .throw _
          exact keeps library gone.unknown
      | _ => cases isQuery

/-- What a request cannot bring back stays away. -/
theorem answer (harmless : library.Harmless name request) :
    Gone setup name (library.answer request).2 := by
  obtain rfl := gone.setup_eq
  have setup := (stable_setup library.setup).answer rfl request
  have confined := confined_answer library request
  refine ⟨setup, stable_isTree.answer gone.tree request, gone.unknown_answer harmless.unstored,
    fun path member entry located => ?_, ?_⟩
  · rw [candidates, setup] at member
    have away : path ≠ [] := by
      obtain ⟨ending, -, rfl⟩ := mem_candidates member
      exact List.append_ne_nil_of_right_ne_nil _ (List.cons_ne_nil _ _)
    obtain ⟨unwritten, offWay⟩ := harmless.aside path member
    rcases confined.locate_cases gone.tree away located with
      before | own | ⟨⟨folder, own, onWay⟩, -⟩
    · exact gone.unfiled path member entry before
    · exact unwritten own
    · exact offWay folder own onWay
  · rintro ⟨file, tune, modified, isScore, read, isName⟩
    rw [setup] at isScore read
    obtain ⟨entry, located⟩ := Files.exists_locate_of_score read
    rcases confined.locate_cases gone.tree (by simp) located with before | own | ⟨-, rfl⟩
    · refine gone.unread ⟨file, tune, modified, isScore, ?_, isName⟩
      rw [← score_congr (located.trans before.symm)]
      exact read
    · exact harmless.unread _ own isScore tune modified read isName
    · exact Files.score_ne_ok_of_folder located _ read

/-- What is gone is not found. -/
theorem misses : library.Misses name := by
  constructor
  · cases present : firstPresent? library.files (library.candidates name) with
    | error error =>
        apply not_succeeds_getScore
        rw [found, gone.unknown, Library.filed, present]
    | ok there =>
        cases there with
        | none =>
            apply not_succeeds_getScore
            rw [found, gone.unknown, Library.filed, present]
        | some path =>
            obtain ⟨entry, located⟩ := Files.contains_eq_true_iff.mp
              (contains_of_firstPresent? present)
            exact (gone.unfiled path (mem_of_firstPresent? present) entry located).elim
  · intro brief
    refine answer_getScore_of_absent gone.unknown fun path member => ?_
    exact Files.contains_eq_false (gone.unfiled path member) (brief path member).1
      (brief path member).2

/-- What is gone is not listed. -/
theorem not_listed {listing : ToolAnswer} (lists : (library.answer .listScores).1 = some listing) :
    ∀ entry ∈ (listing.document.get "scores").items, entry.get "name" ≠ .text name := by
  intro entry member isName
  rw [answer_listScores] at lists
  cases done : (summaries.run library).1 with
  | error error =>
      rw [done] at lists
      cases lists
      cases member
  | ok found =>
      rw [done] at lists
      cases lists
      obtain ⟨summary, listed, rfl⟩ := List.mem_map.mp member
      obtain ⟨file, tune, modified, isScore, read, rfl⟩ := (mem_summaries_iff done).mp listed
      exact gone.unread ⟨file, tune, modified, isScore, read, Datum.text.inj isName⟩

end Gone

section Deleted

variable {answer : ToolAnswer} {later : Library}

/-- What is not there does not come when a file is removed. -/
theorem absent_removeIfPresent (path other : Path) :
    Preserves (·.files.contains path = .ok false) (removeIfPresent other) := by
  refine preserves_removeIfPresent fun library files removed absent => ?_
  obtain rfl := (Files.of_remove_eq_ok removed).2
  exact (Files.lost_erase library.files other).contains_eq_false absent

/-- Nothing is left at paths whose files have been removed. -/
theorem absent_of_mapM {paths : List Path} {removed : List Bool}
    (done : (paths.mapM removeIfPresent).run library = (.ok removed, kept)) :
    ∀ path ∈ paths, kept.files.contains path = .ok false := by
  induction paths generalizing library removed with
  | nil => exact nofun
  | cons path rest ih =>
      rw [List.mapM_cons] at done
      obtain ⟨there, middle, here, done⟩ := run_bind_eq_ok_iff.mp done
      obtain ⟨others, last, later, done⟩ := run_bind_eq_ok_iff.mp done
      cases done
      refine List.forall_mem_cons.mpr ⟨?_, ih later⟩
      have absent : middle.files.contains path = .ok false := by
        rw [run_removeIfPresent] at here
        split at here
        · cases here
        · cases here
          assumption
        · split at here
          · cases here
          · cases here
            exact Files.contains_of_remove ‹_›
      have keeps : Preserves (·.files.contains path = .ok false) (rest.mapM removeIfPresent) :=
        .mapM fun other _ => absent_removeIfPresent path other
      have still := keeps middle absent
      rwa [later] at still

/-- A name that has been deleted is neither in memory nor at the paths at which its score may be. -/
theorem absent_of_delete (deleted : library.answer (.deleteScore name) = (some answer, kept))
    (succeeds : answer.Succeeds) : kept.known? name = none ∧
      ∀ path ∈ library.candidates name, kept.files.contains path = .ok false := by
  obtain ⟨there, middle, done, next⟩ := run_bind_eq_ok_iff.mp (perform_of_succeeds deleted succeeds)
  have ended : middle = kept := by
    cases there with
    | true =>
        cases next
        rfl
    | false => cases next
  subst ended
  have done := run_adapt_eq_ok_iff.mp done
  rw [run_delete] at done
  split at done
  · rename_i removed after removing
    cases done
    refine ⟨?_, absent_of_mapM removing⟩
    have keeps : Preserves (·.known? name = none)
        ((library.candidates name).mapM removeIfPresent) :=
      .mapM fun _ _ => preserves_removeIfPresent fun _ _ _ => id
    have still := keeps (library.forget name) (known?_forget library name)
    rwa [removing] at still
  · cases done

/-- What becomes of a library while nothing is done that can bring back a name: requests are
answered, the library is restarted, and time passes. -/
inductive Since (name : String) (library : Library) : Library → Prop
  | now : Since name library library
  | request {later : Library} (request : ToolRequest) (harmless : later.Harmless name request)
      (since : Since name library later) : Since name library (later.answer request).2
  | restart {later : Library} (since : Since name library later) : Since name library later.restart
  | wait {later : Library} (now : Nat) (since : Since name library later) :
      Since name library { later with now }

/-- A score that was saved is read as its tune by a reader that gets it back. -/
theorem score_of_saved {path : Path} {modified : Nat}
    (restores : Restores library.setup.reader tune)
    (storable : tune.Storable)
    (saved : library.files.read path = .ok (.document tune.document, modified)) :
    library.files.score library.setup.reader path = .ok (tune, modified) := by
  have loads := run_load_of_saved restores storable saved
  rw [run_load] at loads
  split at loads
  · rename_i found read
    rw [read]
    exact congrArg Except.ok (Except.ok.inj (Prod.mk.inj loads).1)
  · cases (Prod.mk.inj loads).1

/-- An import under another file name cannot bring back a name, if it succeeds and the reader gets
its tune back. -/
theorem harmless_import {json : String} {named : Datum} (others : ∀ tune,
      (ToolRequest.importScore json named).tune? = some tune →
        fileStem tune.name ≠ fileStem name ∧ Restores library.setup.reader tune)
    (succeeds : library.Succeeds (.importScore json named)) :
    library.Harmless name (.importScore json named) := by
  obtain ⟨answer, after, ran, -⟩ := succeeds_iff.mp succeeds
  obtain ⟨document, tune, path, parsed, read, saves, -⟩ := exists_save ran
  have stores : (ToolRequest.importScore json named).tune? = some tune := by
    rw [ToolRequest.tune?, parsed]
    exact congrArg Except.toOption read
  obtain ⟨apart, restores⟩ := others tune stores
  have written : (ToolRequest.importScore json named).written library.setup =
      [library.scorePath tune.name] := by
    rw [ToolRequest.written, stores]
    rfl
  have different : tune.name ≠ name := fun same => apart (congrArg fileStem same)
  refine ⟨fun other same => ?_, fun place member => ⟨fun own => ?_, fun folder own onWay => ?_⟩,
    fun place own _ other modified found => ?_⟩
  · cases stores.symm.trans same
    exact different
  · rw [written, List.mem_singleton] at own
    obtain ⟨ending, isEnding, rfl⟩ := mem_candidates member
    have way := List.prefix_refl (library.setup.scores ++ [fileStem tune.name ++ ".tune.yaml"])
    exact ne_of_onWay way isEnding (Ne.symm apart) own.symm
  · obtain rfl := List.mem_singleton.mp own
    obtain ⟨ending, -, rfl⟩ := mem_candidates member
    have longer := onWay.length_le
    rw [List.length_append, List.length_singleton] at longer
    omega
  · rw [written, List.mem_singleton] at own
    have setup := (stable_setup library.setup).answer rfl (.importScore json named)
    rw [answer_of_ok (.importScore json named) ran] at found setup
    obtain ⟨time, reads⟩ := saved_of_save saves
    have place : after.scorePath tune.name = library.scorePath tune.name := by
      rw [scorePath, scorePath, setup]
    have restored : Restores after.setup.reader tune := setup ▸ restores
    have score := score_of_saved restored (Tune.storable_of_read read) reads
    rw [own, ← place, ← setup, score] at found
    cases found
    exact different

/-- What is gone stays away. -/
theorem Gone.since (gone : Gone setup name library) (since : Since name library later) :
    Gone setup name later := by
  induction since with
  | now => exact gone
  | request request harmless _ ih => exact ih.answer harmless
  | restart _ ih => exact ih.restart
  | wait now _ ih => exact ih.wait now

/-- A name under which a score file is read comes back with a list of the scores. -/
theorem HoldsScore.listed (holds : library.HoldsScore name) {listing : ToolAnswer}
    (lists : (library.answer .listScores).1 = some listing) (succeeds : listing.Succeeds) :
    (∃ entry ∈ (listing.document.get "scores").items, entry.get "name" = .text name) ∧
    (library.answer .listScores).2.Succeeds (.getScore name) := by
  obtain ⟨file, tune, modified, isScore, read, rfl⟩ := holds
  obtain ⟨entry, located⟩ := Files.exists_locate_of_score read
  rw [answer_listScores] at lists
  cases done : (summaries.run library).1 with
  | error error =>
      rw [done] at lists
      cases lists
      exact (not_succeeds_failure _ succeeds).elim
  | ok found =>
      rw [done] at lists
      cases lists
      obtain ⟨paths, results, listed, summedUp, -⟩ := exists_summedUp done
      have summary := (mem_summaries_iff done).mpr ⟨file, tune, modified, isScore, read, rfl⟩
      refine ⟨⟨_, List.mem_map_of_mem summary, rfl⟩, ?_⟩
      have isRead : tune ∈ library.listed := by
        rw [listed_eq, listed]
        exact Files.mem_scores_of_returns ⟨results, summedUp⟩
          (mem_scorePaths_of_locate listed located isScore) read
      have known : ((library.answer .listScores).2.known? tune.name).isSome = true := by
        rw [snd_answer, snd_run_reading .listScores rfl nofun, known?_rememberAll,
          Option.isSome_or, Bool.or_eq_true]
        exact Or.inl (List.find?_isSome.mpr ⟨tune, List.mem_reverse.mpr isRead, by simp⟩)
      obtain ⟨other, same⟩ := Option.isSome_iff_exists.mp known
      refine ⟨.success [("score", other.document)] false, ?_, rfl⟩
      rw [answer_getScore, Library.found, same]

/-- A name that has been deleted is not found. If no score file is read as a tune of that name, it
is neither found nor listed as long as nothing is done that can bring it back; otherwise the next
list of the scores brings it back. -/
theorem getScore_after_delete (reached : Reachable setup library)
    (deleted : library.answer (.deleteScore name) = (some answer, kept))
    (succeeds : answer.Succeeds) :
    (∀ library ∈ [kept, kept.restart], (library.answer (.getScore name)).1 =
      some (.failure ("Score '" ++ name ++ "' not found."))) ∧
    (¬kept.HoldsScore name → ∀ later, Since name kept later → later.Misses name ∧
      ∀ listing, (later.answer .listScores).1 = some listing →
        ∀ entry ∈ (listing.document.get "scores").items, entry.get "name" ≠ .text name) ∧
    (kept.HoldsScore name → ∀ listing, (kept.answer .listScores).1 = some listing →
      listing.Succeeds →
        (∃ entry ∈ (listing.document.get "scores").items, entry.get "name" = .text name) ∧
        (kept.answer .listScores).2.Succeeds (.getScore name)) := by
  have reachedKept : Reachable setup kept := by
    have next := reached.request (.deleteScore name)
    rwa [deleted] at next
  obtain ⟨unknown, absent⟩ := absent_of_delete deleted succeeds
  have candidates : kept.candidates name = library.candidates name := by
    rw [Library.candidates, Library.candidates, reachedKept.setup_eq, reached.setup_eq]
  rw [← candidates] at absent
  refine ⟨?_, fun unread later since => ?_, fun holds _ => holds.listed⟩
  · have restarted : kept.restart.known? name = none := rfl
    exact List.forall_mem_cons.mpr ⟨answer_getScore_of_absent unknown absent,
      List.forall_mem_singleton.mpr (answer_getScore_of_absent restarted absent)⟩
  · have unfiled : ∀ path ∈ kept.candidates name, ∀ entry, kept.files.locate path ≠ .ok entry := by
      intro path member entry located
      have present := Files.contains_eq_true_iff.mpr ⟨entry, located⟩
      rw [absent path member] at present
      cases present
    have gone : Gone setup name later :=
      Gone.since ⟨reachedKept.setup_eq, reachedKept.isTree, unknown, unfiled, unread⟩ since
    exact ⟨gone.misses, fun _ => gone.not_listed⟩

/-- A library with a reel in a file. -/
def reelLibrary : Library := (emptyLibrary.answer (.importScore (reelJson "first"))).2

theorem reachable_reelLibrary : Reachable yamlSetup reelLibrary := .request _ .fresh

/-- The reel is deleted, and no file is left. -/
theorem told_deletion :
    (reelLibrary.answer (.deleteScore "reel")).1.bind statusOf = some "success" ∧
    (reelLibrary.answer (.deleteScore "reel")).2.files.entries.map (·.1) = [["scores"]] := by
  decide +kernel

/-- The text of an air without lines. -/
def airJson : String := Json.write {} (.mapping [("name", .text "air"), ("lines", .list [])])

/-- The air is imported afterwards, into a file of its own. -/
theorem told_airImport :
    ((reelLibrary.answer (.deleteScore "reel")).2.answer (.importScore airJson)).1.bind statusOf =
      some "success" ∧
    ((ToolRequest.importScore airJson).tune?.map fun tune => fileStem tune.name) = some "air" := by
  decide +kernel

theorem getScore_after_delete_reel :
    Reachable yamlSetup reelLibrary ∧
    ∃ answer kept, reelLibrary.answer (.deleteScore "reel") = (some answer, kept) ∧
      answer.Succeeds ∧ ¬kept.HoldsScore "reel" ∧
      Since "reel" kept ((kept.answer (.importScore airJson)).2.answer .listScores).2.restart ∧
      ((kept.answer (.importScore airJson)).2.answer .listScores).2.restart.Misses "reel" := by
  obtain ⟨told, left⟩ := told_deletion
  obtain ⟨imported, isAir⟩ := told_airImport
  obtain ⟨answer, answered, succeeds⟩ := Option.bind_eq_some_iff.mp told
  obtain ⟨kept, rest⟩ : ∃ kept, (reelLibrary.answer (.deleteScore "reel")).2 = kept := ⟨_, rfl⟩
  have deleted : reelLibrary.answer (.deleteScore "reel") = (some answer, kept) :=
    Prod.ext answered rest
  have setup : kept.setup = yamlSetup := by
    rw [← (reachable_reelLibrary.request (.deleteScore "reel")).setup_eq, rest]
  rw [rest] at left imported
  have unread : ¬kept.HoldsScore "reel" := by
    rintro ⟨file, tune, modified, -, read, -⟩
    obtain ⟨entry, located⟩ := Files.exists_locate_of_score read
    have member := Files.mem_paths_of_find? (Files.find?_of_walk
      (Files.locate_eq_ok_iff.mp located).2)
    rw [setup, left] at member
    cases List.mem_singleton.mp member
  have importing : kept.Harmless "reel" (.importScore airJson) := by
    refine harmless_import (fun tune stores => ⟨?_, ?_⟩) (Option.bind_eq_some_iff.mp imported)
    · rw [stores] at isAir
      have stem : fileStem tune.name = "air" := Option.some.inj isAir
      rw [stem]
      decide +kernel
    · rw [setup]
      rfl
  have listing : (kept.answer (.importScore airJson)).2.Harmless "reel" .listScores :=
    ⟨nofun, fun path _ => ⟨List.not_mem_nil, nofun⟩, nofun⟩
  have since : Since "reel" kept
      ((kept.answer (.importScore airJson)).2.answer .listScores).2.restart :=
    .restart (.request .listScores listing (.request _ importing .now))
  have after := getScore_after_delete reachable_reelLibrary deleted succeeds
  exact ⟨reachable_reelLibrary, answer, kept, deleted, succeeds, unread, since,
    (after.2.1 unread _ since).1⟩

/-- A reel without a line. -/
def reelDocument : Datum := .mapping [("name", .text "reel"), ("lines", .list [])]

/-- Files in which a reel is there twice, once under the name of an air. -/
def twofoldFiles : Files :=
  ((({} : Files).put ["scores"] .folder).put ["scores", "reel.tune.yaml"]
    (.file (.document reelDocument) 0)).put ["scores", "air.tune.json"]
      (.file (.document reelDocument) 0)

/-- Each of the two files is in the folder of the scores. -/
theorem isTree_twofoldFiles : twofoldFiles.IsTree := by
  have reel : Files.IsTree ((({} : Files).put ["scores"] .folder).put
      (["scores"] ++ ["reel.tune.yaml"]) (.file (.document reelDocument) 0)) :=
    isTree_scoresFolder.put rfl (by exact nofun) _
  have air : Files.IsTree (((({} : Files).put ["scores"] .folder).put ["scores", "reel.tune.yaml"]
      (.file (.document reelDocument) 0)).put (["scores"] ++ ["air.tune.json"])
        (.file (.document reelDocument) 0)) := reel.put rfl (by exact nofun) _
  exact air

/-- A library with these files. -/
def twofoldLibrary : Library := { emptyLibrary with files := twofoldFiles }

/-- The two files are put there by another program. -/
theorem reachable_twofoldLibrary : Reachable yamlSetup twofoldLibrary :=
  .elsewhere isTree_twofoldFiles 0 .fresh

/-- The reel is listed after it has been deleted. -/
theorem listed_after_delete :
    Reachable yamlSetup twofoldLibrary ∧ twofoldLibrary.Succeeds (.deleteScore "reel") ∧
    ∃ listing, ((twofoldLibrary.answer (.deleteScore "reel")).2.answer .listScores).1 =
      some listing ∧
      ∃ entry ∈ (listing.document.get "scores").items, entry.get "name" = .text "reel" := by
  have deleted : (twofoldLibrary.answer (.deleteScore "reel")).1.bind statusOf =
      some "success" := by decide +kernel
  have listed : (((twofoldLibrary.answer (.deleteScore "reel")).2.answer .listScores).1.map
      fun listing => (listing.document.get "scores").items.map fun entry =>
        (entry.get "name").text?) = some [some "reel"] := by decide +kernel
  obtain ⟨listing, answered, names⟩ := Option.map_eq_some_iff.mp listed
  obtain ⟨entry, member, isName⟩ := List.exists_of_mem_map (names ▸ List.mem_singleton_self _)
  refine ⟨reachable_twofoldLibrary, Option.bind_eq_some_iff.mp deleted, listing, answered, entry,
    member, ?_⟩
  cases said : entry.get "name" with
  | text value =>
      rw [said] at isName
      exact congrArg Datum.text (Option.some.inj isName)
  | _ =>
      rw [said] at isName
      cases isName

end Deleted

end Library

end TuneGraph
