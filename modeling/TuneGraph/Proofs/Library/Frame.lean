import TuneGraph.Proofs.Library.Files
import Mathlib.Data.List.Induction

/-! # What operations on files leave as it is

What is found at a path depends on the entries on the way to it: it is still found if they are kept
(`Files.walk_of_kept`), and nothing changes if none of them does (`Files.walk_congr`). Making a
folder adds folders on the way to it where nothing was (`Files.grown_makeFolders`). Where every
entry is inside a folder (`Files.IsTree`), that is not noticed at a path that is off this way
(`Files.locate_of_grown`).
-/

namespace TuneGraph

/-- Whether a path is off the way to a folder: it is not on it, and if it leaves it, then not by a
name that is too long. -/
structure Path.OffWay (way path : Path) : Prop where
  apart : ¬path <+: way
  brief : ∀ folder name, folder ++ [name] <+: path → folder <+: way → Path.isLongName name = false

/-- What is under one key does not depend on what is under another. -/
theorem lookup_filter_of_ne {α β : Type} [BEq α] [LawfulBEq α] {key other : α}
    (different : key ≠ other) (entries : List (α × β)) :
    (entries.filter (·.1 != other)).lookup key = entries.lookup key := by
  induction entries with
  | nil => rfl
  | cons entry rest ih =>
      by_cases here : entry.1 = other
      · have skips : (key == entry.1) = false := beq_eq_false_iff_ne.mpr (here ▸ different)
        rw [List.filter_cons_of_neg (by simp [here]), ih, List.lookup_cons, skips]
      · rw [List.filter_cons_of_pos (by simpa using here), List.lookup_cons, List.lookup_cons, ih]

namespace Files

variable {files next : Files} {folder path other : Path} {name : String} {names : List String}
  {entry : Entry}

/-- What is at another path stays when an entry is taken away. -/
theorem find?_erase_of_ne (different : other ≠ path) (files : Files) :
    (files.erase path).find? other = files.find? other :=
  lookup_filter_of_ne different files.entries

/-- What is taken away is not found any more. -/
theorem find?_erase (files : Files) (path : Path) : (files.erase path).find? path = none := by
  refine List.lookup_eq_none_iff.mpr fun entry member => ?_
  have kept := (List.mem_filter.mp member).2
  rw [bne_iff_ne] at kept
  exact bne_iff_ne.mpr (Ne.symm kept)

/-- A walk goes on behind a name that is not too long, if there is a folder of that name. -/
theorem walk_cons (brief : Path.isLongName name = false) :
    files.walk folder (name :: names) = match files.find? (folder ++ [name]) with
      | none => .error .missing
      | some .folder => files.walk (folder ++ [name]) names
      | some file => if names.isEmpty then .ok file else .error .notFolder := by
  rw [walk, brief]
  rfl

/-- A walk ends at a name that is too long. -/
theorem walk_long (long : Path.isLongName name = true) :
    files.walk folder (name :: names) = .error .longName := by
  rw [walk, long]
  rfl

/-- A file that is removed was there, and nothing else goes. -/
theorem of_remove_eq_ok (removed : files.remove path = .ok next) :
    (∃ content modified, files.locate path = .ok (.file content modified)) ∧
      next = files.erase path := by
  unfold remove at removed
  split at removed
  · cases removed
  · rename_i content modified located
    exact ⟨⟨content, modified, located⟩, (permit_eq_ok_iff.mp removed).2.symm⟩
  · cases removed

/-- The way to a path leads over its first names. -/
theorem isPrefix_of_append_cons (folder : Path) (name : String) (names : List String) :
    folder ++ [name] <+: folder ++ name :: names :=
  ⟨names, by rw [List.append_assoc]; rfl⟩

/-- Nothing changes on a way if no entry on it does. -/
theorem walk_congr (same : ∀ path, path <+: folder ++ names →
    next.find? path = files.find? path) : next.walk folder names = files.walk folder names := by
  induction names generalizing folder with
  | nil => rfl
  | cons name rest ih =>
      have here := same _ (isPrefix_of_append_cons folder name rest)
      have later : next.walk (folder ++ [name]) rest = files.walk (folder ++ [name]) rest := by
        refine ih fun path before => same path ?_
        rwa [List.append_assoc] at before
      cases long : Path.isLongName name with
      | true => rw [walk_long long, walk_long long]
      | false => rw [walk_cons long, walk_cons long, here, later]

/-- What is found on a way is still found if the entries on it are kept. -/
theorem walk_of_kept (kept : ∀ path entry, path <+: folder ++ names →
    files.find? path = some entry → next.find? path = some entry)
    (found : files.walk folder names = .ok entry) : next.walk folder names = .ok entry := by
  induction names generalizing folder with
  | nil => exact found
  | cons name rest ih =>
      cases long : Path.isLongName name with
      | true =>
          rw [walk_long long] at found
          cases found
      | false =>
          rw [walk_cons long] at found ⊢
          cases here : files.find? (folder ++ [name]) with
          | none =>
              rw [here] at found
              cases found
          | some entry =>
              rw [here] at found
              rw [kept _ entry (isPrefix_of_append_cons folder name rest) here]
              cases entry with
              | file => exact found
              | folder =>
                  refine ih (fun path entry before => kept path entry ?_) found
                  rwa [List.append_assoc] at before

/-- What a walk does not notice is not noticed at its path. -/
theorem locate_congr (same : next.walk [] path = files.walk [] path) :
    next.locate path = files.locate path := by
  rw [locate, locate, same]

/-- Whether a path is there depends on what is found at it. -/
theorem contains_congr (same : next.locate path = files.locate path) :
    next.contains path = files.contains path := by
  rw [contains, contains, same]

/-- What is read at a path depends on what is found at it. -/
theorem read_congr (same : next.locate path = files.locate path) :
    next.read path = files.read path := by
  rw [read, read, same]

/-- What is read from a file is still read if the entries on the way to it are kept. -/
theorem read_of_kept {found : Content × Nat} (kept : ∀ path' entry, path' <+: path →
    files.find? path' = some entry → next.find? path' = some entry)
    (reads : files.read path = .ok found) : next.read path = .ok found := by
  unfold read at reads ⊢
  cases located : files.locate path with
  | error fault =>
      rw [located] at reads
      cases reads
  | ok entry =>
      obtain ⟨valid, way⟩ := locate_eq_ok_iff.mp located
      rw [located] at reads
      rw [locate_eq_ok_iff.mpr ⟨valid, walk_of_kept kept way⟩]
      exact reads

/-- Whether the only news are folders on the way to a folder. -/
def Grown (folder : Path) (files next : Files) : Prop :=
  ∀ path, next.find? path = files.find? path ∨
    path <+: folder ∧ files.find? path = none ∧ next.find? path = some .folder

namespace Grown

/-- Files that stay as they are have no new folders. -/
theorem refl (folder : Path) (files : Files) : Grown folder files files := fun _ => Or.inl rfl

/-- Folders may be added in several steps. -/
theorem trans {last : Files} (first : Grown folder files next) (second : Grown folder next last) :
    Grown folder files last := by
  intro path
  rcases second path with same | ⟨onWay, nothing, made⟩
  · rcases first path with kept | ⟨onWay, nothing, made⟩
    · exact Or.inl (same.trans kept)
    · exact Or.inr ⟨onWay, nothing, same.trans made⟩
  · rcases first path with kept | ⟨-, -, before⟩
    · exact Or.inr ⟨onWay, kept.symm.trans nothing, made⟩
    · rw [before] at nothing
      cases nothing

/-- What was there is kept. -/
theorem kept (grown : Grown folder files next) (known : files.find? path = some entry) :
    next.find? path = some entry := by
  rcases grown path with same | ⟨-, nothing, -⟩
  · exact same.trans known
  · rw [nothing] at known
    cases known

/-- A file that is there was there before. -/
theorem find?_file {content : Content} {modified : Nat} (grown : Grown folder files next)
    (there : next.find? path = some (.file content modified)) :
    files.find? path = some (.file content modified) := by
  rcases grown path with same | ⟨-, -, isFolder⟩
  · exact same.symm.trans there
  · cases isFolder.symm.trans there

end Grown

/-- A folder that is put where nothing was, on the way to another one, is a new folder. -/
theorem grown_put_folder (free : files.find? path = none) (onWay : path <+: folder) :
    Grown folder files (files.put path .folder) := by
  intro other
  by_cases here : other = path
  · subst here
    exact Or.inr ⟨onWay, free, find?_put files other .folder⟩
  · exact Or.inl (find?_put_of_ne here files .folder)

/-- A folder inside a folder cannot be made, is there already, or is put there. -/
theorem makeFolder_cases (parent : files.walk [] folder = .ok .folder) (name : String) :
    (∃ error, files.makeFolder (folder ++ [name]) = (files, some error)) ∨
    (files.makeFolder (folder ++ [name]) = (files, none) ∧
      files.walk [] (folder ++ [name]) = .ok .folder) ∨
    (files.makeFolder (folder ++ [name]) = (files.put (folder ++ [name]) .folder, none) ∧
      files.find? (folder ++ [name]) = none ∧
      (files.put (folder ++ [name]) .folder).walk [] (folder ++ [name]) = .ok .folder) := by
  unfold makeFolder
  by_cases valid : (folder ++ [name]).Valid
  · rw [locate_of_valid valid, walk_concat, walk_concat, walk_put _ _ _ (by simp), parent]
    dsimp only
    rw [List.nil_append]
    cases brief : Path.isLongName name with
    | true =>
        rw [walk_long brief]
        exact Or.inl ⟨_, rfl⟩
    | false =>
        rw [walk_singleton brief, walk_singleton brief, find?_put]
        cases files.find? (folder ++ [name]) with
        | none =>
            unfold permit
            cases files.disk.refuses (folder ++ [name]) with
            | none => exact Or.inr (Or.inr ⟨rfl, rfl, rfl⟩)
            | some error => exact Or.inl ⟨_, rfl⟩
        | some entry =>
            cases entry with
            | folder => exact Or.inr (Or.inl ⟨rfl, rfl⟩)
            | file => exact Or.inl ⟨_, rfl⟩
  · obtain ⟨error, failed, present⟩ := exists_locate_error valid
    rw [failed files]
    refine Or.inl ⟨error, ?_⟩
    split
    next same => cases same
    next same => cases same
    next other same => exact (present other (Except.error.inj same)).elim
    next other _ same => rw [Except.error.inj same]

section MakeFolders

variable {holds : Files → Prop} (put : ∀ (files : Files) (folder : Path) (name : String),
  folder ++ [name] <+: path → files.walk [] folder = .ok .folder →
  files.find? (folder ++ [name]) = none → holds files →
  holds (files.put (folder ++ [name]) .folder))

include put

/-- What is so of files that a walk has reached, and stays so when a folder is made, is so of them
when the folders of a path have been made one after the other. -/
theorem makeEach_induction (onWay : folder ++ names <+: path)
    (parent : files.walk [] folder = .ok .folder) (start : holds files) :
    holds (files.makeEach
      ((List.range names.length).map fun n => folder ++ names.take (n + 1))).1 := by
  induction names generalizing files folder with
  | nil => exact start
  | cons name rest ih =>
      have stages : ((List.range (name :: rest).length).map fun n =>
          folder ++ (name :: rest).take (n + 1)) = (folder ++ [name]) ::
          (List.range rest.length).map fun n => folder ++ [name] ++ rest.take (n + 1) := by
        rw [List.length_cons, List.range_succ_eq_map, List.map_cons, List.map_map]
        refine congrArg₂ List.cons (by simp) (List.map_congr_left fun n _ => ?_)
        simp
      have further : folder ++ [name] ++ rest <+: path := by
        rwa [List.append_assoc]
      rw [stages, makeEach]
      rcases makeFolder_cases parent name with ⟨error, made⟩ | ⟨made, there⟩ | ⟨made, free, there⟩
      · rw [made]
        exact start
      · rw [made]
        exact ih further there start
      · rw [made]
        refine ih further there (put files folder name ?_ parent free start)
        exact (List.prefix_append _ rest).trans further

/-- Whatever is kept when a folder is put into a folder where nothing was, is kept when folders are
made one inside another. -/
theorem makeFolders_induction (start : holds files) : holds (files.makeFolders path).1 := by
  unfold makeFolders
  split
  · have stages : Files.stages path =
        (List.range path.length).map fun n => [] ++ path.take (n + 1) := rfl
    rw [stages]
    exact makeEach_induction put (List.prefix_refl _) rfl start
  · rename_i present
    unfold makeFolder
    split
    · exact start
    · exact start
    · exact (present _ ‹_›).elim
    · exact start

end MakeFolders

/-- Making a folder does not change the disk. -/
theorem disk_makeFolders (files : Files) (path : Path) :
    (files.makeFolders path).1.disk = files.disk := by
  have keeps : ∀ next : Files, next = (files.makeFolders path).1 → next.disk = files.disk := by
    rintro _ rfl
    have put : ∀ (made : Files) (folder : Path) (name : String), folder ++ [name] <+: path →
        made.walk [] folder = .ok .folder → made.find? (folder ++ [name]) = none →
        made.disk = files.disk → (made.put (folder ++ [name]) .folder).disk = files.disk :=
      fun _ _ _ _ _ _ same => same
    exact makeFolders_induction put rfl
  exact keeps _ rfl

/-- What a file receives does not depend on folders that are made before. -/
theorem receive_of_makeFolders {failure : Option FileError}
    (makes : files.makeFolders folder = (next, failure)) (content : Content) :
    next.receive path content = files.receive path content := by
  have disk := files.disk_makeFolders folder
  rw [makes] at disk
  rw [receive, receive, disk]

/-- Writing a file does not change the disk. -/
theorem disk_of_write {content : Content} {now : Nat}
    (wrote : files.write path content now = .ok next) : next.disk = files.disk := by
  rcases List.eq_nil_or_concat path with rfl | ⟨folder, name, rfl⟩
  · cases wrote
  · rw [List.concat_eq_append] at wrote
    obtain ⟨-, rfl⟩ := write_eq_ok_iff.mp wrote
    rfl

/-- Making a folder makes nothing but folders on the way to it. -/
theorem grown_makeFolders (files : Files) (path : Path) :
    Grown path files (files.makeFolders path).1 :=
  makeFolders_induction (fun _ _ _ onWay _ free grown =>
    grown.trans (grown_put_folder free onWay)) (Grown.refl path files)

/-- To make a folder leaves new folders on the way to it at most. -/
theorem grown_of_makeFolders {failure : Option FileError}
    (made : files.makeFolders path = (next, failure)) : Grown path files next := by
  have grown := grown_makeFolders files path
  rwa [made] at grown

/-- Whether everything is inside a folder. -/
def IsTree (files : Files) : Prop :=
  ∀ folder name entry, files.find? (folder ++ [name]) = some entry →
    folder = [] ∨ files.find? folder = some .folder

/-- Where nothing is, everything is inside a folder. -/
theorem isTree_empty : IsTree {} := fun _ _ _ found => nomatch found

/-- What is found at the end of a way is what is recorded there. -/
theorem find?_of_walk (way : files.walk [] (folder ++ [name]) = .ok entry) :
    files.find? (folder ++ [name]) = some entry := by
  rw [walk_concat] at way
  split at way
  · cases long : Path.isLongName name with
    | true =>
        rw [walk_long long] at way
        cases way
    | false =>
        rw [walk_singleton long, List.nil_append] at way
        cases found : files.find? (folder ++ [name]) with
        | none =>
            rw [found] at way
            cases way
        | some entry =>
            rw [found] at way
            exact congrArg some (Except.ok.inj way)
  · cases way
  · cases way

/-- A walk that ends in a folder has found it, unless it is the root. -/
theorem folder_of_walk (way : files.walk [] folder = .ok .folder) :
    folder = [] ∨ files.find? folder = some .folder := by
  rcases List.eq_nil_or_concat folder with rfl | ⟨parent, name, rfl⟩
  · exact Or.inl rfl
  · rw [List.concat_eq_append] at way ⊢
    exact Or.inr (find?_of_walk way)

/-- A walk that finds something meets no name that is too long. -/
theorem brief_of_walk (way : files.walk folder names = .ok entry) :
    ∀ name ∈ names, Path.isLongName name = false := by
  induction names generalizing folder with
  | nil => exact nofun
  | cons name rest ih =>
      cases long : Path.isLongName name with
      | true =>
          rw [walk_long long] at way
          cases way
      | false =>
          refine List.forall_mem_cons.mpr ⟨long, ?_⟩
          rw [walk_cons long] at way
          cases found : files.find? (folder ++ [name]) with
          | none =>
              rw [found] at way
              cases way
          | some there =>
              rw [found] at way
              cases there with
              | folder => exact ih way
              | file =>
                  cases rest with
                  | nil => exact nofun
                  | cons => cases way

/-- Whether nothing has come, though something may have gone. -/
def Lost (files next : Files) : Prop :=
  ∀ path, next.find? path = files.find? path ∨ next.find? path = none

/-- To take an entry away leaves the other ones as they are. -/
theorem lost_erase (files : Files) (path : Path) : Lost files (files.erase path) := by
  intro other
  by_cases here : other = path
  · exact Or.inr (here ▸ find?_erase files path)
  · exact Or.inl (find?_erase_of_ne here files)

namespace Lost

variable (lost : Lost files next)

include lost

/-- A way leads to what it led to before, or nowhere. -/
theorem walk (folder : Path) (names : List String) :
    next.walk folder names = files.walk folder names ∨
      next.walk folder names = .error .missing := by
  induction names generalizing folder with
  | nil => exact Or.inl rfl
  | cons name rest ih =>
      cases long : Path.isLongName name with
      | true => exact Or.inl (by rw [walk_long long, walk_long long])
      | false =>
          rw [walk_cons long, walk_cons long]
          rcases lost (folder ++ [name]) with same | gone
          · rw [same]
            cases files.find? (folder ++ [name]) with
            | none => exact Or.inl rfl
            | some there =>
                cases there with
                | folder => exact ih _
                | file => exact Or.inl rfl
          · rw [gone]
            exact Or.inr rfl

/-- Where something may have been lost, a path is met as before, or it is missing. -/
theorem locate (path : Path) : next.locate path = files.locate path ∨
    next.locate path = .error (.fault .missing path) := by
  rcases lost.walk [] path with same | missing
  · exact Or.inl (locate_congr same)
  · by_cases valid : path.Valid
    · rw [locate_of_valid valid, locate_of_valid valid, missing]
      exact Or.inr rfl
    · obtain ⟨error, failed, -⟩ := exists_locate_error valid
      exact Or.inl ((failed next).trans (failed files).symm)

/-- Where something may have been lost, what was not there is still not there. -/
theorem contains_eq_false (absent : files.contains path = .ok false) :
    next.contains path = .ok false := by
  rcases lost.locate path with same | missing
  · exact (contains_congr same).trans absent
  · rw [contains, missing]
    rfl

end Lost

/-- Nothing is left at the path of a file that has been removed. -/
theorem contains_of_remove (removed : files.remove path = .ok next) :
    next.contains path = .ok false := by
  obtain ⟨⟨content, modified, located⟩, rfl⟩ := of_remove_eq_ok removed
  rcases (lost_erase files path).locate path with same | missing
  · rw [located] at same
    rcases List.eq_nil_or_concat path with rfl | ⟨folder, name, rfl⟩
    · cases located
    · rw [List.concat_eq_append] at same
      have there := find?_of_walk (locate_eq_ok_iff.mp same).2
      rw [find?_erase] at there
      cases there
  · rw [contains, missing]
    rfl

/-- A path is there exactly if something is found at it. -/
theorem contains_eq_true_iff : files.contains path = .ok true ↔
    ∃ entry, files.locate path = .ok entry := by
  unfold contains
  cases files.locate path with
  | ok entry => exact iff_of_true rfl ⟨entry, rfl⟩
  | error error =>
      refine iff_of_false (fun present => ?_) nofun
      cases error with
      | fault kind => cases kind <;> cases present
      | _ => cases present

/-- A walk over names that are short enough does not end at a long one. -/
theorem walk_ne_long (files : Files) (folder : Path)
    (brief : ∀ name ∈ names, Path.isLongName name = false) :
    files.walk folder names ≠ .error .longName := by
  induction names generalizing folder with
  | nil => exact nofun
  | cons name rest ih =>
      obtain ⟨here, later⟩ := List.forall_mem_cons.mp brief
      rw [walk_cons here]
      cases files.find? (folder ++ [name]) with
      | none => exact nofun
      | some there =>
          cases there with
          | folder => exact ih _ later
          | file => cases rest <;> exact nofun

/-- A path at which nothing is found has nothing, unless it is too long or a name in it is. -/
theorem contains_eq_false (absent : ∀ entry, files.locate path ≠ .ok entry)
    (short : path.isLong = false) (brief : ∀ name ∈ path, Path.isLongName name = false) :
    files.contains path = .ok false := by
  have notLong : ∀ other, files.locate path ≠ .error (.fault .longName other) := by
    intro other failed
    unfold locate at failed
    rw [short] at failed
    split at failed
    next => cases failed
    next =>
      split at failed
      next => cases failed
      next =>
        rw [if_neg Bool.false_ne_true] at failed
        split at failed
        next => cases failed
        next fault walked =>
          cases failed
          exact walk_ne_long files [] brief walked
  unfold contains
  split
  next entry located => exact (absent entry located).elim
  next other located => exact (notLong other located).elim
  next => rfl

namespace IsTree

variable (tree : files.IsTree)

include tree

/-- What is recorded is found, unless a name on the way to it is too long. -/
theorem walk_of_find? (brief : ∀ name ∈ path, Path.isLongName name = false) (away : path ≠ [])
    (there : files.find? path = some entry) : files.walk [] path = .ok entry := by
  induction path using List.reverseRecOn generalizing entry with
  | nil => exact (away rfl).elim
  | append_singleton folder name ih =>
      have isFolder : files.walk [] folder = .ok .folder := by
        rcases eq_or_ne folder [] with rfl | inside
        · rfl
        · exact ih (fun other member => brief other (List.mem_append_left _ member)) inside
            ((tree folder name entry there).resolve_left inside)
      rw [walk_concat, isFolder]
      exact (walk_singleton (brief name (by simp))).trans (by rw [List.nil_append, there])

/-- What is found at a path at which nothing has changed was there before. -/
theorem locate_of_find?_eq (same : next.find? path = files.find? path) (away : path ≠ [])
    (located : next.locate path = .ok entry) : files.locate path = .ok entry := by
  obtain ⟨valid, way⟩ := locate_eq_ok_iff.mp located
  obtain ⟨folder, name, rfl⟩ := List.eq_nil_or_concat path |>.resolve_left away
  rw [List.concat_eq_append] at *
  refine locate_eq_ok_iff.mpr ⟨valid, tree.walk_of_find? (brief_of_walk way) away ?_⟩
  exact same.symm.trans (find?_of_walk way)

/-- Nothing is below a path at which there is no folder. -/
theorem find?_below (away : path ≠ []) (noFolder : files.find? path ≠ some .folder)
    (more : path <+: other) (below : other ≠ path) : files.find? other = none := by
  obtain ⟨names, rfl⟩ := more
  induction names using List.reverseRecOn with
  | nil => exact (below (List.append_nil path)).elim
  | append_singleton names name ih =>
      cases found : files.find? (path ++ (names ++ [name])) with
      | none => rfl
      | some entry =>
          rw [← List.append_assoc] at found
          rcases tree _ _ _ found with root | isFolder
          · exact (away (List.append_eq_nil_iff.mp root).1).elim
          · by_cases last : names = []
            · rw [last, List.append_nil] at isFolder
              exact (noFolder isFolder).elim
            · rw [ih (by simpa using last)] at isFolder
              cases isFolder

/-- A folder takes an entry in the place of a file or of nothing. -/
theorem put (parent : files.walk [] folder = .ok .folder)
    (free : files.find? (folder ++ [name]) ≠ some .folder) (entry : Entry) :
    (files.put (folder ++ [name]) entry).IsTree := by
  intro place last found there
  have isFolder : place = [] ∨ files.find? place = some .folder := by
    by_cases here : place ++ [last] = folder ++ [name]
    · obtain ⟨rfl, -⟩ := List.append_inj' here rfl
      exact folder_of_walk parent
    · rw [find?_put_of_ne here] at there
      exact tree place last found there
  refine isFolder.imp_right fun isFolder => ?_
  rw [find?_put_of_ne ?_, isFolder]
  rintro rfl
  exact free isFolder

/-- Everything is still inside a folder when a file is taken away. -/
theorem erase (isFile : files.find? path ≠ some .folder) : (files.erase path).IsTree := by
  intro place last found there
  by_cases here : place ++ [last] = path
  · rw [here, find?_erase] at there
    cases there
  · rw [find?_erase_of_ne here] at there
    refine (tree place last found there).imp_right fun isFolder => ?_
    rw [find?_erase_of_ne ?_, isFolder]
    rintro rfl
    exact isFile isFolder

/-- Everything is still inside a folder when folders are made. -/
theorem makeFolders (path : Path) : (files.makeFolders path).1.IsTree :=
  makeFolders_induction (fun _ _ _ _ parent free tree =>
    tree.put parent (by rw [free]; exact nofun) .folder) tree

/-- Everything is still inside a folder when a file is written. -/
theorem write {content : Content} {now : Nat} (wrote : files.write path content now = .ok next) :
    next.IsTree := by
  rcases List.eq_nil_or_concat path with rfl | ⟨folder, name, rfl⟩
  · cases wrote
  · rw [List.concat_eq_append] at wrote
    obtain ⟨accepts, rfl⟩ := write_eq_ok_iff.mp wrote
    exact tree.put accepts.isFolder accepts.free _

/-- Everything is still inside a folder when a file is removed. -/
theorem remove (removed : files.remove path = .ok next) : next.IsTree := by
  obtain ⟨⟨content, modified, located⟩, rfl⟩ := of_remove_eq_ok removed
  rcases List.eq_nil_or_concat path with rfl | ⟨folder, name, rfl⟩
  · cases located
  · rw [List.concat_eq_append] at located ⊢
    refine tree.erase ?_
    rw [find?_of_walk (locate_eq_ok_iff.mp located).2]
    exact nofun

end IsTree

section Grown

variable {way : Path}

/-- A way that leads into a new folder and off the way to it ends where nothing is. -/
theorem walk_into_news (tree : files.IsTree) (grown : Grown way files next) (onWay : folder <+: way)
    (away : folder ≠ []) (new : files.find? folder ≠ some .folder)
    (off : Path.OffWay way (folder ++ names)) : next.walk folder names = .error .missing := by
  -- Nothing was below a new folder, so a step ends the way or leads into another new folder.
  induction names generalizing folder with
  | nil => exact (off.apart (by rwa [List.append_nil])).elim
  | cons name rest ih =>
      have nothing : files.find? (folder ++ [name]) = none :=
        tree.find?_below away new (List.prefix_append _ _) (by simp)
      rw [walk_cons (off.brief _ _ (isPrefix_of_append_cons folder name rest) onWay)]
      rcases grown (folder ++ [name]) with same | ⟨further, -, made⟩
      · rw [same, nothing]
      · rw [made]
        refine ih further (by simp) (by rw [nothing]; exact nofun) ?_
        rwa [List.append_assoc]

/-- New folders are not noticed on a way that is off the way to them. -/
theorem walk_of_grown (tree : files.IsTree) (grown : Grown way files next)
    (off : Path.OffWay way (folder ++ names)) :
    next.walk folder names = files.walk folder names := by
  induction names generalizing folder with
  | nil => rfl
  | cons name rest ih =>
      have later : Path.OffWay way (folder ++ [name] ++ rest) := by rwa [List.append_assoc]
      cases long : Path.isLongName name with
      | true => rw [walk_long long, walk_long long]
      | false =>
          rw [walk_cons long, walk_cons long]
          rcases grown (folder ++ [name]) with same | ⟨onWay, nothing, made⟩
          · rw [same, ih later]
          · rw [made, nothing]
            exact walk_into_news tree grown onWay (by simp) (by rw [nothing]; exact nofun) later

end Grown

/-- Where everything is inside a folder, new folders are not noticed at a path that is off the way
to them. -/
theorem locate_of_grown {way : Path} (tree : files.IsTree) (grown : Grown way files next)
    (off : Path.OffWay way path) : next.locate path = files.locate path :=
  locate_congr (walk_of_grown tree grown (off : Path.OffWay way ([] ++ path)))

/-- Whether the news among files are folders on the way to a folder and perhaps a file at a place.
-/
def Extended (folder place : Path) (files next : Files) : Prop :=
  ∃ made, Grown folder files made ∧
    (next = made ∨ ∃ content modified, next = made.put place (.file content modified))

namespace Extended

variable {place : Path}

/-- Files that stay as they are have no news. -/
theorem refl (folder place : Path) (files : Files) : Extended folder place files files :=
  ⟨files, .refl folder files, Or.inl rfl⟩

/-- The news are not noticed at a path that the file is not on the way to and that is off the way to
the folder. -/
theorem locate (extended : Extended folder place files next) (tree : files.IsTree)
    (apart : ¬place <+: path) (off : Path.OffWay folder path) :
    next.locate path = files.locate path := by
  obtain ⟨made, grown, rfl | ⟨content, modified, rfl⟩⟩ := extended
  · exact locate_of_grown tree grown off
  · refine (locate_congr (walk_congr fun other onWay => ?_)).trans (locate_of_grown tree grown off)
    refine find?_put_of_ne ?_ made _
    rintro rfl
    exact apart onWay

end Extended

end Files

end TuneGraph
