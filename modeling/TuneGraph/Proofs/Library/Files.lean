import TuneGraph.Library.Files
import TuneGraph.Proofs.Except

/-! # What is written to a file is read from it

Whether a folder takes a file depends on the way to the folder and on the file's name, not on the
content (`Files.write_eq_ok_iff`). Since nothing on the way to a file is touched when it is written,
its content can be read afterwards (`Files.read_of_write`).
-/

namespace TuneGraph

/-- Whether a file system can be asked for a path. -/
structure Path.Valid (path : Path) : Prop where
  encodable : path.isUnencodable = false
  clean : path.hasNull = false
  short : path.isLong = false

namespace Path.Valid

variable {folder : Path} {name : String}

theorem encodable_of_append (valid : Path.Valid (folder ++ [name])) :
    folder.isUnencodable = false := by
  have encodable := valid.encodable
  rw [isUnencodable, List.any_append, Bool.or_eq_false_iff] at encodable
  exact encodable.1

theorem clean_of_append (valid : Path.Valid (folder ++ [name])) : folder.hasNull = false := by
  have clean := valid.clean
  rw [hasNull, List.any_append, Bool.or_eq_false_iff] at clean
  exact clean.1

end Path.Valid

namespace Files

variable {files next : Files} {folder : Path} {name : String} {content : Content} {now : Nat}

/-- What was put at a path is there. -/
theorem find?_put (files : Files) (path : Path) (entry : Entry) :
    (files.put path entry).find? path = some entry := by
  obtain ⟨entries, disk⟩ := files
  unfold find? put
  induction entries with
  | nil => rw [putEntry, List.lookup_cons_self]
  | cons first rest ih =>
      rw [putEntry]
      split
      next => rw [List.lookup_cons_self]
      next other =>
        have skips : (path == first.1) = false := beq_eq_false_iff_ne.mpr (Ne.symm other)
        rw [List.lookup_cons, skips]
        exact ih

/-- What is put at a path is put nowhere else. -/
theorem find?_put_of_ne {path other : Path} (different : other ≠ path) (files : Files)
    (entry : Entry) : (files.put path entry).find? other = files.find? other := by
  have skips : (other == path) = false := beq_eq_false_iff_ne.mpr different
  obtain ⟨entries, disk⟩ := files
  unfold find? put
  induction entries with
  | nil => rw [putEntry, List.lookup_cons, skips]
  | cons first rest ih =>
      rw [putEntry]
      split
      next here => rw [List.lookup_cons, List.lookup_cons, here, skips]
      next =>
        rw [List.lookup_cons, List.lookup_cons]
        split
        next => rfl
        next => exact ih

/-- A way is not changed by what is put further down. -/
theorem walk_put {path : Path} (names : List String) (files : Files) (entry : Entry)
    (above : folder.length + names.length < path.length) :
    (files.put path entry).walk folder names = files.walk folder names := by
  induction names generalizing folder with
  | nil => rfl
  | cons name rest ih =>
      rw [List.length_cons] at above
      have different : folder ++ [name] ≠ path := by
        rintro rfl
        rw [List.length_append, List.length_singleton] at above
        omega
      have further : (folder ++ [name]).length + rest.length < path.length := by
        rw [List.length_append, List.length_singleton]
        omega
      rw [walk, walk, find?_put_of_ne different, ih further]

/-- The last step of a way is made from a folder. -/
theorem walk_concat (files : Files) (names : List String) (name : String) :
    files.walk folder (names ++ [name]) = match files.walk folder names with
      | .ok .folder => files.walk (folder ++ names) [name]
      | .ok (.file ..) => .error .notFolder
      | .error fault => .error fault := by
  induction names generalizing folder with
  | nil => rw [List.nil_append, List.append_nil]; rfl
  | cons first rest ih =>
      have more : (rest ++ [name]).isEmpty = false := by cases rest <;> rfl
      rw [List.cons_append, walk, walk]
      split
      next => rfl
      next =>
        cases files.find? (folder ++ [first]) with
        | none => rfl
        | some entry =>
            cases entry with
            | folder =>
                simp only [ih]
                rw [List.append_assoc]
                rfl
            | file content modified =>
                simp only [more]
                cases rest.isEmpty <;> rfl

/-- A path that a file system cannot be asked for is met with one error, whatever is there, and it
is not that something is missing. -/
theorem exists_locate_error {path : Path} (invalid : ¬path.Valid) :
    ∃ error, (∀ files : Files, files.locate path = .error error) ∧
      ∀ other, error ≠ .fault .missing other := by
  unfold locate
  cases encodable : path.isUnencodable with
  | true => exact ⟨_, fun _ => rfl, nofun⟩
  | false =>
      cases clean : path.hasNull with
      | true => exact ⟨_, fun _ => rfl, nofun⟩
      | false =>
          cases short : path.isLong with
          | true => exact ⟨_, fun _ => rfl, nofun⟩
          | false => exact (invalid ⟨encodable, clean, short⟩).elim

/-- Of a path that a file system can be asked for it says what is found on the way. -/
theorem locate_of_valid {path : Path} (valid : path.Valid) :
    files.locate path = match files.walk [] path with
      | .ok entry => .ok entry
      | .error fault => .error (.fault fault path) := by
  rw [locate, valid.encodable, valid.clean, valid.short]
  rfl

/-- Something is found at the end of a way if a file system can be asked for the path. -/
theorem locate_eq_ok_iff {path : Path} {entry : Entry} : files.locate path = .ok entry ↔
    path.Valid ∧ files.walk [] path = .ok entry := by
  by_cases valid : path.Valid
  · rw [locate_of_valid valid]
    cases files.walk [] path with
    | ok found => simp [valid]
    | error fault => simp
  · obtain ⟨error, failed, -⟩ := exists_locate_error valid
    rw [failed files]
    exact ⟨nofun, fun found => (valid found.1).elim⟩

/-- Whether a folder takes a file of a name. -/
structure Accepts (files : Files) (folder : Path) (name : String) : Prop where
  valid : (folder ++ [name]).Valid
  brief : Path.isLongName name = false
  isFolder : files.walk [] folder = .ok .folder
  free : files.find? (folder ++ [name]) ≠ some .folder
  granted : files.disk.refuses (folder ++ [name]) = none

/-- What is at a name in a folder. -/
theorem walk_singleton (brief : Path.isLongName name = false) :
    files.walk folder [name] = match files.find? (folder ++ [name]) with
      | none => .error .missing
      | some entry => .ok entry := by
  rw [walk, brief]
  cases files.find? (folder ++ [name]) with
  | none => rfl
  | some entry => cases entry <;> rfl

/-- A change is made if the disk does not refuse it. -/
theorem permit_eq_ok_iff {path : Path} {changed : Files} : files.permit path changed = .ok next ↔
    files.disk.refuses path = none ∧ changed = next := by
  unfold permit
  cases files.disk.refuses path with
  | none => exact ⟨fun same => ⟨rfl, Except.ok.inj same⟩, fun same => congrArg Except.ok same.2⟩
  | some error => exact ⟨nofun, nofun⟩

/-- A file that its folder takes is put there. -/
theorem write_of_accepts (accepts : files.Accepts folder name) (content : Content) (now : Nat) :
    files.write (folder ++ [name]) content now =
      .ok (files.put (folder ++ [name]) (.file content now)) := by
  have permitted := permit_eq_ok_iff.mpr
    ⟨accepts.granted, Eq.refl (files.put (folder ++ [name]) (.file content now))⟩
  rw [write, locate_of_valid accepts.valid, walk_concat, accepts.isFolder]
  simp only [List.nil_append, walk_singleton accepts.brief, List.dropLast_concat]
  cases found : files.find? (folder ++ [name]) with
  | none => simp only [accepts.isFolder, permitted]
  | some entry =>
      cases entry with
      | folder => exact (accepts.free found).elim
      | file => exact permitted

/-- A file that is written is taken by its folder. -/
theorem accepts_of_write (written : files.write (folder ++ [name]) content now = .ok next) :
    files.Accepts folder name := by
  have valid : (folder ++ [name]).Valid := by
    by_contra invalid
    obtain ⟨error, failed, present⟩ := exists_locate_error invalid
    rw [write, failed files] at written
    split at written
    next same => cases same
    next same => cases same
    next other same => exact present other (Except.error.inj same)
    next => cases written
  rw [write, locate_of_valid valid, walk_concat, List.nil_append, List.dropLast_concat] at written
  have isFolder : files.walk [] folder = .ok .folder := by
    cases way : files.walk [] folder with
    | error fault => cases fault <;> simp [way] at written
    | ok entry =>
        cases entry with
        | folder => rfl
        | file => simp [way] at written
  have brief : Path.isLongName name = false := by
    refine Bool.eq_false_iff.mpr fun long => ?_
    simp [isFolder, walk, long] at written
  have free : files.find? (folder ++ [name]) ≠ some .folder := by
    intro found
    simp [isFolder, walk_singleton brief, found] at written
  simp only [isFolder, walk_singleton brief] at written
  cases found : files.find? (folder ++ [name]) with
  | none =>
      simp only [found] at written
      exact ⟨valid, brief, isFolder, free, (permit_eq_ok_iff.mp written).1⟩
  | some entry =>
      cases entry with
      | folder => exact (free found).elim
      | file =>
          simp only [found] at written
          exact ⟨valid, brief, isFolder, free, (permit_eq_ok_iff.mp written).1⟩

/-- A file is written exactly if its folder takes it, and then it is put there. -/
theorem write_eq_ok_iff : files.write (folder ++ [name]) content now = .ok next ↔
    files.Accepts folder name ∧ files.put (folder ++ [name]) (.file content now) = next := by
  constructor
  · intro written
    have accepts := accepts_of_write written
    rw [write_of_accepts accepts] at written
    exact ⟨accepts, Except.ok.inj written⟩
  · rintro ⟨accepts, rfl⟩
    exact write_of_accepts accepts content now

/-- The content that was written to a file is what is read from it. -/
theorem read_of_write (written : files.write (folder ++ [name]) content now = .ok next) :
    next.read (folder ++ [name]) = .ok (content, now) := by
  obtain ⟨accepts, rfl⟩ := write_eq_ok_iff.mp written
  have way : (files.put (folder ++ [name]) (.file content now)).walk [] folder = .ok .folder := by
    rw [walk_put _ _ _ (by simp), accepts.isFolder]
  rw [read, locate_of_valid accepts.valid, walk_concat, way]
  simp only [List.nil_append, walk_singleton accepts.brief, find?_put]
  rfl

/-- A file that can be read is there. -/
theorem contains_of_read {path : Path} {found : Content × Nat}
    (reads : files.read path = .ok found) : files.contains path = .ok true := by
  unfold read at reads
  unfold contains
  cases located : files.locate path with
  | ok entry => rfl
  | error error =>
      rw [located] at reads
      cases reads

end Files

end TuneGraph
