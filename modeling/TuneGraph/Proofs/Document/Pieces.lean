import TuneGraph.Proofs.Document.Written

/-! # Values on their way into a file

A value is written into a file in pieces, and the file holds those before the first that cannot be
written. If none stops the writing, the file holds the JSON text of the value
(`Json.written_of_unobstructed`), all of which can be written out.
-/

namespace TuneGraph

namespace Json

/-- Pieces are stopped by the first of them that is, be it in the first part or in the second. -/
theorem stopped_append (first second : List Piece) :
    stopped (first ++ second) = (stopped first).or (stopped second) := by
  induction first with
  | nil => rfl
  | cons piece rest ih =>
      cases piece with
      | ok text => exact ih
      | error obstacle => rfl

/-- What gets into a file of pieces that nothing stops is followed by what gets there of the next
ones. -/
theorem begun_append {first : List Piece} (whole : stopped first = none) (second : List Piece) :
    begun (first ++ second) = begun first ++ begun second := by
  induction first with
  | nil => exact (String.empty_append).symm
  | cons piece rest ih =>
      cases piece with
      | ok text =>
          show text ++ begun (rest ++ second) = text ++ begun rest ++ begun second
          rw [ih whole, String.append_assoc]
      | error obstacle => cases whole

/-- A piece that is written is written as it is. -/
theorem piece_eq_ok {text written : String} (whole : piece text = .ok written) :
    written = text := by
  unfold piece at whole
  split at whole
  · cases whole
  · exact (Except.ok.inj whole).symm

/-- What is so of the pieces of a value that nothing stops: the text that they make, and that all
of the value can be written out. -/
structure Written (pieces : List Piece) (text : String) (value : Datum) : Prop where
  begun : Json.begun pieces = text
  fits : Json.fits value = true

namespace Written

/-- A scalar is written with what stands before it. -/
theorem of_scalarPiece {before : String} {scalar : Datum}
    (whole : stopped [scalarPiece before scalar] = none) :
    isShort scalar = true ∧
      Json.begun [scalarPiece before scalar] = before ++ writeScalar {} scalar := by
  unfold scalarPiece at whole ⊢
  split at whole
  next short =>
    rw [if_pos short]
    cases outcome : piece (before ++ writeScalar {} scalar) with
    | ok text =>
        obtain rfl := piece_eq_ok outcome
        exact ⟨short, String.append_empty⟩
    | error obstacle =>
        rw [outcome] at whole
        cases whole
  next => cases whole

/-- The items of a list are written one after another with commas between them. -/
theorem of_itemPieces {level : Nat} {items : List Datum} (inhabited : items ≠ [])
    (each : ∀ item ∈ items, ∀ before, stopped (pieces before item) = none →
      Written (pieces before item) (before ++ writeAt {} level item) item)
    (before : String) (whole : stopped (itemPieces before items) = none) :
    Written (itemPieces before items)
      (before ++ ", ".intercalate (items.map (writeAt {} level))) (.list items) := by
  induction items generalizing before with
  | nil => exact absurd rfl inhabited
  | cons item rest ih =>
      obtain ⟨here, later⟩ := List.forall_mem_cons.mp each
      rw [itemPieces, stopped_append, Option.or_eq_none_iff] at whole
      have first := here before whole.1
      cases rest with
      | nil =>
          refine ⟨?_, Bool.and_eq_true_iff.mpr ⟨first.fits, rfl⟩⟩
          rw [itemPieces, itemPieces, List.append_nil, first.begun]
          simp
      | cons next rest =>
          have others := ih (List.cons_ne_nil _ _) later ", " whole.2
          refine ⟨?_, Bool.and_eq_true_iff.mpr ⟨first.fits, others.fits⟩⟩
          rw [itemPieces, begun_append whole.1, first.begun, others.begun]
          simp [String.append_assoc]

/-- The entries of a mapping are written one after another with commas between them. -/
theorem of_entryPieces {level : Nat} {entries : List (String × Datum)} (inhabited : entries ≠ [])
    (each : ∀ entry ∈ entries, ∀ before, stopped (pieces before entry.2) = none →
      Written (pieces before entry.2) (before ++ writeAt {} level entry.2) entry.2)
    (before : String) (whole : stopped (entryPieces before entries) = none) :
    Written (entryPieces before entries)
      (before ++ ", ".intercalate (entries.map fun entry =>
        writeString false entry.1 ++ ": " ++ writeAt {} level entry.2)) (.mapping entries) := by
  induction entries generalizing before with
  | nil => exact absurd rfl inhabited
  | cons entry rest ih =>
      obtain ⟨name, value⟩ := entry
      obtain ⟨here, later⟩ := List.forall_mem_cons.mp each
      have parts : stopped (entryPiece (name, value)) = none ∧
          stopped (entryPieces ", " rest) = none := by
        rwa [entryPieces, stopped, stopped_append, Option.or_eq_none_iff] at whole
      have first : Json.begun (entryPiece (name, value)) =
          writeString false name ++ ": " ++ writeAt {} level value ∧
          Json.fits value = true := by
        cases named : piece (writeString false name) with
        | error obstacle =>
            have stops := parts.1
            rw [entryPiece, named] at stops
            cases stops
        | ok text =>
            obtain rfl := piece_eq_ok named
            have stops := parts.1
            rw [entryPiece, named] at stops
            have value := here "" stops
            refine ⟨?_, value.fits⟩
            rw [entryPiece, named]
            simp only [Json.begun, value.begun, String.empty_append, String.append_assoc]
      cases rest with
      | nil =>
          refine ⟨?_, Bool.and_eq_true_iff.mpr ⟨first.2, rfl⟩⟩
          rw [entryPieces, entryPieces, List.append_nil, Json.begun, first.1]
          simp
      | cons next rest =>
          have others := ih (List.cons_ne_nil _ _) later ", " parts.2
          refine ⟨?_, Bool.and_eq_true_iff.mpr ⟨first.2, others.fits⟩⟩
          rw [entryPieces, Json.begun, begun_append parts.1, first.1, others.begun]
          simp [String.append_assoc]

/-- The pieces of a value that nothing stops make its JSON text. -/
theorem of_pieces (value : Datum) : ∀ (level : Nat) (before : String),
    stopped (pieces before value) = none →
      Written (pieces before value) (before ++ writeAt {} level value) value := by
  have scalar : ∀ scalar before, stopped [scalarPiece before scalar] = none →
      Json.fits scalar = isShort scalar →
      Written [scalarPiece before scalar] (before ++ writeScalar {} scalar) scalar :=
    fun scalar before whole short =>
      have written := of_scalarPiece whole
      ⟨written.2, short.trans written.1⟩
  induction value using Datum.nested with
  | null => exact fun _ before whole => scalar .null before whole rfl
  | boolean value => exact fun _ before whole => scalar (.boolean value) before whole rfl
  | integer value => exact fun _ before whole => scalar (.integer value) before whole rfl
  | real value => exact fun _ before whole => scalar (.real value) before whole rfl
  | text value => exact fun _ before whole => scalar (.text value) before whole rfl
  | other value => exact fun _ before whole => scalar (.other value) before whole rfl
  | list items ih =>
      intro level before whole
      cases items with
      | nil => exact ⟨String.append_empty, rfl⟩
      | cons item rest =>
          have row : stopped (itemPieces "[" (item :: rest)) = none := by
            rw [pieces, if_neg (by simp), stopped, stopped_append, Option.or_eq_none_iff] at whole
            exact whole.1
          have written := of_itemPieces (List.cons_ne_nil item rest)
            (fun item member => ih item member (level + 1)) "[" row
          refine ⟨?_, written.fits⟩
          rw [pieces, if_neg (by simp), Json.begun, begun_append row, written.begun, writeAt,
            enclose_eq rfl, writeItems_eq]
          simp [Json.begun, String.append_assoc]
  | mapping entries ih =>
      intro level before whole
      cases entries with
      | nil => exact ⟨String.append_empty, rfl⟩
      | cons entry rest =>
          have row : stopped (entryPieces "" (entry :: rest)) = none := by
            rw [pieces, if_neg (by simp), stopped, stopped_append, Option.or_eq_none_iff] at whole
            exact whole.1
          have written := of_entryPieces (List.cons_ne_nil entry rest)
            (fun entry member => ih entry member (level + 1)) "" row
          refine ⟨?_, written.fits⟩
          rw [pieces, if_neg (by simp), Json.begun, begun_append row, written.begun, writeAt,
            enclose_eq rfl, writeEntries_eq]
          simp [Json.begun, String.append_assoc]

end Written

section Short

variable {pieces : List Piece} {before : String}

/-- What stops the writing is one of the pieces. -/
theorem mem_of_stopped {obstacle : Obstacle} (stops : stopped pieces = some obstacle) :
    .error obstacle ∈ pieces := by
  induction pieces with
  | nil => cases stops
  | cons piece rest ih =>
      cases piece with
      | ok text => exact List.mem_cons_of_mem _ (ih stops)
      | error first =>
          obtain rfl := Option.some.inj stops
          exact List.mem_cons_self

/-- A piece that is not written holds lone surrogates. -/
theorem piece_ne_tooLong (text : String) : piece text ≠ .error .tooLong := by
  unfold piece
  split
  · exact nofun
  · exact nofun

/-- The pieces of a value that can be written out are not too long. -/
theorem tooLong_not_mem_pieces {value : Datum} (whole : fits value = true) :
    ∀ before, .error .tooLong ∉ Json.pieces before value := by
  have scalar : ∀ scalar before, isShort scalar = true →
      .error .tooLong ∉ [scalarPiece before scalar] := by
    intro scalar before short member
    have same := List.mem_singleton.mp member
    rw [scalarPiece, if_pos short] at same
    exact piece_ne_tooLong _ same.symm
  induction value using Datum.nested with
  | null => exact fun before => scalar .null before whole
  | boolean value => exact fun before => scalar (.boolean value) before whole
  | integer value => exact fun before => scalar (.integer value) before whole
  | real value => exact fun before => scalar (.real value) before whole
  | text value => exact fun before => scalar (.text value) before whole
  | other value => exact fun before => scalar (.other value) before whole
  | list items ih =>
      unfold fits at whole
      rw [Datum.allScalars, Datum.allInItems_eq, List.all_eq_true] at whole
      have row : ∀ before, .error .tooLong ∉ itemPieces before items := by
        induction items with
        | nil => exact nofun
        | cons item rest more =>
            intro before
            obtain ⟨here, later⟩ := List.forall_mem_cons.mp whole
            rw [itemPieces, List.mem_append, not_or]
            exact ⟨ih item List.mem_cons_self here before,
              more (fun item member => ih item (List.mem_cons_of_mem _ member)) later ", "⟩
      intro before
      rw [Json.pieces]
      split <;> simp [row]
  | mapping entries ih =>
      unfold fits at whole
      rw [Datum.allScalars, Datum.allInEntries_eq, List.all_eq_true] at whole
      have row : ∀ before, .error .tooLong ∉ entryPieces before entries := by
        induction entries with
        | nil => exact nofun
        | cons entry rest more =>
            intro before
            obtain ⟨name, value⟩ := entry
            obtain ⟨here, later⟩ := List.forall_mem_cons.mp whole
            have others := more (fun entry member => ih entry (List.mem_cons_of_mem _ member)) later
            have held := ih (name, value) List.mem_cons_self here
            rw [entryPieces, entryPiece]
            simp [others, held, (piece_ne_tooLong _).symm]
      intro before
      rw [Json.pieces]
      split <;> simp [row]

end Short

/-- A value that can be written out is stopped by nothing but lone surrogates. -/
theorem obstacle?_ne_tooLong {value : Datum} (whole : fits value = true) :
    obstacle? value ≠ some .tooLong :=
  fun stops => tooLong_not_mem_pieces whole "" (mem_of_stopped stops)

/-- A value that nothing stops gets into a file as its JSON text. -/
theorem written_of_unobstructed {value : Datum} (whole : obstacle? value = none) :
    written value = write {} value :=
  (Written.of_pieces value 0 "" whole).begun.trans (String.empty_append)

/-- A value that nothing stops can be written out. -/
theorem fits_of_unobstructed {value : Datum} (whole : obstacle? value = none) :
    fits value = true :=
  (Written.of_pieces value 0 "" whole).fits

end Json

end TuneGraph
