import Rcurl.Disk.DrillDown

/-!
# The columns of the table

Names are cut to 48 columns, so on every line that is printed the name and its padding fill the 50
columns that the table has for them, whatever the characters: `name_truncation`. The sizes behind them
can be read back and are in order: `diskUsage_sizes_readable`.
-/

namespace Rcurl

open RustText (Text)

/-! ## The name column -/

/-- A padded text takes the columns of its characters and one for each blank. -/
theorem displayWidth_padding (count : Nat) : displayWidth (List.replicate count ' ') = count := by
  rw [displayWidth, List.map_replicate, List.sum_replicate]
  exact Nat.mul_one count

/-- A row fills the column of the names. -/
theorem displayWidth_nameColumn (name : Text) (size : UInt64) (fileType : Text) :
    displayWidth (nameColumn (diskEntry name size fileType)) = 50 := by
  have fits : displayWidth (truncateForDisplay name 48) ≤ 48 :=
    displayWidth_truncateForDisplay name (by decide)
  have column : nameColumn (diskEntry name size fileType) = truncateForDisplay name 48 ++
      List.replicate (50 - displayWidth (truncateForDisplay name 48)) ' ' := rfl
  rw [column, displayWidth_append, displayWidth_padding]
  omega

/-- Every listed entry is a row. -/
theorem mem_getDiskUsage {walkDir : WalkDir} {scheduler : Scheduler} {path : Text} {root : Entry}
    {entry : DiskEntry} (member : entry ∈ getDiskUsage walkDir scheduler path root) :
    ∃ name size fileType, entry = diskEntry name size fileType := by
  have row : ∀ {fileType : Text} {sized : List (DirEntry × UInt64)},
      entry ∈ sortedRows fileType sized → ∃ name size fileType, entry = diskEntry name size fileType := by
    intro fileType sized inside
    obtain ⟨found, _, whole⟩ := List.mem_map.mp inside
    exact ⟨_, _, _, whole.symm⟩
  unfold getDiskUsage at member
  split at member
  · exact ⟨_, _, _, List.mem_singleton.mp member⟩
  · rcases List.mem_append.mp member with dir | file
    · exact row dir
    · exact row file

/-- A line of the table has the name of its row, cut exactly, and blanks behind it, which fill the column
of the names; one more blank is before the next column. -/
structure FillsNameColumn (row : DiskEntry) (line : Text) : Prop where
  /-- The name is cut to 48 columns. -/
  cut : CutExactly row.name 48 row.displayName
  /-- Blanks stand behind it. -/
  padded : ∃ blanks, nameColumn row = row.displayName ++ List.replicate blanks ' '
  /-- The line starts with both. -/
  starts : ∃ rest, line = nameColumn row ++ ' ' :: rest
  /-- They take 50 columns. -/
  width : displayWidth (nameColumn row) = 50

/-- Every row is printed so. -/
theorem fillsNameColumn_printRow (name : Text) (size : UInt64) (fileType : Text) :
    FillsNameColumn (diskEntry name size fileType) (printRow (diskEntry name size fileType)) where
  cut := cutExactly name (by decide)
  padded := ⟨_, rfl⟩
  starts := ⟨_, List.append_assoc _ _ _⟩
  width := displayWidth_nameColumn name size fileType

/-- From three columns on names are cut exactly, and only once. What is printed for a directory or a
file is a heading, a line for each row, which fills the column of the names, and two lines more. -/
theorem name_truncation (s : Text) (maxWidth : Nat) (wide : 3 ≤ maxWidth) :
    CutExactly s maxWidth (truncateForDisplay s maxWidth) ∧
      truncateForDisplay (truncateForDisplay s maxWidth) maxWidth = truncateForDisplay s maxWidth ∧
        ∀ (walkDir : WalkDir) (scheduler : Scheduler) (elapsed path : Text) (root : Entry),
          ∃ heading lines footer, heading.length = 3 ∧ footer.length = 2 ∧
            diskSizeCommand walkDir scheduler elapsed path (some root) =
              .ok (heading ++ lines ++ footer) ∧
            List.Forall₂ FillsNameColumn (getDiskUsage walkDir scheduler path root) lines := by
  refine ⟨cutExactly s wide, ?_, ?_⟩
  · exact truncateForDisplay_fits wide (displayWidth_truncateForDisplay s wide)
  · intro walkDir scheduler elapsed path root
    refine ⟨_, (getDiskUsage walkDir scheduler path root).map printRow, _, ?_, ?_, rfl, ?_⟩
    · rfl
    · rfl
    · rw [List.forall₂_map_right_iff, List.forall₂_same]
      intro entry member
      obtain ⟨name, size, fileType, rfl⟩ := mem_getDiskUsage member
      exact fillsNameColumn_printRow name size fileType

/-- A name in which a wide character stands at the limit. -/
def wideName : Text := List.replicate 44 'a' ++ [Char.ofNat 0x65E5, Char.ofNat 0x672C, 'b']

example : truncateForDisplay wideName 48 = List.replicate 44 'a' ++ "...".toList := by decide +kernel

/-- It is cut exactly. -/
theorem name_truncation_wide : 3 ≤ 48 ∧ CutExactly wideName 48 (truncateForDisplay wideName 48) ∧
    truncateForDisplay (truncateForDisplay wideName 48) 48 = truncateForDisplay wideName 48 ∧
      ∀ (walkDir : WalkDir) (scheduler : Scheduler) (elapsed path : Text) (root : Entry),
        ∃ heading lines footer, heading.length = 3 ∧ footer.length = 2 ∧
          diskSizeCommand walkDir scheduler elapsed path (some root) =
            .ok (heading ++ lines ++ footer) ∧
          List.Forall₂ FillsNameColumn (getDiskUsage walkDir scheduler path root) lines :=
  ⟨by decide, name_truncation wideName 48 (by decide)⟩

/-! ## The size column -/

/-- The sizes of a listing as a reader has them: each is read back, near the size that was counted, and
those of one kind do not grow from row to row. -/
structure ReadableSizes (rows : List SizedRow) (written : List DiskEntry) : Prop where
  /-- What is written is the text of these rows. -/
  written_eq : rows.map SizedRow.written = written
  /-- Every size is read back, near the size. -/
  near : ∀ row ∈ rows, ReadsSize row.written.size row.size
  /-- Those of one kind are in order. -/
  ordered : rows.Pairwise fun earlier later => earlier.fileType = later.fileType →
    ∀ large small, readSize earlier.written.size = some large →
      readSize later.written.size = some small → small ≤ large

/-- The size column of every listing can be read back and is in order. -/
theorem diskUsage_sizes_readable (walkDir : WalkDir) (scheduler : Scheduler) (path : Text)
    (root : Entry) :
    ReadableSizes (shownRows walkDir scheduler path root)
      (getDiskUsage walkDir scheduler path root) := by
  have read : ∀ row : SizedRow, readSize row.written.size = some (writtenSize row.size.toNat) :=
    fun row => readSize_formatBytes row.size
  have sorted : ∀ earlier later : SizedRow, later.size ≤ earlier.size →
      earlier.fileType = later.fileType → ∀ large small,
        readSize earlier.written.size = some large →
          readSize later.written.size = some small → small ≤ large := by
    intro earlier later le _ large small first second
    rw [read] at first second
    rw [← Option.some.inj first, ← Option.some.inj second]
    exact writtenSize_mono (UInt64.le_iff_toNat_le.mp le)
  constructor
  · exact written_shownRows walkDir scheduler path root
  · exact fun row _ => readsSize_formatBytes row.size
  · cases readable : root.fileLength with
    | some bytes =>
      rw [shownRows_file walkDir scheduler path readable]
      exact List.pairwise_singleton _ _
    | none =>
      rw [shownRows_eq walkDir scheduler path readable, List.pairwise_append]
      refine ⟨?_, ?_, ?_⟩
      · exact (dirRows_sorted walkDir scheduler root).imp fun le => sorted _ _ le
      · exact (fileRows_sorted walkDir root).imp fun le => sorted _ _ le
      · intro dir here file there same
        have kinds : "DIR".toList = "FILE".toList := by
          rw [SizedRow.fileType, if_pos (mem_dirRows walkDir scheduler root here).1,
            SizedRow.fileType, isDir_of_fileLength (mem_fileRows walkDir root there)] at same
          exact same
        exact absurd kinds (by decide)

end Rcurl
