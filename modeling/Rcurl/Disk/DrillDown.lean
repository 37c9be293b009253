import Mathlib.Data.UInt
import Rcurl.Disk.Listing

/-!
# Listings of listings

The sizes of a listing against those of the listings of its own rows, and against those of another run
over the same tree: a row shows what its own listing adds up to, also where the sum does not fit 64 bits,
and the order of the walks and of the directories can only swap rows that are equally large.
-/

namespace Rcurl

open RustText (Text)

/-- A row before it is written. -/
structure SizedRow where
  /-- What it stands for. -/
  entry : Entry
  /-- The last component of the path. -/
  name : Text
  /-- Its length, or what was counted below it. -/
  size : UInt64

/-- The kind that is written. -/
def SizedRow.fileType (row : SizedRow) : Text :=
  if row.entry.isDir then "DIR".toList else "FILE".toList

/-- The row as it is written. -/
def SizedRow.written (row : SizedRow) : DiskEntry := diskEntry row.name row.size row.fileType

/-- The row of a path that was walked to. -/
def sizedRow (sized : DirEntry × UInt64) : SizedRow :=
  { entry := sized.1.entry, name := sized.1.fileName, size := sized.2 }

/-- What `get_disk_usage` lists, before it is written. -/
def shownRows (walkDir : WalkDir) (scheduler : Scheduler) (path : Text) (root : Entry) :
    List SizedRow :=
  match root with
  | .file _ (some length) =>
    [{ entry := root, name := (RustText.fileName path).getD [], size := length }]
  | _ =>
    let found := foundEntries walkDir root
    (sortBySize (dirSizes walkDir scheduler found)).map sizedRow ++
      (sortBySize (fileSizes found)).map sizedRow

/-- The sizes of rows together, in 64 bits. -/
def totalSize (rows : List SizedRow) : UInt64 := (rows.map SizedRow.size).sum

/-! ## The sizes of directories and files -/

/-- Nothing but a directory has a size other than its own length. -/
theorem size_leaf {entry : Entry} (leaf : entry.isDir = false) :
    entry.size = entry.fileLength.getD 0 := by
  rw [Entry.size, files_leaf leaf]
  cases length : entry.fileLength with
  | none => rfl
  | some bytes => simp [length]

/-- The sizes of the entries that a walk goes through add up. -/
theorem sum_reachAll (path : List FileName) (entries : List Entry) :
    (lengthsOf (Entry.reachAll none path entries)).sum = (entries.map Entry.size).sum := by
  induction entries with
  | nil => rfl
  | cons entry entries ih =>
    rw [Entry.reachAll, lengthsOf_append, List.sum_append, ih, lengthsOf_reach, List.map_cons,
      List.sum_cons, Entry.size]

/-- The size of a directory is that of its entries together. -/
theorem size_directory (entry : Entry) (dir : entry.isDir = true) :
    entry.size = (entry.topLevel.map Entry.size).sum := by
  cases entry with
  | directory name opens entries =>
    cases opens with
    | false => rfl
    | true =>
      rw [Entry.topLevel, ← sum_reachAll [], Entry.size, ← lengthsOf_reach _ []]
      rfl
  | file | link | special | failed => contradiction

/-- What has a length is no directory. -/
theorem isDir_of_fileLength {entry : Entry} {bytes : UInt64}
    (readable : entry.fileLength = some bytes) : entry.isDir = false := by
  cases entry with
  | directory => contradiction
  | file | link | special | failed => rfl

/-- A directory has no length. -/
theorem fileLength_of_isDir {entry : Entry} (dir : entry.isDir = true) : entry.fileLength = none := by
  cases readable : entry.fileLength with
  | none => rfl
  | some bytes =>
    rw [isDir_of_fileLength readable] at dir
    contradiction

/-- The sizes of the directories and the lengths of the files among entries. -/
theorem sum_sizes (entries : List Entry) :
    ((entries.filter Entry.isDir).map Entry.size).sum + (entries.filterMap Entry.fileLength).sum =
      (entries.map Entry.size).sum := by
  induction entries with
  | nil => rfl
  | cons entry entries ih =>
    rw [List.map_cons, List.sum_cons, ← ih]
    cases kind : entry.isDir with
    | true =>
      have unsized : entry.fileLength = none := fileLength_of_isDir kind
      rw [List.filter_cons_of_pos kind, List.filterMap_cons_none unsized, List.map_cons,
        List.sum_cons, UInt64.add_assoc]
    | false =>
      rw [List.filter_cons_of_neg (by rw [kind]; exact Bool.false_ne_true), size_leaf kind]
      cases length : entry.fileLength with
      | none =>
        rw [List.filterMap_cons_none length, Option.getD_none, UInt64.zero_add]
      | some bytes =>
        rw [List.filterMap_cons_some length, List.sum_cons, Option.getD_some, add_left_comm]

/-! ## A listing without its order -/

/-- What is found on the top level, whatever is walked over. -/
theorem found_perm (walkDir : WalkDir) (root : Entry) :
    (foundEntries walkDir root).Perm (topEntries root) := by
  cases root with
  | directory name opens entries => exact foundEntries_perm walkDir name opens entries
  | file | link | special | failed =>
    exact ((walkDir.once (some 1) [] _).filterMap id).filter _

/-- The directories with their sizes, in whatever order they are done. -/
theorem dirSizes_eq (walkDir : WalkDir) (scheduler : Scheduler) (found : List DirEntry) :
    dirSizes walkDir scheduler found =
      (found.filter (·.entry.isDir)).map fun dir => (dir, dir.entry.size) := by
  rw [dirSizes, ParallelMap.collect_eq_map]
  apply List.map_congr_left
  intro dir _
  rw [calculateDirSize_eq]

section Groups

variable (walkDir : WalkDir) (scheduler : Scheduler) (root : Entry)

/-- The rows of the directories, sorted. -/
def dirRows : List SizedRow :=
  (sortBySize (dirSizes walkDir scheduler (foundEntries walkDir root))).map sizedRow

/-- The rows of the files, sorted. -/
def fileRows : List SizedRow :=
  (sortBySize (fileSizes (foundEntries walkDir root))).map sizedRow

/-- The directories are those of the top level. -/
theorem dirRows_perm : (dirRows walkDir scheduler root).Perm
    (((topEntries root).filter (·.entry.isDir)).map fun dir => sizedRow (dir, dir.entry.size)) := by
  have sorted := (List.mergeSort_perm (dirSizes walkDir scheduler (foundEntries walkDir root))
    fun a b => b.2 ≤ a.2).map sizedRow
  refine sorted.trans ?_
  rw [dirSizes_eq, List.map_map]
  exact ((found_perm walkDir root).filter _).map _

/-- The files are those of the top level. -/
theorem fileRows_perm : (fileRows walkDir root).Perm
    ((fileSizes (topEntries root)).map sizedRow) := by
  have sorted := (List.mergeSort_perm (fileSizes (foundEntries walkDir root))
    fun a b => b.2 ≤ a.2).map sizedRow
  exact sorted.trans (((found_perm walkDir root).filterMap _).map _)

/-- Every directory among the rows shows its size. -/
theorem mem_dirRows {row : SizedRow} (member : row ∈ dirRows walkDir scheduler root) :
    row.entry.isDir = true ∧ row.size = row.entry.size := by
  obtain ⟨dir, kept, rfl⟩ := List.mem_map.mp ((dirRows_perm walkDir scheduler root).mem_iff.mp member)
  exact ⟨(List.mem_filter.mp kept).2, rfl⟩

/-- Every file among the rows shows its length. -/
theorem mem_fileRows {row : SizedRow} (member : row ∈ fileRows walkDir root) :
    row.entry.fileLength = some row.size := by
  obtain ⟨sized, kept, rfl⟩ := List.mem_map.mp ((fileRows_perm walkDir root).mem_iff.mp member)
  obtain ⟨file, _, length⟩ := List.mem_filterMap.mp kept
  obtain ⟨bytes, readable, rfl⟩ := Option.map_eq_some_iff.mp length
  exact readable

/-- The directories do not grow. -/
theorem dirRows_sorted :
    (dirRows walkDir scheduler root).Pairwise fun earlier later => later.size ≤ earlier.size :=
  List.pairwise_map.mpr (sortBySize_sorted _)

/-- The files do not grow. -/
theorem fileRows_sorted :
    (fileRows walkDir root).Pairwise fun earlier later => later.size ≤ earlier.size :=
  List.pairwise_map.mpr (sortBySize_sorted _)

end Groups

section Shown

variable (walkDir : WalkDir) (scheduler : Scheduler) (path : Text)

/-- Unless a readable file is listed itself, the rows are those of the directories and those of the
files. -/
theorem shownRows_eq {root : Entry} (inside : root.fileLength = none) :
    shownRows walkDir scheduler path root =
      dirRows walkDir scheduler root ++ fileRows walkDir root := by
  cases root with
  | file name length =>
    obtain rfl : length = none := inside
    rfl
  | directory | link | special | failed => rfl

/-- The row of a readable file that is listed itself. -/
theorem shownRows_file {root : Entry} {bytes : UInt64} (readable : root.fileLength = some bytes) :
    shownRows walkDir scheduler path root =
      [{ entry := root, name := (RustText.fileName path).getD [], size := bytes }] := by
  cases root with
  | file name length =>
    obtain rfl : length = some bytes := readable
    rfl
  | directory | link | special | failed => contradiction

/-- Rows of one kind are written with it. -/
theorem written_group {fileType : Text} {sized : List (DirEntry × UInt64)}
    (kind : ∀ row ∈ (sortBySize sized).map sizedRow, row.fileType = fileType) :
    ((sortBySize sized).map sizedRow).map SizedRow.written = sortedRows fileType sized := by
  rw [sortedRows, List.map_map]
  apply List.map_congr_left
  intro entry member
  have same := kind (sizedRow entry) (List.mem_map_of_mem member)
  rw [Function.comp_apply, SizedRow.written, same]
  rfl

/-- The rows as they are written are those of the command. -/
theorem written_shownRows (root : Entry) :
    (shownRows walkDir scheduler path root).map SizedRow.written =
      getDiskUsage walkDir scheduler path root := by
  cases readable : root.fileLength with
  | some bytes =>
    rw [shownRows_file walkDir scheduler path readable]
    cases root with
    | file name length =>
      obtain rfl : length = some bytes := readable
      rfl
    | directory | link | special | failed => contradiction
  | none =>
    have dirs : ∀ row ∈ dirRows walkDir scheduler root, row.fileType = "DIR".toList := by
      intro row member
      rw [SizedRow.fileType, if_pos (mem_dirRows walkDir scheduler root member).1]
    have files : ∀ row ∈ fileRows walkDir root, row.fileType = "FILE".toList := by
      intro row member
      have plain := isDir_of_fileLength (mem_fileRows walkDir root member)
      rw [SizedRow.fileType, plain]
      rfl
    have groups := congrArg₂ (· ++ ·) (written_group dirs) (written_group files)
    rw [shownRows_eq walkDir scheduler path readable, List.map_append]
    refine groups.trans ?_
    cases root with
    | file name length =>
      obtain rfl : length = none := readable
      rfl
    | directory | link | special | failed => rfl

/-- The row of an entry shows the size of the entry. -/
theorem size_of_shown {root : Entry} {row : SizedRow}
    (member : row ∈ shownRows walkDir scheduler path root) : row.size = row.entry.size := by
  have file : ∀ {row : SizedRow}, row.entry.fileLength = some row.size →
      row.size = row.entry.size := by
    intro row readable
    rw [size_leaf (isDir_of_fileLength readable), readable]
    rfl
  cases readable : root.fileLength with
  | some bytes =>
    rw [shownRows_file walkDir scheduler path readable] at member
    obtain rfl := List.mem_singleton.mp member
    exact file readable
  | none =>
    rw [shownRows_eq walkDir scheduler path readable] at member
    rcases List.mem_append.mp member with dir | other
    · exact (mem_dirRows walkDir scheduler root dir).2
    · exact file (mem_fileRows walkDir root other)

/-- The sizes of a listing add up to the size of what is listed. -/
theorem totalSize_shownRows {root : Entry}
    (listed : root.isDir = true ∨ root.fileLength.isSome = true) :
    totalSize (shownRows walkDir scheduler path root) = root.size := by
  cases readable : root.fileLength with
  | some bytes =>
    rw [shownRows_file walkDir scheduler path readable, size_leaf (isDir_of_fileLength readable),
      readable]
    exact UInt64.add_zero bytes
  | none =>
    have dir : root.isDir = true := listed.resolve_right (by rw [readable]; exact Bool.false_ne_true)
    have dirs : ((dirRows walkDir scheduler root).map SizedRow.size).sum =
        ((root.topLevel.filter Entry.isDir).map Entry.size).sum := by
      rw [((dirRows_perm walkDir scheduler root).map SizedRow.size).sum_eq, ← topEntries_dirs,
        List.map_map, List.map_map]
      rfl
    have files : ((fileRows walkDir root).map SizedRow.size).sum =
        (root.topLevel.filterMap Entry.fileLength).sum := by
      have lengths := congrArg (List.map Prod.snd) (topEntries_files root)
      rw [List.map_map, List.map_filterMap] at lengths
      rw [((fileRows_perm walkDir root).map SizedRow.size).sum_eq, List.map_map]
      refine congrArg List.sum (lengths.trans ?_)
      apply List.filterMap_congr
      intro entry _
      cases entry.fileLength <;> rfl
    rw [shownRows_eq walkDir scheduler path readable, totalSize, List.map_append, List.sum_append,
      dirs, files, sum_sizes, size_directory root dir]

/-- What has a row can be listed. -/
theorem listed_of_shown {root : Entry} {row : SizedRow}
    (member : row ∈ shownRows walkDir scheduler path root) :
    row.entry.isDir = true ∨ row.entry.fileLength.isSome = true := by
  cases readable : root.fileLength with
  | some bytes =>
    rw [shownRows_file walkDir scheduler path readable] at member
    obtain rfl := List.mem_singleton.mp member
    exact Or.inr (by rw [readable]; rfl)
  | none =>
    rw [shownRows_eq walkDir scheduler path readable] at member
    rcases List.mem_append.mp member with dir | file
    · exact Or.inl (mem_dirRows walkDir scheduler root dir).1
    · exact Or.inr (by rw [mem_fileRows walkDir root file]; rfl)

end Shown

/-- The rows of a listing, each with a size that its own listing adds up to, however that is walked. -/
structure DrillsDown (rows : List SizedRow) (written : List DiskEntry) : Prop where
  /-- What is written is the text of these rows. -/
  written_eq : rows.map SizedRow.written = written
  /-- Each is the total of its own listing. -/
  adds_up : ∀ row ∈ rows, ∀ walkDir scheduler path,
    row.size = totalSize (shownRows walkDir scheduler path row.entry)

/-- Every size of a listing is what the listing of that entry adds up to, for directories and files,
whatever the order of either run. -/
theorem diskUsage_drills_down (walkDir : WalkDir) (scheduler : Scheduler) (path : Text)
    (root : Entry) :
    DrillsDown (shownRows walkDir scheduler path root) (getDiskUsage walkDir scheduler path root) := by
  constructor
  · exact written_shownRows walkDir scheduler path root
  · intro row member inner order place
    rw [totalSize_shownRows inner order place (listed_of_shown walkDir scheduler path member)]
    exact size_of_shown walkDir scheduler path member

/-! ## Two runs over one tree -/

/-- Two groups of the same rows, both sorted, have the same sizes in the same order. -/
theorem sizes_eq_of_perm {first second : List SizedRow} (same : first.Perm second)
    (first_sorted : first.Pairwise fun earlier later => later.size ≤ earlier.size)
    (second_sorted : second.Pairwise fun earlier later => later.size ≤ earlier.size) :
    first.map SizedRow.size = second.map SizedRow.size := by
  have falling : ∀ rows : List SizedRow,
      (rows.Pairwise fun earlier later => later.size ≤ earlier.size) →
        (rows.map SizedRow.size).Pairwise fun earlier later => later ≤ earlier :=
    fun rows sorted => List.pairwise_map.mpr sorted
  refine List.Perm.eq_of_pairwise ?_ (falling first first_sorted) (falling second second_sorted)
    (same.map SizedRow.size)
  intro larger smaller _ _ down up
  exact UInt64.le_antisymm up down

/-- When no two rows of a group are equally large, the group has one order. -/
theorem rows_eq_of_perm {first second : List SizedRow} (same : first.Perm second)
    (first_sorted : first.Pairwise fun earlier later => later.size ≤ earlier.size)
    (second_sorted : second.Pairwise fun earlier later => later.size ≤ earlier.size)
    (distinct : (first.map SizedRow.size).Nodup) : first = second := by
  refine List.Perm.eq_of_pairwise ?_ first_sorted second_sorted same
  intro larger smaller here there down up
  exact List.inj_on_of_nodup_map distinct here (same.mem_iff.mpr there) (UInt64.le_antisymm up down)

/-- The rows of one kind. -/
def ofKind (isDir : Bool) (rows : List SizedRow) : List SizedRow :=
  rows.filter fun row => row.entry.isDir == isDir

/-- Two lists of rows that differ only in the order of rows that are equally large and of one kind. -/
structure SameButTies (first second : List SizedRow) : Prop where
  /-- They are the same rows. -/
  perm : first.Perm second
  /-- The same sizes stand in the same places. -/
  sizes : first.map SizedRow.size = second.map SizedRow.size
  /-- The same kinds stand in the same places. -/
  kinds : first.map SizedRow.fileType = second.map SizedRow.fileType
  /-- Without ties they are the same list. -/
  untied : (∀ isDir, ((ofKind isDir first).map SizedRow.size).Nodup) → first = second

section Runs

variable (walkDir other : WalkDir) (scheduler arranged : Scheduler) (path : Text) (root : Entry)

/-- The kinds of the rows: those of the directories first. -/
theorem fileTypes_eq (inside : root.fileLength = none) :
    (shownRows walkDir scheduler path root).map SizedRow.fileType =
      List.replicate (dirRows walkDir scheduler root).length "DIR".toList ++
        List.replicate (fileRows walkDir root).length "FILE".toList := by
  rw [shownRows_eq walkDir scheduler path inside, List.map_append]
  apply congrArg₂
  · apply List.eq_replicate_iff.mpr
    refine ⟨List.length_map _, ?_⟩
    intro kind member
    obtain ⟨row, here, rfl⟩ := List.mem_map.mp member
    rw [SizedRow.fileType, if_pos (mem_dirRows walkDir scheduler root here).1]
  · apply List.eq_replicate_iff.mpr
    refine ⟨List.length_map _, ?_⟩
    intro kind member
    obtain ⟨row, here, rfl⟩ := List.mem_map.mp member
    rw [SizedRow.fileType, isDir_of_fileLength (mem_fileRows walkDir root here)]
    rfl

/-- The rows of a kind are a group. -/
theorem ofKind_shownRows (inside : root.fileLength = none) :
    ofKind true (shownRows walkDir scheduler path root) = dirRows walkDir scheduler root ∧
      ofKind false (shownRows walkDir scheduler path root) = fileRows walkDir root := by
  have dirs : ∀ row ∈ dirRows walkDir scheduler root, row.entry.isDir = true :=
    fun row member => (mem_dirRows walkDir scheduler root member).1
  have files : ∀ row ∈ fileRows walkDir root, row.entry.isDir = false :=
    fun row member => isDir_of_fileLength (mem_fileRows walkDir root member)
  rw [shownRows_eq walkDir scheduler path inside, ofKind, ofKind, List.filter_append,
    List.filter_append]
  constructor
  · rw [List.filter_eq_self.mpr fun row member => by rw [dirs row member]; rfl,
      List.filter_eq_nil_iff.mpr fun row member => by rw [files row member]; exact Bool.false_ne_true,
      List.append_nil]
  · rw [List.filter_eq_nil_iff.mpr fun row member => by rw [dirs row member]; exact Bool.false_ne_true,
      List.filter_eq_self.mpr fun row member => by rw [files row member]; rfl, List.nil_append]

/-- The rows of two runs over one tree. -/
theorem shownRows_same_but_ties :
    SameButTies (shownRows walkDir scheduler path root) (shownRows other arranged path root) := by
  cases readable : root.fileLength with
  | some bytes =>
    rw [shownRows_file walkDir scheduler path readable, shownRows_file other arranged path readable]
    exact ⟨List.Perm.refl _, rfl, rfl, fun _ => rfl⟩
  | none =>
    have dirs : (dirRows walkDir scheduler root).Perm (dirRows other arranged root) :=
      (dirRows_perm walkDir scheduler root).trans (dirRows_perm other arranged root).symm
    have files : (fileRows walkDir root).Perm (fileRows other root) :=
      (fileRows_perm walkDir root).trans (fileRows_perm other root).symm
    constructor
    · rw [shownRows_eq walkDir scheduler path readable, shownRows_eq other arranged path readable]
      exact dirs.append files
    · rw [shownRows_eq walkDir scheduler path readable, shownRows_eq other arranged path readable,
        List.map_append, List.map_append,
        sizes_eq_of_perm dirs (dirRows_sorted walkDir scheduler root)
          (dirRows_sorted other arranged root),
        sizes_eq_of_perm files (fileRows_sorted walkDir root) (fileRows_sorted other root)]
    · rw [fileTypes_eq walkDir scheduler path root readable,
        fileTypes_eq other arranged path root readable, dirs.length_eq, files.length_eq]
    · intro distinct
      obtain ⟨dirs_eq, files_eq⟩ := ofKind_shownRows walkDir scheduler path root readable
      have dirs_distinct := distinct true
      have files_distinct := distinct false
      rw [dirs_eq] at dirs_distinct
      rw [files_eq] at files_distinct
      rw [shownRows_eq walkDir scheduler path readable, shownRows_eq other arranged path readable,
        rows_eq_of_perm dirs (dirRows_sorted walkDir scheduler root)
          (dirRows_sorted other arranged root) dirs_distinct,
        rows_eq_of_perm files (fileRows_sorted walkDir root) (fileRows_sorted other root)
          files_distinct]

/-- Two runs over one tree list the same rows, whatever the orders of their walks and of their
directories: only rows of one kind that are equally large can change places. -/
theorem diskUsage_same_but_ties :
    (shownRows walkDir scheduler path root).map SizedRow.written =
        getDiskUsage walkDir scheduler path root ∧
      (shownRows other arranged path root).map SizedRow.written =
          getDiskUsage other arranged path root ∧
        SameButTies (shownRows walkDir scheduler path root)
          (shownRows other arranged path root) := by
  refine ⟨?_, ?_, ?_⟩
  · exact written_shownRows walkDir scheduler path root
  · exact written_shownRows other arranged path root
  · exact shownRows_same_but_ties walkDir other scheduler arranged path root

end Runs

end Rcurl
