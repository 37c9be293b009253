import Mathlib.Data.List.Nodup
import Rcurl.Disk.SizeText
import Rcurl.Foundation.StableSort

/-!
# What the listing accounts for

Every directory and every readable file on the top level of the tree has one row, directories first and
each group by size, and the size of a directory counts every readable file below it once, in whatever
order the walks go and the directories are done: `diskUsage_accounts`.
-/

namespace Rcurl

open RustText (Text)

/-- The entry at a position: an index into the entries of every directory on the way, all of which
open. -/
def Entry.atPosition : List Nat → Entry → Option Entry
  | [], entry => some entry
  | index :: rest, .directory _ true entries => entries[index]?.bind (Entry.atPosition rest)
  | _ :: _, _ => none

/-- The length of the readable file at a position, when there is one. -/
def Entry.lengthAt (entry : Entry) (position : List Nat) : Option UInt64 :=
  (entry.atPosition position).bind Entry.fileLength

/-- The lengths of the readable files at so many positions together. -/
def Entry.totalAt (entry : Entry) (positions : List (List Nat)) : Nat :=
  (positions.map fun position => ((entry.lengthAt position).map UInt64.toNat).getD 0).sum

/-- A size counts every readable file of a tree once, unless it does not fit 64 bits. -/
def CountsOnce (entry : Entry) (size : UInt64) : Prop :=
  ∃ positions : List (List Nat), positions.Nodup ∧
    (∀ position, position ∈ positions ↔ (entry.lengthAt position).isSome) ∧
      (entry.totalAt positions < 2 ^ 64 → size.toNat = entry.totalAt positions)

/-- The entries on the top level, when they can be read. -/
def Entry.topLevel : Entry → List Entry
  | .directory _ true entries => entries
  | _ => []

/-- A row shows an entry of some size: its name, whole and cut to the column, its size to a reader, and
its type. -/
structure Shows (fileType : Text) (sized : Entry × UInt64) (row : DiskEntry) : Prop where
  /-- The name is that of the entry, but for bytes that are no characters. -/
  name_eq : row.name = LossyUtf8.lossy sized.1.name
  /-- What is displayed is the name cut to 48 columns. -/
  display_cut : CutExactly row.name 48 row.displayName
  /-- The size is read back. -/
  size_read : ReadsSize row.size sized.2
  /-- The type is that of the group. -/
  type_eq : row.fileType = fileType

/-- The rows are those of the directories, then those of the files, with what is known of both. -/
structure Listing (root : Entry) (dirs files : List (Entry × UInt64)) (rows : List DiskEntry) : Prop
    where
  /-- The directories are those on the top level. -/
  directories : (dirs.map Prod.fst).Perm (root.topLevel.filter Entry.isDir)
  /-- The files are those on the top level that can be read, with their lengths. -/
  readable : files.Perm
    (root.topLevel.filterMap fun entry => entry.fileLength.map fun length => (entry, length))
  /-- Directories come first, one row each, and then the files, one row each. -/
  rows_show : ∃ dirRows fileRows, rows = dirRows ++ fileRows ∧
    List.Forall₂ (Shows "DIR".toList) dirs dirRows ∧
      List.Forall₂ (Shows "FILE".toList) files fileRows
  /-- The directories do not grow. -/
  dirs_sorted : dirs.Pairwise fun earlier later => later.2 ≤ earlier.2
  /-- The files do not grow. -/
  files_sorted : files.Pairwise fun earlier later => later.2 ≤ earlier.2
  /-- The size of a directory counts what is below it. -/
  sizes : ∀ dir ∈ dirs, CountsOnce dir.1 dir.2

/-- What holds of everything but directories, and of a directory when it holds of its entries, holds of
every tree. -/
theorem Entry.induction {motive : Entry → Prop} (leaf : ∀ entry, entry.isDir = false → motive entry)
    (directory : ∀ name opens entries, (∀ entry ∈ entries, motive entry) →
      motive (.directory name opens entries)) : ∀ entry, motive entry
  | .file name length => leaf (.file name length) rfl
  | .link name => leaf (.link name) rfl
  | .special name => leaf (.special name) rfl
  | .failed => leaf .failed rfl
  | .directory name opens entries =>
    directory name opens entries fun entry _ => Entry.induction leaf directory entry

/-! ## The positions of the readable files -/

/-- A position in a list of entries, with one more entry in front. -/
def shiftPosition : List Nat → List Nat
  | [] => []
  | index :: rest => (index + 1) :: rest

mutual

/-- The positions of the readable files of a tree. -/
def Entry.files : Entry → List (List Nat)
  | .file _ (some _) => [[]]
  | .directory _ true entries => Entry.filesIn entries
  | .file _ none | .directory _ false _ | .link _ | .special _ | .failed => []

/-- The same of the entries in a directory. -/
def Entry.filesIn : List Entry → List (List Nat)
  | [] => []
  | entry :: entries =>
    entry.files.map (0 :: ·) ++ (Entry.filesIn entries).map shiftPosition

end

@[simp] theorem lengthAt_nil (entry : Entry) : entry.lengthAt [] = entry.fileLength := rfl

/-- A position in a directory that opens leads through one of its entries. -/
theorem lengthAt_cons (name : FileName) (entries : List Entry) (index : Nat) (rest : List Nat) :
    (Entry.directory name true entries).lengthAt (index :: rest) =
      entries[index]?.bind fun entry => entry.lengthAt rest := by
  rw [Entry.lengthAt, Entry.atPosition, Option.bind_assoc]
  rfl

/-- Nothing is readable in a directory that does not open. -/
theorem lengthAt_closed (name : FileName) (entries : List Entry) (position : List Nat) :
    (Entry.directory name false entries).lengthAt position = none := by
  cases position <;> rfl

/-- Nothing lies in what is no directory. -/
theorem lengthAt_leaf {entry : Entry} (leaf : entry.isDir = false) (index : Nat) (rest : List Nat) :
    entry.lengthAt (index :: rest) = none := by
  cases entry with
  | directory => contradiction
  | file | link | special | failed => rfl

/-- A position is moved behind another entry by counting one more. -/
theorem lengthAt_shift (name : FileName) (entry : Entry) (entries : List Entry)
    (position : List Nat) :
    (Entry.directory name true (entry :: entries)).lengthAt (shiftPosition position) =
      (Entry.directory name true entries).lengthAt position := by
  cases position with
  | nil => rfl
  | cons index rest => rw [shiftPosition, lengthAt_cons, lengthAt_cons, List.getElem?_cons_succ]

/-- The only readable file in what is no directory is itself. -/
theorem files_leaf {entry : Entry} (leaf : entry.isDir = false) :
    entry.files = if entry.fileLength.isSome then [[]] else [] := by
  cases entry with
  | directory => contradiction
  | file name length => cases length <;> rfl
  | link | special | failed => rfl

/-- The listed positions in a directory are those of its readable files. -/
theorem mem_filesIn (name : FileName) {entries : List Entry}
    (inside : ∀ entry ∈ entries, ∀ position,
      position ∈ entry.files ↔ (entry.lengthAt position).isSome) (position : List Nat) :
    position ∈ Entry.filesIn entries ↔
      ((Entry.directory name true entries).lengthAt position).isSome := by
  induction entries generalizing position with
  | nil =>
    rw [Entry.filesIn]
    cases position with
    | nil => simp [Entry.fileLength]
    | cons index rest => simp [lengthAt_cons]
  | cons entry entries ih =>
    have first := inside entry List.mem_cons_self
    have others := ih fun other member => inside other (List.mem_cons_of_mem entry member)
    rw [Entry.filesIn, List.mem_append, List.mem_map, List.mem_map]
    constructor
    · rintro (⟨rest, member, rfl⟩ | ⟨moved, member, rfl⟩)
      · rw [lengthAt_cons, List.getElem?_cons_zero, Option.bind_some]
        exact (first rest).mp member
      · rw [lengthAt_shift]
        exact (others moved).mp member
    · intro readable
      cases position with
      | nil => contradiction
      | cons index rest =>
        cases index with
        | zero =>
          rw [lengthAt_cons, List.getElem?_cons_zero, Option.bind_some] at readable
          exact .inl ⟨rest, (first rest).mpr readable, rfl⟩
        | succ index =>
          have moved := lengthAt_shift name entry entries (index :: rest)
          rw [shiftPosition] at moved
          rw [moved] at readable
          exact .inr ⟨index :: rest, (others _).mpr readable, rfl⟩

/-- The listed positions are those of the readable files. -/
theorem mem_files (entry : Entry) : ∀ position,
    position ∈ entry.files ↔ (entry.lengthAt position).isSome := by
  induction entry using Entry.induction with
  | leaf entry leaf =>
    intro position
    rw [files_leaf leaf]
    cases position with
    | nil =>
      rw [lengthAt_nil]
      cases entry.fileLength <;> simp
    | cons index rest =>
      rw [lengthAt_leaf leaf]
      cases entry.fileLength <;> simp
  | directory name opens entries inside =>
    intro position
    cases opens with
    | false =>
      rw [lengthAt_closed, Entry.files]
      exact iff_of_false List.not_mem_nil nofun
    | true =>
      rw [Entry.files]
      exact mem_filesIn name inside position

/-- Moved positions stay apart. -/
theorem shiftPosition_injective : Function.Injective shiftPosition := by
  intro first second same
  cases first with
  | nil =>
    cases second with
    | nil => rfl
    | cons index rest => contradiction
  | cons index rest =>
    cases second with
    | nil => contradiction
    | cons other tail =>
      obtain ⟨indices, tails⟩ := List.cons.inj same
      rw [Nat.succ.inj indices, tails]

/-- The positions in a directory are listed once, when those in its entries are. -/
theorem nodup_filesIn {entries : List Entry} (inside : ∀ entry ∈ entries, entry.files.Nodup) :
    (Entry.filesIn entries).Nodup := by
  induction entries with
  | nil => exact List.nodup_nil
  | cons entry entries ih =>
    have first := inside entry List.mem_cons_self
    have others := ih fun other member => inside other (List.mem_cons_of_mem entry member)
    rw [Entry.filesIn, List.nodup_append]
    refine ⟨first.map List.cons_injective, others.map shiftPosition_injective, ?_⟩
    intro position front moved behind same
    obtain ⟨rest, _, rfl⟩ := List.mem_map.mp front
    obtain ⟨origin, _, rfl⟩ := List.mem_map.mp behind
    cases origin with
    | nil => contradiction
    | cons index tail =>
      have indices := (List.cons.inj same).1
      omega

/-- No position is listed twice. -/
theorem nodup_files (entry : Entry) : entry.files.Nodup := by
  induction entry using Entry.induction with
  | leaf entry leaf =>
    rw [files_leaf leaf]
    cases entry.fileLength <;> simp
  | directory name opens entries inside =>
    cases opens with
    | false => exact List.nodup_nil
    | true => exact nodup_filesIn inside

/-! ## The lengths that a walk finds -/

/-- The lengths of the readable files among what a walk yields. -/
def lengthsOf (items : List (Option DirEntry)) : List UInt64 :=
  (items.filterMap id).filterMap (·.entry.fileLength)

@[simp] theorem lengthsOf_append (first second : List (Option DirEntry)) :
    lengthsOf (first ++ second) = lengthsOf first ++ lengthsOf second := by
  rw [lengthsOf, List.filterMap_append, List.filterMap_append]
  rfl

/-- A walk over the entries of a directory finds the files at the listed positions. -/
theorem lengthsOf_reachAll (name : FileName) {entries : List Entry}
    (inside : ∀ entry ∈ entries, ∀ path,
      lengthsOf (entry.reach none path) = entry.files.filterMap entry.lengthAt)
    (path : List FileName) :
    lengthsOf (Entry.reachAll none path entries) =
      (Entry.filesIn entries).filterMap (Entry.directory name true entries).lengthAt := by
  induction entries with
  | nil => rfl
  | cons entry entries ih =>
    have first := inside entry List.mem_cons_self (path ++ [entry.name])
    have others := ih fun other member => inside other (List.mem_cons_of_mem entry member)
    have here : (entry.files.map (0 :: ·)).filterMap
        (Entry.directory name true (entry :: entries)).lengthAt =
          entry.files.filterMap entry.lengthAt := by
      rw [List.filterMap_map]
      exact List.filterMap_congr fun rest _ => lengthAt_cons name (entry :: entries) 0 rest
    have behind : ((Entry.filesIn entries).map shiftPosition).filterMap
        (Entry.directory name true (entry :: entries)).lengthAt =
          (Entry.filesIn entries).filterMap (Entry.directory name true entries).lengthAt := by
      rw [List.filterMap_map]
      exact List.filterMap_congr fun position _ => lengthAt_shift name entry entries position
    rw [Entry.reachAll, lengthsOf_append, first, others, Entry.filesIn, List.filterMap_append, here,
      behind]

/-- A walk over a tree finds the files at the listed positions. -/
theorem lengthsOf_reach (entry : Entry) : ∀ path,
    lengthsOf (entry.reach none path) = entry.files.filterMap entry.lengthAt := by
  induction entry using Entry.induction with
  | leaf entry leaf =>
    intro path
    have found : lengthsOf (entry.reach none path) = entry.fileLength.toList := by
      cases entry with
      | directory => contradiction
      | file name length => cases length <;> rfl
      | link | special | failed => rfl
    rw [found, files_leaf leaf]
    cases length : entry.fileLength <;> simp [length]
  | directory name opens entries inside =>
    intro path
    cases opens with
    | false => rfl
    | true => exact lengthsOf_reachAll name inside path

/-- A sum of 64-bit lengths is the sum of the lengths, but for what does not fit. -/
theorem toNat_sum (lengths : List UInt64) :
    lengths.sum.toNat = (lengths.map UInt64.toNat).sum % 2 ^ 64 := by
  induction lengths with
  | nil => rfl
  | cons length lengths ih =>
    rw [List.sum_cons, List.map_cons, List.sum_cons, UInt64.toNat_add, ih, Nat.add_mod_mod]

/-- The lengths at positions, added up. -/
theorem totalAt_eq (entry : Entry) (positions : List (List Nat)) :
    entry.totalAt positions = ((positions.filterMap entry.lengthAt).map UInt64.toNat).sum := by
  induction positions with
  | nil => rfl
  | cons position positions ih =>
    rw [Entry.totalAt] at ih ⊢
    rw [List.map_cons, List.sum_cons, ih, List.filterMap_cons]
    cases entry.lengthAt position with
    | none => simp
    | some length => simp

/-- The lengths of the readable files of a tree together, in 64 bits. -/
def Entry.size (entry : Entry) : UInt64 := (entry.files.filterMap entry.lengthAt).sum

/-- The size of a directory does not depend on the walk. -/
theorem calculateDirSize_eq (walkDir : WalkDir) (dir : DirEntry) :
    calculateDirSizeParallel walkDir dir = dir.entry.size := by
  have found : (lengthsOf (walkDir.walk none dir.path dir.entry)).Perm
      (dir.entry.files.filterMap dir.entry.lengthAt) := by
    rw [← lengthsOf_reach dir.entry dir.path]
    exact ((walkDir.once none dir.path dir.entry).filterMap id).filterMap _
  exact found.sum_eq

/-- The size of a directory counts every readable file below it once. -/
theorem size_counts (entry : Entry) : CountsOnce entry entry.size := by
  refine ⟨entry.files, nodup_files entry, mem_files entry, ?_⟩
  intro fits
  rw [totalAt_eq] at fits ⊢
  rw [Entry.size, toNat_sum, Nat.mod_eq_of_lt fits]

/-! ## The top level -/

/-- An entry as a walk yields it, unless it cannot be listed. -/
def Entry.listedAt (path : List FileName) : Entry → Option DirEntry
  | .failed => none
  | entry => some { path, entry }

/-- An entry that is listed is the entry, at the path. -/
theorem listedAt_eq {path : List FileName} {entry : Entry} {dir : DirEntry}
    (listed : entry.listedAt path = some dir) : dir = { path, entry } := by
  cases entry with
  | failed => contradiction
  | file | directory | link | special => exact (Option.some.inj listed).symm

/-- Below the last level a walk goes no further. -/
theorem reach_zero (entry : Entry) (path : List FileName) :
    entry.reach (some 0) path = [entry.listedAt path] := by
  cases entry <;> rfl

/-- On the last level it yields the entries. -/
theorem reachAll_zero (path : List FileName) (entries : List Entry) :
    Entry.reachAll (some 0) path entries =
      entries.map fun entry => entry.listedAt (path ++ [entry.name]) := by
  induction entries with
  | nil => rfl
  | cons entry entries ih => rw [Entry.reachAll, reach_zero, ih, List.map_cons, List.singleton_append]

/-- The entries of the top level, each under its name. -/
def topEntries (root : Entry) : List DirEntry :=
  root.topLevel.filterMap fun entry => entry.listedAt [entry.name]

/-- They are named by their paths. -/
theorem mem_topEntries {root : Entry} {dir : DirEntry} (member : dir ∈ topEntries root) :
    dir.path = [dir.entry.name] := by
  obtain ⟨entry, _, listed⟩ := List.mem_filterMap.mp member
  rw [listedAt_eq listed]

/-- The first walk finds the entries of the top level. -/
theorem foundEntries_perm (walkDir : WalkDir) (name : FileName) (opens : Bool)
    (entries : List Entry) :
    (foundEntries walkDir (.directory name opens entries)).Perm
      (topEntries (.directory name opens entries)) := by
  have walked := walkDir.once (some 1) [] (.directory name opens entries)
  have kept : ((((Entry.directory name opens entries).reach (some 1) []).filterMap id).filter
      fun entry => entry.path ≠ []) = topEntries (.directory name opens entries) := by
    cases opens with
    | false => rfl
    | true =>
      have named : (topEntries (.directory name true entries)).filter (fun entry => entry.path ≠ []) =
          topEntries (.directory name true entries) := by
        apply List.filter_eq_self.mpr
        intro dir member
        rw [mem_topEntries member]
        exact decide_eq_true (List.cons_ne_nil _ _)
      have inside : (Entry.reachAll (some 0) [] entries).filterMap id =
          topEntries (.directory name true entries) := by
        rw [reachAll_zero, List.filterMap_map]
        rfl
      rw [← named, ← inside]
      rfl
  rw [← kept]
  exact (walked.filterMap id).filter _

/-- An entry and its size, without its path. -/
def withoutPath (sized : DirEntry × UInt64) : Entry × UInt64 := (sized.1.entry, sized.2)

/-- Larger sizes come first. -/
theorem size_order : StableSort.TotalPreorder fun a b : DirEntry × UInt64 => decide (b.2 ≤ a.2) where
  trans a b c first second := by
    rw [decide_eq_true_eq] at first second ⊢
    exact UInt64.le_trans second first
  total a b := by
    rw [Bool.or_eq_true, decide_eq_true_eq, decide_eq_true_eq]
    exact UInt64.le_total b.2 a.2

/-- What is sorted does not grow. -/
theorem sortBySize_sorted (sized : List (DirEntry × UInt64)) :
    (sortBySize sized).Pairwise fun earlier later => later.2 ≤ earlier.2 :=
  (size_order.sorted sized).imp of_decide_eq_true

/-- A row shows what it is made for. -/
theorem shows_diskEntry (sized : Entry × UInt64) (fileType : Text) :
    Shows fileType sized (diskEntry (LossyUtf8.lossy sized.1.name) sized.2 fileType) where
  name_eq := rfl
  display_cut := cutExactly _ (by decide)
  size_read := readsSize_formatBytes sized.2
  type_eq := rfl

/-- A group of rows is sorted, and shows its entries. -/
theorem sortedRows_spec (fileType : Text) (sized : List (DirEntry × UInt64))
    (named : ∀ entry ∈ sized, entry.1.path = [entry.1.entry.name]) :
    ∃ group : List (Entry × UInt64), group.Perm (sized.map withoutPath) ∧
      group.Pairwise (fun earlier later => later.2 ≤ earlier.2) ∧
        List.Forall₂ (Shows fileType) group (sortedRows fileType sized) := by
  have perm : (sortBySize sized).Perm sized := List.mergeSort_perm _ _
  refine ⟨(sortBySize sized).map withoutPath, perm.map withoutPath, ?_, ?_⟩
  · exact List.pairwise_map.mpr (sortBySize_sorted sized)
  · rw [sortedRows, List.forall₂_map_left_iff, List.forall₂_map_right_iff, List.forall₂_same]
    intro entry member
    have path := named entry (perm.mem_iff.mp member)
    have name : entry.1.fileName = LossyUtf8.lossy entry.1.entry.name := by
      rw [DirEntry.fileName, path]
      rfl
    rw [name]
    exact shows_diskEntry (withoutPath entry) fileType

/-- The directories of the top level. -/
theorem topEntries_dirs (root : Entry) :
    ((topEntries root).filter (·.entry.isDir)).map (·.entry) = root.topLevel.filter Entry.isDir := by
  rw [topEntries, List.filter_filterMap, List.map_filterMap, ← List.filterMap_eq_filter]
  apply List.filterMap_congr
  intro entry _
  cases entry <;> rfl

/-- The readable files of the top level. -/
theorem topEntries_files (root : Entry) :
    (fileSizes (topEntries root)).map withoutPath =
      root.topLevel.filterMap fun entry => entry.fileLength.map fun length => (entry, length) := by
  rw [topEntries, fileSizes, List.filterMap_filterMap, List.map_filterMap]
  apply List.filterMap_congr
  intro entry _
  cases entry with
  | file name length => cases length <;> rfl
  | directory | link | special | failed => rfl

/-- The listing of a directory has a row for each directory and each readable file in it, sorted, and
the size of a directory counts every readable file below it once. -/
theorem diskUsage_accounts (walkDir : WalkDir) (scheduler : Scheduler) (path : Text) (name : FileName)
    (opens : Bool) (entries : List Entry) :
    ∃ dirs files, Listing (.directory name opens entries) dirs files
      (getDiskUsage walkDir scheduler path (.directory name opens entries)) := by
  have perm := foundEntries_perm walkDir name opens entries
  have rows : getDiskUsage walkDir scheduler path (.directory name opens entries) =
      sortedRows "DIR".toList
          (dirSizes walkDir scheduler (foundEntries walkDir (.directory name opens entries))) ++
        sortedRows "FILE".toList
          (fileSizes (foundEntries walkDir (.directory name opens entries))) := rfl
  generalize foundEntries walkDir (.directory name opens entries) = found at perm rows
  have named : ∀ dir ∈ found, dir.path = [dir.entry.name] :=
    fun dir member => mem_topEntries (perm.mem_iff.mp member)
  have sizes : dirSizes walkDir scheduler found =
      (found.filter (·.entry.isDir)).map fun dir => (dir, calculateDirSizeParallel walkDir dir) :=
    ParallelMap.collect_eq_map _ _ _
  obtain ⟨dirs, dirs_perm, dirs_sorted, dirs_rows⟩ :=
    sortedRows_spec "DIR".toList (dirSizes walkDir scheduler found) (by
      intro entry member
      rw [sizes] at member
      obtain ⟨dir, inside, rfl⟩ := List.mem_map.mp member
      exact named dir (List.mem_of_mem_filter inside))
  obtain ⟨files, files_perm, files_sorted, files_rows⟩ :=
    sortedRows_spec "FILE".toList (fileSizes found) (by
      intro entry member
      obtain ⟨file, inside, length⟩ := List.mem_filterMap.mp member
      obtain ⟨size, _, rfl⟩ := Option.map_eq_some_iff.mp length
      exact named file inside)
  refine ⟨dirs, files, ?_, ?_, ?_, dirs_sorted, files_sorted, ?_⟩
  · rw [← topEntries_dirs]
    have firsts := dirs_perm.map Prod.fst
    rw [sizes, List.map_map, List.map_map] at firsts
    exact firsts.trans ((perm.filter _).map _)
  · rw [← topEntries_files]
    exact files_perm.trans ((perm.filterMap _).map _)
  · exact ⟨_, _, rows, dirs_rows, files_rows⟩
  · intro dir member
    have known := dirs_perm.mem_iff.mp member
    rw [sizes, List.map_map] at known
    obtain ⟨walked, _, rfl⟩ := List.mem_map.mp known
    show CountsOnce walked.entry (calculateDirSizeParallel walkDir walked)
    rw [calculateDirSize_eq]
    exact size_counts walked.entry

/-- A directory with a file, a directory that opens, one that does not, a link and a failure. -/
def smallTree : Entry :=
  .directory [] true [.file [97] (some 10), .link [108], .directory [101] false [.file [97] (some 9)],
    .directory [100] true [.file [97] (some 3), .directory [98] true [.file [99] (some 4), .failed]],
    .failed, .file [98] (some 20), .file [99] none]

example : (dirSizes .inOrder .inOrder (foundEntries .inOrder smallTree)).map Prod.snd = [0, 7] := by
  decide

example : (fileSizes (foundEntries .inOrder smallTree)).map Prod.snd = [10, 20] := by decide

end Rcurl
