import DocblockScan.Proofs.FileSystem.Links
import DocblockScan.Proofs.FileSystem.Writing

/-!
# Trees of directories and links

A file system is a tree if its working directory is there and whatever stands
somewhere stands in a directory. Making directories and writing files keep it one.
In a tree a path that leads somewhere leads there still when a file is written, and
its directory is there, so that making it does nothing.
-/

namespace DocblockScan.FileSystem

variable {files : FileSystem}

/-- Everything stands in a directory, and relative paths start at one. -/
structure IsTree (files : FileSystem) : Prop where
  closed : Closed files
  starts : files.entry? files.workingDirectory = some .directory

namespace IsTree

theorem startOf (tree : IsTree files) (path : String) :
    files.entry? (files.startOf path) = some .directory := by
  unfold FileSystem.startOf
  split
  · exact tree.starts
  · rfl

/-! ## What keeps a file system a tree -/

/-- An entry in a directory keeps a file system a tree if it replaces no directory by
anything else. -/
theorem put (tree : IsTree files) {outer : Location} {name : String} {entry : FileEntry}
    (inside : files.entry? outer = some .directory)
    (stays : files.entry? (outer ++ [name]) = some .directory → entry = .directory) :
    IsTree (files.put (outer ++ [name]) entry) := by
  have directories : ∀ location, files.entry? location = some .directory →
      entry? (files.put (outer ++ [name]) entry) location = some .directory := by
    intro location isDirectory
    rw [entry?_put]
    split
    · rfl
    split
    · next same => rw [stays (same ▸ isDirectory)]
    · exact isDirectory
  refine ⟨fun above last stands => ?_, directories _ tree.starts⟩
  rw [entry?_put, if_neg (by simp)] at stands
  split at stands
  · next same => exact directories _ ((List.append_inj' same rfl).1 ▸ inside)
  · exact directories _ (tree.closed above last stands)

/-- Writing a file into its place keeps a file system a tree. -/
theorem put_file (tree : IsTree files) {place : Location} (takes : TakesFile files place)
    (contents : ByteArray) : IsTree (files.put place (.file contents)) := by
  obtain ⟨outer, name, rfl, inside, writable⟩ := takes
  refine tree.put inside fun isDirectory => ?_
  simp [Writable, isDirectory] at writable

/-- Making directories keeps a file system a tree, whether or not it succeeds. -/
theorem makeDirectories (tree : IsTree files) (path : String) :
    IsTree (files.makeDirectories path).1 := by
  refine makeNested_induction _ (fun {now made path} _ tree succeeds => ?_) tree
  obtain ⟨outer, name, makes, rfl⟩ := exists_makesAt succeeds
  exact tree.put makes.inside fun _ => rfl

/-! ## Paths in a tree -/

/-- A path leads to a directory or to a writable place in one. -/
theorem destination (tree : IsTree files) {path : String} {location : Location}
    (found : files.locate path = .ok location) :
    files.entry? location = some .directory ∨ TakesFile files location :=
  (leads_of_follow ((locate_eq_ok_iff _ _ _).1 found).2).destination tree.closed
    (tree.startOf path)

/-- If a path leads to a place in a directory, the path of that directory leads there. -/
theorem isDirectory_of_pieces (tree : IsTree files) {path outer name : String}
    {location : Location} (found : files.locate path = .ok location)
    (pieces : Path.pieces path = Path.pieces outer ++ [name]) (isPath : IsPath outer)
    (start : files.startOf outer = files.startOf path) : files.isDirectory outer = true := by
  rw [locate_eq_ok_iff, pieces] at found
  obtain ⟨middle, leads, isDirectory⟩ :=
    (leads_of_follow found.2).outer tree.closed (tree.startOf path)
  refine (isDirectory_iff _ _).2 ⟨middle, ?_, isDirectory⟩
  rw [locate_eq_ok_iff, start]
  exact ⟨isPath, (leads_iff_follow _ _ _ _).1 leads⟩

end IsTree

/-- A path leads where it led when a file is written. -/
theorem locate_put {place : Location} {contents : ByteArray} (writable : Writable files place)
    {path : String} {location : Location} (found : files.locate path = .ok location) :
    (files.put place (.file contents)).locate path = .ok location := by
  rw [locate_eq_ok_iff, ← leads_iff_follow] at found ⊢
  exact ⟨found.1, found.2.put writable⟩

end DocblockScan.FileSystem
