import DocblockScan.Proofs.FileSystem.Trees
import DocblockScan.Proofs.Session.Generation

/-!
# Writing generated files in a tree

A write of a generated file makes the common directory of these files and puts a text
where the path of the file leads then: `write_cases`. If the path of any generated file
led somewhere before, that directory is there, and the text is all that changes.
-/

namespace DocblockScan

open FileSystem

variable {files : FileSystem} {storage : Storage} {kind : DefinitionKind}

/-! ## The directory of the generated files -/

theorem Storage.outer_ne_empty (storage : Storage) : storage.outer ≠ "" := by
  obtain ⟨front, joined⟩ := Path.exists_join_eq storage.directory "framework"
  simp [storage.outer_eq, joined]

/-- The path of a generated file goes on from the directory with the name of the file. -/
theorem Storage.path_eq_outer (storage : Storage) (kind : DefinitionKind) :
    storage.path kind = storage.outer ++ "/" ++ kind.fileName := by
  rw [storage.path_eq, storage.outer_eq]

theorem Storage.pieces_path (storage : Storage) (kind : DefinitionKind) :
    Path.pieces (storage.path kind) = Path.pieces storage.outer ++ [kind.fileName] := by
  rw [storage.path_eq_outer, Path.pieces_append_slash, kind.isFileName.pieces]

/-- A generated file is looked for from where its directory is. -/
theorem Storage.startOf_path (storage : Storage) (files : FileSystem) (kind : DefinitionKind) :
    files.startOf (storage.path kind) = files.startOf storage.outer := by
  rw [startOf, startOf, storage.path_eq_outer, Path.isRelative_slash storage.outer_ne_empty]

/-- If the path of a generated file leads somewhere, its directory is there. -/
theorem Storage.isDirectory_outer (tree : IsTree files) {location : Location}
    (found : files.locate (storage.path kind) = .ok location) :
    files.isDirectory storage.outer = true := by
  have isPath := ((locate_eq_ok_iff _ _ _).1 found).1
  rw [storage.path_eq_outer] at isPath
  refine tree.isDirectory_of_pieces found (storage.pieces_path kind)
    ⟨storage.outer_ne_empty, ?_, ?_⟩ (storage.startOf_path files kind).symm
  · have noNul := isPath.noNul
    simp only [String.toList_append, List.mem_append, not_or] at noNul
    exact noNul.1.1
  · have short := isPath.short
    rw [String.utf8ByteSize_append, String.utf8ByteSize_append] at short
    omega

/-- A file whose path leads to something is generated. -/
theorem Storage.isGenerated_of_find {entry : FileEntry}
    (found : files.find (storage.path kind) = .ok entry) :
    storage.isGenerated files kind = true := by
  rw [Storage.isGenerated, exists?, found]
  rfl

namespace Session

/-! ## What a write does -/

/-- A generated file that was written: what its path leads to once the directory of the
generated files is made, and the text that is put there. -/
structure Written (storage : Storage) (kind : DefinitionKind) (definitions : String)
    (grown after : FileSystem) (location : Location) : Prop where
  leads : grown.locate (storage.path kind) = .ok location
  takes : TakesFile grown location
  puts : after = grown.put location (.file (Registration.file definitions).toUTF8)

/-- A write in a tree makes directories, none if the path of a generated file leads
somewhere, and then either fails or puts a file where its path leads. -/
theorem write_cases (tree : IsTree files) {definitions : String} {after : FileSystem}
    {result : Except ScanError Unit}
    (writes : write files (storage.path kind) definitions = (after, result)) :
    ∃ grown, IsTree grown ∧
      (∀ other location, files.locate (storage.path other) = .ok location → grown = files) ∧
      ((after = grown ∧ ∃ cause, result = .error cause) ∨
        (result = .ok () ∧ ∃ location, Written storage kind definitions grown after location)) := by
  have treeGrown := tree.makeDirectories storage.outer
  -- All generated files have one directory, so the path of any of them will do.
  have same : ∀ other location, files.locate (storage.path other) = .ok location →
      files.makeDirectories storage.outer = (files, .ok ()) := fun other location found =>
    makeDirectories_of_isDirectory (.inr (Storage.isDirectory_outer tree found))
  unfold write at writes
  rw [Storage.parent?_path] at writes
  cases made : files.makeDirectories storage.outer with
  | mk grown outcome =>
      rw [made] at treeGrown same
      refine ⟨grown, treeGrown, fun other location found =>
        (Prod.mk.inj (same other location found)).1, ?_⟩
      simp only [made] at writes
      cases outcome with
      | error failure =>
          obtain ⟨rfl, rfl⟩ := Prod.mk.inj writes
          exact .inl ⟨rfl, _, rfl⟩
      | ok _ =>
          dsimp only at writes
          split at writes
          · next written succeeds =>
              obtain ⟨rfl, rfl⟩ := Prod.mk.inj writes
              obtain ⟨location, leads, noDirectory, puts⟩ :=
                (writeText_eq_ok_iff _ _ _).1 succeeds
              exact .inr ⟨rfl, location, leads,
                (treeGrown.destination leads).resolve_left noDirectory, puts⟩
          · next failure fails =>
              obtain ⟨rfl, rfl⟩ := Prod.mk.inj writes
              exact .inl ⟨rfl, _, rfl⟩

variable {definitions : String} {grown after : FileSystem} {location : Location}

/-- Paths lead where they led before the text was put. -/
theorem Written.locate (written : Written storage kind definitions grown after location)
    {path : String} {place : Location} (found : grown.locate path = .ok place) :
    after.locate path = .ok place := by
  obtain ⟨outer, name, -, -, writable⟩ := written.takes
  rw [written.puts]
  exact locate_put writable found

/-- A file that was written holds its text. -/
theorem Written.find (written : Written storage kind definitions grown after location) :
    after.find (storage.path kind) = .ok (.file (Registration.file definitions).toUTF8) := by
  refine (find_eq_ok_iff _ _ _).2 ⟨location, written.locate written.leads, ?_⟩
  obtain ⟨outer, name, rfl, -⟩ := written.takes
  rw [written.puts, entry?_put]
  simp

/-- What a path leads to changes only at the place where the file is written. -/
theorem Written.find_other (written : Written storage kind definitions grown after location)
    {path : String} {entry : FileEntry} (found : grown.find path = .ok entry) :
    after.find path = .ok entry ∨
      (after.locate path = .ok location ∧ grown.entry? location = some entry) := by
  obtain ⟨place, leads, stands⟩ := (find_eq_ok_iff _ _ _).1 found
  by_cases same : place = location
  · subst same
    exact .inr ⟨written.locate leads, stands⟩
  · refine .inl ((find_eq_ok_iff _ _ _).2 ⟨place, written.locate leads, ?_⟩)
    rw [written.puts, entry?_put_of_ne grown same, stands]

/-- Writing keeps a file system a tree, whether or not it succeeds. -/
theorem isTree_of_write (tree : IsTree files) {result : Except ScanError Unit}
    (writes : write files (storage.path kind) definitions = (after, result)) : IsTree after := by
  obtain ⟨grown, treeGrown, -, ⟨rfl, -⟩ | ⟨-, location, written⟩⟩ := write_cases tree writes
  · exact treeGrown
  · rw [written.puts]
    exact treeGrown.put_file written.takes _

/-- The path of a generated file that led somewhere leads there after a write. -/
theorem locate_of_write (tree : IsTree files) {result : Except ScanError Unit}
    (writes : write files (storage.path kind) definitions = (after, result))
    {other : DefinitionKind} (found : files.locate (storage.path other) = .ok location) :
    after.locate (storage.path other) = .ok location := by
  obtain ⟨grown, -, same, changes⟩ := write_cases tree writes
  obtain rfl := same other location found
  obtain ⟨rfl, -⟩ | ⟨-, place, written⟩ := changes
  · exact found
  · exact written.locate found

/-- A write that succeeds leaves the definitions in the generated file. -/
theorem find_of_write (tree : IsTree files)
    (writes : write files (storage.path kind) definitions = (after, .ok ())) :
    after.find (storage.path kind) = .ok (.file (Registration.file definitions).toUTF8) := by
  obtain ⟨grown, -, -, ⟨-, -, ⟨⟩⟩ | ⟨-, place, written⟩⟩ := write_cases tree writes
  exact written.find

end Session

end DocblockScan
