import DocblockScan.Proofs.FileSystem.Follow

/-!
# File systems that grow

A file system grows when directories are made and files with reserved names are
written, and everything else stays as it is. Then every path that led somewhere
leads there still: `Grows.locate`. The converse needs care, as a path may go up out
of a directory that was not there before. It holds for a path to an old file that
goes up only out of old directories: `Grows.locate_back`.
-/

namespace DocblockScan.FileSystem

/-- Whether a way ends with a reserved name. -/
def endsReserved (reserved : List String) (way : Location) : Bool :=
  way.getLast?.any reserved.contains

/-- Whether an entry is a file without a reserved name. -/
def isOrdinaryFile (reserved : List String) : Location × FileEntry → Bool
  | (location, .file _) => !endsReserved reserved location
  | _ => false

/-- A file system has grown out of another one, if only directories and files with
reserved names are new or different. -/
structure Grows (reserved : List String) (old new : FileSystem) : Prop where
  workingDirectory : new.workingDirectory = old.workingDirectory
  linkFree : LinkFree old ∧ LinkFree new
  directories : ∀ location, old.entry? location = some .directory →
    new.entry? location = some .directory
  files : ∀ location contents, old.entry? location = some (.file contents) →
    ∃ written, new.entry? location = some (.file written)
  ordinary : new.entries.entries.filter (isOrdinaryFile reserved) =
    old.entries.entries.filter (isOrdinaryFile reserved)

variable {reserved : List String} {old new : FileSystem} {budget : Nat}

theorem Grows.refl {files : FileSystem} (linkFree : LinkFree files) :
    Grows reserved files files :=
  ⟨rfl, ⟨linkFree, linkFree⟩, fun _ isDirectory => isDirectory,
    fun _ contents isFile => ⟨contents, isFile⟩, rfl⟩

theorem Grows.trans {middle : FileSystem} (first : Grows reserved old middle)
    (second : Grows reserved middle new) : Grows reserved old new where
  workingDirectory := second.workingDirectory.trans first.workingDirectory
  linkFree := ⟨first.linkFree.1, second.linkFree.2⟩
  directories location isDirectory :=
    second.directories location (first.directories location isDirectory)
  files location contents isFile := by
    obtain ⟨written, isWritten⟩ := first.files location contents isFile
    exact second.files location written isWritten
  ordinary := second.ordinary.trans first.ordinary

/-- A file without a reserved name is the same before and after. -/
theorem Grows.file_iff (grows : Grows reserved old new) {outer : Location} {name : String}
    (free : name ∉ reserved) (contents : ByteArray) :
    new.entry? (outer ++ [name]) = some (.file contents) ↔
      old.entry? (outer ++ [name]) = some (.file contents) := by
  have below : outer ++ [name] ≠ [] := by simp
  have ordinary : isOrdinaryFile reserved (outer ++ [name], .file contents) = true := by
    simp [isOrdinaryFile, endsReserved, free]
  have listed : ∀ files : FileSystem, files.entry? (outer ++ [name]) = some (.file contents) ↔
      (outer ++ [name], .file contents) ∈
        files.entries.entries.filter (isOrdinaryFile reserved) := by
    intro files
    rw [entry?_of_ne_nil files below, OrderedMap.get?_eq_some_iff, List.mem_filter]
    exact ⟨fun member => ⟨member, ordinary⟩, fun member => member.1⟩
  rw [listed new, listed old, grows.ordinary]

/-! ## Paths -/

/-- A text that can be a path. -/
structure IsPath (path : String) : Prop where
  notEmpty : path ≠ ""
  noNul : '\x00' ∉ path.toList
  short : path.utf8ByteSize ≤ pathLimit

/-- A path leads where its pieces lead. -/
theorem locate_eq_ok_iff (files : FileSystem) (path : String) (location : Location) :
    files.locate path = .ok location ↔
      IsPath path ∧
        files.follow linkLimit (files.startOf path) (Path.pieces path) = .ok location := by
  unfold locate
  constructor
  · intro found
    split at found
    · simp at found
    next notEmpty =>
    split at found
    · simp at found
    next noNul =>
    split at found
    · simp at found
    next short =>
    exact ⟨⟨notEmpty, by simpa using noNul, Nat.le_of_not_lt short⟩, found⟩
  · rintro ⟨isPath, found⟩
    have noNul : ¬ path.toList.contains '\x00' = true := by simpa using isPath.noNul
    rw [if_neg isPath.notEmpty, if_neg noNul, if_neg (Nat.not_lt.2 isPath.short)]
    exact found

/-- Where names led before, they lead afterwards. -/
theorem Grows.follow (grows : Grows reserved old new) {here : Location} {names : List String}
    {location : Location} (found : old.follow budget here names = .ok location) :
    new.follow budget here names = .ok location :=
  follow_of_directories grows.linkFree.1 grows.linkFree.2 grows.directories found

theorem Grows.startOf (grows : Grows reserved old new) (path : String) :
    new.startOf path = old.startOf path := by
  simp [FileSystem.startOf, grows.workingDirectory]

/-- Where a path led before, it leads afterwards. -/
theorem Grows.locate (grows : Grows reserved old new) {path : String} {location : Location}
    (found : old.locate path = .ok location) : new.locate path = .ok location := by
  rw [locate_eq_ok_iff] at found ⊢
  rw [grows.startOf]
  exact ⟨found.1, grows.follow found.2⟩

/-- Whether every directory is an old one. -/
def Settled (old new : FileSystem) : Prop :=
  ∀ location, new.entry? location = some .directory → old.entry? location = some .directory

/-- Without new directories names lead where they led before. -/
theorem Grows.follow_back_of_settled (grows : Grows reserved old new)
    (settled : Settled old new) {here : Location} {names : List String} {location : Location}
    (found : new.follow budget here names = .ok location) :
    old.follow budget here names = .ok location :=
  follow_of_directories grows.linkFree.2 grows.linkFree.1 settled found

/-- Names that go up, from a place on, only out of old directories. -/
def ClimbsFromOld (old new : FileSystem) (budget : Nat) (here : Location)
    (names : List String) : Prop :=
  ∀ before after location, names = before ++ ".." :: after →
    new.follow budget here before = .ok location →
    new.entry? location = some .directory → old.entry? location = some .directory

/-- What holds of some names holds of those after a first one that leads on. -/
theorem ClimbsFromOld.tail {here next : Location} {name : String} {rest : List String}
    (climbs : ClimbsFromOld old new budget here (name :: rest))
    (leads : ∀ names, new.follow budget here (name :: names) = new.follow budget next names) :
    ClimbsFromOld old new budget next rest := by
  intro before after location split found isDirectory
  refine climbs (name :: before) after location (by rw [split, List.cons_append]) ?_ isDirectory
  rw [leads, found]

/-- Names that lead to an old file led there before. -/
theorem Grows.follow_back (grows : Grows reserved old new) (closed : Closed old)
    {here : Location} {names : List String} {location : Location} {contents : ByteArray}
    (climbs : ClimbsFromOld old new budget here names)
    (isFile : old.entry? location = some (.file contents))
    (found : new.follow budget here names = .ok location) :
    old.follow budget here names = .ok location := by
  induction names generalizing here with
  | nil =>
      rw [follow_nil] at found ⊢
      exact found
  | cons name rest inductionHypothesis =>
      rcases name_cases name with idle | rfl | isName
      · rw [follow_idle idle] at found ⊢
        exact inductionHypothesis (climbs.tail (follow_idle idle)) found
      · rw [follow_up] at found ⊢
        exact inductionHypothesis (climbs.tail (follow_up here)) found
      · obtain ⟨short, ⟨entered, inside⟩ | ⟨-, rfl, rfl⟩⟩ :=
          follow_name grows.linkFree.2 isName found
        · have onward := climbs.tail (follow_directory isName short entered)
          -- An old directory or file further down makes this directory an old one.
          have known : old.entry? (here ++ [name]) = some .directory := by
            by_cases up : ".." ∈ rest
            · obtain ⟨before, after, rfl, down⟩ := List.eq_append_cons_of_mem up
              obtain ⟨middle, reached, isDirectory⟩ :=
                exists_directory_of_follow grows.linkFree.2 down entered inside
              have wasDirectory := onward before after middle rfl reached isDirectory
              have above := prefix_of_follow grows.linkFree.2 down reached
              by_cases same : here ++ [name] = middle
              · rw [same, wasDirectory]
              · exact closed.directory_of_prefix above same (by simp [wasDirectory])
            · have above := prefix_of_follow grows.linkFree.2 up inside
              refine closed.directory_of_prefix above ?_ (by simp [isFile])
              rintro rfl
              obtain ⟨written, isWritten⟩ := grows.files _ _ isFile
              rw [entered] at isWritten
              simp at isWritten
          rw [follow_directory isName short known]
          exact inductionHypothesis onward inside
        · exact follow_last grows.linkFree.1 isName short

/-- A path that goes up only out of old directories. -/
def KeepsClear (old new : FileSystem) (path : String) : Prop :=
  ClimbsFromOld old new linkLimit (new.startOf path) (Path.pieces path)

/-- A path that never goes up keeps clear of all directories. -/
theorem keepsClear_of_not_mem {path : String} (down : ".." ∉ Path.pieces path) :
    KeepsClear old new path := by
  intro before after location split
  rw [split] at down
  simp at down

/-- A path keeps clear of new directories as long as no more of them are made. -/
theorem KeepsClear.later {grown : FileSystem} {path : String} (clear : KeepsClear old grown path)
    (grows : Grows reserved grown new) (settled : Settled grown new) :
    KeepsClear old new path := by
  intro before after location split found isDirectory
  rw [grows.startOf] at found
  exact clear before after location split (grows.follow_back_of_settled settled found)
    (settled location isDirectory)

/-- A path kept clear of the new directories before more of them were made. -/
theorem KeepsClear.earlier {grown : FileSystem} {path : String} (clear : KeepsClear old new path)
    (grows : Grows reserved grown new) : KeepsClear old grown path := by
  intro before after location split found isDirectory
  refine clear before after location split ?_ (grows.directories location isDirectory)
  rw [grows.startOf]
  exact grows.follow found

/-- A path to an old file led there before. -/
theorem Grows.locate_back (grows : Grows reserved old new) (closed : Closed old)
    {path : String} (clear : KeepsClear old new path) {location : Location}
    {contents : ByteArray} (isFile : old.entry? location = some (.file contents))
    (found : new.locate path = .ok location) : old.locate path = .ok location := by
  rw [locate_eq_ok_iff] at found ⊢
  unfold KeepsClear at clear
  rw [grows.startOf] at found clear
  exact ⟨found.1, grows.follow_back closed clear isFile found.2⟩

/-! ## What paths lead to -/

theorem find_eq_ok_iff (files : FileSystem) (path : String) (entry : FileEntry) :
    files.find path = .ok entry ↔
      ∃ location, files.locate path = .ok location ∧ files.entry? location = some entry := by
  unfold find
  cases files.locate path with
  | error failure =>
      constructor
      · rintro ⟨⟩
      · rintro ⟨_, ⟨⟩, _⟩
  | ok location =>
      cases stands : files.entry? location with
      | none => simp [bind, Except.bind, stands]
      | some found => simp [bind, Except.bind, stands]

theorem isDirectory_iff (files : FileSystem) (path : String) :
    files.isDirectory path = true ↔
      ∃ location, files.locate path = .ok location ∧
        files.entry? location = some .directory := by
  rw [← find_eq_ok_iff]
  unfold isDirectory
  split
  · next found => simp [found]
  · next other => simpa using other

theorem readText_eq_ok_iff (files : FileSystem) (path text : String) :
    files.readText path = .ok text ↔
      ∃ location contents, files.locate path = .ok location ∧
        files.entry? location = some (.file contents) ∧
        String.fromUTF8? contents = some text := by
  unfold readText
  cases found : files.find path with
  | error failure =>
      constructor
      · rintro ⟨⟩
      · rintro ⟨location, contents, leads, isFile, -⟩
        rw [(find_eq_ok_iff files path (.file contents)).2 ⟨location, leads, isFile⟩] at found
        simp at found
  | ok entry =>
      obtain ⟨location, leads, stands⟩ := (find_eq_ok_iff files path entry).1 found
      cases entry with
      | file contents =>
          cases decoded : String.fromUTF8? contents with
          | none => simp [bind, Except.bind, leads, stands, decoded]
          | some text => simp [bind, Except.bind, leads, stands, decoded]
      | directory => simp [bind, Except.bind, leads, stands]
      | link target => simp [bind, Except.bind, leads, stands]

/-- A path that led to a directory leads to one still. -/
theorem Grows.isDirectory (grows : Grows reserved old new) {path : String}
    (isDirectory : old.isDirectory path = true) : new.isDirectory path = true := by
  obtain ⟨location, leads, stands⟩ := (isDirectory_iff old path).1 isDirectory
  exact (isDirectory_iff new path).2
    ⟨location, grows.locate leads, grows.directories location stands⟩

/-- The last piece of a path, if it names something. -/
def EndsWith (path piece : String) : Prop :=
  NamesEntry piece ∧ ∃ before, Path.pieces path = before ++ [piece]

/-- A path leads to a place with the name of its last piece. -/
theorem EndsWith.exists_outer {files : FileSystem} {path piece : String}
    (ends : EndsWith path piece) (linkFree : LinkFree files) {location : Location}
    (found : files.locate path = .ok location) : ∃ outer, location = outer ++ [piece] := by
  obtain ⟨names, before, pieces⟩ := ends
  rw [locate_eq_ok_iff, pieces] at found
  exact exists_of_follow linkFree names found.2

/-- A text without a reserved name can be read afterwards exactly if it could be read
before. -/
theorem Grows.readText_iff (grows : Grows reserved old new) (closed : Closed old)
    {path piece : String} (ends : EndsWith path piece) (free : piece ∉ reserved)
    (clear : KeepsClear old new path) (text : String) :
    new.readText path = .ok text ↔ old.readText path = .ok text := by
  rw [readText_eq_ok_iff, readText_eq_ok_iff]
  constructor
  · rintro ⟨location, contents, leads, isFile, decoded⟩
    obtain ⟨outer, rfl⟩ := ends.exists_outer grows.linkFree.2 leads
    have wasFile := (grows.file_iff free contents).1 isFile
    exact ⟨_, contents, grows.locate_back closed clear wasFile leads, wasFile, decoded⟩
  · rintro ⟨location, contents, leads, isFile, decoded⟩
    obtain ⟨outer, rfl⟩ := ends.exists_outer grows.linkFree.1 leads
    exact ⟨_, contents, grows.locate leads, (grows.file_iff free contents).2 isFile, decoded⟩

end DocblockScan.FileSystem
