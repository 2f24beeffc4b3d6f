import DocblockScan.Proofs.FileSystem.Growth

/-!
# Writing makes a file system grow

Making directories and writing a file with a reserved name are steps of growth.
`exists_makesAt` and `writeText_eq_ok_iff` say all that a successful step does; what
making one directory preserves, making nested ones does: `makeNested_induction`.
-/

namespace DocblockScan.FileSystem

variable {reserved : List String} {files : FileSystem}

/-! ## Single entries -/

/-- An entry that is no link makes no link. -/
theorem LinkFree.put (linkFree : LinkFree files) (location : Location) {entry : FileEntry}
    (noLink : ∀ target, entry ≠ .link target) : LinkFree (files.put location entry) := by
  intro other target isLink
  rw [entry?_put] at isLink
  split at isLink
  · simp at isLink
  split at isLink
  · exact noLink target (Option.some.inj isLink)
  · exact linkFree other target isLink

/-- Where nothing stands, not even the root stands. -/
theorem ne_nil_of_missing {location : Location} (missing : files.entry? location = none) :
    location ≠ [] := by
  rintro rfl
  simp at missing

/-- A directory in an empty place is growth. -/
theorem grows_put_directory (linkFree : LinkFree files) {location : Location}
    (missing : files.entry? location = none) :
    Grows reserved files (files.put location .directory) where
  workingDirectory := rfl
  linkFree := ⟨linkFree, linkFree.put location (by simp)⟩
  directories other isDirectory := by
    rw [entry?_put, isDirectory]
    split
    · rfl
    · split <;> rfl
  files other contents isFile := by
    have apart : other ≠ location := by
      rintro rfl
      rw [missing] at isFile
      simp at isFile
    have below : other ≠ [] := by
      rintro rfl
      simp at isFile
    exact ⟨contents, by rw [entry?_put, if_neg below, if_neg apart, isFile]⟩
  ordinary := by
    have fresh : location ∉ files.entries.entries.map Prod.fst := by
      rw [entry?_of_ne_nil files (ne_nil_of_missing missing)] at missing
      intro member
      have known := (OrderedMap.contains_iff files.entries location).2 member
      simp [OrderedMap.contains, missing] at known
    simp [put, OrderedMap.insert, OrderedMap.insertIn_of_not_mem _ fresh, isOrdinaryFile]

/-- A file with a reserved name in place of no directory is growth. -/
theorem grows_put_file (linkFree : LinkFree files) {outer : Location} {name : String}
    (isReserved : name ∈ reserved)
    (noDirectory : files.entry? (outer ++ [name]) ≠ some .directory) (contents : ByteArray) :
    Grows reserved files (files.put (outer ++ [name]) (.file contents)) where
  workingDirectory := rfl
  linkFree := ⟨linkFree, linkFree.put _ (by simp)⟩
  directories other isDirectory := by
    have apart : other ≠ outer ++ [name] := by
      rintro rfl
      exact noDirectory isDirectory
    rw [entry?_put, if_neg apart, isDirectory]
    split <;> rfl
  files other old isFile := by
    have below : other ≠ [] := by
      rintro rfl
      simp at isFile
    rw [entry?_put, if_neg below]
    by_cases same : other = outer ++ [name]
    · exact ⟨contents, by rw [if_pos same]⟩
    · exact ⟨old, by rw [if_neg same, isFile]⟩
  ordinary := by
    refine OrderedMap.filter_insertIn ?_ _ _
    intro entry
    cases entry <;> simp [isOrdinaryFile, endsReserved, isReserved]

/-! ## Directories -/

/-- Empty pieces lead nowhere. -/
theorem follow_empties {budget : Nat} {here : Location} {empties : List String}
    (empty : ∀ piece ∈ empties, piece = "") :
    files.follow budget here empties = .ok here := by
  induction empties with
  | nil => rw [follow_nil]
  | cons piece rest inductionHypothesis =>
      obtain rfl := empty piece List.mem_cons_self
      rw [follow_idle (by decide)]
      exact inductionHypothesis fun piece member => empty piece (.tail _ member)

/-- The last piece of a path that is not empty, and the empty ones after it. -/
theorem pieces_of_trimmed {pieces before : List String} {last : String}
    (trimmed : pieces.reverse.dropWhile (· == "") = last :: before) :
    last ≠ "" ∧ ∃ empties : List String, (∀ piece ∈ empties, piece = "") ∧
      pieces = before.reverse ++ last :: empties := by
  constructor
  · have head := List.head?_dropWhile_not (· == "") pieces.reverse
    rw [trimmed] at head
    simpa using head
  · refine ⟨(pieces.reverse.takeWhile (· == "")).reverse, ?_, ?_⟩
    · intro piece member
      have all := List.all_eq_true.1 (List.all_takeWhile (p := (· == "")) (l := pieces.reverse))
        piece (List.mem_reverse.1 member)
      simpa using all
    · have whole := List.takeWhile_append_dropWhile (p := (· == "")) (l := pieces.reverse)
      rw [trimmed] at whole
      simpa using (congrArg List.reverse whole).symm

/-- A directory in an empty place is found by the names of its outer directory and its
own. -/
theorem follow_put_directory (linkFree : LinkFree files) {budget : Nat} {here outer : Location}
    {before empties : List String} {name : String}
    (followed : files.follow budget here before = .ok outer)
    (isDirectory : files.entry? outer = some .directory)
    (missing : files.entry? (outer ++ [name]) = none) (names : NamesEntry name)
    (short : name.utf8ByteSize ≤ nameLimit) (empty : ∀ piece ∈ empties, piece = "") :
    (files.put (outer ++ [name]) .directory).follow budget here (before ++ name :: empties) =
      .ok (outer ++ [name]) := by
  have grows : Grows [] files (files.put (outer ++ [name]) .directory) :=
    grows_put_directory linkFree missing
  have stands : entry? (files.put (outer ++ [name]) .directory) (outer ++ [name]) =
      some .directory := by
    rw [entry?_put]
    simp
  rw [follow_append grows.linkFree.2 (grows.follow followed) (grows.directories _ isDirectory),
    follow_directory names short stands, follow_empties empty]

/-- Where a directory is made: in an empty place of the directory that the pieces of its
path before the name lead to. -/
structure MakesAt (files : FileSystem) (path : String) (outer : Location) (name : String) :
    Prop where
  isPath : IsPath path
  inside : files.entry? outer = some .directory
  missing : files.entry? (outer ++ [name]) = none
  names : NamesEntry name
  short : name.utf8ByteSize ≤ nameLimit
  pieces : ∃ before empties, (∀ piece ∈ empties, piece = "") ∧
    Path.pieces path = before ++ name :: empties ∧
    files.follow linkLimit (files.startOf path) before = .ok outer

/-- A directory that is made is put where it is made, and nothing else happens. -/
theorem exists_makesAt {path : String} {made : FileSystem}
    (succeeds : files.makeDirectory path = .ok made) :
    ∃ outer name, MakesAt files path outer name ∧
      made = files.put (outer ++ [name]) .directory := by
  unfold makeDirectory at succeeds
  split at succeeds
  · simp at succeeds
  split at succeeds
  · simp at succeeds
  split at succeeds
  · simp at succeeds
  next notEmpty noNul short =>
  split at succeeds
  · simp at succeeds
  next last before trimmed =>
  obtain ⟨notEmptyName, empties, empty, pieces⟩ := pieces_of_trimmed trimmed
  cases followed : files.follow linkLimit (files.startOf path) before.reverse with
  | error failure => simp [followed, bind, Except.bind] at succeeds
  | ok outer =>
      simp only [followed, bind, Except.bind] at succeeds
      split at succeeds
      · simp at succeeds
      · next isDirectory =>
          split at succeeds
          · simp at succeeds
          next special =>
          split at succeeds
          · simp at succeeds
          next shortName =>
          split at succeeds
          · simp at succeeds
          next missing =>
          simp only [Bool.or_eq_true, decide_eq_true_eq, not_or] at special
          refine ⟨outer, last, ?_, (Except.ok.inj succeeds).symm⟩
          exact {
            isPath := ⟨notEmpty, by simpa using noNul, Nat.le_of_not_lt short⟩
            inside := isDirectory
            missing := missing
            names := ⟨by simp [Path.isIdle, notEmptyName, special.1], special.2⟩
            short := Nat.le_of_not_lt shortName
            pieces := ⟨before.reverse, empties, empty, pieces, followed⟩ }
      · simp at succeeds

/-- The path of a directory that was made leads there. -/
theorem MakesAt.isDirectory {path : String} {outer : Location} {name : String}
    (makes : MakesAt files path outer name) (linkFree : LinkFree files) :
    (files.put (outer ++ [name]) .directory).isDirectory path = true := by
  obtain ⟨before, empties, empty, pieces, followed⟩ := makes.pieces
  refine (isDirectory_iff _ _).2 ⟨outer ++ [name], ?_, by rw [entry?_put]; simp⟩
  rw [locate_eq_ok_iff, pieces]
  exact ⟨makes.isPath, follow_put_directory linkFree followed makes.inside makes.missing
    makes.names makes.short empty⟩

/-- Making one directory is growth. -/
theorem grows_makeDirectory (linkFree : LinkFree files) {path : String} {made : FileSystem}
    (succeeds : files.makeDirectory path = .ok made) : Grows reserved files made := by
  obtain ⟨outer, name, makes, rfl⟩ := exists_makesAt succeeds
  exact grows_put_directory linkFree makes.missing

/-- What making one of some directories preserves, making them nested does, whether or not
it succeeds. -/
theorem makeNested_induction {holds : FileSystem → Prop} (paths : List String)
    (step : ∀ {now made : FileSystem} {path : String}, path ∈ paths → holds now →
      now.makeDirectory path = .ok made → holds made)
    (start : holds files) : holds (files.makeNested paths).1 := by
  induction paths with
  | nil => exact start
  | cons path outer inductionHypothesis =>
      have first : ∀ {now made : FileSystem}, holds now → now.makeDirectory path = .ok made →
          holds made := step List.mem_cons_self
      have others := inductionHypothesis fun member => step (.tail _ member)
      rw [makeNested]
      split
      · exact start
      split
      · next made succeeds => exact first start succeeds
      · cases nested : files.makeNested outer with
        | mk grown result =>
            rw [nested] at others
            cases result with
            | error failure => exact others
            | ok _ =>
                dsimp only
                split
                · next made succeeds => exact first others succeeds
                · exact others
      · exact start

/-- Making nested directories is growth, whether or not it succeeds. -/
theorem grows_makeNested (linkFree : LinkFree files) (paths : List String) :
    Grows reserved files (files.makeNested paths).1 :=
  makeNested_induction paths
    (fun _ grows succeeds => grows.trans (grows_makeDirectory grows.linkFree.2 succeeds))
    (.refl linkFree)

theorem grows_of_makeDirectories (linkFree : LinkFree files) {path : String}
    {grown : FileSystem} {result : Except FileFailure Unit}
    (makes : files.makeDirectories path = (grown, result)) : Grows reserved files grown := by
  have made : Grows reserved files (files.makeDirectories path).1 := grows_makeNested linkFree _
  rwa [makes] at made

/-- When a directory was made with its parents it is there. -/
theorem isDirectory_of_makeNested (linkFree : LinkFree files) {path : String}
    {outer : List String} {grown : FileSystem}
    (succeeds : files.makeNested (path :: outer) = (grown, .ok ())) :
    path = "" ∨ grown.isDirectory path = true := by
  rw [makeNested] at succeeds
  split at succeeds
  · next known =>
      obtain ⟨rfl, -⟩ := Prod.mk.inj succeeds
      simpa using known
  split at succeeds
  · next made makes =>
      obtain ⟨rfl, -⟩ := Prod.mk.inj succeeds
      obtain ⟨_, _, makesAt, rfl⟩ := exists_makesAt makes
      exact .inr (makesAt.isDirectory linkFree)
  · have nestedGrows : Grows [] files (files.makeNested outer).1 :=
      grows_makeNested linkFree outer
    cases nested : files.makeNested outer with
    | mk grownFiles result =>
        rw [nested] at succeeds nestedGrows
        cases result with
        | error failure => simp at succeeds
        | ok _ =>
            dsimp only at succeeds
            split at succeeds
            · next made makes =>
                obtain ⟨rfl, -⟩ := Prod.mk.inj succeeds
                obtain ⟨_, _, makesAt, rfl⟩ := exists_makesAt makes
                exact .inr (makesAt.isDirectory nestedGrows.linkFree.2)
            · next failure fails =>
                obtain ⟨rfl, result⟩ := Prod.mk.inj succeeds
                split at result
                · next isDirectory => exact .inr isDirectory
                · simp at result
  · simp at succeeds

/-- Making a directory that is there does nothing. -/
theorem makeDirectories_of_isDirectory {path : String}
    (known : path = "" ∨ files.isDirectory path = true) :
    files.makeDirectories path = (files, .ok ()) := by
  rw [makeDirectories, makeNested, if_pos (by simpa using known)]

/-- Making a directory that was made before does nothing. -/
theorem makeDirectories_again (linkFree : LinkFree files) {path : String} {grown new : FileSystem}
    (succeeds : files.makeDirectories path = (grown, .ok ()))
    (grows : Grows reserved grown new) : new.makeDirectories path = (new, .ok ()) :=
  makeDirectories_of_isDirectory
    ((isDirectory_of_makeNested linkFree succeeds).imp_right grows.isDirectory)

/-! ## Files -/

/-- A text is written in place of no directory, where its path leads. -/
theorem writeText_eq_ok_iff (path text : String) (written : FileSystem) :
    files.writeText path text = .ok written ↔
      ∃ location, files.locate path = .ok location ∧
        files.entry? location ≠ some .directory ∧
        written = files.put location (.file text.toUTF8) := by
  unfold writeText
  cases files.locate path with
  | error failure =>
      constructor
      · rintro ⟨⟩
      · rintro ⟨_, ⟨⟩, -⟩
  | ok location =>
      by_cases isDirectory : files.entry? location = some .directory
      · simp [bind, Except.bind, isDirectory]
      · simp only [bind, Except.bind, Except.ok.injEq, exists_eq_left', isDirectory, ne_eq,
          not_false_eq_true, true_and]
        exact eq_comm

end DocblockScan.FileSystem
