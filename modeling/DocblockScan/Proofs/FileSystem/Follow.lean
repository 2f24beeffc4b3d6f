import DocblockScan.FileSystem.Basic
import DocblockScan.Proofs.OrderedMap
import Mathlib.Data.List.Induction

/-!
# Following names without links

Where no symbolic links stand, a name leads into a directory or it is the last one.
`follow_name` says so, and everything known of longer ways is an induction on their
names that uses it.
-/

namespace DocblockScan.FileSystem

/-! ## Entries -/

/-- A file system without symbolic links. -/
def LinkFree (files : FileSystem) : Prop :=
  ∀ location target, files.entry? location ≠ some (.link target)

/-- Whatever stands somewhere stands in a directory. -/
def Closed (files : FileSystem) : Prop :=
  ∀ outer name, files.entry? (outer ++ [name]) ≠ none → files.entry? outer = some .directory

@[simp] theorem entry?_nil (files : FileSystem) : files.entry? [] = some .directory := rfl

theorem entry?_of_ne_nil (files : FileSystem) {location : Location} (below : location ≠ []) :
    files.entry? location = files.entries.get? location := by
  unfold entry?
  rw [if_neg below]

/-- An entry that was put stands at its location, and nowhere else. -/
theorem entry?_put (files : FileSystem) (location other : Location) (entry : FileEntry) :
    entry? (files.put location entry) other =
      if other = [] then some .directory
      else if other = location then some entry else files.entry? other := by
  by_cases root : other = []
  · rw [if_pos root, root, entry?_nil]
  · rw [if_neg root, entry?_of_ne_nil _ root, entry?_of_ne_nil _ root, put, OrderedMap.get?_insert]

/-- Anywhere else stands what stood there. -/
theorem entry?_put_of_ne (files : FileSystem) {location other : Location} (apart : other ≠ location)
    (entry : FileEntry) : entry? (files.put location entry) other = files.entry? other := by
  rw [entry?_put, if_neg apart]
  split
  · next root => rw [root, entry?_nil]
  · rfl

/-- A file system has no links if it lists none. -/
theorem linkFree_of_entries {files : FileSystem}
    (noLinks : ∀ entry ∈ files.entries.entries, ∀ target, entry.2 ≠ .link target) :
    LinkFree files := by
  intro location target isLink
  by_cases root : location = []
  · simp [root] at isLink
  · rw [entry?_of_ne_nil files root, OrderedMap.get?_eq_some_iff] at isLink
    exact noLinks _ isLink target rfl

/-- A file system is closed if the directory of every listed entry is there. -/
theorem closed_of_entries {files : FileSystem}
    (directories : ∀ entry ∈ files.entries.entries,
      files.entry? entry.1.dropLast = some .directory) : Closed files := by
  intro outer name stands
  obtain ⟨entry, found⟩ := Option.ne_none_iff_exists'.1 stands
  rw [entry?_of_ne_nil files (by simp), OrderedMap.get?_eq_some_iff] at found
  simpa using directories _ found

/-- Everything above an entry is a directory. -/
theorem Closed.directory_of_prefix {files : FileSystem} (closed : Closed files)
    {outer location : Location} (above : outer <+: location) (proper : outer ≠ location)
    (stands : files.entry? location ≠ none) : files.entry? outer = some .directory := by
  obtain ⟨names, rfl⟩ := above
  induction names using List.reverseRecOn with
  | nil => simp at proper
  | append_singleton names name inductionHypothesis =>
      rw [← List.append_assoc] at stands
      have inside := closed _ _ stands
      by_cases last : names = []
      · simpa [last] using inside
      · exact inductionHypothesis (by simpa using last) (by simp [inside])

/-! ## Following names -/

variable {files : FileSystem} {budget : Nat}

@[simp] theorem follow_nil (here : Location) : files.follow budget here [] = .ok here := by
  cases budget <;> rfl

/-- The first name decides how the others are followed. -/
theorem follow_cons (here : Location) (name : String) (rest : List String) :
    files.follow budget here (name :: rest) =
      if Path.isIdle name then files.follow budget here rest
      else if name = ".." then files.follow budget here.dropLast rest
      else if nameLimit < name.utf8ByteSize then .error .nameTooLong
      else
        match files.entry? (here ++ [name]) with
        | none => if rest = [] then .ok (here ++ [name]) else .error .notFound
        | some (.file _) => if rest = [] then .ok (here ++ [name]) else .error .notDirectory
        | some .directory => files.follow budget (here ++ [name]) rest
        | some (.link target) =>
            match budget with
            | 0 => .error .tooManyLinks
            | smaller + 1 =>
                files.follow smaller (if Path.isRelative target then here else [])
                  (Path.pieces target ++ rest) := by
  cases budget <;> rfl

/-- A piece of a path that names something. -/
def NamesEntry (piece : String) : Prop :=
  Path.isIdle piece = false ∧ piece ≠ ".."

/-- Where a name leads that is not the last one, it leads into a directory. -/
theorem follow_name (linkFree : LinkFree files) {here : Location} {name : String}
    {rest : List String} {location : Location} (names : NamesEntry name)
    (found : files.follow budget here (name :: rest) = .ok location) :
    name.utf8ByteSize ≤ nameLimit ∧
      ((files.entry? (here ++ [name]) = some .directory ∧
          files.follow budget (here ++ [name]) rest = .ok location) ∨
        (files.entry? (here ++ [name]) ≠ some .directory ∧ rest = [] ∧
          location = here ++ [name])) := by
  rw [follow_cons] at found
  simp only [names.1, names.2, Bool.false_eq_true, if_false] at found
  split at found
  · simp at found
  · next short =>
      refine ⟨Nat.le_of_not_lt short, ?_⟩
      split at found
      · next missing =>
          split at found
          · next last => exact .inr ⟨by simp [missing], last, (Except.ok.inj found).symm⟩
          · simp at found
      · next contents isFile =>
          split at found
          · next last => exact .inr ⟨by simp [isFile], last, (Except.ok.inj found).symm⟩
          · simp at found
      · next isDirectory => exact .inl ⟨isDirectory, found⟩
      · next target isLink => exact absurd isLink (linkFree _ target)

/-- A name leads into a directory. -/
theorem follow_directory {here : Location} {name : String} (names : NamesEntry name)
    (short : name.utf8ByteSize ≤ nameLimit)
    (isDirectory : files.entry? (here ++ [name]) = some .directory) (rest : List String) :
    files.follow budget here (name :: rest) = files.follow budget (here ++ [name]) rest := by
  rw [follow_cons]
  simp only [names.1, names.2, Bool.false_eq_true, if_false, if_neg (Nat.not_lt.2 short),
    isDirectory]

/-- A last name leads to its place, whatever stands there. -/
theorem follow_last (linkFree : LinkFree files) {here : Location} {name : String}
    (names : NamesEntry name) (short : name.utf8ByteSize ≤ nameLimit) :
    files.follow budget here [name] = .ok (here ++ [name]) := by
  rw [follow_cons]
  simp only [names.1, names.2, Bool.false_eq_true, if_false, if_neg (Nat.not_lt.2 short)]
  split
  · rfl
  · rfl
  · rw [follow_nil]
  · next target isLink => exact absurd isLink (linkFree _ target)

theorem follow_idle {here : Location} {name : String} (idle : Path.isIdle name = true)
    (rest : List String) :
    files.follow budget here (name :: rest) = files.follow budget here rest := by
  rw [follow_cons]
  simp only [idle, if_true]

theorem follow_up (here : Location) (rest : List String) :
    files.follow budget here (".." :: rest) = files.follow budget here.dropLast rest := by
  rw [follow_cons]
  simp [Path.isIdle]

/-- The first of some names is idle, goes up, or names something. -/
theorem name_cases (name : String) :
    Path.isIdle name = true ∨ name = ".." ∨ NamesEntry name := by
  by_cases idle : Path.isIdle name = true
  · exact .inl idle
  by_cases up : name = ".."
  · exact .inr (.inl up)
  · exact .inr (.inr ⟨by simpa using idle, up⟩)

/-- Names lead to the same place wherever the same directories are. -/
theorem follow_of_directories {other : FileSystem} (linkFree : LinkFree files)
    (otherLinkFree : LinkFree other)
    (directories : ∀ location, files.entry? location = some .directory →
      other.entry? location = some .directory) {here : Location} {names : List String}
    {location : Location} (found : files.follow budget here names = .ok location) :
    other.follow budget here names = .ok location := by
  induction names generalizing here with
  | nil =>
      rw [follow_nil] at found ⊢
      exact found
  | cons name rest inductionHypothesis =>
      rcases name_cases name with idle | rfl | isName
      · rw [follow_idle idle] at found ⊢
        exact inductionHypothesis found
      · rw [follow_up] at found ⊢
        exact inductionHypothesis found
      · obtain ⟨short, ⟨entered, inside⟩ | ⟨-, rfl, rfl⟩⟩ := follow_name linkFree isName found
        · rw [follow_directory isName short (directories _ entered)]
          exact inductionHypothesis inside
        · exact follow_last otherLinkFree isName short

/-- Names that end with the name of something lead to a place of that name. -/
theorem exists_of_follow (linkFree : LinkFree files) {here : Location} {before : List String}
    {piece : String} {location : Location} (names : NamesEntry piece)
    (found : files.follow budget here (before ++ [piece]) = .ok location) :
    ∃ outer, location = outer ++ [piece] := by
  induction before generalizing here with
  | nil =>
      obtain ⟨-, ⟨-, inside⟩ | ⟨-, -, rfl⟩⟩ := follow_name linkFree names found
      · rw [follow_nil] at inside
        exact ⟨here, (Except.ok.inj inside).symm⟩
      · exact ⟨here, rfl⟩
  | cons name rest inductionHypothesis =>
      rw [List.cons_append] at found
      rcases name_cases name with idle | rfl | isName
      · rw [follow_idle idle] at found
        exact inductionHypothesis found
      · rw [follow_up] at found
        exact inductionHypothesis found
      · obtain ⟨-, ⟨-, inside⟩ | ⟨-, last, -⟩⟩ := follow_name linkFree isName found
        · exact inductionHypothesis inside
        · simp at last

/-- Names that never go up lead to a place below. -/
theorem prefix_of_follow (linkFree : LinkFree files) {here : Location} {names : List String}
    {location : Location} (down : ".." ∉ names)
    (found : files.follow budget here names = .ok location) : here <+: location := by
  induction names generalizing here with
  | nil =>
      rw [follow_nil] at found
      obtain rfl := Except.ok.inj found
      exact List.prefix_rfl
  | cons name rest inductionHypothesis =>
      rw [List.mem_cons, not_or] at down
      rcases name_cases name with idle | rfl | isName
      · rw [follow_idle idle] at found
        exact inductionHypothesis down.2 found
      · exact absurd rfl down.1
      · obtain ⟨-, ⟨-, inside⟩ | ⟨-, -, rfl⟩⟩ := follow_name linkFree isName found
        · exact (List.prefix_append here [name]).trans (inductionHypothesis down.2 inside)
        · exact List.prefix_append here [name]

/-- Before names go up they lead into a directory. -/
theorem exists_directory_of_follow (linkFree : LinkFree files) {here : Location}
    {before after : List String} {location : Location} (down : ".." ∉ before)
    (isDirectory : files.entry? here = some .directory)
    (found : files.follow budget here (before ++ ".." :: after) = .ok location) :
    ∃ middle, files.follow budget here before = .ok middle ∧
      files.entry? middle = some .directory := by
  induction before generalizing here with
  | nil => exact ⟨here, follow_nil here, isDirectory⟩
  | cons name rest inductionHypothesis =>
      rw [List.cons_append] at found
      rw [List.mem_cons, not_or] at down
      rcases name_cases name with idle | rfl | isName
      · rw [follow_idle idle] at found ⊢
        exact inductionHypothesis down.2 isDirectory found
      · exact absurd rfl down.1
      · obtain ⟨short, ⟨entered, inside⟩ | ⟨-, last, -⟩⟩ := follow_name linkFree isName found
        · rw [follow_directory isName short entered]
          exact inductionHypothesis down.2 entered inside
        · simp at last

/-- What follows a directory is followed from there. -/
theorem follow_append (linkFree : LinkFree files) {here middle : Location}
    {names : List String} (found : files.follow budget here names = .ok middle)
    (isDirectory : files.entry? middle = some .directory) (rest : List String) :
    files.follow budget here (names ++ rest) = files.follow budget middle rest := by
  induction names generalizing here with
  | nil =>
      rw [follow_nil] at found
      rw [Except.ok.inj found, List.nil_append]
  | cons name others inductionHypothesis =>
      rw [List.cons_append]
      rcases name_cases name with idle | rfl | isName
      · rw [follow_idle idle] at found ⊢
        exact inductionHypothesis found
      · rw [follow_up] at found ⊢
        exact inductionHypothesis found
      · obtain ⟨short, ⟨entered, inside⟩ | ⟨notEntered, -, rfl⟩⟩ :=
          follow_name linkFree isName found
        · rw [follow_directory isName short entered]
          exact inductionHypothesis inside
        · exact absurd isDirectory notEntered

end DocblockScan.FileSystem
