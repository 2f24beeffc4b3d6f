import DocblockScan.Proofs.FileSystem.Follow

/-!
# Following names through links

`Leads` says as a relation where names lead, with one rule for each way a name can go
on, and `leads_iff_follow` that it is what following names finds. A file that is
written in place of no directory and no link changes nothing of it: `Leads.put`.
Inside a tree names lead to directories and to places in them: `Leads.destination`.
-/

namespace DocblockScan.FileSystem

variable {files : FileSystem}

/-- Nothing stands at a location, or a file does. -/
def Writable (files : FileSystem) (location : Location) : Prop :=
  files.entry? location = none ∨ ∃ contents, files.entry? location = some (.file contents)

/-- Names lead from a directory to a location, through at most so many links. -/
inductive Leads (files : FileSystem) : Nat → Location → List String → Location → Prop where
  /-- Without names one stays. -/
  | done (budget : Nat) (here : Location) : Leads files budget here [] here
  /-- An idle name is passed over. -/
  | idle {budget : Nat} {here location : Location} {name : String} {rest : List String}
      (idle : Path.isIdle name = true) (onward : Leads files budget here rest location) :
      Leads files budget here (name :: rest) location
  /-- Two dots lead up. -/
  | up {budget : Nat} {here location : Location} {rest : List String}
      (onward : Leads files budget here.dropLast rest location) :
      Leads files budget here (".." :: rest) location
  /-- A directory is entered. -/
  | enter {budget : Nat} {here location : Location} {name : String} {rest : List String}
      (names : NamesEntry name) (short : name.utf8ByteSize ≤ nameLimit)
      (isDirectory : files.entry? (here ++ [name]) = some .directory)
      (onward : Leads files budget (here ++ [name]) rest location) :
      Leads files budget here (name :: rest) location
  /-- A link is replaced by its target. -/
  | jump {smaller : Nat} {here location : Location} {name target : String} {rest : List String}
      (names : NamesEntry name) (short : name.utf8ByteSize ≤ nameLimit)
      (isLink : files.entry? (here ++ [name]) = some (.link target))
      (onward : Leads files smaller (if Path.isRelative target then here else [])
        (Path.pieces target ++ rest) location) :
      Leads files (smaller + 1) here (name :: rest) location
  /-- The last name may lead to a file or to an empty place. -/
  | arrive {budget : Nat} {here : Location} {name : String} (names : NamesEntry name)
      (short : name.utf8ByteSize ≤ nameLimit) (writable : Writable files (here ++ [name])) :
      Leads files budget here [name] (here ++ [name])

/-- Where names are found to lead they lead. -/
theorem leads_of_follow {budget : Nat} {here : Location} {names : List String}
    {location : Location} (found : files.follow budget here names = .ok location) :
    Leads files budget here names location := by
  -- Names get fewer until a link is met, whose target may bring many but uses up budget.
  induction budget using Nat.strongRecOn generalizing here names with
  | ind budget throughLinks =>
      induction names generalizing here with
      | nil =>
          rw [follow_nil] at found
          obtain rfl := Except.ok.inj found
          exact .done budget here
      | cons name rest inductionHypothesis =>
          rcases name_cases name with idle | rfl | isName
          · rw [follow_idle idle] at found
            exact .idle idle (inductionHypothesis found)
          · rw [follow_up] at found
            exact .up (inductionHypothesis found)
          rw [follow_cons] at found
          simp only [isName.1, isName.2, Bool.false_eq_true, if_false] at found
          split at found
          · simp at found
          next long =>
          have short := Nat.le_of_not_lt long
          split at found
          · next missing =>
              split at found
              · next last =>
                  subst last
                  obtain rfl := Except.ok.inj found
                  exact .arrive isName short (.inl missing)
              · simp at found
          · next contents isFile =>
              split at found
              · next last =>
                  subst last
                  obtain rfl := Except.ok.inj found
                  exact .arrive isName short (.inr ⟨contents, isFile⟩)
              · simp at found
          · next isDirectory => exact .enter isName short isDirectory (inductionHypothesis found)
          · next target isLink =>
              cases budget with
              | zero => simp at found
              | succ smaller =>
                  exact .jump isName short isLink
                    (throughLinks smaller (Nat.lt_succ_self smaller) found)

/-- The relation is what following names finds. -/
theorem leads_iff_follow (budget : Nat) (here : Location) (names : List String)
    (location : Location) :
    Leads files budget here names location ↔ files.follow budget here names = .ok location := by
  refine ⟨fun leads => ?_, leads_of_follow⟩
  induction leads with
  | done budget here => exact follow_nil here
  | idle idle _ inductionHypothesis => rw [follow_idle idle, inductionHypothesis]
  | up _ inductionHypothesis => rw [follow_up, inductionHypothesis]
  | enter names short isDirectory _ inductionHypothesis =>
      rw [follow_directory names short isDirectory, inductionHypothesis]
  | jump names short isLink _ inductionHypothesis =>
      rw [follow_cons]
      simp only [names.1, names.2, Bool.false_eq_true, if_false, if_neg (Nat.not_lt.2 short),
        isLink]
      exact inductionHypothesis
  | arrive names short writable =>
      rw [follow_cons]
      simp only [names.1, names.2, Bool.false_eq_true, if_false, if_neg (Nat.not_lt.2 short)]
      obtain missing | ⟨contents, isFile⟩ := writable
      · rw [missing]
        rfl
      · rw [isFile]
        rfl

/-! ## Writing a file -/

variable {place : Location} {contents : ByteArray}

/-- What is no file stands where it stood when a file is written. -/
theorem Writable.entry?_put (writable : Writable files place) {other : Location}
    {entry : FileEntry} (noFile : ∀ contents, entry ≠ .file contents)
    (stands : files.entry? other = some entry) :
    entry? (files.put place (.file contents)) other = some entry := by
  have apart : other ≠ place := by
    rintro rfl
    obtain missing | ⟨contents, isFile⟩ := writable
    · rw [missing] at stands
      simp at stands
    · exact noFile contents (Option.some.inj (stands.symm.trans isFile))
  rw [entry?_put_of_ne files apart, stands]

/-- Writable places stay writable when a file is written. -/
theorem Writable.put {other : Location} (writable : Writable files other) :
    Writable (files.put place (.file contents)) other := by
  have below : other ≠ [] := by
    rintro rfl
    simp [Writable] at writable
  unfold Writable
  rw [FileSystem.entry?_put, if_neg below]
  by_cases same : other = place
  · rw [if_pos same]
    exact .inr ⟨contents, rfl⟩
  · rw [if_neg same]
    exact writable

/-- Names lead where they led when a file is written. -/
theorem Leads.put (writable : Writable files place) {budget : Nat} {here : Location}
    {names : List String} {location : Location} (leads : Leads files budget here names location) :
    Leads (files.put place (.file contents)) budget here names location := by
  induction leads with
  | done budget here => exact .done budget here
  | idle idle _ inductionHypothesis => exact .idle idle inductionHypothesis
  | up _ inductionHypothesis => exact .up inductionHypothesis
  | enter names short isDirectory _ inductionHypothesis =>
      exact .enter names short (writable.entry?_put (by simp) isDirectory) inductionHypothesis
  | jump names short isLink _ inductionHypothesis =>
      exact .jump names short (writable.entry?_put (by simp) isLink) inductionHypothesis
  | arrive names short free => exact .arrive names short free.put

/-! ## Inside a tree -/

/-- Above a directory stands a directory. -/
theorem Closed.directory_dropLast (closed : Closed files) {here : Location}
    (inside : files.entry? here = some .directory) :
    files.entry? here.dropLast = some .directory := by
  rcases List.eq_nil_or_concat here with rfl | ⟨outer, name, rfl⟩
  · exact inside
  · rw [List.concat_eq_append] at inside ⊢
    rw [List.dropLast_concat]
    exact closed outer name (by simp [inside])

/-- A link is followed from a directory. -/
theorem directory_ite {here : Location} (inside : files.entry? here = some .directory)
    (target : String) :
    files.entry? (if Path.isRelative target then here else []) = some .directory := by
  split
  · exact inside
  · rfl

/-- A writable place in a directory. -/
def TakesFile (files : FileSystem) (location : Location) : Prop :=
  ∃ outer name, location = outer ++ [name] ∧ files.entry? outer = some .directory ∧
    Writable files location

/-- From a directory names lead to a directory or to a writable place in one. -/
theorem Leads.destination (closed : Closed files) {budget : Nat} {here : Location}
    {names : List String} {location : Location} (leads : Leads files budget here names location)
    (inside : files.entry? here = some .directory) :
    files.entry? location = some .directory ∨ TakesFile files location := by
  induction leads with
  | done => exact .inl inside
  | idle _ _ inductionHypothesis => exact inductionHypothesis inside
  | up _ inductionHypothesis => exact inductionHypothesis (closed.directory_dropLast inside)
  | enter _ _ isDirectory _ inductionHypothesis => exact inductionHypothesis isDirectory
  | jump _ _ _ _ inductionHypothesis => exact inductionHypothesis (directory_ite inside _)
  | arrive _ _ writable => exact .inr ⟨_, _, rfl, inside, writable⟩

/-- The names before a last one lead from a directory to a directory. -/
theorem Leads.outer (closed : Closed files) {budget : Nat} {here : Location}
    {before : List String} {name : String} {location : Location}
    (leads : Leads files budget here (before ++ [name]) location)
    (inside : files.entry? here = some .directory) :
    ∃ middle, Leads files budget here before middle ∧
      files.entry? middle = some .directory := by
  generalize whole : before ++ [name] = names at leads
  -- Either nothing stands before the last name, or the first rule is about a name before it.
  induction leads generalizing before with
  | done => simp at whole
  | idle idle _ inductionHypothesis =>
      rcases List.append_eq_cons_iff.1 whole with ⟨rfl, -⟩ | ⟨more, rfl, rfl⟩
      · exact ⟨_, .done _ _, inside⟩
      · obtain ⟨middle, leads, isDirectory⟩ := inductionHypothesis inside rfl
        exact ⟨middle, .idle idle leads, isDirectory⟩
  | up _ inductionHypothesis =>
      rcases List.append_eq_cons_iff.1 whole with ⟨rfl, -⟩ | ⟨more, rfl, rfl⟩
      · exact ⟨_, .done _ _, inside⟩
      · obtain ⟨middle, leads, isDirectory⟩ :=
          inductionHypothesis (closed.directory_dropLast inside) rfl
        exact ⟨middle, .up leads, isDirectory⟩
  | enter names short entered _ inductionHypothesis =>
      rcases List.append_eq_cons_iff.1 whole with ⟨rfl, -⟩ | ⟨more, rfl, rfl⟩
      · exact ⟨_, .done _ _, inside⟩
      · obtain ⟨middle, leads, isDirectory⟩ := inductionHypothesis entered rfl
        exact ⟨middle, .enter names short entered leads, isDirectory⟩
  | jump names short isLink _ inductionHypothesis =>
      rcases List.append_eq_cons_iff.1 whole with ⟨rfl, -⟩ | ⟨more, rfl, rfl⟩
      · exact ⟨_, .done _ _, inside⟩
      · obtain ⟨middle, leads, isDirectory⟩ :=
          inductionHypothesis (directory_ite inside _) (List.append_assoc ..)
        exact ⟨middle, .jump names short isLink leads, isDirectory⟩
  | arrive =>
      rcases List.append_eq_cons_iff.1 whole with ⟨rfl, -⟩ | ⟨more, -, last⟩
      · exact ⟨_, .done _ _, inside⟩
      · simp at last

end DocblockScan.FileSystem
