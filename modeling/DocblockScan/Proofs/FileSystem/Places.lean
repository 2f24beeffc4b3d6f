import DocblockScan.Proofs.FileSystem.Writing
import DocblockScan.Proofs.Path

/-!
# The places of a path

Where no link is met, the places that a path leads through are known from its text:
`placesTo`. Making the directories of such a path makes the missing ones of these places,
and nothing else changes, whether or not it succeeds: `onlyMakes_makeDirectories`.
-/

namespace DocblockScan.FileSystem

variable {files old new : FileSystem} {budget : Nat} {here location : Location}
variable {places : List Location}

/-! ## Ways without links -/

/-- The places that names lead through, one for each name of an entry. -/
def placesOnWay (here : Location) : List String → List Location
  | [] => []
  | name :: rest =>
      if Path.isIdle name then placesOnWay here rest
      else if name = ".." then placesOnWay here.dropLast rest
      else (here ++ [name]) :: placesOnWay (here ++ [name]) rest

/-- The place that names lead to. -/
def endOfWay (here : Location) : List String → Location
  | [] => here
  | name :: rest =>
      if Path.isIdle name then endOfWay here rest
      else if name = ".." then endOfWay here.dropLast rest
      else endOfWay (here ++ [name]) rest

theorem placesOnWay_append (here : Location) (before rest : List String) :
    placesOnWay here (before ++ rest) =
      placesOnWay here before ++ placesOnWay (endOfWay here before) rest := by
  induction before generalizing here with
  | nil => rfl
  | cons name others inductionHypothesis =>
      simp only [List.cons_append, placesOnWay, endOfWay]
      split
      · exact inductionHypothesis here
      split
      · exact inductionHypothesis here.dropLast
      · rw [inductionHypothesis, List.cons_append]

theorem endOfWay_append (here : Location) (before rest : List String) :
    endOfWay here (before ++ rest) = endOfWay (endOfWay here before) rest := by
  induction before generalizing here with
  | nil => rfl
  | cons name others inductionHypothesis =>
      simp only [List.cons_append, endOfWay]
      split
      · exact inductionHypothesis here
      split
      · exact inductionHypothesis here.dropLast
      · exact inductionHypothesis (here ++ [name])

/-- The name of an entry leads to a place in the directory before it. -/
theorem endOfWay_name {name : String} (names : NamesEntry name) (here : Location) :
    endOfWay here [name] = here ++ [name] := by
  simp [endOfWay, names.1, names.2]

theorem placesOnWay_name {name : String} (names : NamesEntry name) (here : Location)
    (rest : List String) :
    placesOnWay here (name :: rest) = (here ++ [name]) :: placesOnWay (here ++ [name]) rest := by
  simp [placesOnWay, names.1, names.2]

/-- No link stands at any of some places. -/
def NoLinksAt (files : FileSystem) (places : List Location) : Prop :=
  ∀ place ∈ places, ∀ target, files.entry? place ≠ some (.link target)

/-- Where no link is met, names lead to the end of their way. -/
theorem eq_endOfWay {names : List String} (noLinks : NoLinksAt files (placesOnWay here names))
    (found : files.follow budget here names = .ok location) : location = endOfWay here names := by
  induction names generalizing here with
  | nil =>
      rw [follow_nil] at found
      exact (Except.ok.inj found).symm
  | cons name rest inductionHypothesis =>
      rcases name_cases name with idle | rfl | isName
      · rw [follow_idle idle] at found
        simp only [placesOnWay, endOfWay, idle, if_true] at noLinks ⊢
        exact inductionHypothesis noLinks found
      · rw [follow_up] at found
        exact inductionHypothesis noLinks found
      · rw [placesOnWay_name isName] at noLinks
        have notLink := noLinks _ List.mem_cons_self
        have others := inductionHypothesis fun place member => noLinks place (.tail _ member)
        have whole : endOfWay here (name :: rest) = endOfWay (here ++ [name]) rest := by
          simp [endOfWay, isName.1, isName.2]
        rw [follow_cons] at found
        simp only [isName.1, isName.2, Bool.false_eq_true, if_false] at found
        rw [whole]
        split at found
        · simp at found
        split at found
        · split at found
          · next last => rw [last, endOfWay, Except.ok.inj found]
          · simp at found
        · split at found
          · next last => rw [last, endOfWay, Except.ok.inj found]
          · simp at found
        · exact others found
        · next target isLink => exact absurd isLink (notLink target)

/-- Where no link is met, names before others lead through directories. -/
theorem directory_of_follow {before : List String} {name : String}
    (noLinks : NoLinksAt files (placesOnWay here before))
    (found : files.follow budget here (before ++ [name]) = .ok location) :
    ∀ place ∈ placesOnWay here before, files.entry? place = some .directory := by
  induction before generalizing here with
  | nil => exact fun _ => nofun
  | cons first rest inductionHypothesis =>
      rw [List.cons_append] at found
      rcases name_cases first with idle | rfl | isName
      · rw [follow_idle idle] at found
        simp only [placesOnWay, idle, if_true] at noLinks ⊢
        exact inductionHypothesis noLinks found
      · rw [follow_up] at found
        exact inductionHypothesis noLinks found
      · rw [placesOnWay_name isName] at noLinks ⊢
        have notLink := noLinks _ List.mem_cons_self
        have others := inductionHypothesis fun place member => noLinks place (.tail _ member)
        rw [follow_cons] at found
        simp only [isName.1, isName.2, Bool.false_eq_true, if_false] at found
        split at found
        · simp at found
        split at found
        · simp at found
        · simp at found
        · next isDirectory =>
            intro place member
            rcases List.mem_cons.1 member with rfl | member
            · exact isDirectory
            · exact others found place member
        · next target isLink => exact absurd isLink (notLink target)

/-! ## The places of a path -/

/-- The places that a path leads through, up to the one it leads to. -/
def placesTo (files : FileSystem) (path : String) : List Location :=
  placesOnWay (files.startOf path) (Path.pieces path)

/-- The place that a path leads to. -/
def placeOf (files : FileSystem) (path : String) : Location :=
  endOfWay (files.startOf path) (Path.pieces path)

/-- A path that meets no link leads to the place that its text spells. -/
theorem locate_eq_placeOf {path : String} (noLinks : NoLinksAt files (files.placesTo path))
    (leads : files.locate path = .ok location) : location = files.placeOf path :=
  eq_endOfWay noLinks ((locate_eq_ok_iff _ _ _).1 leads).2

/-- A path leads through the places of each of its ancestors. -/
theorem placesTo_ancestors {path outer : String} (member : outer ∈ Path.ancestors path)
    (notEmpty : outer ≠ "") : files.placesTo outer ⊆ files.placesTo path := by
  obtain ⟨relative, kept, idles, dropped, idle, spelled, whole⟩ :=
    Path.exists_of_mem_ancestors member notEmpty
  have passed : ∀ here, placesOnWay here idles = [] := by
    intro here
    clear spelled
    induction idles with
    | nil => rfl
    | cons first rest inductionHypothesis =>
        simp only [placesOnWay, idle first List.mem_cons_self, if_true]
        exact inductionHypothesis fun piece isPiece => idle piece (.tail _ isPiece)
  rw [placesTo, placesTo, startOf, startOf, relative, spelled, whole, placesOnWay_append,
    placesOnWay_append, passed, List.append_nil]
  exact List.subset_append_left _ _

/-! ## Making directories -/

/-- All that is new or different is that some of the missing ones of given places are
directories. -/
structure OnlyMakes (places : List Location) (old new : FileSystem) : Prop where
  workingDirectory : new.workingDirectory = old.workingDirectory
  kept : ∀ location entry, old.entry? location = some entry → new.entry? location = some entry
  made : ∀ location, old.entry? location = none →
    new.entry? location = none ∨ (location ∈ places ∧ new.entry? location = some .directory)

namespace OnlyMakes

theorem refl (places : List Location) (files : FileSystem) : OnlyMakes places files files :=
  ⟨rfl, fun _ _ stands => stands, fun _ missing => .inl missing⟩

/-- A missing one of the places is made a directory. -/
theorem put_directory (makes : OnlyMakes places old new) {place : Location}
    (member : place ∈ places) (missing : new.entry? place = none) :
    OnlyMakes places old (new.put place .directory) where
  workingDirectory := makes.workingDirectory
  kept location entry stands := by
    have standsNew := makes.kept location entry stands
    have apart : location ≠ place := by
      rintro rfl
      simp [missing] at standsNew
    rw [entry?_put_of_ne new apart, standsNew]
  made location missingOld := by
    rw [entry?_put, if_neg (ne_nil_of_missing missingOld)]
    split
    · next same => exact .inr ⟨same ▸ member, rfl⟩
    · exact makes.made location missingOld

/-- Places without links stay without links. -/
theorem noLinksAt (makes : OnlyMakes places old new) {others : List Location}
    (noLinks : NoLinksAt old others) : NoLinksAt new others := by
  intro place member target isLink
  cases stands : old.entry? place with
  | some entry =>
      obtain rfl := Option.some.inj ((makes.kept place entry stands).symm.trans isLink)
      exact noLinks place member target stands
  | none =>
      rcases makes.made place stands with missing | ⟨-, isDirectory⟩
      · simp [missing] at isLink
      · simp [isDirectory] at isLink

theorem startOf (makes : OnlyMakes places old new) (path : String) :
    new.startOf path = old.startOf path := by
  simp [FileSystem.startOf, makes.workingDirectory]

theorem placesTo (makes : OnlyMakes places old new) (path : String) :
    new.placesTo path = old.placesTo path := by
  rw [FileSystem.placesTo, FileSystem.placesTo, makes.startOf]

theorem placeOf (makes : OnlyMakes places old new) (path : String) :
    new.placeOf path = old.placeOf path := by
  rw [FileSystem.placeOf, FileSystem.placeOf, makes.startOf]

end OnlyMakes

/-- A directory is made at one of the places that its path leads through. -/
theorem MakesAt.mem_placesTo {path : String} {outer : Location} {name : String}
    (makes : MakesAt files path outer name) (noLinks : NoLinksAt files (files.placesTo path)) :
    outer ++ [name] ∈ files.placesTo path := by
  obtain ⟨before, empties, empty, pieces, followed⟩ := makes.pieces
  rw [placesTo, pieces, placesOnWay_append] at noLinks ⊢
  have first := eq_endOfWay (fun place member => noLinks place (List.mem_append_left _ member))
    followed
  rw [placesOnWay_name makes.names, ← first]
  exact List.mem_append_right _ List.mem_cons_self

/-- Making the directories of a path that meets no link makes missing ones of its places,
whether or not it succeeds. -/
theorem onlyMakes_makeDirectories {path : String} (noLinks : NoLinksAt files (files.placesTo path)) :
    OnlyMakes (files.placesTo path) files (files.makeDirectories path).1 := by
  refine makeNested_induction _ (fun {now made outer} member makes succeeds => ?_) (.refl _ _)
  obtain ⟨inside, name, makesAt, rfl⟩ := exists_makesAt succeeds
  have within : now.placesTo outer ⊆ files.placesTo path := by
    rw [makes.placesTo]
    rcases List.mem_cons.1 member with rfl | isAncestor
    · exact List.Subset.refl _
    · exact placesTo_ancestors isAncestor makesAt.isPath.notEmpty
  have clear : NoLinksAt now (now.placesTo outer) := fun place isPlace =>
    makes.noLinksAt noLinks place (within isPlace)
  exact makes.put_directory (within (makesAt.mem_placesTo clear)) makesAt.missing

end DocblockScan.FileSystem
