import DocblockScan.Proofs.FileSystem.ByteOrder
import Mathlib.Data.List.Nodup

/-!
# Walks, entry by entry

`Walks` says as a relation what a walk through a directory lists: its entries are visited
in the byte order of their names, a regular file is listed when it is visited, a directory
is walked when it is visited, and a link is passed over. In a file system in which everything
stands in a directory this is the sorted list of all files below the directory: `walks_iff`.
So a walk depends on what stands where, and not on the order in which it came there.
-/

namespace DocblockScan.FileSystem

/-! ## Walks as a relation -/

/-- The names of all entries in a place, in the order of their bytes. -/
structure Enumerates (files : FileSystem) (place : Location) (names : List String) : Prop where
  complete : ∀ name, name ∈ names ↔ files.entry? (place ++ [name]) ≠ none
  sorted : names.Pairwise fun left right => nameBytes left < nameBytes right

mutual

/-- A walk through a place visits all entries in it, in the byte order of their names. -/
inductive Walks (files : FileSystem) : Location → List Location → Prop where
  | entries {place : Location} {names : List String} {ways : List Location}
      (enumerates : Enumerates files place names) (visits : Visits files place names ways) :
      Walks files place ways

/-- The ways from a place that visiting some of its entries lists. -/
inductive Visits (files : FileSystem) : Location → List String → List Location → Prop where
  | nil {place : Location} : Visits files place [] []
  | file {place : Location} {name : String} {contents : ByteArray} {names : List String}
      {ways : List Location} (isFile : files.entry? (place ++ [name]) = some (.file contents))
      (rest : Visits files place names ways) :
      Visits files place (name :: names) ([name] :: ways)
  | directory {place : Location} {name : String} {names : List String}
      {inner ways : List Location} (isDirectory : files.entry? (place ++ [name]) = some .directory)
      (walks : Walks files (place ++ [name]) inner) (rest : Visits files place names ways) :
      Visits files place (name :: names) (inner.map (name :: ·) ++ ways)
  | link {place : Location} {name target : String} {names : List String} {ways : List Location}
      (isLink : files.entry? (place ++ [name]) = some (.link target))
      (rest : Visits files place names ways) : Visits files place (name :: names) ways

end

variable {files other : FileSystem} {place : Location} {names : List String}

/-! ## The files below a place -/

theorem wayBelow?_eq_some_iff (place : Location) (listed : Location × FileEntry) (way : Location) :
    wayBelow? place listed = some way ↔
      way ≠ [] ∧ ∃ contents, listed = (place ++ way, .file contents) := by
  obtain ⟨location, stands⟩ := listed
  cases stands with
  | file contents =>
      simp only [wayBelow?, Option.ite_none_right_eq_some, Bool.and_eq_true, decide_eq_true_eq,
        List.isPrefixOf_iff_prefix, Option.some.injEq, Prod.mk.injEq, FileEntry.file.injEq]
      constructor
      · rintro ⟨⟨⟨rest, rfl⟩, longer⟩, rfl⟩
        rw [List.drop_left]
        exact ⟨fun empty => by simp [empty] at longer, contents, rfl, rfl⟩
      · rintro ⟨below, _, rfl, -⟩
        have longer := List.length_pos_iff.2 below
        exact ⟨⟨List.prefix_append _ _, by rw [List.length_append]; omega⟩, List.drop_left⟩
  | directory => simp [wayBelow?]
  | link target => simp [wayBelow?]

/-- The files below a place are at the ends of the ways from there. -/
theorem mem_filesBelow (files : FileSystem) (place way : Location) :
    way ∈ files.filesBelow place ↔
      way ≠ [] ∧ ∃ contents, files.entry? (place ++ way) = some (.file contents) := by
  unfold filesBelow
  simp only [List.mem_mergeSort, List.mem_filterMap, wayBelow?_eq_some_iff]
  constructor
  · rintro ⟨listed, member, below, contents, rfl⟩
    refine ⟨below, contents, ?_⟩
    rwa [entry?_of_ne_nil files (by simp [below]), OrderedMap.get?_eq_some_iff]
  · rintro ⟨below, contents, stands⟩
    rw [entry?_of_ne_nil files (by simp [below]), OrderedMap.get?_eq_some_iff] at stands
    exact ⟨_, stands, below, contents, rfl⟩

/-- Ways in walking order, none of them more than once. -/
abbrev InWalkingOrder (ways : List Location) : Prop :=
  ways.Pairwise fun left right => walksBefore left right = true ∧ left ≠ right

theorem inWalkingOrder_filesBelow (files : FileSystem) (place : Location) :
    InWalkingOrder (files.filesBelow place) :=
  (pairwise_mergeSort_walksBefore _).and (nodup_filesBelow files place)

/-- The files below a place are the only list of them in walking order. -/
theorem filesBelow_eq {ways : List Location} (ordered : InWalkingOrder ways)
    (members : ∀ way, way ∈ ways ↔ way ∈ files.filesBelow place) :
    files.filesBelow place = ways := by
  refine List.Perm.eq_of_pairwise (fun _ _ _ _ => walksBefore_antisymm)
    (pairwise_mergeSort_walksBefore _) (ordered.imp And.left) ?_
  rw [List.perm_ext_iff_of_nodup (nodup_filesBelow _ _) (ordered.imp And.right)]
  exact fun way => (members way).symm

/-! ## The entries in a place -/

/-- The name of an entry that stands in a place. -/
def nameIn? (place location : Location) : Option String :=
  if location.dropLast = place then location.getLast? else none

theorem nameIn?_eq_some_iff (place location : Location) (name : String) :
    nameIn? place location = some name ↔ location = place ++ [name] := by
  rw [nameIn?, Option.ite_none_right_eq_some, List.getLast?_eq_some_iff]
  constructor
  · rintro ⟨rfl, outer, rfl⟩
    rw [List.dropLast_concat]
  · rintro rfl
    exact ⟨List.dropLast_concat, place, rfl⟩

/-- The names of all entries in a place can be sorted by their bytes. -/
theorem exists_enumerates (files : FileSystem) (place : Location) :
    ∃ names, Enumerates files place names := by
  let inOrder := fun left right : String => sortsBefore left.toList right.toList
  refine ⟨(files.entries.keys.filterMap (nameIn? place)).mergeSort inOrder, fun name => ?_, ?_⟩
  · rw [List.mem_mergeSort, List.mem_filterMap, entry?_of_ne_nil files (by simp)]
    simp only [nameIn?_eq_some_iff, exists_eq_right, ne_eq, ← Option.isSome_iff_ne_none]
    exact (OrderedMap.contains_iff _ _).symm
  · have sorted : ((files.entries.keys.filterMap (nameIn? place)).mergeSort inOrder).Pairwise
        fun left right => inOrder left right = true := by
      apply List.pairwise_mergeSort
      · exact fun _ _ _ => sortsBefore_trans
      · exact fun _ _ => sortsBefore_total _ _
    have distinct : ((files.entries.keys.filterMap (nameIn? place)).mergeSort inOrder).Nodup := by
      rw [(List.mergeSort_perm _ _).nodup_iff]
      refine List.Nodup.filterMap (fun left right name isName isRight => ?_) files.entries.distinct
      rw [Option.mem_def, nameIn?_eq_some_iff] at isName isRight
      rw [isName, isRight]
    exact (sorted.and distinct).imp fun both => (sortsBefore_iff_nameBytes both.2).1 both.1

/-! ## Visits -/

/-- A file below a place is an entry in it or below a directory in it. -/
theorem cons_mem_filesBelow (closed : Closed files) (place : Location) (name : String)
    (rest : Location) :
    name :: rest ∈ files.filesBelow place ↔
      (rest = [] ∧ ∃ contents, files.entry? (place ++ [name]) = some (.file contents)) ∨
        (files.entry? (place ++ [name]) = some .directory ∧
          rest ∈ files.filesBelow (place ++ [name])) := by
  rw [mem_filesBelow, mem_filesBelow, List.append_assoc, List.singleton_append]
  constructor
  · rintro ⟨-, contents, stands⟩
    by_cases last : rest = []
    · subst last
      exact .inl ⟨rfl, contents, stands⟩
    · have above : place ++ [name] <+: place ++ name :: rest := ⟨rest, by simp⟩
      have isDirectory := closed.directory_of_prefix above (by simpa using last) (by simp [stands])
      exact .inr ⟨isDirectory, last, contents, stands⟩
  · rintro (⟨rfl, contents, stands⟩ | ⟨-, -, stands⟩)
    · exact ⟨by simp, contents, stands⟩
    · exact ⟨by simp, stands⟩

/-- The ways from a place to the files at the entry with a name, and below it. -/
def waysThrough (files : FileSystem) (place : Location) (name : String) : List Location :=
  match files.entry? (place ++ [name]) with
  | some (.file _) => [[name]]
  | some .directory => (files.filesBelow (place ++ [name])).map (name :: ·)
  | _ => []

theorem mem_waysThrough (closed : Closed files) (place way : Location) (name : String) :
    way ∈ files.waysThrough place name ↔ way.head? = some name ∧ way ∈ files.filesBelow place := by
  have starts : way.head? = some name ↔ ∃ rest, way = name :: rest := by
    cases way <;> simp [eq_comm]
  rw [starts]
  unfold waysThrough
  constructor
  · intro member
    split at member
    · next contents isFile =>
        obtain rfl := List.mem_singleton.1 member
        exact ⟨⟨[], rfl⟩, (cons_mem_filesBelow closed _ _ _).2 (.inl ⟨rfl, contents, isFile⟩)⟩
    · next isDirectory =>
        obtain ⟨rest, inner, rfl⟩ := List.mem_map.1 member
        exact ⟨⟨rest, rfl⟩, (cons_mem_filesBelow closed _ _ _).2 (.inr ⟨isDirectory, inner⟩)⟩
    · simp at member
  · rintro ⟨⟨rest, rfl⟩, member⟩
    rcases (cons_mem_filesBelow closed _ _ _).1 member with
      ⟨rfl, contents, isFile⟩ | ⟨isDirectory, inner⟩
    · simp [isFile]
    · simpa [isDirectory] using inner

/-- The ways through entries are in walking order if the entries are. -/
theorem inWalkingOrder_flatMap (closed : Closed files)
    (sorted : names.Pairwise fun left right => nameBytes left < nameBytes right) :
    InWalkingOrder (names.flatMap (files.waysThrough place)) := by
  refine List.pairwise_flatMap.2 ⟨fun name _ => ?_, sorted.imp fun {left right} less => ?_⟩
  · unfold waysThrough
    split
    · exact List.pairwise_singleton _ _
    · refine List.pairwise_map.2 ((inWalkingOrder_filesBelow files _).imp fun inOrder => ?_)
      simpa [walksBefore] using inOrder
    · exact .nil
  · intro way through otherWay throughOther
    obtain ⟨rest, rfl⟩ := List.head?_eq_some_iff.1 ((mem_waysThrough closed _ _ _).1 through).1
    obtain ⟨others, rfl⟩ := List.head?_eq_some_iff.1 ((mem_waysThrough closed _ _ _).1 throughOther).1
    have different : left ≠ right := by
      rintro rfl
      exact List.lt_irrefl _ less
    have before := (sortsBefore_iff_nameBytes different).2 less
    exact ⟨by simpa [walksBefore, different] using before, by simp [different]⟩

/-- The files below a place are those through its entries, one after the other. -/
theorem Enumerates.filesBelow_eq_flatMap (closed : Closed files)
    (enumerates : Enumerates files place names) :
    files.filesBelow place = names.flatMap (files.waysThrough place) := by
  refine filesBelow_eq (inWalkingOrder_flatMap closed enumerates.sorted) fun way => ?_
  simp only [List.mem_flatMap, mem_waysThrough closed]
  refine ⟨fun ⟨_, _, _, below⟩ => below, fun below => ?_⟩
  cases way with
  | nil => simp [mem_filesBelow] at below
  | cons name rest =>
      refine ⟨name, (enumerates.complete name).2 ?_, rfl, below⟩
      rcases (cons_mem_filesBelow closed _ _ _).1 below with ⟨-, _, isFile⟩ | ⟨isDirectory, -⟩
      · simp [isFile]
      · simp [isDirectory]

mutual

/-- A walk lists the files below a place, and nothing else. -/
theorem Walks.eq_filesBelow (closed : Closed files) {place : Location} {ways : List Location} :
    Walks files place ways → ways = files.filesBelow place
  | .entries enumerates visits => by
      rw [visits.eq_flatMap closed, enumerates.filesBelow_eq_flatMap closed]

/-- Visiting entries lists the files through them. -/
theorem Visits.eq_flatMap (closed : Closed files) {place : Location} {names : List String}
    {ways : List Location} :
    Visits files place names ways → ways = names.flatMap (files.waysThrough place)
  | .nil => rfl
  | .file isFile rest => by simp [rest.eq_flatMap closed, waysThrough, isFile]
  | .directory isDirectory walks rest => by
      simp [walks.eq_filesBelow closed, rest.eq_flatMap closed, waysThrough, isDirectory]
  | .link isLink rest => by simp [rest.eq_flatMap closed, waysThrough, isLink]

end

/-- No entry is deeper than some depth. -/
theorem exists_depth (files : FileSystem) :
    ∃ depth, ∀ location, files.entry? location ≠ none → location.length ≤ depth := by
  refine ⟨files.entries.keys.flatten.length, fun location stands => ?_⟩
  by_cases root : location = []
  · simp [root]
  · rw [entry?_of_ne_nil files root, ← Option.isSome_iff_ne_none] at stands
    exact (List.sublist_flatten_of_mem ((OrderedMap.contains_iff _ _).1 stands)).length_le

/-- If the directories among some entries can be walked, the entries can be visited. -/
theorem visits_flatMap (stand : ∀ name ∈ names, files.entry? (place ++ [name]) ≠ none)
    (walks : ∀ name ∈ names, files.entry? (place ++ [name]) = some .directory →
      Walks files (place ++ [name]) (files.filesBelow (place ++ [name]))) :
    Visits files place names (names.flatMap (files.waysThrough place)) := by
  induction names with
  | nil => exact .nil
  | cons name others inductionHypothesis =>
      have rest := inductionHypothesis (fun other member => stand other (.tail _ member))
        fun other member => walks other (.tail _ member)
      rw [List.flatMap_cons, waysThrough]
      cases stands : files.entry? (place ++ [name]) with
      | none => exact absurd stands (stand name List.mem_cons_self)
      | some entry =>
          cases entry with
          | file contents => exact .file stands rest
          | directory => exact .directory stands (walks name List.mem_cons_self stands) rest
          | link target => exact .link stands rest

/-- The files below a place are listed by a walk. -/
theorem walks_filesBelow (closed : Closed files) (place : Location) :
    Walks files place (files.filesBelow place) := by
  obtain ⟨depth, bounded⟩ := exists_depth files
  -- Every directory that is walked is one level nearer to the greatest depth.
  induction levels : depth - place.length using Nat.strongRecOn generalizing place with
  | _ _ inductionHypothesis =>
      obtain ⟨names, enumerates⟩ := exists_enumerates files place
      have walks : ∀ name ∈ names, files.entry? (place ++ [name]) = some .directory →
          Walks files (place ++ [name]) (files.filesBelow (place ++ [name])) := by
        intro name _ isDirectory
        have deeper := bounded (place ++ [name]) (by simp [isDirectory])
        rw [List.length_append, List.length_singleton] at deeper
        refine inductionHypothesis _ ?_ (place ++ [name]) rfl
        rw [← levels, List.length_append, List.length_singleton]
        omega
      rw [enumerates.filesBelow_eq_flatMap closed]
      exact .entries enumerates (visits_flatMap (fun name => (enumerates.complete name).1) walks)

/-- A walk through a place is determined by the file system. -/
theorem walks_iff (closed : Closed files) (ways : List Location) :
    Walks files place ways ↔ ways = files.filesBelow place :=
  ⟨Walks.eq_filesBelow closed, fun same => same ▸ walks_filesBelow closed place⟩

/-! ## File systems that hold the same -/

/-- The same stands everywhere, and relative paths start at the same place. Entries may have
been made in different orders. -/
structure HoldsSame (files other : FileSystem) : Prop where
  start : files.workingDirectory = other.workingDirectory
  entry? : ∀ location, files.entry? location = other.entry? location

/-- File systems hold the same if they list the same entries, in whatever order. -/
theorem holdsSame_of_perm (start : files.workingDirectory = other.workingDirectory)
    (perm : files.entries.entries.Perm other.entries.entries) : HoldsSame files other := by
  refine ⟨start, fun location => ?_⟩
  by_cases root : location = []
  · simp [root]
  · rw [entry?_of_ne_nil files root, entry?_of_ne_nil other root]
    refine Option.ext fun entry => ?_
    rw [OrderedMap.get?_eq_some_iff, OrderedMap.get?_eq_some_iff, perm.mem_iff]

namespace HoldsSame

theorem follow (same : HoldsSame files other) (budget : Nat) (here : Location)
    (pieces : List String) : files.follow budget here pieces = other.follow budget here pieces := by
  induction budget generalizing here pieces with
  | zero =>
      induction pieces generalizing here with
      | nil => rw [follow_nil, follow_nil]
      | cons name rest onward =>
          rw [follow_cons, follow_cons, same.entry?]
          simp only [onward]
  | succ smaller throughLinks =>
      induction pieces generalizing here with
      | nil => rw [follow_nil, follow_nil]
      | cons name rest onward =>
          rw [follow_cons, follow_cons, same.entry?]
          simp only [onward, throughLinks]

theorem locate (same : HoldsSame files other) (path : String) :
    files.locate path = other.locate path := by
  unfold FileSystem.locate startOf
  rw [same.start]
  simp only [same.follow]

theorem isDirectory (same : HoldsSame files other) (path : String) :
    files.isDirectory path = other.isDirectory path := by
  unfold FileSystem.isDirectory find
  rw [same.locate]
  simp only [same.entry?]

/-- The files below a place are the same. -/
theorem filesBelow (same : HoldsSame files other) (place : Location) :
    files.filesBelow place = other.filesBelow place := by
  refine filesBelow_eq (inWalkingOrder_filesBelow other place) fun way => ?_
  rw [mem_filesBelow, mem_filesBelow, same.entry?]

theorem walk (same : HoldsSame files other) (path : String) :
    files.walk path = other.walk path := by
  unfold FileSystem.walk
  rw [same.locate]
  simp only [same.filesBelow]

end HoldsSame

end DocblockScan.FileSystem
