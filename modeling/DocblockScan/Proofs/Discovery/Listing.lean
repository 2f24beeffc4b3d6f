import DocblockScan.Proofs.ClassLookup
import DocblockScan.Proofs.FileSystem.Listing

/-!
# The classes of namespaces

The classes of a namespace are those of the source files that a walk through its directory
lists, one class for each of them, in the order of the walk. A list of namespaces has the
classes of all of them one after the other, and it has none if one of their directories is
missing: `namespaces_listed`.
-/

namespace DocblockScan

open FileSystem Namespace DocblockScan.Path
open Outcome (First)

/-! ## Classes of source files -/

/-- The classes of the files that some ways lead to: one for each file with the extension, and
none for any other file. -/
inductive ListsClasses (extension name : String) : List Location → List String → Prop where
  | nil : ListsClasses extension name [] []
  | source {directories : List String} {fileName before : String} {others : List Location}
      {classes : List String} (extended : IsExtended fileName before extension)
      (rest : ListsClasses extension name others classes) :
      ListsClasses extension name ((directories ++ [fileName]) :: others)
        (Namespace.join (name :: directories ++ [before]) :: classes)
  | other {directories : List String} {fileName : String} {others : List Location}
      {classes : List String} (bare : ∀ before, ¬ IsExtended fileName before extension)
      (rest : ListsClasses extension name others classes) :
      ListsClasses extension name ((directories ++ [fileName]) :: others) classes

variable {files : FileSystem} {ways : List Location}

/-- The classes of ways are listed in the order of the ways. -/
theorem Discovery.listsClasses (discovery : Discovery) (name : String)
    (below : ∀ way ∈ ways, way ≠ []) :
    ListsClasses discovery.extension name ways
      (ways.filterMap (discovery.classOfWay? (trim name))) := by
  induction ways with
  | nil => exact .nil
  | cons way others inductionHypothesis =>
      have rest := inductionHypothesis fun other member => below other (.tail _ member)
      cases found : discovery.classOfWay? (trim name) way with
      | some className =>
          obtain ⟨directories, fileName, before, rfl, extended, rfl⟩ :=
            (discovery.classOfWay?_eq_some_iff _ _ _).1 found
          rw [List.filterMap_cons_some found, join_trim]
          exact .source extended rest
      | none =>
          rw [List.filterMap_cons_none found]
          rcases List.eq_nil_or_concat way with rfl | ⟨directories, fileName, rfl⟩
          · exact absurd rfl (below [] List.mem_cons_self)
          rw [List.concat_eq_append] at found ⊢
          refine .other (fun before extended => ?_) rest
          have named := (discovery.classOfWay?_eq_some_iff (trim name) _ _).2
            ⟨directories, fileName, before, rfl, extended, rfl⟩
          simp [found] at named

/-! ## The classes of a namespace -/

namespace Discovery

/-- The directory of a namespace is that of the trimmed namespace. -/
theorem directoryOf_trim (discovery : Discovery) (name : String) :
    discovery.directoryOf (trim name) = discovery.directoryOf name := by
  simp [directoryOf, directory, toPath, trim_trim]

/-- What a namespace with a directory has: the classes of all source files below it. -/
structure Lists (discovery : Discovery) (files : FileSystem) (name : String) (place : Location)
    (ways : List Location) (classes : List String) : Prop where
  leads : files.locate (discovery.directoryOf name) = .ok place
  inside : files.entry? place = some .directory
  walks : Walks files place ways
  /-- Every regular file below the directory is met on the walk, and nothing else is. -/
  complete : ∀ way, way ∈ ways ↔
    way ≠ [] ∧ ∃ contents, files.entry? (place ++ way) = some (.file contents)
  once : ways.Nodup
  lists : ListsClasses discovery.extension name ways classes
  /-- Different files have different classes if their names are plain. -/
  distinct : (∀ way ∈ ways, IsPlainWay way) → classes.Nodup

/-- A namespace with a directory has the classes of the files below it. -/
theorem exists_lists (discovery : Discovery) (closed : Closed files) (name : String)
    (isDirectory : files.isDirectory (discovery.directoryOf name) = true) :
    ∃ place ways classes, discovery.Lists files name place ways classes ∧
      discovery.classesIn files name = .ok classes := by
  obtain ⟨place, leads, inside⟩ := (isDirectory_iff _ _).1 isDirectory
  have below : ∀ way ∈ files.filesBelow place, way ≠ [] :=
    fun way member => ((mem_filesBelow files place way).1 member).1
  have once := nodup_filesBelow files place
  have distinct : (∀ way ∈ files.filesBelow place, IsPlainWay way) →
      ((files.filesBelow place).filterMap (discovery.classOfWay? (trim name))).Nodup := by
    intro plain
    refine List.pairwise_filterMap.2 (once.imp_of_mem ?_)
    rintro way other member isOther differ className found sameName foundOther rfl
    exact differ (way_unique (plain way member) (plain other isOther) found foundOther)
  refine ⟨place, files.filesBelow place, _, ⟨leads, inside, (walks_iff closed _).2 rfl,
    mem_filesBelow files place, once, discovery.listsClasses name below, distinct⟩, ?_⟩
  have walk : files.walk (discovery.directoryOf name) = .ok (files.filesBelow place) := by
    rw [walk, leads]
    rfl
  rw [classesIn, directoryOf_trim, if_pos isDirectory, walk]

/-- A namespace has no classes exactly if its directory is missing. -/
theorem classesIn_eq_error_iff (discovery : Discovery) (files : FileSystem) (name : String)
    (cause : ScanError) :
    discovery.classesIn files name = .error cause ↔
      files.isDirectory (discovery.directoryOf name) = false ∧
        cause = .file (discovery.directoryOf name) (.noNamespaceDirectory (trim name)) := by
  rw [classesIn, directoryOf_trim]
  cases isDirectory : files.isDirectory (discovery.directoryOf name) with
  | false => simp [eq_comm]
  | true =>
      obtain ⟨place, leads, -⟩ := (isDirectory_iff _ _).1 isDirectory
      simp [walk, leads, bind, Except.bind, pure, Except.pure]

/-- File systems that hold the same have the same classes. -/
theorem classesIn_congr {other : FileSystem} (same : HoldsSame files other) (discovery : Discovery)
    (name : String) : discovery.classesIn files name = discovery.classesIn other name := by
  simp only [classesIn, same.isDirectory, same.walk]

/-! ## Lists of namespaces -/

/-- The filters are applied to what all namespaces have together. -/
theorem expand_eq_map (discovery : Discovery) (files : FileSystem) (scan : NamespaceScan) :
    discovery.expand files scan =
      (fun found => filterClasses scan.only scan.except found.flatten) <$>
        scan.namespaces.mapM (discovery.classesIn files) :=
  bind_pure_comp _ _

/-- Namespaces are listed one after the other, if all of them can be listed. -/
theorem expand_eq_ok_iff (discovery : Discovery) (files : FileSystem) (scan : NamespaceScan)
    (kept : List String) :
    discovery.expand files scan = .ok kept ↔
      ∃ found, List.Forall₂ (fun name classes => discovery.classesIn files name = .ok classes)
        scan.namespaces found ∧ kept = filterClasses scan.only scan.except found.flatten := by
  rw [expand_eq_map, Outcome.map_eq_ok_iff]
  exact exists_congr fun found => and_congr (Outcome.mapM_eq_ok_iff _ _ _) eq_comm

/-- A list of namespaces fails as the first of them whose directory is missing. -/
theorem expand_eq_error_iff (discovery : Discovery) (files : FileSystem) (scan : NamespaceScan)
    (cause : ScanError) :
    discovery.expand files scan = .error cause ↔
      First (fun name cause => files.isDirectory (discovery.directoryOf name) = false ∧
        cause = .file (discovery.directoryOf name) (.noNamespaceDirectory (trim name)))
        scan.namespaces cause := by
  rw [expand_eq_map, Outcome.map_eq_error_iff, Outcome.mapM_eq_error_iff_first]
  simp only [classesIn_eq_error_iff]

end Discovery

/-- In a file system in which everything stands in a directory, a namespace with a directory
has one class for each source file that a walk through the directory meets, in the order of
the walk. File systems that hold the same have the same classes, in whatever order they were
filled. A list of namespaces has the classes of all of them in order, or it fails as the first
of them whose directory is missing. -/
theorem namespaces_listed (discovery : Discovery) {files : FileSystem} (closed : Closed files) :
    (∀ name, files.isDirectory (discovery.directoryOf name) = true →
      ∃ place ways classes, discovery.Lists files name place ways classes ∧
        discovery.classesIn files name = .ok classes) ∧
    (∀ other, HoldsSame files other → ∀ name,
      discovery.classesIn other name = discovery.classesIn files name) ∧
    ∀ scan : NamespaceScan,
      (∀ kept, discovery.expand files scan = .ok kept ↔
        ∃ found, List.Forall₂ (fun name classes => discovery.classesIn files name = .ok classes)
          scan.namespaces found ∧ kept = filterClasses scan.only scan.except found.flatten) ∧
      ((∃ cause, discovery.expand files scan = .error cause) ↔
        ∃ name ∈ scan.namespaces, files.isDirectory (discovery.directoryOf name) = false) ∧
      ∀ cause, discovery.expand files scan = .error cause ↔
        First (fun name cause => files.isDirectory (discovery.directoryOf name) = false ∧
          cause = .file (discovery.directoryOf name) (.noNamespaceDirectory (trim name)))
          scan.namespaces cause := by
  refine ⟨discovery.exists_lists closed,
    fun other same name => (Discovery.classesIn_congr same discovery name).symm,
    fun scan => ⟨discovery.expand_eq_ok_iff files scan, ?_, discovery.expand_eq_error_iff files scan⟩⟩
  simp only [discovery.expand_eq_error_iff, First.exists_iff, exists_and_left, exists_eq, and_true]

/-- A directory beside a source file of the same name, and what is no source file. -/
def shelf : List (Location × FileEntry) :=
  [(["app"], .directory), (["app", ".php"], .file .empty), (["app", "Baz.php"], .link "Foo.php"),
    (["app", "Foo"], .directory), (["app", "Foo", "Bar.php"], .file .empty),
    (["app", "Foo", "Notes.txt"], .file .empty), (["app", "Foo.php"], .file .empty)]

/-- The shelf is listed alike in whatever order it was filled, and the first of two missing
namespaces is reported. -/
theorem namespaces_listed_shelf :
    (∃ place ways, Discovery.Lists (.of "/app" "App" ".php") ⟨.ofList shelf, []⟩ "App" place ways
      ["App\\Foo\\Bar", "App\\Foo"]) ∧
    (Discovery.of "/app" "App" ".php").classesIn ⟨.ofList shelf.reverse, []⟩ "App" =
      .ok ["App\\Foo\\Bar", "App\\Foo"] ∧
    (Discovery.of "/app" "App" ".php").expand ⟨.ofList shelf, []⟩ ⟨["App", "Gone", "Lost"], [], []⟩ =
      .error (.file "/app/Gone" (.noNamespaceDirectory "Gone")) := by
  have closed : Closed ⟨.ofList shelf, []⟩ := closed_of_entries (by decide +kernel)
  have directory : (Discovery.of "/app" "App" ".php").directoryOf "App" = "/app" := by decide +kernel
  have isDirectory : FileSystem.isDirectory ⟨.ofList shelf, []⟩
      ((Discovery.of "/app" "App" ".php").directoryOf "App") = true := by decide +kernel
  have walk : FileSystem.walk ⟨.ofList shelf, []⟩ "/app" =
      .ok [[".php"], ["Foo", "Bar.php"], ["Foo", "Notes.txt"], ["Foo.php"]] := by
    have leads : FileSystem.locate ⟨.ofList shelf, []⟩ "/app" = .ok ["app"] := by decide +kernel
    have below : (OrderedMap.ofList shelf).entries.filterMap (wayBelow? ["app"]) =
        [[".php"], ["Foo", "Bar.php"], ["Foo", "Notes.txt"], ["Foo.php"]] := by decide +kernel
    rw [FileSystem.walk, leads]
    refine congrArg Except.ok ?_
    rw [filesBelow, below]
    exact List.mergeSort_of_pairwise (by decide +kernel)
  have listed : (Discovery.of "/app" "App" ".php").classesIn ⟨.ofList shelf, []⟩ "App" =
      .ok ["App\\Foo\\Bar", "App\\Foo"] := by
    rw [Discovery.classesIn, Discovery.directoryOf_trim, if_pos isDirectory, directory, walk]
    decide +kernel
  obtain ⟨lists, alike, expands⟩ := namespaces_listed (.of "/app" "App" ".php") closed
  obtain ⟨place, ways, classes, isListed, found⟩ := lists "App" isDirectory
  obtain rfl := Except.ok.inj (found.symm.trans listed)
  refine ⟨⟨place, ways, isListed⟩, ?_, ?_⟩
  · rw [alike ⟨.ofList shelf.reverse, []⟩ (holdsSame_of_perm rfl (by decide +kernel))]
    exact listed
  · refine ((expands _).2.2 _).2 (.later ?_ (.here (by decide +kernel)))
    simp [isDirectory]

end DocblockScan
