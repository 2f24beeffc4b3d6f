import DocblockScan.Config.Basic
import DocblockScan.Proofs.Discovery.Listing

/-!
# Filters on classes

The classes that a configuration asks for are those named one by one, those of the controllers
if they are asked for, and those of namespaces. The filters are about the last of these only:
among the classes of namespaces they keep or drop a class at all its occurrences, and they
change neither the other parts nor the order: `filters_touch_namespaces_only`.
-/

namespace DocblockScan

open Namespace

/-! ## Which classes pass -/

/-- Some names have an entry that is a class, up to separators and blanks around both. -/
def ListsName (names : List String) (className : String) : Prop :=
  ∃ entry ∈ names, trim entry = trim className

instance (names : List String) (className : String) : Decidable (ListsName names className) :=
  inferInstanceAs (Decidable (∃ entry ∈ names, trim entry = trim className))

/-- A class passes the filters if the first list is empty or has it, and the second list does
not have it. -/
def Passes (only except : List String) (className : String) : Prop :=
  (only = [] ∨ ListsName only className) ∧ ¬ ListsName except className

instance (only except : List String) (className : String) :
    Decidable (Passes only except className) :=
  inferInstanceAs (Decidable (_ ∧ _))

variable {only except more : List String} {className : String}

/-- A class that passes with more names in the second list passes with fewer. -/
theorem Passes.of_subset (passes : Passes only more className) (fewer : except ⊆ more) :
    Passes only except className := by
  refine ⟨passes.1, fun ⟨entry, member, same⟩ => passes.2 ⟨entry, fewer member, same⟩⟩

/-- The filters ask for a trimmed class, and it passes exactly if they keep it. -/
theorem keepsClass_iff (trimmed : trim className = className) :
    keepsClass only except className = true ↔ Passes only except className := by
  simp [keepsClass, Passes, listsClass, ListsName, trimmed]

/-- Of trimmed classes the filters keep those that pass. -/
theorem filterClasses_eq {classes : List String}
    (trimmed : ∀ className ∈ classes, trim className = className) :
    filterClasses only except classes = classes.filter (Passes only except ·) := by
  refine List.filter_congr fun className member => ?_
  rw [Bool.eq_iff_iff, keepsClass_iff (trimmed className member), decide_eq_true_iff]

/-- Filtering once is enough. -/
theorem filterClasses_filterClasses (only except classes : List String) :
    filterClasses only except (filterClasses only except classes) =
      filterClasses only except classes := by
  simp [filterClasses]

/-! ## The classes of namespaces -/

namespace Discovery

variable {discovery : Discovery} {files : FileSystem}

/-- Listed classes are trimmed. -/
theorem trim_of_mem_classesIn {name : String} {classes : List String}
    (lists : discovery.classesIn files name = .ok classes) :
    ∀ className ∈ classes, trim className = className := by
  intro className member
  unfold classesIn at lists
  dsimp only at lists
  split at lists
  · split at lists
    · obtain rfl := Except.ok.inj lists
      obtain ⟨way, -, found⟩ := List.mem_filterMap.1 member
      obtain ⟨_, _, _, -, -, rfl⟩ := (discovery.classOfWay?_eq_some_iff _ _ _).1 found
      exact trim_join _
    · simp at lists
  · simp at lists

/-- All namespaces are listed, and this is what they have together. -/
def Expands (discovery : Discovery) (files : FileSystem) (namespaces expansion : List String) :
    Prop :=
  ∃ found, List.Forall₂ (fun name classes => discovery.classesIn files name = .ok classes)
    namespaces found ∧ expansion = found.flatten

/-- The classes of namespaces are trimmed. -/
theorem Expands.trimmed {namespaces expansion : List String}
    (expands : discovery.Expands files namespaces expansion) :
    ∀ className ∈ expansion, trim className = className := by
  obtain ⟨found, lists, rfl⟩ := expands
  induction lists with
  | nil => simp
  | cons first _ inductionHypothesis =>
      intro className member
      rcases List.mem_append.1 (List.flatten_cons ▸ member) with isFirst | isLater
      · exact trim_of_mem_classesIn first className isFirst
      · exact inductionHypothesis className isLater

/-- Classes named one by one are followed by the classes of namespaces that pass. -/
theorem identifiers_eq_ok_iff (discovery : Discovery) (files : FileSystem) (named : List String)
    (scan : NamespaceScan) (result : List String) :
    discovery.identifiers files named scan = .ok result ↔
      ∃ expansion, discovery.Expands files scan.namespaces expansion ∧
        result = named ++ expansion.filter (Passes scan.only scan.except ·) := by
  have appended : discovery.identifiers files named scan =
      (named ++ ·) <$> discovery.expand files scan := bind_pure_comp _ _
  rw [appended, Outcome.map_eq_ok_iff]
  constructor
  · rintro ⟨kept, expands, rfl⟩
    obtain ⟨found, lists, rfl⟩ := (discovery.expand_eq_ok_iff files scan kept).1 expands
    have expands : discovery.Expands files scan.namespaces found.flatten := ⟨found, lists, rfl⟩
    exact ⟨found.flatten, expands, by rw [filterClasses_eq expands.trimmed]⟩
  · rintro ⟨expansion, expands, rfl⟩
    have kept : filterClasses scan.only scan.except expansion =
        expansion.filter (Passes scan.only scan.except ·) := filterClasses_eq expands.trimmed
    obtain ⟨found, lists, rfl⟩ := expands
    exact ⟨_, (discovery.expand_eq_ok_iff files scan _).2 ⟨found, lists, rfl⟩, by rw [kept]⟩

/-- Lists of namespaces that follow one another are expanded and filtered one by one. -/
theorem expand_append (discovery : Discovery) (files : FileSystem)
    (front back only except : List String) :
    discovery.expand files ⟨front ++ back, only, except⟩ = do
      return (← discovery.expand files ⟨front, only, except⟩) ++
        (← discovery.expand files ⟨back, only, except⟩) := by
  simp only [expand_eq_map, List.mapM_append]
  cases front.mapM (discovery.classesIn files) with
  | error cause => rfl
  | ok found =>
      cases back.mapM (discovery.classesIn files) with
      | error cause => rfl
      | ok others =>
          have parts : filterClasses only except (found ++ others).flatten =
              filterClasses only except found.flatten ++ filterClasses only except others.flatten := by
            simp only [filterClasses, List.flatten_append, List.filter_append]
          exact congrArg Except.ok parts

end Discovery

/-! ## The classes of a configuration -/

/-- What filters do to the classes that a configuration asks for, where some classes are fixed
and others are the classes of namespaces. -/
structure FiltersTouch (identify : List String → List String → Except ScanError (List String))
    (fixed expansion : List String) : Prop where
  /-- The fixed classes are followed by the classes of namespaces that pass. -/
  parts : ∀ only except,
    identify only except = .ok (fixed ++ expansion.filter (Passes only except ·))
  /-- Fixed classes are never dropped, and a class of namespaces is dropped everywhere or
  nowhere. -/
  counts : ∀ only except result, identify only except = .ok result → ∀ className,
    result.count className = fixed.count className +
      if Passes only except className then expansion.count className else 0
  /-- With more excepted names nothing is added. -/
  narrows : ∀ only except more result narrowed, except ⊆ more →
    identify only except = .ok result → identify only more = .ok narrowed →
    narrowed.Sublist result
  /-- A class that both lists have is dropped. -/
  exceptWins : ∀ only except className, ListsName only className →
    ListsName except className → className ∉ expansion.filter (Passes only except ·)

theorem filtersTouch {identify : List String → List String → Except ScanError (List String)}
    {fixed expansion : List String}
    (parts : ∀ only except,
      identify only except = .ok (fixed ++ expansion.filter (Passes only except ·))) :
    FiltersTouch identify fixed expansion where
  parts := parts
  counts := by
    intro only except result identified className
    obtain rfl := Except.ok.inj ((parts only except).symm.trans identified)
    rw [List.count_append]
    split
    · next passes => rw [List.count_filter (by simpa using passes)]
    · next drops =>
        have absent : className ∉ expansion.filter (Passes only except ·) := by simp [drops]
        rw [List.count_eq_zero_of_not_mem absent]
  narrows := by
    intro only except more result narrowed fewer identified identifiedMore
    obtain rfl := Except.ok.inj ((parts only except).symm.trans identified)
    obtain rfl := Except.ok.inj ((parts only more).symm.trans identifiedMore)
    refine List.Sublist.append_left (List.monotone_filter_right expansion fun className passes => ?_) fixed
    exact decide_eq_true ((of_decide_eq_true passes).of_subset fewer)
  exceptWins := by
    intro only except className _ excepted member
    exact (of_decide_eq_true (List.mem_filter.1 member).2).2 excepted

namespace Config

/-- The configuration with other filters on the classes of routes. -/
def withRouteFilters (config : Config) (only except : List String) : Config :=
  { config with routes := { config.routes with only, except } }

/-- The configuration with other filters on the classes of listeners. -/
def withEventFilters (config : Config) (only except : List String) : Config :=
  { config with events := { config.events with only, except } }

/-- The classes of routes are those named one by one, the controllers if they are asked for,
and the classes of namespaces that pass. -/
theorem routeIdentifiers_eq_ok_iff (config : Config) (discovery : Discovery) (files : FileSystem)
    (result : List String) :
    config.routeIdentifiers discovery files = .ok result ↔
      ∃ controllers expansion, config.controllerClasses discovery files = .ok controllers ∧
        discovery.Expands files config.routes.namespaces expansion ∧
        result = config.routes.explicitClasses ++ controllers ++
          expansion.filter (Passes config.routes.only config.routes.except ·) := by
  simp only [routeIdentifiers, Outcome.bind_eq_ok_iff, Discovery.identifiers_eq_ok_iff,
    ScanTargets.namespaceScan, exists_and_left]

/-- The classes of listeners are those named one by one and the classes of namespaces that
pass. -/
theorem eventIdentifiers_eq_ok_iff (config : Config) (discovery : Discovery) (files : FileSystem)
    (result : List String) :
    config.eventIdentifiers discovery files = .ok result ↔
      ∃ expansion, discovery.Expands files config.events.namespaces expansion ∧
        result = config.events.explicitClasses ++
          expansion.filter (Passes config.events.only config.events.except ·) :=
  discovery.identifiers_eq_ok_iff files config.events.explicitClasses config.events.namespaceScan result

end Config

/-- If the classes of routes are found, they are those named one by one, all classes of the
controllers if these are asked for, and the classes of namespaces that pass the filters, in
this order and each as often as it is found. Other filters change the last of these parts
only. The classes of listeners are found in the same way, but without controllers. To filter
twice is to filter once, and lists of namespaces are filtered one by one. -/
theorem filters_touch_namespaces_only :
    (∀ (config : Config) (discovery : Discovery) (files : FileSystem) (result : List String),
      config.routeIdentifiers discovery files = .ok result →
      ∃ controllers expansion,
        (if config.scanControllers then
          discovery.classesIn files config.controllersNamespace = .ok controllers
        else controllers = []) ∧
        discovery.Expands files config.routes.namespaces expansion ∧
        result = config.routes.explicitClasses ++ controllers ++
          expansion.filter (Passes config.routes.only config.routes.except ·) ∧
        FiltersTouch
          (fun only except => (config.withRouteFilters only except).routeIdentifiers discovery files)
          (config.routes.explicitClasses ++ controllers) expansion) ∧
    (∀ (config : Config) (discovery : Discovery) (files : FileSystem) (result : List String),
      config.eventIdentifiers discovery files = .ok result →
      ∃ expansion,
        discovery.Expands files config.events.namespaces expansion ∧
        result = config.events.explicitClasses ++
          expansion.filter (Passes config.events.only config.events.except ·) ∧
        FiltersTouch
          (fun only except => (config.withEventFilters only except).eventIdentifiers discovery files)
          config.events.explicitClasses expansion) ∧
    (∀ only except classes, filterClasses only except (filterClasses only except classes) =
      filterClasses only except classes) ∧
    ∀ (discovery : Discovery) (files : FileSystem) (front back only except : List String),
      discovery.expand files ⟨front ++ back, only, except⟩ = do
        return (← discovery.expand files ⟨front, only, except⟩) ++
          (← discovery.expand files ⟨back, only, except⟩) := by
  refine ⟨fun config discovery files result identified => ?_,
    fun config discovery files result identified => ?_, filterClasses_filterClasses,
    Discovery.expand_append⟩
  · obtain ⟨controllers, expansion, scanned, expands, rfl⟩ :=
      (config.routeIdentifiers_eq_ok_iff discovery files result).1 identified
    refine ⟨controllers, expansion, ?_, expands, rfl, filtersTouch fun only except => ?_⟩
    · unfold Config.controllerClasses at scanned
      split at scanned
      · next asked => rwa [if_pos asked]
      · next unasked => rw [if_neg unasked, Except.ok.inj scanned]
    · exact (Config.routeIdentifiers_eq_ok_iff _ discovery files _).2
        ⟨controllers, expansion, scanned, expands, rfl⟩
  · obtain ⟨expansion, expands, rfl⟩ :=
      (config.eventIdentifiers_eq_ok_iff discovery files result).1 identified
    refine ⟨expansion, expands, rfl, filtersTouch fun only except => ?_⟩
    exact (Config.eventIdentifiers_eq_ok_iff _ discovery files _).2 ⟨expansion, expands, rfl⟩

/-- A class among the controllers, and one beside them. -/
def officeFiles : FileSystem where
  entries := .ofList [(["app"], .directory), (["app", "Http"], .directory),
    (["app", "Http", "Controllers"], .directory),
    (["app", "Http", "Controllers", "Home.php"], .file .empty), (["app", "Models"], .directory),
    (["app", "Models", "User.php"], .file .empty)]
  workingDirectory := []

/-- A configuration that finds both classes more than once, and excepts the controller. -/
def officeConfig : Config where
  routes := {
    qualifier := some "App\\Models\\", classes := ["User"]
    namespaces := ["App\\Models", "App\\Http\\Controllers", "App\\Models"]
    only := ["\\App\\Models\\User ", "App\\Http\\Controllers\\Home"]
    except := [" App\\Http\\Controllers\\Home\\"] }
  scanControllers := true

/-- The controller stays where it is found as one, and is dropped where it is found in a
namespace. -/
theorem filters_touch_namespaces_only_office :
    officeConfig.routeIdentifiers (officeConfig.discovery "php") officeFiles =
      .ok ["App\\Models\\User", "App\\Http\\Controllers\\Home", "App\\Models\\User",
        "App\\Models\\User"] ∧
    ∃ expansion, FiltersTouch
      (fun only except => (officeConfig.withRouteFilters only except).routeIdentifiers
        (officeConfig.discovery "php") officeFiles)
      ["App\\Models\\User", "App\\Http\\Controllers\\Home"] expansion := by
  have identified : officeConfig.routeIdentifiers (officeConfig.discovery "php") officeFiles =
      .ok ["App\\Models\\User", "App\\Http\\Controllers\\Home", "App\\Models\\User",
        "App\\Models\\User"] := by decide +kernel
  have scanned : (officeConfig.discovery "php").classesIn officeFiles
      officeConfig.controllersNamespace = .ok ["App\\Http\\Controllers\\Home"] := by
    decide +kernel
  obtain ⟨controllers, expansion, asked, -, -, touch⟩ :=
    filters_touch_namespaces_only.1 officeConfig _ officeFiles _ identified
  obtain rfl := Except.ok.inj (scanned.symm.trans asked)
  have named : officeConfig.routes.explicitClasses = ["App\\Models\\User"] := by decide +kernel
  rw [named] at touch
  exact ⟨identified, expansion, touch⟩

end DocblockScan
