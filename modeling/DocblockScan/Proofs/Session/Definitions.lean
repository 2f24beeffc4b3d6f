import DocblockScan.Session.Basic
import DocblockScan.Proofs.ClassSource
import DocblockScan.Proofs.Registry

/-!
# Definitions among generated files

What a scan finds does not depend on generated files: a session that reads source
files finds the same definitions after the file system has grown by them.
`Session.definitions_eq` follows the stages of a scan, identifiers, classes and tags.
-/

namespace DocblockScan.Session

open FileSystem Namespace

/-- No path of a class to scan goes up out of a directory that was not there before. -/
def KeepsClear (parser : SourceCode.Parser) (config : Config)
    (directory rootNamespace : String) (old new : FileSystem) : Prop :=
  ∀ kind identifiers,
    (Session.of config (.sourceFiles parser directory rootNamespace)).identifiers old kind =
      .ok identifiers →
    ∀ identifier ∈ identifiers,
      FileSystem.KeepsClear old new (ClassSource.fileOf directory rootNamespace (trim identifier))

variable {parser : SourceCode.Parser} {config : Config} {directory rootNamespace : String}
variable {old new : FileSystem}

/-- The identifiers to scan are the same, but for dotted ones. -/
theorem exists_identifiers (session : Session) (grows : Grows generatedNames old new)
    (kind : DefinitionKind) {identifiers : List String}
    (lists : session.identifiers old kind = .ok identifiers) :
    ∃ others, session.identifiers new kind = .ok others ∧ SameUndotted others identifiers := by
  cases kind with
  | routes =>
      unfold Session.identifiers Config.routeIdentifiers at lists ⊢
      obtain ⟨controllers, listsControllers, listsAll⟩ := (Outcome.bind_eq_ok_iff _ _ _).1 lists
      obtain ⟨others, listsOthers, same⟩ : ∃ others,
          session.config.controllerClasses session.discovery new = .ok others ∧
            SameUndotted others controllers := by
        unfold Config.controllerClasses at listsControllers ⊢
        split at listsControllers
        · next asked =>
            rw [if_pos asked]
            exact session.discovery.exists_classesIn grows _ _ listsControllers
        · next notAsked =>
            rw [if_neg notAsked]
            exact ⟨controllers, listsControllers, rfl⟩
      rw [listsOthers]
      exact session.discovery.exists_identifiers grows
        (SameUndotted.append (show SameUndotted session.config.routes.explicitClasses _ from rfl)
          same) listsAll
  | events => exact session.discovery.exists_identifiers grows rfl lists

/-- The classes that are found are the same. -/
theorem exists_discover (grows : Grows generatedNames old new) (closed : Closed old)
    (plain : NamesPlainly parser old ∧ NamesPlainly parser new)
    (clear : KeepsClear parser config directory rootNamespace old new) {kind : DefinitionKind}
    {found : ResolvedClasses}
    (finds : (Session.of config (.sourceFiles parser directory rootNamespace)).discover old kind =
      .ok found) :
    ∃ other, (Session.of config (.sourceFiles parser directory rootNamespace)).discover new kind =
      .ok other ∧ other.classes = found.classes := by
  unfold discover at finds ⊢
  obtain ⟨identifiers, lists, result⟩ := (Outcome.bind_eq_ok_iff _ _ _).1 finds
  obtain rfl := Except.ok.inj result
  obtain ⟨others, listsOthers, same⟩ := exists_identifiers _ grows kind lists
  rw [listsOthers]
  exact ⟨_, rfl, ResolvedClasses.classes_eq grows closed plain same
    (clear kind identifiers lists)⟩

/-- The tags that are read are alike. -/
theorem exists_registry (config : Config) (grows : Grows generatedNames old new)
    {extras : List TagNamespace} {start registry : Registry}
    (registers : extras.foldlM (config.register old) start = .ok registry) :
    ∃ other, extras.foldlM (config.register new) start = .ok other ∧
      Registry.Alike other registry :=
  Outcome.exists_foldlM (config.exists_register grows) (.refl start) registers

/-- The endpoints of classes depend on the tags of names without dots only. -/
theorem endpointsOf_congr {left right : Registry} (alike : Registry.Alike left right) :
    endpointsOf left = endpointsOf right := by
  have same : declaredEndpoints left = declaredEndpoints right := by
    funext declaration
    rw [declaredEndpoints, declaredEndpoints, TagSet.read_congr alike]
  funext declarations
  rw [endpointsOf, endpointsOf, same]

/-- The listeners of classes depend on the tags of names without dots only. -/
theorem listenersOf_congr {left right : Registry} (alike : Registry.Alike left right) :
    listenersOf left = listenersOf right := by
  have same : declaredListeners left = declaredListeners right := by
    funext declaration
    rw [declaredListeners, declaredListeners, TagSet.read_congr alike]
  funext declarations
  rw [listenersOf, listenersOf, same]

/-- What could be read of the classes that are found is read of them afterwards. -/
theorem reads_eq (grows : Grows generatedNames old new) (closed : Closed old)
    (plain : NamesPlainly parser old ∧ NamesPlainly parser new)
    (clear : KeepsClear parser config directory rootNamespace old new) {kind : DefinitionKind}
    {Result : Type} {read : Registry → List ClassDeclaration → Except ScanError Result}
    (congr : ∀ left right, Registry.Alike left right → read left = read right)
    {extras : List TagNamespace} {start : Registry} {result : Result}
    (reads : (do
      let found ←
        (Session.of config (.sourceFiles parser directory rootNamespace)).discover old kind
      read (← extras.foldlM (config.register old) start) found.classes) = .ok result) :
    (do
      let found ←
        (Session.of config (.sourceFiles parser directory rootNamespace)).discover new kind
      read (← extras.foldlM (config.register new) start) found.classes) = .ok result := by
  simp only [Outcome.bind_eq_ok_iff] at reads ⊢
  obtain ⟨found, discovers, registry, registers, reads⟩ := reads
  obtain ⟨other, discoversToo, same⟩ := exists_discover grows closed plain clear discovers
  obtain ⟨others, registersToo, alike⟩ := exists_registry config grows registers
  refine ⟨other, discoversToo, others, registersToo, ?_⟩
  rw [congr others registry alike, same]
  exact reads

/-- Definitions that could be found are found afterwards. -/
theorem definitions_eq (grows : Grows generatedNames old new) (closed : Closed old)
    (plain : NamesPlainly parser old ∧ NamesPlainly parser new)
    (clear : KeepsClear parser config directory rootNamespace old new) {kind : DefinitionKind}
    {text : String}
    (finds :
      (Session.of config (.sourceFiles parser directory rootNamespace)).definitions old kind =
        .ok text) :
    (Session.of config (.sourceFiles parser directory rootNamespace)).definitions new kind =
      .ok text := by
  cases kind with
  | routes =>
      obtain ⟨endpoints, reads, result⟩ := (Outcome.bind_eq_ok_iff _ _ _).1 finds
      have again := reads_eq grows closed plain clear (fun _ _ => endpointsOf_congr) reads
      exact (Outcome.bind_eq_ok_iff _ _ _).2 ⟨endpoints, again, result⟩
  | events =>
      obtain ⟨listeners, reads, result⟩ := (Outcome.bind_eq_ok_iff _ _ _).1 finds
      have again := reads_eq grows closed plain clear (fun _ _ => listenersOf_congr) reads
      exact (Outcome.bind_eq_ok_iff _ _ _).2 ⟨listeners, again, result⟩

end DocblockScan.Session
