import DocblockScan.Program.SourceCode.Growth
import DocblockScan.Session.Boot
import DocblockScan.Proofs.Session.Generation

/-!
# Scans and boot passes in any order

Once both generated files are written, scans and boot passes change nothing any more.
`Setting.perform_steady` says so of one operation and `Setting.run_steady` of every list
of them. `KeepsGeneratedFiles` is what follows for a file system in which both scans
succeed.
-/

namespace DocblockScan.Session

open FileSystem

/-- What can be asked of a session. -/
inductive Operation where
  | scan (kind : DefinitionKind)
  | boot (host : Host)

/-- The file system after an operation, and whether the operation succeeded. -/
def perform (session : Session) (files : FileSystem) :
    Operation → FileSystem × Except ScanError Unit
  | .scan kind => session.scan files kind
  | .boot host =>
      let outcome := session.boot host files
      (outcome.files, outcome.result.map fun _ => ())

/-- The file system after some operations, whether or not they succeeded. -/
def run (session : Session) (files : FileSystem) (operations : List Operation) : FileSystem :=
  operations.foldl (fun now operation => (session.perform now operation).1) files

/-- A result that fails at most because the host refuses a file. -/
def FailsByRefusal {Report : Type} (host : Host) (result : Except ScanError Report) : Prop :=
  (∃ report, result = .ok report) ∨
    ∃ kind reason, host.refusal? kind = some reason ∧ result = .error (.refused reason)

/-- What an operation may result in: a scan succeeds, and a boot pass fails at most
because of the host. -/
def Operation.Allows : Operation → Except ScanError Unit → Prop
  | .scan _, result => result = .ok ()
  | .boot host, result => FailsByRefusal host result

variable {parser : SourceCode.Parser} {config : Config} {directory rootNamespace : String}
variable {files grown now : FileSystem} {definitions : DefinitionKind → String}

/-- A file system that is ready and holds both generated files. -/
def Steady (config : Config) (grown now : FileSystem) (definitions : DefinitionKind → String) :
    Prop :=
  Ready grown now definitions ∧ ∀ kind, Holds config now definitions kind

/-- Handing a file over changes no files. -/
theorem handOver_files (session : Session) (host : Host) (kind : DefinitionKind) (scanned : Bool)
    (files : FileSystem) : (session.handOver host kind scanned files).files = files := by
  unfold handOver
  split
  · dsimp only
    split <;> rfl
  · rfl

/-- Handing a file over fails only if the host refuses it. -/
theorem handOver_result (session : Session) (host : Host) (kind : DefinitionKind)
    (scanned : Bool) (files : FileSystem) :
    FailsByRefusal host (session.handOver host kind scanned files).result := by
  unfold handOver
  split
  · dsimp only
    split
    · next reason refuses => exact .inr ⟨kind, reason, refuses, rfl⟩
    · exact .inl ⟨_, rfl⟩
  · exact .inl ⟨_, rfl⟩

namespace Setting

variable (setting : Setting parser config directory rootNamespace files grown definitions)
include setting

/-- A scan of a steady file system succeeds and keeps it steady. -/
theorem scan_steady (steady : Steady config grown now definitions) (kind : DefinitionKind) :
    ∃ after,
      (Session.of config (.sourceFiles parser directory rootNamespace)).scan now kind =
          (after, .ok ()) ∧
        Steady config grown after definitions := by
  obtain ⟨after, scans, ready, holds⟩ := setting.scan_ready steady.1 kind
  exact ⟨after, scans, ready, fun other => holds other (.inr (steady.2 other))⟩

/-- A stage of a boot pass fails only by a refusal and keeps the file system steady. -/
theorem stage_steady (steady : Steady config grown now definitions) (host : Host)
    (kind : DefinitionKind) :
    let outcome :=
      (Session.of config (.sourceFiles parser directory rootNamespace)).stage host kind now
    Steady config grown outcome.files definitions ∧ FailsByRefusal host outcome.result := by
  dsimp only
  unfold stage
  split
  · exact ⟨steady, .inl ⟨_, rfl⟩⟩
  split
  · obtain ⟨after, scans, steadyAfter⟩ := setting.scan_steady steady kind
    rw [scans]
    exact ⟨by rw [handOver_files]; exact steadyAfter, handOver_result _ _ _ _ _⟩
  · exact ⟨by rw [handOver_files]; exact steady, handOver_result _ _ _ _ _⟩

/-- A boot pass fails only by a refusal and keeps the file system steady. -/
theorem boot_steady (steady : Steady config grown now definitions) (host : Host) :
    let outcome :=
      (Session.of config (.sourceFiles parser directory rootNamespace)).boot host now
    Steady config grown outcome.files definitions ∧ FailsByRefusal host outcome.result := by
  have first := setting.stage_steady steady host .events
  dsimp only at first ⊢
  unfold boot
  dsimp only
  split
  · next cause fails =>
      refine ⟨first.1, ?_⟩
      rw [fails] at first
      obtain ⟨report, ⟨⟩⟩ | ⟨kind, reason, refuses, same⟩ := first.2
      exact .inr ⟨kind, reason, refuses, by rw [Except.error.inj same]⟩
  · split
    · exact ⟨first.1, .inl ⟨_, rfl⟩⟩
    · have second := setting.stage_steady first.1 host .routes
      refine ⟨second.1, ?_⟩
      obtain ⟨report, same⟩ | ⟨kind, reason, refuses, same⟩ := second.2
      · exact .inl ⟨_, by rw [same]; rfl⟩
      · exact .inr ⟨kind, reason, refuses, by rw [same]; rfl⟩

/-- An operation results in what it may, and keeps the file system steady. -/
theorem perform_steady (steady : Steady config grown now definitions) (operation : Operation) :
    let outcome :=
      (Session.of config (.sourceFiles parser directory rootNamespace)).perform now operation
    Steady config grown outcome.1 definitions ∧ operation.Allows outcome.2 := by
  cases operation with
  | scan kind =>
      obtain ⟨after, scans, steadyAfter⟩ := setting.scan_steady steady kind
      dsimp only [perform]
      rw [scans]
      exact ⟨steadyAfter, rfl⟩
  | boot host =>
      obtain ⟨steadyAfter, fails⟩ := setting.boot_steady steady host
      refine ⟨steadyAfter, ?_⟩
      obtain ⟨report, same⟩ | ⟨kind, reason, refuses, same⟩ := fails
      · exact .inl ⟨(), by dsimp only [perform]; rw [same]; rfl⟩
      · exact .inr ⟨kind, reason, refuses, by dsimp only [perform]; rw [same]; rfl⟩

/-- Every list of operations keeps the file system steady. -/
theorem run_steady (steady : Steady config grown now definitions) (operations : List Operation) :
    Steady config grown
      ((Session.of config (.sourceFiles parser directory rootNamespace)).run now operations)
      definitions := by
  induction operations generalizing now with
  | nil => exact steady
  | cons operation rest inductionHypothesis =>
      exact inductionHypothesis (setting.perform_steady steady operation).1

/-- Two scans of both kinds in any order make the file system steady. -/
theorem steady_of_scans {first second : DefinitionKind} (apart : first ≠ second) :
    let session := Session.of config (.sourceFiles parser directory rootNamespace)
    let outcome := session.scan (session.scan files first).1 second
    outcome.2 = .ok () ∧ Steady config grown outcome.1 definitions := by
  obtain ⟨now, scansFirst, ready, holds⟩ := setting.scan_first first
  obtain ⟨after, scansSecond, readyAfter, holdsAfter⟩ := setting.scan_ready ready second
  dsimp only
  rw [scansFirst, scansSecond]
  refine ⟨rfl, readyAfter, fun kind => holdsAfter kind ?_⟩
  by_cases same : kind = second
  · exact .inl same
  · right
    obtain rfl : kind = first := by
      revert apart same
      cases kind <;> cases first <;> cases second <;> decide
    exact holds

end Setting

/-- Once both files are generated, whatever scans and boot passes follow, every scan
succeeds and both files stay as the scans of the original file system leave them. -/
def KeepsGeneratedFiles (session : Session) (files : FileSystem) : Prop :=
  ∃ texts : DefinitionKind → ByteArray,
    (∀ kind, (session.scan files kind).1.find (session.storage.path kind) =
      .ok (.file (texts kind))) ∧
    ∀ first second, first ≠ second →
      (session.scan (session.scan files first).1 second).2 = .ok () ∧
      ∀ operations,
        let now := session.run (session.scan (session.scan files first).1 second).1 operations
        (∀ kind, now.find (session.storage.path kind) = .ok (.file (texts kind))) ∧
        ∀ next : Operation, next.Allows (session.perform now next).2

/-- A session that reads source files keeps the generated files if both scans of a file
system without links succeed, no class has a dot in its own name, and no path of a class to
scan goes up out of a directory that the scans make. -/
theorem keepsGeneratedFiles (parser : SourceCode.Parser) (config : Config)
    (directory rootNamespace : String) (files : FileSystem) (linkFree : LinkFree files)
    (closed : Closed files)
    (succeeds : ∀ kind,
      ((Session.of config (.sourceFiles parser directory rootNamespace)).scan files kind).2 =
        .ok ())
    (plainFiles : NamesPlainly parser files)
    (plainTexts : ∀ kind,
      NamesPlainly parser
        ((Session.of config (.sourceFiles parser directory rootNamespace)).scan files kind).1)
    (clear : KeepsClear parser config directory rootNamespace files
      ((Session.of config (.sourceFiles parser directory rootNamespace)).scan files .routes).1) :
    KeepsGeneratedFiles
      (Session.of config (.sourceFiles parser directory rootNamespace)) files := by
  obtain ⟨grown, definitions, setting⟩ :=
    exists_setting linkFree closed succeeds plainFiles plainTexts clear
  refine ⟨generatedBytes definitions, fun kind => ?_, fun first second apart => ?_⟩
  · obtain ⟨after, scans, -, holds⟩ := setting.scan_first kind
    rw [scans]
    exact holds
  · obtain ⟨scans, steady⟩ := setting.steady_of_scans apart
    refine ⟨scans, fun operations => ?_⟩
    have later := setting.run_steady steady operations
    exact ⟨later.2, fun next => (setting.perform_steady later next).2⟩

/-! ## Generated files among the classes -/

/-- An application directory with one class that has a route. -/
def oneClass (declaration : String) : FileSystem where
  entries := ⟨[(["app"], .directory), (["app", "Page.php"], .file declaration.toUTF8)], by simp⟩
  workingDirectory := []

/-- The generated files are kept inside the namespace that is scanned. -/
def nestedConfig : Config := { storagePath := "app", routes := { namespaces := ["App"] } }

/-- A session with that configuration. -/
def nestedSession : Session :=
  .of nestedConfig (.sourceFiles Program.SourceCode.parse "app" "App")

/-- The class of the namespace that is scanned. -/
def nestedFiles : FileSystem :=
  oneClass "<?php namespace App; class Page \x7b /** @Get(\"/\") */ function show() \x7b\x7d \x7d"

/-- Generated files inside the scanned namespace are kept. -/
theorem keepsGeneratedFiles_nested :
    KeepsGeneratedFiles nestedSession nestedFiles := by
  refine keepsGeneratedFiles Program.SourceCode.parse nestedConfig "app" "App" nestedFiles
    (linkFree_of_entries ?_) (closed_of_entries (by decide +kernel)) ?_
    (namesPlainly_of_entries (by decide +kernel)) ?_ ?_
  · simp [nestedFiles, oneClass]
  · intro kind
    cases kind <;> decide +kernel
  · intro kind
    refine namesPlainly_of_entries ?_
    cases kind <;> decide +kernel
  · intro kind identifiers lists identifier member
    have listed : identifiers = [] ∨ identifiers = ["App\\Page"] := by
      cases kind with
      | events =>
          have none : nestedSession.identifiers nestedFiles .events = .ok [] := by
            decide +kernel
          exact .inl (Except.ok.inj (lists.symm.trans none))
      | routes =>
          have one : nestedSession.identifiers nestedFiles .routes = .ok ["App\\Page"] := by
            decide +kernel
          exact .inr (Except.ok.inj (lists.symm.trans one))
    obtain rfl | rfl := listed
    · simp at member
    · obtain rfl := List.mem_singleton.1 member
      exact keepsClear_of_not_mem (by decide +kernel)

/-- An application directory that is reached by going up out of the directory of the
generated files. -/
def climbingConfig : Config where
  applicationPath := "storage/framework/../../app"
  routes := { classes := ["Page"] }

/-- A class that is found only once that directory is there. -/
def climbingFiles : FileSystem :=
  oneClass "<?php class Page \x7b /** @Get(\"/\") */ function show() \x7b\x7d \x7d"

/-- Generated files may change if a path of a class goes up out of a directory that the
first scan makes. -/
theorem not_keepsGeneratedFiles :
    ¬ ∀ (parser : SourceCode.Parser) (config : Config) (directory rootNamespace : String)
        (files : FileSystem),
      LinkFree files → Closed files →
      (∀ kind,
        ((Session.of config (.sourceFiles parser directory rootNamespace)).scan files kind).2 =
          .ok ()) →
      NamesPlainly parser files →
      (∀ kind, NamesPlainly parser
        ((Session.of config (.sourceFiles parser directory rootNamespace)).scan files kind).1) →
      KeepsGeneratedFiles
        (Session.of config (.sourceFiles parser directory rootNamespace)) files := by
  intro claim
  obtain ⟨texts, found, stays⟩ := claim Program.SourceCode.parse climbingConfig
    climbingConfig.applicationPath "App" climbingFiles
    (linkFree_of_entries (by simp [climbingFiles, oneClass]))
    (closed_of_entries (by decide +kernel)) (fun kind => by cases kind <;> decide +kernel)
    (namesPlainly_of_entries (by decide +kernel))
    (fun kind => namesPlainly_of_entries (by cases kind <;> decide +kernel))
  have kept := (stays .routes .events (by decide)).2 [.scan .routes]
  have same := (found .routes).trans (kept.1 .routes).symm
  revert same
  decide +kernel

end DocblockScan.Session
