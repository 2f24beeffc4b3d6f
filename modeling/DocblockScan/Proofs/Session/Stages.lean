import DocblockScan.Session.Boot
import DocblockScan.Proofs.Session.Atomicity

/-!
# Stages of a boot pass

A scan that succeeds leaves in its file the records that it found before, and one that fails
leaves the generated files: `exists_records` and `find_of_scan_error`. A boot pass that a host
accepts is made of two stages, each of which rests, scans, or fails to scan: `staged_stage`
and `boot_cases`. The host is handed the files of both kinds in order, each at most once:
`boot_loads`.
-/

namespace DocblockScan

open FileSystem

/-! ## Scans -/

namespace Session

variable {session : Session} {host : Host} {kind : DefinitionKind} {files after : FileSystem}
variable {cause : ScanError}

/-- The records of all classes that a scan finds. -/
def resolution (session : Session) (files : FileSystem) :
    (kind : DefinitionKind) → Except ScanError (List kind.Record)
  | .events => session.listeners files
  | .routes => session.endpoints files

/-- The definitions of a scan are the statements of its records. -/
theorem definitions_eq_resolution (session : Session) (files : FileSystem)
    (kind : DefinitionKind) :
    session.definitions files kind = (session.resolution files kind).map kind.statements := by
  cases kind with
  | events =>
      unfold definitions resolution
      cases session.listeners files <;> rfl
  | routes =>
      unfold definitions resolution
      cases session.endpoints files <;> rfl

/-- The records that a generated file was made of. -/
def HoldsRecords (session : Session) (files : FileSystem) (kind : DefinitionKind)
    (records : List kind.Record) : Prop :=
  files.find (session.storage.path kind) =
    .ok (.file (Registration.file (kind.statements records)).toUTF8)

/-- A scan that succeeds leaves the records in its file that it found before. -/
theorem exists_records (tree : IsTree files) (scans : session.scan files kind = (after, .ok ())) :
    ∃ records, session.resolution files kind = .ok records ∧
      session.HoldsRecords after kind records := by
  obtain ⟨definitions, finds, writes⟩ := (scan_eq_ok_iff _ _ _ _).1 scans
  rw [definitions_eq_resolution] at finds
  obtain ⟨records, resolves, rfl⟩ := (Outcome.map_eq_ok_iff _ _ _).1 finds
  exact ⟨records, resolves, find_of_write tree writes⟩

/-- A scan that fails leaves what the path of a generated file leads to. -/
theorem find_of_scan_error (tree : IsTree files)
    (scans : session.scan files kind = (after, .error cause)) {other : DefinitionKind}
    {entry : FileEntry} (found : files.find (session.storage.path other) = .ok entry) :
    after.find (session.storage.path other) = .ok entry := by
  unfold scan at scans
  split at scans
  · obtain ⟨grown, -, same, ⟨rfl, -⟩ | ⟨⟨⟩, -⟩⟩ := write_cases tree scans
    obtain ⟨place, leads, -⟩ := (find_eq_ok_iff _ _ _).1 found
    obtain rfl := same other place leads
    exact found
  · obtain ⟨rfl, -⟩ := Prod.mk.inj scans
    exact found

/-- A scan keeps a file system a tree, whether or not it succeeds. -/
theorem isTree_of_scan (tree : IsTree files) {result : Except ScanError Unit}
    (scans : session.scan files kind = (after, result)) : IsTree after := by
  unfold scan at scans
  split at scans
  · exact isTree_of_write tree scans
  · obtain ⟨rfl, -⟩ := Prod.mk.inj scans
    exact tree

/-! ## Stages of a boot pass -/

/-- A host that refuses nothing and has no routes yet. -/
structure Accepts (host : Host) : Prop where
  refusesNone : ∀ kind, host.refusal? kind = none
  uncached : host.hasCachedRoutes = false

theorem accepts_accepting (environment : String) : Accepts (.accepting environment) :=
  ⟨fun _ => rfl, rfl⟩

/-- At most the file of a kind is handed over. -/
def HandsOver (session : Session) (kind : DefinitionKind) (loads : List Load) : Prop :=
  loads = [] ∨ ∃ text, loads = [⟨kind, session.storage.path kind, text⟩]

/-- What a stage comes to when the host accepts everything. -/
inductive Staged (session : Session) (kind : DefinitionKind) (files : FileSystem) :
    BootOutcome StageReport → Prop where
  /-- No scan is due. -/
  | rests {loads : List Load} {report : StageReport} (told : report.scanned = false)
      (handsOver : session.HandsOver kind loads) :
      Staged session kind files ⟨files, loads, .ok report⟩
  /-- The file is generated. -/
  | scans {after : FileSystem} {loads : List Load} {report : StageReport}
      (scan : session.scan files kind = (after, .ok ())) (told : report.scanned = true)
      (handsOver : session.HandsOver kind loads) :
      Staged session kind files ⟨after, loads, .ok report⟩
  /-- The file could not be generated. -/
  | fails {after : FileSystem} {cause : ScanError}
      (scan : session.scan files kind = (after, .error cause)) :
      Staged session kind files ⟨after, [], .error cause⟩

/-- A host that accepts everything takes the file of a kind, if it is there. -/
theorem handOver_eq (accepts : Accepts host) (session : Session) (kind : DefinitionKind)
    (scanned : Bool) (files : FileSystem) : ∃ loads loaded, session.HandsOver kind loads ∧
      session.handOver host kind scanned files = ⟨files, loads, .ok ⟨scanned, loaded⟩⟩ := by
  unfold handOver
  rw [accepts.refusesNone kind]
  split
  · exact ⟨_, _, .inr ⟨_, rfl⟩, rfl⟩
  · exact ⟨_, _, .inl rfl, rfl⟩

theorem staged_stage (accepts : Accepts host) (session : Session) (kind : DefinitionKind)
    (files : FileSystem) : Staged session kind files (session.stage host kind files) := by
  unfold stage
  split
  · exact .rests rfl (.inl rfl)
  split
  · cases scan : session.scan files kind with
    | mk after result =>
        cases result with
        | ok _ =>
            obtain ⟨loads, loaded, handsOver, same⟩ := handOver_eq accepts session kind true after
            dsimp only
            rw [same]
            exact .scans scan rfl handsOver
        | error cause => exact .fails scan
  · obtain ⟨loads, loaded, handsOver, same⟩ := handOver_eq accepts session kind false files
    rw [same]
    exact .rests rfl handsOver

variable {outcome : BootOutcome StageReport}

theorem Staged.handsOver (staged : Staged session kind files outcome) :
    session.HandsOver kind outcome.loads := by
  cases staged with
  | rests _ handsOver => exact handsOver
  | scans _ _ handsOver => exact handsOver
  | fails => exact .inl rfl

/-- A stage that fails leaves what the path of a generated file leads to. -/
theorem Staged.find_of_error (tree : IsTree files) (staged : Staged session kind files outcome)
    (fails : outcome.result = .error cause) {other : DefinitionKind} {entry : FileEntry}
    (found : files.find (session.storage.path other) = .ok entry) :
    outcome.files.find (session.storage.path other) = .ok entry := by
  cases staged with
  | rests | scans => cases fails
  | fails scan => exact find_of_scan_error tree scan found

/-- A stage that reports a scan has scanned. -/
theorem Staged.scan_of_told {report : StageReport} (staged : Staged session kind files outcome)
    (succeeds : outcome.result = .ok report) (told : report.scanned = true) :
    session.scan files kind = (outcome.files, .ok ()) := by
  cases staged with
  | rests untold =>
      obtain rfl := Except.ok.inj succeeds
      simp [untold] at told
  | scans scan => exact scan
  | fails => cases succeeds

/-- A stage keeps a file system a tree. -/
theorem Staged.isTree (tree : IsTree files) (staged : Staged session kind files outcome) :
    IsTree outcome.files := by
  cases staged with
  | rests => exact tree
  | scans scan => exact isTree_of_scan tree scan
  | fails scan => exact isTree_of_scan tree scan

/-- A pass ends with the stage of the events, or with that of the routes after it. -/
theorem boot_cases (accepts : Accepts host) (session : Session) (files : FileSystem) :
    (∃ cause, (session.stage host .events files).result = .error cause ∧
      session.boot host files = ⟨(session.stage host .events files).files,
        (session.stage host .events files).loads, .error cause⟩) ∨
    ∃ events, (session.stage host .events files).result = .ok events ∧
      session.boot host files =
        ⟨(session.stage host .routes (session.stage host .events files).files).files,
          (session.stage host .events files).loads ++
            (session.stage host .routes (session.stage host .events files).files).loads,
          (session.stage host .routes (session.stage host .events files).files).result.map
            fun routes => { events, routes }⟩ := by
  unfold boot
  dsimp only
  rw [accepts.uncached]
  split
  · next cause fails => exact .inl ⟨cause, fails, rfl⟩
  · next events succeeds => exact .inr ⟨events, succeeds, rfl⟩

/-- The files of both kinds are handed over in order, each at most once. -/
theorem boot_loads (accepts : Accepts host) (session : Session) (files : FileSystem) :
    ((session.boot host files).loads.map fun load => (load.kind, load.path)).Sublist
      [(.events, session.storage.path .events), (.routes, session.storage.path .routes)] := by
  have ofStage : ∀ kind now, ((session.stage host kind now).loads.map
      fun load => (load.kind, load.path)).Sublist [(kind, session.storage.path kind)] := by
    intro kind now
    rcases (staged_stage accepts session kind now).handsOver with nothing | ⟨text, one⟩
    · simp [nothing]
    · simp [one]
  rcases boot_cases accepts session files with ⟨cause, -, same⟩ | ⟨events, -, same⟩
  · rw [same]
    exact (ofStage .events files).trans (List.sublist_append_left _ [_])
  · rw [same, List.map_append]
    exact (ofStage .events files).append (ofStage .routes _)

end Session

end DocblockScan
