import DocblockScan.CommandLine.Run
import DocblockScan.Program.Toolkit
import DocblockScan.Proofs.Json.Reading
import DocblockScan.Proofs.Json.Records
import DocblockScan.Proofs.Session.Stages

/-!
# The command line is truthful

What a run prints and exits with agrees with what it did to the files. A scan succeeds
exactly if its file was written, and the file then holds the records that were resolved
before; a list prints the same records and changes nothing; and a boot pass reports what
it loaded once all of it is done. Nothing is printed by a run that does not succeed:
`run_truthful`. All this holds for every toolkit whose printed values can be read back.
-/

namespace DocblockScan

open FileSystem

/-! ## What it means that a run is truthful -/

namespace CommandLine

variable {kit : Toolkit} {read : String → Option Json} {files : FileSystem}
variable {arguments : List String} {invocation : Invocation}

/-- The session that an invocation runs its command in. -/
def Invocation.session (kit : Toolkit) (invocation : Invocation) (files : FileSystem) :
    Except ScanError Session :=
  Session.load kit.toml kit.parser files (invocation.config.getD defaultConfigPath)
    invocation.command.path?

/-- The records that a reader of values finds in the output of a run. -/
def readRecords (read : String → Option Json) (output : String) : Option (List Endpoint) :=
  (read output).bind Endpoint.listOfJson?

/-- The kind of the file that a command generates. -/
def Command.scans? : Command → Option DefinitionKind
  | .routeScan _ => some .routes
  | .eventScan _ => some .events
  | _ => none

/-- What a scan says is true: it succeeds exactly if a session was loaded and its scan
succeeded. The file then holds the records as they were resolved before the run. -/
structure ScansTruly (files : FileSystem) (loaded : Except ScanError Session)
    (kind : DefinitionKind) (outcome : Outcome) : Prop where
  succeeds : outcome.ending.exitCode = 0 ↔
    ∃ session, loaded = .ok session ∧ (session.scan files kind).2 = .ok ()
  holds : IsTree files → outcome.ending.exitCode = 0 →
    ∃ session records, loaded = .ok session ∧ session.resolution files kind = .ok records ∧
      session.HoldsRecords outcome.files kind records

/-- What a list says is true: it fails exactly if the routes cannot be resolved, and what it
prints as a value is read as the routes as they are resolved. -/
structure ListsTruly (read : String → Option Json) (files : FileSystem)
    (loaded : Except ScanError Session) (json : Bool) (outcome : Outcome) : Prop where
  untouched : outcome.files = files
  succeeds : outcome.ending.exitCode = 0 ↔
    ∃ session endpoints, loaded = .ok session ∧ session.endpoints files = .ok endpoints
  prints : json = true → ∀ session endpoints, loaded = .ok session →
    session.endpoints files = .ok endpoints → readRecords read outcome.output = some endpoints

/-- A scan of routes and a list of them in the same state agree: a file that was written
holds the records that are read in what the list prints, and both fail in the same way if
the routes cannot be resolved. -/
structure Agree (read : String → Option Json) (files : FileSystem)
    (loaded : Except ScanError Session) (scanned listed : Outcome) : Prop where
  holds : IsTree files → scanned.ending.exitCode = 0 →
    ∃ session endpoints, loaded = .ok session ∧
      session.HoldsRecords scanned.files .routes endpoints ∧ listed.ending.exitCode = 0 ∧
      readRecords read listed.output = some endpoints
  fails : listed.ending.exitCode ≠ 0 ↔ ∀ session, loaded = .ok session →
    ∃ cause, session.definitions files .routes = .error cause
  alike : listed.ending.exitCode ≠ 0 → scanned = listed

/-- Whether a line says that a file was loaded. -/
def isLoadLine (line : String) : Bool :=
  "Loaded ".toList.isPrefixOf line.toList

/-- What a boot pass says is true. It prints only if the whole pass succeeded, and then one
line for every file that was handed over, the events first. If the routes fail after the
events, nothing is printed, and the file of the events stays as it was written. -/
structure BootsTruly (files : FileSystem) (session : Session) (host : Host) (outcome : Outcome) :
    Prop where
  succeeds : outcome.ending.exitCode = 0 ↔ ∃ report, (session.boot host files).result = .ok report
  prints : ∀ report, (session.boot host files).result = .ok report →
    ∃ lines : List String, outcome.output = String.join (lines.map (· ++ "\n")) ∧
      lines.filter isLoadLine = (session.boot host files).loads.map ("Loaded " ++ ·.path)
  order : ((session.boot host files).loads.map fun load => (load.kind, load.path)).Sublist
    [(.events, session.storage.path .events), (.routes, session.storage.path .routes)]
  stays : ∀ events cause, (session.stage host .events files).result = .ok events →
    (session.stage host .routes (session.stage host .events files).files).result = .error cause →
    outcome.ending.exitCode = 1 ∧ outcome.output = "" ∧
      (IsTree files → ∀ entry,
        (session.stage host .events files).files.find (session.storage.path .events) = .ok entry →
        outcome.files.find (session.storage.path .events) = .ok entry) ∧
      (IsTree files → events.scanned = true → ∃ listeners,
        session.listeners files = .ok listeners ∧
          session.HoldsRecords outcome.files .events listeners)

/-- A run is truthful: it prints nothing unless it succeeds, a misuse changes nothing, and
every command says what it did. -/
structure Truthful (kit : Toolkit) (read : String → Option Json) (files : FileSystem)
    (arguments : List String) : Prop where
  silent : (run kit files arguments).ending.exitCode ≠ 0 → (run kit files arguments).output = ""
  misuse : (run kit files arguments).ending.exitCode = 2 ↔
    ∃ reason, kit.request arguments = .misuse reason
  untouched : (run kit files arguments).ending.exitCode = 2 →
    (run kit files arguments).files = files
  scans : ∀ invocation kind, kit.request arguments = .invoke invocation →
    invocation.command.scans? = some kind →
    ScansTruly files (invocation.session kit files) kind (run kit files arguments)
  lists : ∀ config json, kit.request arguments = .invoke ⟨config, .routeList json⟩ →
    ListsTruly read files (Invocation.session kit ⟨config, .routeList json⟩ files) json
      (run kit files arguments)
  agrees : ∀ config others, kit.request arguments = .invoke ⟨config, .routeScan none⟩ →
    kit.request others = .invoke ⟨config, .routeList true⟩ →
    Agree read files (Invocation.session kit ⟨config, .routeScan none⟩ files)
      (run kit files arguments) (run kit files others)
  boots : ∀ config session, kit.request arguments = .invoke ⟨config, .boot⟩ →
    Invocation.session kit ⟨config, .boot⟩ files = .ok session →
    BootsTruly files session (.accepting session.config.environment) (run kit files arguments)

/-! ## How runs end -/

@[simp] theorem Ending.exitCode_success : Ending.success.exitCode = 0 := rfl

@[simp] theorem Ending.exitCode_misuse (reason : String) : (misuse reason).exitCode = 2 := rfl

@[simp] theorem Outcome.exitCode_printed (files : FileSystem) (lines : List String) :
    (printed files lines).ending.exitCode = 0 := rfl

@[simp] theorem Outcome.exitCode_failed (files : FileSystem) (cause : ScanError) :
    (failed files cause).ending.exitCode = 1 := rfl

/-! ## What commands say -/

theorem run_of_request (asks : kit.request arguments = .invoke invocation) :
    run kit files arguments = invocation.run kit files := by
  rw [run, asks]

theorem Invocation.run_of_session {session : Session}
    (loads : invocation.session kit files = .ok session) :
    invocation.run kit files = runCommand kit files session invocation.command := by
  rw [Invocation.session] at loads
  dsimp only [Invocation.run]
  rw [loads]

theorem Invocation.run_of_error {cause : ScanError}
    (fails : invocation.session kit files = .error cause) :
    invocation.run kit files = .failed files cause := by
  rw [Invocation.session] at fails
  dsimp only [Invocation.run]
  rw [fails]

/-- A list of endpoints that is printed as a value is read back. -/
theorem readRecords_listing (reads : ∀ value, read (kit.json value ++ "\n") = some value)
    (endpoints : List Endpoint) :
    readRecords read (Outcome.printed files [listing kit true endpoints]).output =
      some endpoints := by
  have output : (Outcome.printed files [listing kit true endpoints]).output =
      kit.json (Endpoint.listToJson endpoints) ++ "\n" := by
    simp [Outcome.printed, listing]
  rw [output, readRecords, reads, Option.bind_some, Endpoint.listOfJson?_listToJson]

/-- Every command ends with lines that it prints or with the cause of a failure. -/
theorem runCommand_cases (kit : Toolkit) (files : FileSystem) (session : Session)
    (command : Command) :
    (∃ after lines, runCommand kit files session command = .printed after lines) ∨
      ∃ after cause, runCommand kit files session command = .failed after cause := by
  have scan : ∀ kind, (∃ after lines, runScan files session kind = .printed after lines) ∨
      ∃ after cause, runScan files session kind = .failed after cause := by
    intro kind
    unfold runScan
    split
    · exact .inl ⟨_, _, rfl⟩
    · exact .inr ⟨_, _, rfl⟩
  cases command with
  | routeScan => exact scan .routes
  | eventScan => exact scan .events
  | routeList json =>
      dsimp only [runCommand, runList]
      split
      · exact .inl ⟨_, _, rfl⟩
      · exact .inr ⟨_, _, rfl⟩
  | boot =>
      dsimp only [runCommand, runBoot]
      split
      · exact .inl ⟨_, _, rfl⟩
      · exact .inr ⟨_, _, rfl⟩

/-- Every run ends as a misuse, with a text that it prints, or with the cause of a
failure. -/
theorem run_cases (kit : Toolkit) (files : FileSystem) (arguments : List String) :
    (∃ reason, kit.request arguments = .misuse reason ∧
      run kit files arguments = ⟨files, .misuse reason, ""⟩) ∨
    (∃ after output, run kit files arguments = ⟨after, .success, output⟩) ∨
      ∃ after cause, run kit files arguments = .failed after cause := by
  unfold run
  cases kit.request arguments with
  | invoke invocation =>
      right
      dsimp only
      cases loads : invocation.session kit files with
      | ok session =>
          rw [invocation.run_of_session loads]
          rcases runCommand_cases kit files session invocation.command with
            ⟨after, lines, same⟩ | ⟨after, cause, same⟩
          · exact .inl ⟨after, _, same⟩
          · exact .inr ⟨after, cause, same⟩
      | error cause =>
          rw [invocation.run_of_error loads]
          exact .inr ⟨_, _, rfl⟩
  | print text => exact .inr (.inl ⟨_, _, rfl⟩)
  | misuse reason => exact .inl ⟨reason, rfl, rfl⟩

/-- The command of a scan scans. -/
theorem runCommand_of_scans {command : Command} {kind : DefinitionKind} {session : Session}
    (scans : command.scans? = some kind) :
    runCommand kit files session command = runScan files session kind := by
  cases command with
  | routeScan | eventScan =>
      obtain rfl := Option.some.inj scans
      rfl
  | routeList | boot => cases scans

theorem scansTruly {kind : DefinitionKind} (scans : invocation.command.scans? = some kind) :
    ScansTruly files (invocation.session kit files) kind (invocation.run kit files) := by
  cases loads : invocation.session kit files with
  | error cause =>
      rw [invocation.run_of_error loads]
      exact ⟨by simp, by simp⟩
  | ok session =>
      rw [invocation.run_of_session loads, runCommand_of_scans scans, runScan]
      cases scan : session.scan files kind with
      | mk after result =>
          cases result with
          | error cause =>
              exact ⟨by simp [scan],
                by simp⟩
          | ok _ =>
              refine ⟨by simp [scan], fun tree _ => ?_⟩
              obtain ⟨records, resolves, holds⟩ := Session.exists_records tree scan
              exact ⟨session, records, rfl, resolves, holds⟩

theorem listsTruly (reads : ∀ value, read (kit.json value ++ "\n") = some value) {json : Bool}
    (lists : invocation.command = .routeList json) :
    ListsTruly read files (invocation.session kit files) json (invocation.run kit files) := by
  cases loads : invocation.session kit files with
  | error cause =>
      rw [invocation.run_of_error loads]
      exact ⟨rfl, by simp, by simp⟩
  | ok session =>
      rw [invocation.run_of_session loads, lists, runCommand, runList]
      cases resolves : session.endpoints files with
      | error cause =>
          refine ⟨rfl, by simp [resolves], ?_⟩
          rintro - _ endpoints ⟨⟩ resolved
          simp [resolves] at resolved
      | ok endpoints =>
          refine ⟨rfl, by simp [resolves], ?_⟩
          rintro rfl _ others ⟨⟩ resolved
          obtain rfl := Except.ok.inj (resolves.symm.trans resolved)
          exact readRecords_listing reads endpoints

/-- A scan of routes and a list of them read the same session. -/
theorem agree (reads : ∀ value, read (kit.json value ++ "\n") = some value)
    (config : Option String) (files : FileSystem) :
    Agree read files (Invocation.session kit ⟨config, .routeScan none⟩ files)
      (Invocation.run kit files ⟨config, .routeScan none⟩)
      (Invocation.run kit files ⟨config, .routeList true⟩) := by
  have same : Invocation.session kit ⟨config, .routeList true⟩ files =
      Invocation.session kit ⟨config, .routeScan none⟩ files := rfl
  cases loads : Invocation.session kit ⟨config, .routeScan none⟩ files with
  | error cause =>
      rw [Invocation.run_of_error loads, Invocation.run_of_error (same.trans loads)]
      exact ⟨by simp,
        by simp, fun _ => rfl⟩
  | ok session =>
      rw [Invocation.run_of_session loads, Invocation.run_of_session (same.trans loads)]
      have found := Session.definitions_eq_resolution session files .routes
      dsimp only [runCommand, runList, runScan]
      cases resolves : session.endpoints files with
      | error cause =>
          have fails : session.definitions files .routes = .error cause := by
            rw [found]
            exact congrArg (Except.map _) resolves
          have scan : session.scan files .routes = (files, .error cause) := by
            rw [Session.scan, fails]
          rw [scan]
          exact ⟨by simp,
            by simp [fails], fun _ => rfl⟩
      | ok endpoints =>
          have succeeds : session.definitions files .routes =
              .ok (Registration.routeDefinitions endpoints) := by
            rw [found]
            exact congrArg (Except.map _) resolves
          refine ⟨fun tree exits => ?_, by simp [succeeds],
            by simp⟩
          cases scan : session.scan files .routes with
          | mk after result =>
              cases result with
              | error cause => simp [scan] at exits
              | ok _ =>
                  obtain ⟨records, isRecords, holds⟩ := Session.exists_records tree scan
                  obtain rfl := Except.ok.inj (resolves.symm.trans isRecords)
                  exact ⟨session, endpoints, rfl, holds, rfl, readRecords_listing reads endpoints⟩

/-- Of the lines of a pass those say that a file was loaded that are about the files that
were. -/
theorem filter_bootLines (report : BootReport) (loads : List Load) :
    (bootLines report loads).filter isLoadLine = loads.map ("Loaded " ++ ·.path) := by
  have told : ∀ kind, isLoadLine (scannedLine kind) = false := by
    intro kind
    cases kind <;> decide
  have loaded : ∀ path : String, isLoadLine ("Loaded " ++ path) = true := by
    intro path
    simp [isLoadLine]
  unfold bootLines
  rw [List.filter_append, List.filter_append]
  have events : (if report.events.scanned then [scannedLine .events] else []).filter
      isLoadLine = [] := by
    split <;> simp [told]
  have routes : (if report.routes.scanned then [scannedLine .routes] else []).filter
      isLoadLine = [] := by
    split <;> simp [told]
  rw [events, routes, List.nil_append, List.nil_append]
  cases loads with
  | nil => decide
  | cons load rest => simp [loaded, List.filter_map, Function.comp_def]

theorem runBoot_of_ok {session : Session} {report : BootReport}
    (succeeds : (session.boot (.accepting session.config.environment) files).result = .ok report) :
    runBoot files session =
      .printed (session.boot (.accepting session.config.environment) files).files
        (bootLines report (session.boot (.accepting session.config.environment) files).loads) := by
  dsimp only [runBoot]
  rw [succeeds]

theorem runBoot_of_error {session : Session} {cause : ScanError}
    (fails : (session.boot (.accepting session.config.environment) files).result = .error cause) :
    runBoot files session =
      .failed (session.boot (.accepting session.config.environment) files).files cause := by
  dsimp only [runBoot]
  rw [fails]

theorem bootsTruly (session : Session) (files : FileSystem) :
    BootsTruly files session (.accepting session.config.environment) (runBoot files session) := by
  have accepts := Session.accepts_accepting session.config.environment
  constructor
  · cases ends : (session.boot (.accepting session.config.environment) files).result with
    | error cause =>
        rw [runBoot_of_error ends]
        simp
    | ok report =>
        rw [runBoot_of_ok ends]
        simp
  · intro report succeeds
    rw [runBoot_of_ok succeeds]
    exact ⟨_, rfl, filter_bootLines report _⟩
  · exact Session.boot_loads accepts session files
  · intro events cause succeeds fails
    rcases Session.boot_cases accepts session files with
      ⟨other, failsToo, -⟩ | ⟨told, -, pass⟩
    · simp [succeeds] at failsToo
    have first := Session.staged_stage accepts session .events files
    have second := Session.staged_stage accepts session .routes
      (session.stage (.accepting session.config.environment) .events files).files
    have ends : (session.boot (.accepting session.config.environment) files).result =
        .error cause := by
      rw [pass]
      exact congrArg (Except.map _) fails
    rw [runBoot_of_error ends]
    have stays : IsTree files → ∀ entry,
        (session.stage (.accepting session.config.environment) .events files).files.find
          (session.storage.path .events) = .ok entry →
        (session.boot (.accepting session.config.environment) files).files.find
          (session.storage.path .events) = .ok entry := by
      intro tree entry found
      rw [pass]
      exact second.find_of_error (first.isTree tree) fails found
    refine ⟨rfl, rfl, stays, fun tree scanned => ?_⟩
    obtain ⟨listeners, resolves, holds⟩ :=
      Session.exists_records tree (first.scan_of_told succeeds scanned)
    exact ⟨listeners, resolves, stays tree _ holds⟩

/-- Every run is truthful, whatever the files and the arguments are, if printed values can be
read back. -/
theorem run_truthful (kit : Toolkit) (read : String → Option Json)
    (reads : ∀ value, read (kit.json value ++ "\n") = some value) (files : FileSystem)
    (arguments : List String) : Truthful kit read files arguments where
  silent := by
    intro fails
    rcases run_cases kit files arguments with
      ⟨reason, -, same⟩ | ⟨after, output, same⟩ | ⟨after, cause, same⟩
    · rw [same]
    · rw [same] at fails
      exact absurd rfl fails
    · rw [same]
      rfl
  misuse := by
    constructor
    · intro misused
      rcases run_cases kit files arguments with
        ⟨reason, unknown, -⟩ | ⟨after, output, same⟩ | ⟨after, cause, same⟩
      · exact ⟨reason, unknown⟩
      · simp [same] at misused
      · simp [same] at misused
    · rintro ⟨reason, unknown⟩
      rw [run, unknown]
      rfl
  untouched := by
    intro misused
    rcases run_cases kit files arguments with
      ⟨reason, -, same⟩ | ⟨after, output, same⟩ | ⟨after, cause, same⟩
    · rw [same]
    · simp [same] at misused
    · simp [same] at misused
  scans := by
    intro invocation kind asks scans
    rw [run_of_request asks]
    exact scansTruly scans
  lists := by
    intro config json asks
    rw [run_of_request asks]
    exact listsTruly reads rfl
  agrees := by
    intro config others asks asksOthers
    rw [run_of_request asks, run_of_request asksOthers]
    exact agree reads config files
  boots := by
    intro config session asks loads
    rw [run_of_request asks, Invocation.run_of_session loads]
    exact bootsTruly session files

/-- Whether the file of the events is generated and the routes fail afterwards. -/
def failsAfterEvents (files : FileSystem) (session : Session) (host : Host) : Bool :=
  let first := session.stage host .events files
  match first.result with
  | .ok events => events.scanned && !(session.stage host .routes first.files).result.isOk
  | .error _ => false

/-- A method with a listener and a route that cannot be read, and a configuration that asks
for both. -/
def brokenPage : FileSystem where
  entries := ⟨[
    (["annoscan.toml"], .file "routes.classes=['P']\nevents.classes=['P']".toUTF8),
    (["app"], .directory),
    (["app", "P.php"],
      .file "<?php class P\x7b/**@Hears(\"b\") @Get(*/function b()\x7b\x7d\x7d".toUTF8)],
    by simp⟩
  workingDirectory := []

theorem isTree_brokenPage : IsTree brokenPage :=
  ⟨closed_of_entries (by simp [brokenPage, entry?, OrderedMap.get?, OrderedMap.lookupIn]), rfl⟩

/-- A boot pass whose routes fail leaves the file of the events, exits with one, and prints
nothing. -/
theorem run_truthful_broken_routes :
    (run Program.toolkit brokenPage ["boot"]).ending.exitCode = 1 ∧
      (run Program.toolkit brokenPage ["boot"]).output = "" ∧
      ∃ session listeners,
        Invocation.session Program.toolkit ⟨none, .boot⟩ brokenPage = .ok session ∧
        session.listeners brokenPage = .ok listeners ∧
        session.HoldsRecords (run Program.toolkit brokenPage ["boot"]).files .events listeners := by
  have asks : Program.toolkit.request ["boot"] = .invoke ⟨none, .boot⟩ := by decide
  have broken : (Invocation.session Program.toolkit ⟨none, .boot⟩ brokenPage).toOption.any
      (fun session =>
        failsAfterEvents brokenPage session (.accepting session.config.environment)) = true := by
    decide +kernel
  cases loads : Invocation.session Program.toolkit ⟨none, .boot⟩ brokenPage with
  | error cause => simp [loads, Except.toOption] at broken
  | ok session =>
      have boots := (run_truthful Program.toolkit Program.readJson Program.readJson_json brokenPage
        ["boot"]).boots none session asks loads
      rw [loads, Except.toOption, Option.any_some, failsAfterEvents] at broken
      split at broken
      · next events succeeds =>
          rw [Bool.and_eq_true] at broken
          cases fails : (session.stage (.accepting session.config.environment) .routes
              (session.stage (.accepting session.config.environment) .events
                brokenPage).files).result with
          | ok report => simp [fails, Except.isOk, Except.toBool] at broken
          | error cause =>
              obtain ⟨exits, silent, -, holds⟩ := boots.stays events cause succeeds fails
              obtain ⟨listeners, resolves, stays⟩ := holds isTree_brokenPage broken.1
              exact ⟨exits, silent, session, listeners, rfl, resolves, stays⟩
      · cases broken

end CommandLine

end DocblockScan
