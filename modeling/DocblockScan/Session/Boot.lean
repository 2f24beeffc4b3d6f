import DocblockScan.Session.Basic

/-!
# Booting

One boot pass brings the generated files up to date where that is due and hands
them to the host application: events first, then routes unless the host has its
routes already. A stage that fails ends the pass.
-/

namespace DocblockScan

/-- The application that loads the generated files. It may refuse to load one,
for a reason. -/
structure Host where
  environment : String
  hasCachedRoutes : Bool
  refusal? : DefinitionKind → Option String

/-- A host that loads everything. -/
def Host.accepting (environment : String) : Host :=
  ⟨environment, false, fun _ => none⟩

/-- A file that the host was handed, with its text at that time. -/
structure Load where
  kind : DefinitionKind
  path : String
  text : Option String
deriving Repr, DecidableEq

/-- What one stage did: whether it generated its file, and the path it handed to
the host. -/
structure StageReport where
  scanned : Bool := false
  loaded : Option String := none
deriving Repr, DecidableEq

/-- What a boot pass did. -/
structure BootReport where
  events : StageReport := {}
  routes : StageReport := {}
deriving Repr, DecidableEq

/-- Where a stage or a pass ended: the files then, what the host was handed, and
the report or the cause of failure. -/
structure BootOutcome (Report : Type) where
  files : FileSystem
  loads : List Load
  result : Except ScanError Report

namespace Session

/-- Whether the configuration asks for definitions of a kind. -/
def wants (session : Session) : DefinitionKind → Bool
  | .routes => session.config.hasRouteScans
  | .events => session.config.hasEventScans

/-- Whether files are generated anew although they exist. -/
def rescansFor (session : Session) (host : Host) : Bool :=
  host.environment == "local" && session.config.scanWhenLocal

/-- Hand the file of a kind to the host, if it exists. -/
def handOver (session : Session) (host : Host) (kind : DefinitionKind) (scanned : Bool)
    (files : FileSystem) : BootOutcome StageReport :=
  if session.storage.isGenerated files kind then
    let path := session.storage.path kind
    match host.refusal? kind with
    | some reason => ⟨files, [], .error (.refused reason)⟩
    | none => ⟨files, [⟨kind, path, (files.readText path).toOption⟩], .ok ⟨scanned, some path⟩⟩
  else ⟨files, [], .ok ⟨scanned, none⟩⟩

/-- The stage of a kind. Its file is generated if it is missing or has to be
generated anew. -/
def stage (session : Session) (host : Host) (kind : DefinitionKind) (files : FileSystem) :
    BootOutcome StageReport :=
  if !session.wants kind then ⟨files, [], .ok {}⟩
  else if session.rescansFor host || !session.storage.isGenerated files kind then
    match session.scan files kind with
    | (grown, .ok ()) => session.handOver host kind true grown
    | (grown, .error cause) => ⟨grown, [], .error cause⟩
  else session.handOver host kind false files

/-- One boot pass. -/
def boot (session : Session) (host : Host) (files : FileSystem) : BootOutcome BootReport :=
  let first := session.stage host .events files
  match first.result with
  | .error cause => ⟨first.files, first.loads, .error cause⟩
  | .ok events =>
      if host.hasCachedRoutes then ⟨first.files, first.loads, .ok { events }⟩
      else
        let second := session.stage host .routes first.files
        ⟨second.files, first.loads ++ second.loads,
          second.result.map fun routes => { events, routes }⟩

end Session

end DocblockScan
