import DocblockScan.ClassSource
import DocblockScan.Config.Loading
import DocblockScan.Endpoint.Resolution
import DocblockScan.Listener
import DocblockScan.Registration
import DocblockScan.Storage

/-!
# Sessions

A session brings together what to scan, where classes come from and where the
generated files go. It answers what the classes of a file system define, and
writes the generated files; a scan that fails before it writes changes nothing.
-/

namespace DocblockScan

/-- A configuration, a source of classes, and a place for generated files. -/
structure Session where
  config : Config
  source : ClassSource
  storage : Storage

namespace Session

/-- A session that generates files where its configuration says. -/
def of (config : Config) (source : ClassSource) : Session :=
  ⟨config, source, ⟨config.storagePath⟩⟩

/-- A session whose classes are found in the source files of the configured
application directory. -/
def ofSourceFiles (parser : SourceCode.Parser) (config : Config) : Session :=
  .of config (.sourceFiles parser config.applicationPath config.rootNamespace)

/-- A session that reads source files, with the configuration of a file. Another
application directory may be given in place of the configured one. -/
def load (toml : Toml.Reader) (parser : SourceCode.Parser) (files : FileSystem)
    (configPath : String) (applicationPath : Option String) : Except ScanError Session := do
  return ofSourceFiles parser ((← Config.load toml files configPath).redirected applicationPath)

/-- Where the session looks for classes. -/
def discovery (session : Session) : Discovery :=
  session.config.discovery session.source.extension

/-- The classes to read definitions of a kind from. -/
def identifiers (session : Session) (files : FileSystem) :
    DefinitionKind → Except ScanError (List String)
  | .routes => session.config.routeIdentifiers session.discovery files
  | .events => session.config.eventIdentifiers session.discovery files

/-- The declarations of those classes, as far as they have one. -/
def discover (session : Session) (files : FileSystem) (kind : DefinitionKind) :
    Except ScanError ResolvedClasses := do
  return .of session.source files (← session.identifiers files kind)

/-- The endpoints that the discovered classes declare. -/
def endpoints (session : Session) (files : FileSystem) :
    Except ScanError (List Endpoint) := do
  let found ← session.discover files .routes
  endpointsOf (← session.config.routeRegistry files) found.classes

/-- The listeners that the discovered classes declare. -/
def listeners (session : Session) (files : FileSystem) :
    Except ScanError (List Listener) := do
  let found ← session.discover files .events
  listenersOf (← session.config.eventRegistry files) found.classes

/-- The statements that register what the discovered classes declare. -/
def definitions (session : Session) (files : FileSystem) :
    DefinitionKind → Except ScanError String
  | .routes => do return Registration.routeDefinitions (← session.endpoints files)
  | .events => do return Registration.eventDefinitions (← session.listeners files)

/-- Write some definitions into a generated file, after making its directory. A
failed write leaves the directories that were made. -/
def write (files : FileSystem) (path definitions : String) :
    FileSystem × Except ScanError Unit :=
  let outer := (Path.parent? path).getD ""
  match files.makeDirectories outer with
  | (grown, .error failure) => (grown, .error (.file outer failure))
  | (grown, .ok ()) =>
      match grown.writeText path (Registration.file definitions) with
      | .ok written => (written, .ok ())
      | .error failure => (grown, .error (.file path failure))

/-- Generate the file of a kind from what the classes define now, whatever it
held before. -/
def scan (session : Session) (files : FileSystem) (kind : DefinitionKind) :
    FileSystem × Except ScanError Unit :=
  match session.definitions files kind with
  | .ok definitions => write files (session.storage.path kind) definitions
  | .error cause => (files, .error cause)

end Session

end DocblockScan
