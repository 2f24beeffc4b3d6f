import DocblockScan.CommandLine.Listing
import DocblockScan.Session.Boot

/-!
# Running a command line

A run takes the files as they are and the arguments, and says what the files are
afterwards, how the run ended and what it printed. Only a run that succeeds prints
anything. What arguments, configurations and source files say and how values and tables
look is up to a toolkit.
-/

namespace DocblockScan.CommandLine

/-- How a run ends. What is reported of a failure or a misuse is not part of the output. -/
inductive Ending where
  | success
  | failure (cause : ScanError)
  | misuse (reason : String)
deriving Repr, DecidableEq

/-- The number that the program exits with. -/
def Ending.exitCode : Ending → Nat
  | .success => 0
  | .failure _ => 1
  | .misuse _ => 2

/-- What a run leaves behind. -/
structure Outcome where
  files : FileSystem
  ending : Ending
  output : String

namespace Outcome

/-- A run that printed some lines and succeeded. -/
def printed (files : FileSystem) (lines : List String) : Outcome :=
  ⟨files, .success, String.join (lines.map (· ++ "\n"))⟩

/-- A run that failed for a cause. -/
def failed (files : FileSystem) (cause : ScanError) : Outcome :=
  ⟨files, .failure cause, ""⟩

end Outcome

/-- The configuration file of a run that names none. -/
def defaultConfigPath : String := "annoscan.toml"

/-- What is printed once the file of a kind has been generated. -/
def scannedLine : DefinitionKind → String
  | .events => "Events scanned!"
  | .routes => "Routes scanned!"

/-- Generate the file of a kind. -/
def runScan (files : FileSystem) (session : Session) (kind : DefinitionKind) : Outcome :=
  match session.scan files kind with
  | (written, .ok ()) => .printed written [scannedLine kind]
  | (written, .error cause) => .failed written cause

/-- List the endpoints. -/
def runList (kit : Toolkit) (files : FileSystem) (session : Session) (json : Bool) : Outcome :=
  match session.endpoints files with
  | .ok endpoints => .printed files [listing kit json endpoints]
  | .error cause => .failed files cause

/-- The lines that report a boot pass: what was generated, and what was loaded. -/
def bootLines (report : BootReport) (loads : List Load) : List String :=
  (if report.events.scanned then [scannedLine .events] else []) ++
    (if report.routes.scanned then [scannedLine .routes] else []) ++
    (if loads.isEmpty then ["Nothing to load."] else loads.map ("Loaded " ++ ·.path))

/-- Boot a host that accepts everything. -/
def runBoot (files : FileSystem) (session : Session) : Outcome :=
  let outcome := session.boot (.accepting session.config.environment) files
  match outcome.result with
  | .ok report => .printed outcome.files (bootLines report outcome.loads)
  | .error cause => .failed outcome.files cause

/-- The application directory that a command names in place of the configured
one. -/
def Command.path? : Command → Option String
  | .routeScan path | .eventScan path => path
  | _ => none

/-- Run a command in a session. -/
def runCommand (kit : Toolkit) (files : FileSystem) (session : Session) : Command → Outcome
  | .routeScan _ => runScan files session .routes
  | .eventScan _ => runScan files session .events
  | .routeList json => runList kit files session json
  | .boot => runBoot files session

/-- Load the configuration of an invocation and run its command. -/
def Invocation.run (kit : Toolkit) (files : FileSystem) (invocation : Invocation) : Outcome :=
  let configPath := invocation.config.getD defaultConfigPath
  match Session.load kit.toml kit.parser files configPath invocation.command.path? with
  | .ok session => runCommand kit files session invocation.command
  | .error cause => .failed files cause

/-- Run a command line. -/
def run (kit : Toolkit) (files : FileSystem) (arguments : List String) : Outcome :=
  match kit.request arguments with
  | .invoke invocation => invocation.run kit files
  | .print text => ⟨files, .success, text⟩
  | .misuse reason => ⟨files, .misuse reason, ""⟩

end DocblockScan.CommandLine
