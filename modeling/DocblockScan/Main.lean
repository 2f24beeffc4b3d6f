import DocblockScan.CommandLine.Run
import DocblockScan.Program.Toolkit

/-!
# The program

The outer layer of the command line: it observes the files that a run may read,
runs the command line on them, and carries out what the run changed. All
decisions are made by `CommandLine.run`.
-/

namespace DocblockScan.Program

/-- The files observed so far, and the places that need no second look. -/
structure Observation where
  files : FileSystem
  seen : List Location

/-- The path of a location. -/
def pathOf (location : Location) : String :=
  "/" ++ String.intercalate "/" location

/-- The location that a path without links spells. -/
def locationOf (path : String) : Location :=
  (Path.pieces path).filter fun piece => !Path.isIdle piece

/-- A location as an entry of the directory above it. -/
def entryAt (location : Location) : IO.FS.DirEntry :=
  ⟨pathOf location.dropLast, location.getLastD "."⟩

/-- Note what stands at a location. -/
def Observation.note (observed : Observation) (location : Location) (entry : FileEntry) :
    Observation :=
  { observed with files := observed.files.put location entry }

/-- Note the directories on the way to the pieces of a path, and find where it
leads. -/
def approach (observed : Observation) (here : Location) :
    List String → IO (Observation × Location)
  | [] => return (observed, here)
  | piece :: rest =>
      if Path.isIdle piece then approach observed here rest
      else if piece = ".." then approach observed here.dropLast rest
      else do
        let next := here ++ [piece]
        let isDirectory ← (entryAt next).path.isDir
        let noted := if isDirectory then observed.note next .directory else observed
        approach noted next rest

/-- Observe a location with everything below it, and the targets of its links. -/
partial def observe (observed : Observation) (location : Location) : IO Observation := do
  if observed.seen.contains location then return observed
  let observed := { observed with seen := location :: observed.seen }
  let path := (entryAt location).path
  try
    match (← path.symlinkMetadata).type with
    | .dir =>
        let mut grown := observed.note location .directory
        for entry in ← path.readDir do
          grown ← observe grown (location ++ [entry.fileName])
        return grown
    | .file => return observed.note location (.file (← IO.FS.readBinFile path))
    | .symlink =>
        let target := toString (← IO.FS.realPath path)
        let (noted, place) ← approach (observed.note location (.link target)) []
          (Path.pieces target)
        observe noted place
    | .other => return observed
  catch _ => return observed

/-- Observe what a path leads to. -/
def observePath (observed : Observation) (path : String) : IO Observation := do
  let (noted, place) ← approach observed (observed.files.startOf path) (Path.pieces path)
  observe noted place

/-- The paths that the sessions of a configuration may read. -/
def pathsOf (config : Config) : List String :=
  let storage : Storage := ⟨config.storagePath⟩
  [config.applicationPath, storage.path .events, storage.path .routes] ++
    (config.routes.tagNamespaces ++ config.events.tagNamespaces).map config.tagDirectory

/-- Observe all that an invocation may read. -/
def observeFor (observed : Observation) (invocation : CommandLine.Invocation) :
    IO Observation := do
  let configPath := invocation.config.getD CommandLine.defaultConfigPath
  let configured ← observePath observed configPath
  match Config.load toolkit.toml configured.files configPath with
  | .ok config =>
      (pathsOf (config.redirected invocation.command.path?)).foldlM observePath configured
  | .error _ => return configured

/-- Carry out what has changed between two states of the files. -/
def carryOut (before after : FileSystem) : IO Unit := do
  for (location, entry) in after.entries.entries do
    if before.entries.get? location ≠ some entry then
      match entry with
      | .directory => IO.FS.createDirAll (pathOf location)
      | .file contents => IO.FS.writeBinFile (pathOf location) contents
      | .link _ => pure ()

/-- What is reported of a run that did not succeed. -/
def report : CommandLine.Ending → String
  | .success => ""
  | .failure cause => "Error: " ++ cause.message ++ "\n"
  | .misuse reason => "error: " ++ reason ++ "\n"

/-- Run the program with its arguments, and say what it exits with. -/
def run (arguments : List String) : IO UInt32 := do
  let here := locationOf (toString (← IO.currentDir))
  let start : Observation := ⟨.withWorkingDirectory here, []⟩
  let observed ←
    match toolkit.request arguments with
    | .invoke invocation => observeFor start invocation
    | _ => pure start
  let outcome := CommandLine.run toolkit observed.files arguments
  carryOut observed.files outcome.files
  (← IO.getStdout).putStr outcome.output
  (← IO.getStderr).putStr (report outcome.ending)
  return .ofNat outcome.ending.exitCode

end DocblockScan.Program

/-- The program. -/
def main (arguments : List String) : IO UInt32 :=
  DocblockScan.Program.run arguments
