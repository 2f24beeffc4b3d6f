import DocblockScan.FileSystem.Basic

/-!
# Where generated files live

Two kinds of definitions are generated, each into a file of its own below the
storage directory.
-/

namespace DocblockScan

/-- What a scan generates. -/
inductive DefinitionKind where
  | events
  | routes
deriving Repr, DecidableEq

/-- The name of a generated file. -/
def DefinitionKind.fileName : DefinitionKind → String
  | .events => "events.scanned.php"
  | .routes => "routes.scanned.php"

/-- The directory below which generated files are kept. -/
structure Storage where
  directory : String
deriving Repr, DecidableEq

namespace Storage

/-- The path of a generated file. -/
def path (storage : Storage) (kind : DefinitionKind) : String :=
  Path.join (Path.join storage.directory "framework") kind.fileName

/-- Whether something stands where a file is generated. -/
def isGenerated (storage : Storage) (files : FileSystem) (kind : DefinitionKind) : Bool :=
  files.exists? (storage.path kind)

end Storage

end DocblockScan
