import DocblockScan.Discovery
import DocblockScan.Registry

/-!
# Configurations

What is scanned and where. This module says which classes and which tags a
configuration asks for; reading one from a file is done elsewhere.
-/

namespace DocblockScan

/-- A further namespace of tags. Without a path of its own its directory follows
from its name. -/
structure TagNamespace where
  name : String
  path : Option String
deriving Repr, DecidableEq

/-- What is scanned for one kind of definition. -/
structure ScanTargets where
  qualifier : Option String := none
  classes : List String := []
  namespaces : List String := []
  only : List String := []
  except : List String := []
  tagNamespaces : List TagNamespace := []
deriving Repr, DecidableEq

namespace ScanTargets

/-- The classes named one by one, under their common namespace. -/
def explicitClasses (targets : ScanTargets) : List String :=
  Namespace.qualify (targets.qualifier.getD "") targets.classes

/-- The namespaces to list, with their filters. -/
def namespaceScan (targets : ScanTargets) : NamespaceScan :=
  ⟨targets.namespaces, targets.only, targets.except⟩

/-- Whether neither a class nor a namespace is asked for. -/
def isEmpty (targets : ScanTargets) : Bool :=
  targets.classes.isEmpty && targets.namespaces.isEmpty

end ScanTargets

/-- A whole configuration. With `scanControllers` the controllers namespace is
scanned for routes as well. -/
structure Config where
  rootNamespace : String := "App"
  applicationPath : String := "app"
  storagePath : String := "storage"
  environment : String := "production"
  scanWhenLocal : Bool := false
  routes : ScanTargets := {}
  scanControllers : Bool := false
  events : ScanTargets := {}
deriving Repr, DecidableEq

namespace Config

/-- A path put below a base directory, unless it is absolute. -/
def resolvePath (base path : String) : String :=
  Path.join base path

/-- Targets whose tag directories are put below a base directory. -/
def resolveTargets (base : String) (targets : ScanTargets) : ScanTargets :=
  { targets with tagNamespaces := targets.tagNamespaces.map fun extra =>
      { extra with path := extra.path.map (resolvePath base) } }

/-- The configuration with every relative path put below a base directory. -/
def resolvedAgainst (config : Config) (base : String) : Config :=
  { config with
    applicationPath := resolvePath base config.applicationPath
    storagePath := resolvePath base config.storagePath
    routes := resolveTargets base config.routes
    events := resolveTargets base config.events }

/-- The configuration with another application directory, if one is given. -/
def redirected (config : Config) (applicationPath : Option String) : Config :=
  { config with applicationPath := applicationPath.getD config.applicationPath }

/-- Where the classes of the configuration are looked for. -/
def discovery (config : Config) (extension : String) : Discovery :=
  .of config.applicationPath config.rootNamespace extension

/-- The namespace that is scanned for routes on request. -/
def controllersNamespace (config : Config) : String :=
  Namespace.join [config.rootNamespace, "Http", "Controllers"]

/-- The classes of the controllers namespace, if they are asked for. -/
def controllerClasses (config : Config) (discovery : Discovery) (files : FileSystem) :
    Except ScanError (List String) :=
  if config.scanControllers then discovery.classesIn files config.controllersNamespace
  else .ok []

/-- The classes to read routes from: those named one by one, the controllers,
and the filtered namespaces. -/
def routeIdentifiers (config : Config) (discovery : Discovery) (files : FileSystem) :
    Except ScanError (List String) := do
  let controllers ← config.controllerClasses discovery files
  discovery.identifiers files (config.routes.explicitClasses ++ controllers)
    config.routes.namespaceScan

/-- The classes to read listeners from. -/
def eventIdentifiers (config : Config) (discovery : Discovery) (files : FileSystem) :
    Except ScanError (List String) :=
  discovery.identifiers files config.events.explicitClasses config.events.namespaceScan

/-- Whether any route is asked for. -/
def hasRouteScans (config : Config) : Bool :=
  !config.routes.isEmpty || config.scanControllers

/-- Whether any listener is asked for. -/
def hasEventScans (config : Config) : Bool :=
  !config.events.isEmpty

/-- The directory of a tag namespace. -/
def tagDirectory (config : Config) (extra : TagNamespace) : String :=
  extra.path.getD (Namespace.directory config.applicationPath extra.name config.rootNamespace)

/-- A registry with one more tag namespace: a built-in one, or one whose
directory says which tags it declares. -/
def register (config : Config) (files : FileSystem) (registry : Registry)
    (extra : TagNamespace) : Except ScanError Registry :=
  match registry.addBuiltin? extra.name with
  | some grown => .ok grown
  | none =>
      let path := config.tagDirectory extra
      (registry.addDirectory files extra.name path).mapError (.file path)

/-- The tags that routes are read with. -/
def routeRegistry (config : Config) (files : FileSystem) : Except ScanError Registry :=
  config.routes.tagNamespaces.foldlM (config.register files) .routing

/-- The tags that listeners are read with. -/
def eventRegistry (config : Config) (files : FileSystem) : Except ScanError Registry :=
  config.events.tagNamespaces.foldlM (config.register files) .events

end Config

end DocblockScan
