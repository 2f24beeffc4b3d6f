import DocblockScan.FileSystem.Basic
import DocblockScan.Namespace
import DocblockScan.Tag

/-!
# Registries of tag names

A registry says which names after an at sign are tags. It lists namespaces in
the order they were registered, each with the short names it declares. A bare
name belongs to the first namespace that declares it; a qualified name belongs
to exactly the namespace it spells.
-/

namespace DocblockScan

/-- The recognised namespaces in registration order, with their short names. -/
structure Registry where
  namespaces : OrderedMap String (List String)
deriving Repr, DecidableEq

namespace Registry

/-- The registry that recognises nothing. -/
def empty : Registry := ⟨.empty⟩

/-- The namespace of the built-in routing tags. -/
def routingNamespace : String := "Annoscan\\Routing\\Annotations"

/-- The namespace of the built-in event tags. -/
def eventsNamespace : String := "Annoscan\\Events\\Annotations"

/-- The short names that a built-in namespace declares. -/
def builtin? (name : String) : Option (List String) :=
  if name = routingNamespace then
    some ["Get", "Post", "Put", "Patch", "Delete", "Options", "Any", "Prefix",
      "Controller", "Group", "Middleware", "Where", "Resource"]
  else if name = eventsNamespace then some ["Hears"]
  else none

/-- Names in order of first mention, those already known first. -/
def extendNames (known names : List String) : List String :=
  names.foldl (fun kept name => if kept.contains name then kept else kept ++ [name]) known

/-- Register a namespace, or extend it where it stands. -/
def add (registry : Registry) (name : String) (shortNames : List String) : Registry :=
  let name := Namespace.trim name
  let known := (registry.namespaces.get? name).getD []
  ⟨registry.namespaces.insert name (extendNames known shortNames)⟩

/-- Register a built-in namespace, if the name is one. -/
def addBuiltin? (registry : Registry) (name : String) : Option Registry :=
  (builtin? (Namespace.trim name)).map (registry.add name)

/-- The registry of the built-in routing tags. -/
def routing : Registry :=
  (empty.addBuiltin? routingNamespace).getD empty

/-- The registry of the built-in event tags. -/
def events : Registry :=
  (empty.addBuiltin? eventsNamespace).getD empty

/-- The extension of files that declare tags and classes. -/
def sourceExtension : String := "php"

/-- The short name that a file declares: its stem, if it is a source file. -/
def shortNameOfFile? (way : Location) : Option String := do
  let fileName ← way.getLast?
  if Path.extension? fileName = some sourceExtension then some (Path.stem fileName)
  else none

/-- Register a namespace whose short names are the stems of the source files
below a directory. Without the directory the registry stays as it is. -/
def addDirectory (registry : Registry) (files : FileSystem) (name path : String) :
    Except FileFailure Registry :=
  if files.isDirectory path then do
    return registry.add name ((← files.walk path).filterMap shortNameOfFile?)
  else .error (.noTagDirectory name)

/-- A name cut at its last separator into a namespace and a short name. -/
def splitQualified? (name : String) : Option (String × String) :=
  (Text.splitLast? Namespace.separator name.toList).map fun parts =>
    (.ofList parts.1, .ofList parts.2)

/-- The first namespace that declares a short name. -/
def namespaceDeclaring? (registry : Registry) (shortName : String) : Option String :=
  (registry.namespaces.entries.find? fun entry => entry.2.contains shortName).map Prod.fst

/-- The full name and the kind of a name as it is written after an at sign. -/
def resolve? (registry : Registry) (written : String) : Option (String × TagKind) :=
  let name := Namespace.trim written
  if name = "" then none
  else
    match splitQualified? name with
    | some (outer, shortName) =>
        match registry.namespaces.get? outer with
        | some names =>
            if names.contains shortName then some (name, .ofShortName shortName) else none
        | none => none
    | none =>
        (registry.namespaceDeclaring? name).map fun outer =>
          (outer ++ "\\" ++ name, .ofShortName name)

end Registry

end DocblockScan
