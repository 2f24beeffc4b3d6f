import DocblockScan.Config.Basic
import DocblockScan.Toml.Value

/-!
# Loading configurations

A configuration is a TOML document, which a reader takes apart first. Keys it does not
know are passed over, as long as their values can be read; a known key with a value of the
wrong type makes the document malformed. A missing file stands for the default
configuration.
-/

namespace DocblockScan.Config

open Toml (Value)

/-- The value of a key, decoded; the default if the key is absent. -/
def fieldOr {Result : Type} (default : Result) (decode : Value → Option Result)
    (entries : List (String × Value)) (key : String) : Option Result :=
  match entries.find? fun entry => entry.1 == key with
  | none => some default
  | some entry => decode entry.2

/-- A text. -/
def decodeText : Value → Option String
  | .string text => some text
  | _ => none

/-- A truth value. -/
def decodeFlag : Value → Option Bool
  | .boolean value => some value
  | _ => none

/-- A list whose items are all of one shape. -/
def decodeList {Result : Type} (decode : Value → Option Result) :
    Value → Option (List Result)
  | .array items => items.mapM decode
  | _ => none

/-- How many bits an integer may have that no key asks for. -/
def widestInteger : Nat := 128

/-- Whether the values of all keys that are not known can be read. -/
def unknownReadable (known : List String) (entries : List (String × Value)) : Bool :=
  entries.all fun (key, value) => known.contains key || value.isReadable widestInteger

/-- The entries of a table, or those of an array that lists the values of some
keys in order. A date is a record that has none of the keys. -/
def recordEntries (keys : List String) : Value → Option (List (String × Value))
  | .table entries => if unknownReadable keys entries then some entries else none
  | .array items => some (keys.zip items)
  | .dateTime _ => some []
  | _ => none

/-- The keys of a tag namespace. -/
def tagNamespaceKeys : List String := ["namespace", "path"]

/-- A tag namespace; it must have a name. -/
def decodeTagNamespace (value : Value) : Option TagNamespace := do
  let entries ← recordEntries tagNamespaceKeys value
  let name ← fieldOr none (Option.map some ∘ decodeText) entries "namespace"
  let path ← fieldOr none (Option.map some ∘ decodeText) entries "path"
  return ⟨← name, path⟩

/-- A tag namespace that, written as an array, has no items beyond its keys. -/
def decodeExactTagNamespace (value : Value) : Option TagNamespace :=
  match value with
  | .array items =>
      if items.length ≤ tagNamespaceKeys.length then decodeTagNamespace value else none
  | _ => decodeTagNamespace value

/-- The keys of scan targets. -/
def targetKeys : List String :=
  ["prefix", "classes", "namespaces", "only", "except", "annotation_namespaces"]

/-- Scan targets with the given entries. -/
def decodeTargets (decodeExtra : Value → Option TagNamespace)
    (entries : List (String × Value)) : Option ScanTargets := do
  let qualifier ← fieldOr none (Option.map some ∘ decodeText) entries "prefix"
  let classes ← fieldOr [] (decodeList decodeText) entries "classes"
  let namespaces ← fieldOr [] (decodeList decodeText) entries "namespaces"
  let only ← fieldOr [] (decodeList decodeText) entries "only"
  let except ← fieldOr [] (decodeList decodeText) entries "except"
  let tagNamespaces ← fieldOr [] (decodeList decodeExtra) entries "annotation_namespaces"
  return { qualifier, classes, namespaces, only, except, tagNamespaces }

/-- The targets of listeners, as a table or an array. -/
def decodeEvents (value : Value) : Option ScanTargets := do
  decodeTargets decodeTagNamespace (← recordEntries targetKeys value)

/-- The key that has the controllers scanned. -/
def controllersKey : String := "scan_controllers"

/-- Whether all entries can be read with integers of a machine word, apart from the
one that has the controllers scanned. -/
def targetsReadable (entries : List (String × Value)) : Bool :=
  entries.all fun (key, value) => key == controllersKey || value.isReadable 64

/-- The targets of routes, and whether the controllers are scanned; only a table
holds both. A date stands for neither. -/
def decodeRoutes : Value → Option (ScanTargets × Bool)
  | .table entries => do
      if !targetsReadable entries then none
      let targets ← decodeTargets decodeExactTagNamespace entries
      return (targets, ← fieldOr false decodeFlag entries controllersKey)
  | .dateTime _ => some ({}, false)
  | _ => none

/-- The keys of a configuration. -/
def configKeys : List String :=
  ["root_namespace", "app_path", "storage_path", "environment", "scan_when_local", "routes",
    "events"]

/-- The configuration of a top-level table. -/
def decode (entries : List (String × Value)) : Option Config := do
  let standard : Config := {}
  if !unknownReadable configKeys entries then none
  let rootNamespace ← fieldOr standard.rootNamespace decodeText entries "root_namespace"
  let applicationPath ← fieldOr standard.applicationPath decodeText entries "app_path"
  let storagePath ← fieldOr standard.storagePath decodeText entries "storage_path"
  let environment ← fieldOr standard.environment decodeText entries "environment"
  let scanWhenLocal ← fieldOr standard.scanWhenLocal decodeFlag entries "scan_when_local"
  let (routes, scanControllers) ←
    fieldOr (standard.routes, standard.scanControllers) decodeRoutes entries "routes"
  let events ← fieldOr standard.events decodeEvents entries "events"
  return ⟨rootNamespace, applicationPath, storagePath, environment, scanWhenLocal, routes,
    scanControllers, events⟩

/-- The configuration of a document. -/
def parse (toml : Toml.Reader) (document : String) : Except ScanError Config :=
  match (toml document).bind decode with
  | some config => .ok config
  | none => .error (.config .malformed)

/-- The directory that the relative paths of a configuration file start from. -/
def baseOf (path : String) : String :=
  match Path.parent? path with
  | some outer => if outer = "" then "." else outer
  | none => "."

/-- The configuration of a file, with its relative paths put below the directory
of the file. -/
def load (toml : Toml.Reader) (files : FileSystem) (path : String) : Except ScanError Config :=
  if files.exists? path then do
    let document ← (files.readText path).mapError fun failure =>
      ScanError.config (.unreadable path failure)
    return (← parse toml document).resolvedAgainst (baseOf path)
  else .ok (({} : Config).resolvedAgainst (baseOf path))

end DocblockScan.Config
