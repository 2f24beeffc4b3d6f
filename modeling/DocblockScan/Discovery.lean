import DocblockScan.FileSystem.Basic
import DocblockScan.Namespace
import DocblockScan.ScanError

/-!
# Discovery

Which classes a list of namespaces stands for: the files below the directory of
each namespace, in walking order, filtered by two lists of class names. Classes
named one by one are never filtered.
-/

namespace DocblockScan

/-- Namespaces to list, and the filters on what the listing finds. -/
structure NamespaceScan where
  namespaces : List String
  only : List String
  except : List String
deriving Repr, DecidableEq

/-- Whether a list of names has an entry that trims to a class. -/
def listsClass (names : List String) (className : String) : Bool :=
  names.any fun name => Namespace.trim name == className

/-- Whether the filters keep a class. An empty `only` keeps every class that
`except` does not list. -/
def keepsClass (only except : List String) (className : String) : Bool :=
  (only.isEmpty || listsClass only className) && !listsClass except className

/-- The classes that the filters keep, in order. -/
def filterClasses (only except classes : List String) : List String :=
  classes.filter (keepsClass only except)

/-- Where classes are looked for: a base directory, the namespace it stands for,
and the extension of the files that count. -/
structure Discovery where
  baseDirectory : String
  rootNamespace : String
  extension : String
deriving Repr, DecidableEq

namespace Discovery

/-- A discovery whose extension may be written with dots in front. -/
def of (baseDirectory rootNamespace extension : String) : Discovery where
  baseDirectory
  rootNamespace
  extension := .ofList (extension.toList.dropWhile (· == '.'))

/-- The directory of a namespace. -/
def directoryOf (discovery : Discovery) (name : String) : String :=
  Namespace.directory discovery.baseDirectory name discovery.rootNamespace

/-- The class of a file below the directory of a namespace, if its extension
counts. -/
def classOfWay? (discovery : Discovery) (name : String) (way : Location) :
    Option String := do
  let fileName ← way.getLast?
  if Path.extension? fileName = some discovery.extension then
    some (Namespace.classOfFile name way.dropLast fileName)
  else none

/-- The classes below the directory of a namespace, which must exist. -/
def classesIn (discovery : Discovery) (files : FileSystem) (name : String) :
    Except ScanError (List String) :=
  let name := Namespace.trim name
  let directory := discovery.directoryOf name
  if files.isDirectory directory then
    match files.walk directory with
    | .ok ways => .ok (ways.filterMap (discovery.classOfWay? name))
    | .error failure => .error (.file directory failure)
  else .error (.file directory (.noNamespaceDirectory name))

/-- The classes of all namespaces of a scan that its filters keep. -/
def expand (discovery : Discovery) (files : FileSystem) (scan : NamespaceScan) :
    Except ScanError (List String) := do
  let found ← scan.namespaces.mapM (discovery.classesIn files)
  return filterClasses scan.only scan.except found.flatten

/-- Classes named one by one, then those of a scan. Repetitions are kept. -/
def identifiers (discovery : Discovery) (files : FileSystem) (named : List String)
    (scan : NamespaceScan) : Except ScanError (List String) := do
  return named ++ (← discovery.expand files scan)

end Discovery

end DocblockScan
