import DocblockScan.Path
import DocblockScan.Text.Blank
import DocblockScan.Text.Pieces

/-!
# Namespaces

Class identifiers and namespaces are names whose segments a backslash
separates. This module trims and joins them and says which path a namespace
has below a base directory. It reads no directory.
-/

namespace DocblockScan.Namespace

/-- The character between two segments of a name. -/
def separator : Char := '\\'

/-- The characters that mean nothing at either end of a name. -/
def isEdge (char : Char) : Bool :=
  Text.isBlank char || char == separator

/-- A name without blanks and separators at its ends. -/
def trim (name : String) : String :=
  .ofList (Text.trimBy isEdge name.toList)

/-- The trimmed parts with one separator between them; a part that trims to
nothing is left out. -/
def join (parts : List String) : String :=
  String.intercalate "\\" ((parts.map trim).filter (· != ""))

/-- The part of a trimmed name below a trimmed root: nothing for the root
itself, what follows the root and a separator, and otherwise the whole name.
A shared beginning that ends inside a segment is no root. -/
def belowRoot (root name : List Char) : List Char :=
  if root = [] then name
  else if name = root then []
  else (Text.dropStart? (root ++ [separator]) name).getD name

/-- The relative path of a namespace: its part below the root, with a slash
for every separator. -/
def toPath (name root : String) : String :=
  let below := belowRoot (trim root).toList (trim name).toList
  .ofList ((Text.trimBy isEdge below).map fun char =>
    if char = separator then '/' else char)

/-- The directory of a namespace below a base directory. -/
def directory (base name root : String) : String :=
  let relative := toPath name root
  if relative = "" then base else Path.join base relative

/-- The file below a base directory that is expected to declare a class, with
the given extension. -/
def file (base name root extension : String) : String :=
  Path.join base (toPath name root ++ "." ++ extension)

/-- Put every trimmed name under a trimmed outer namespace. A blank outer
namespace adds nothing. -/
def qualify (outer : String) (names : List String) : List String :=
  let outer := trim outer
  names.map fun name =>
    if outer = "" then trim name else outer ++ "\\" ++ trim name

/-- The class that a file declares by its place below the directory of a
namespace, given the directories down to the file and its name. -/
def classOfFile (name : String) (directories : List String) (fileName : String) :
    String :=
  join (name :: directories ++ [Path.stem fileName])

/-- The class that a relative path stands for below a namespace. Only a path
that ends in a file name stands for one; its other special components are
passed over. -/
def classOfPath? (name path : String) : Option String :=
  let components := Path.components path
  match components.getLast? with
  | some (.name fileName) =>
      let directories := components.dropLast.filterMap Path.Component.name?
      some (classOfFile name directories fileName)
  | _ => none

/-- The last segment of a name. -/
def lastSegment (name : String) : String :=
  .ofList (Text.afterLast separator name.toList)

end DocblockScan.Namespace
