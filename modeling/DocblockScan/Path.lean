/-!
# Path texts

Paths are kept as they were written: joining and taking a parent work on the
text and consult no file system. A slash separates the pieces of a path; an
empty piece or a dot after the first piece carries no meaning of its own.
-/

namespace DocblockScan.Path

/-- What one piece of a path stands for. -/
inductive Component where
  | root
  | current
  | parent
  | name (text : String)
deriving Repr, DecidableEq

/-- The file or directory name of a component that is one. -/
def Component.name? : Component → Option String
  | .name text => some text
  | _ => none

/-- Whether a path does not start at the root. -/
def isRelative (path : String) : Bool :=
  path.toList.head? != some '/'

/-- Continue a path by another one. An absolute continuation replaces it. -/
def join (base path : String) : String :=
  if !isRelative path then path
  else if base = "" then path
  else if base.toList.getLast? = some '/' then base ++ path
  else base ++ "/" ++ path

/-- The pieces between the slashes of a path. -/
def pieces (path : String) : List String :=
  (path.toList.splitOn '/').map String.ofList

/-- A piece that a reader of the path passes over. -/
def isIdle (piece : String) : Bool :=
  piece == "" || piece == "."

/-- The component that a piece after the first one stands for. -/
def innerComponent? (piece : String) : Option Component :=
  if isIdle piece then none
  else if piece = ".." then some .parent
  else some (.name piece)

/-- The meaningful components of a path. A dot counts only at the very start. -/
def components (path : String) : List Component :=
  match pieces path with
  | [] => []
  | first :: rest =>
      let start :=
        if first = "" then (if rest.isEmpty then [] else [Component.root])
        else if first = "." then [.current]
        else (innerComponent? first).toList
      start ++ rest.filterMap innerComponent?

/-- The paths that the first piece and ever fewer of the pieces after it spell,
down to the outermost one. The later pieces come last one first. -/
def shorterPaths (first : String) : List String → List String
  | [] => if first = "" then ["/"] else [first, ""]
  | piece :: before =>
      if isIdle piece then shorterPaths first before
      else String.intercalate "/" (first :: (piece :: before).reverse) ::
        shorterPaths first before

/-- The parent of a path, the parent of that, and so on. -/
def ancestors (path : String) : List String :=
  match pieces path with
  | [] => []
  | first :: rest =>
      match rest.reverse.dropWhile isIdle with
      | [] => if first = "" then [] else [""]
      | _ :: before => shorterPaths first before

/-- The path without its last component. -/
def parent? (path : String) : Option String :=
  (ancestors path).head?

/-- The place of the last dot of a file name, as what stands before and after
it. A dot that starts the name separates nothing. -/
def splitExtension? (fileName : String) : Option (String × String) :=
  match (fileName.toList.reverse).dropWhile (· != '.') with
  | [] => none
  | _ :: before =>
      if before = [] then none
      else some (.ofList before.reverse,
        .ofList (fileName.toList.reverse.takeWhile (· != '.')).reverse)

/-- A file name without its extension. -/
def stem (fileName : String) : String :=
  match splitExtension? fileName with
  | some (before, _) => before
  | none => fileName

/-- What follows the last dot of a file name. -/
def extension? (fileName : String) : Option String :=
  (splitExtension? fileName).map Prod.snd

end DocblockScan.Path
