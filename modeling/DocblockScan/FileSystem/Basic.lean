import DocblockScan.FileSystem.Failure
import DocblockScan.OrderedMap
import DocblockScan.Path

/-!
# File systems as values

A file system is a finite map from locations to entries, together with a
working directory. A location is the list of names from the root down; the
root itself is always a directory. This module says how a path text is
followed to a location, and what reading, writing and listing do. Every
operation is a function on the value; none of them is an action.
-/

namespace DocblockScan

/-- What can stand at a location. -/
inductive FileEntry where
  | file (contents : ByteArray)
  | directory
  | link (target : String)

/-- Two files are equal when they hold the same bytes, and two links when they
have the same target. -/
instance : DecidableEq FileEntry
  | .file left, .file right =>
      decidable_of_iff (left.data.toList = right.data.toList)
        ⟨fun same => by
          cases left; cases right
          cases Array.toList_inj.1 same
          rfl,
        fun same => by cases same; rfl⟩
  | .directory, .directory => .isTrue rfl
  | .link left, .link right =>
      decidable_of_iff (left = right) ⟨fun same => same ▸ rfl, fun same => by cases same; rfl⟩
  | .file _, .directory => .isFalse nofun
  | .file _, .link _ => .isFalse nofun
  | .directory, .file _ => .isFalse nofun
  | .directory, .link _ => .isFalse nofun
  | .link _, .file _ => .isFalse nofun
  | .link _, .directory => .isFalse nofun

/-- The names from the root down to a place. -/
abbrev Location := List String

/-- All files, directories and links, and the directory that relative paths
start from. -/
structure FileSystem where
  entries : OrderedMap Location FileEntry
  workingDirectory : Location
deriving DecidableEq

namespace FileSystem

/-- The locations from right below the root down to a location. -/
def downTo (location : Location) : List Location :=
  (List.range location.length).map fun depth => location.take (depth + 1)

/-- The file system that holds nothing but the directories down to its working
directory. -/
def withWorkingDirectory (location : Location) : FileSystem where
  entries := .ofList ((downTo location).map fun outer => (outer, .directory))
  workingDirectory := location

/-- The entry at a location. The root is a directory. -/
def entry? (files : FileSystem) (location : Location) : Option FileEntry :=
  if location = [] then some .directory else files.entries.get? location

/-- How many links one path may lead through. -/
def linkLimit : Nat := 40

/-- How many bytes a single name may have. -/
def nameLimit : Nat := 255

/-- How many bytes a whole path may have. -/
def pathLimit : Nat := 4095

/-- Follow names from a directory to the location they lead to. A name on the way must
be a directory or lead to one; the last name may be missing. `atLink` goes on from the
directory of a link, with the target of the link and the names after it. -/
def followNames (files : FileSystem)
    (atLink : Location → String → List String → Except FileFailure Location)
    (here : Location) : List String → Except FileFailure Location
  | [] => .ok here
  | name :: rest =>
      if Path.isIdle name then followNames files atLink here rest
      else if name = ".." then followNames files atLink here.dropLast rest
      else if nameLimit < name.utf8ByteSize then .error .nameTooLong
      else
        let next := here ++ [name]
        match files.entry? next with
        | none => if rest = [] then .ok next else .error .notFound
        | some (.file _) => if rest = [] then .ok next else .error .notDirectory
        | some .directory => followNames files atLink next rest
        | some (.link target) => atLink here target rest

/-- Follow names and links. A link is replaced by its target, as often as the budget
allows. -/
def follow (files : FileSystem) : Nat → Location → List String → Except FileFailure Location
  | 0 => followNames files fun _ _ _ => .error .tooManyLinks
  | smaller + 1 => followNames files fun here target rest =>
      let start := if Path.isRelative target then here else []
      follow files smaller start (Path.pieces target ++ rest)

/-- Where a path starts. -/
def startOf (files : FileSystem) (path : String) : Location :=
  if Path.isRelative path then files.workingDirectory else []

/-- The location a path leads to, whether or not something stands there. -/
def locate (files : FileSystem) (path : String) : Except FileFailure Location :=
  if path = "" then .error .notFound
  else if path.toList.contains '\x00' then .error .nulInPath
  else if pathLimit < path.utf8ByteSize then .error .nameTooLong
  else files.follow linkLimit (files.startOf path) (Path.pieces path)

/-- What a path leads to. -/
def find (files : FileSystem) (path : String) : Except FileFailure FileEntry := do
  match files.entry? (← files.locate path) with
  | some entry => .ok entry
  | none => .error .notFound

/-- Whether a path leads to anything. -/
def exists? (files : FileSystem) (path : String) : Bool :=
  (files.find path).toBool

/-- Whether a path leads to a directory. -/
def isDirectory (files : FileSystem) (path : String) : Bool :=
  match files.find path with
  | .ok .directory => true
  | _ => false

/-- The text of the file a path leads to. -/
def readText (files : FileSystem) (path : String) : Except FileFailure String := do
  match ← files.find path with
  | .file contents =>
      match String.fromUTF8? contents with
      | some text => .ok text
      | none => .error .notText
  | _ => .error .isDirectory

/-- Put an entry at a location. -/
def put (files : FileSystem) (location : Location) (entry : FileEntry) : FileSystem :=
  { files with entries := files.entries.insert location entry }

/-- Put a text into the file a path leads to, replacing what it held. The
directory of the file must exist. -/
def writeText (files : FileSystem) (path text : String) :
    Except FileFailure FileSystem := do
  let location ← files.locate path
  match files.entry? location with
  | some .directory => .error .isDirectory
  | _ => .ok (files.put location (.file text.toUTF8))

/-- Make one directory. Its own directory must exist, and nothing may stand in
its place. -/
def makeDirectory (files : FileSystem) (path : String) :
    Except FileFailure FileSystem := do
  if path = "" then .error .notFound
  else if path.toList.contains '\x00' then .error .nulInPath
  else if pathLimit < path.utf8ByteSize then .error .nameTooLong
  else
    match (Path.pieces path).reverse.dropWhile (· == "") with
    | [] => .error .alreadyExists
    | last :: before =>
        let outer ← files.follow linkLimit (files.startOf path) before.reverse
        match files.entry? outer with
        | none => .error .notFound
        | some .directory =>
            if last = "." || last = ".." then .error .alreadyExists
            else if nameLimit < last.utf8ByteSize then .error .nameTooLong
            else
              match files.entry? (outer ++ [last]) with
              | some _ => .error .alreadyExists
              | none => .ok (files.put (outer ++ [last]) .directory)
        | some _ => .error .notDirectory

/-- Make the first of some paths a directory, where each path is followed by
its parent; missing parents are made first. What has been made stays even when
a later step fails. -/
def makeNested (files : FileSystem) :
    List String → FileSystem × Except FileFailure Unit
  | [] => (files, .ok ())
  | path :: outer =>
      if path = "" || files.isDirectory path then (files, .ok ())
      else
        match files.makeDirectory path with
        | .ok made => (made, .ok ())
        | .error .notFound =>
            match files.makeNested outer with
            | (grown, .error failure) => (grown, .error failure)
            | (grown, .ok ()) =>
                match grown.makeDirectory path with
                | .ok made => (made, .ok ())
                | .error failure =>
                    (grown, if grown.isDirectory path then .ok () else .error failure)
        | .error failure => (files, .error failure)

/-- Make a directory together with all its missing parents. -/
def makeDirectories (files : FileSystem) (path : String) :
    FileSystem × Except FileFailure Unit :=
  files.makeNested (path :: Path.ancestors path)

/-- Whether a name sorts before another one or equals it. Names are compared by
the code points of their characters. -/
def sortsBefore : List Char → List Char → Bool
  | [], _ => true
  | _ :: _, [] => false
  | left :: leftRest, right :: rightRest =>
      left.toNat < right.toNat ||
        (left.toNat == right.toNat && sortsBefore leftRest rightRest)

/-- The order in which a directory is walked: depth first, and siblings by their
names. -/
def walksBefore : Location → Location → Bool
  | [], _ => true
  | _ :: _, [] => false
  | left :: leftRest, right :: rightRest =>
      if left = right then walksBefore leftRest rightRest
      else sortsBefore left.toList right.toList

/-- The way from a directory to a regular file below it. -/
def wayBelow? (outer : Location) : Location × FileEntry → Option Location
  | (location, .file _) =>
      if outer.isPrefixOf location && location.length > outer.length then
        some (location.drop outer.length)
      else none
  | _ => none

/-- The ways from a directory to all regular files below it, in walking order.
Links are no regular files and are not followed. -/
def filesBelow (files : FileSystem) (outer : Location) : List Location :=
  (files.entries.entries.filterMap (wayBelow? outer)).mergeSort walksBefore

/-- The files below the directory a path leads to. -/
def walk (files : FileSystem) (path : String) : Except FileFailure (List Location) := do
  return files.filesBelow (← files.locate path)

end FileSystem

end DocblockScan
