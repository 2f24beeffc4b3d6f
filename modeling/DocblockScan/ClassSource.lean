import DocblockScan.FileSystem.Basic
import DocblockScan.Registry
import DocblockScan.ScanError
import DocblockScan.SourceCode.Classes

/-!
# Class sources

A class source says what an identifier declares. There is one that holds declarations of
its own, and one that finds them in the source files below a directory; a session works
with any. An identifier that declares nothing fails for a cause, and is skipped when a
whole list is resolved.
-/

namespace DocblockScan

/-- A lookup of class identifiers, which may read files, and the extension of the files
that hold classes. -/
structure ClassSource where
  extension : String
  resolve : FileSystem → String → Except ScanError ClassDeclaration

namespace ClassSource

/-- What an identifier declares among some declarations under their trimmed names. -/
def resolveDeclared (classes : OrderedMap String ClassDeclaration) (identifier : String) :
    Except ScanError ClassDeclaration :=
  match classes.get? (Namespace.trim identifier) with
  | some declaration => .ok declaration
  | none => .error (.unresolvedClass identifier .notRegistered)

/-- The source of some declarations under their trimmed names. -/
def declared (classes : OrderedMap String ClassDeclaration) : ClassSource where
  extension := Registry.sourceExtension
  resolve _ identifier := resolveDeclared classes identifier

/-- Declare a class in place of what its trimmed name declared before. -/
def register (classes : OrderedMap String ClassDeclaration) (declaration : ClassDeclaration) :
    OrderedMap String ClassDeclaration :=
  classes.insert (Namespace.trim declaration.name) declaration

/-- The source of some declarations; of those with one trimmed name the last
counts. -/
def ofDeclarations (declarations : List ClassDeclaration) : ClassSource :=
  .declared (declarations.foldl register .empty)

/-- Whether two class names are the same up to the case of ASCII letters. -/
def sameName (left right : String) : Bool :=
  left.toList.map Char.toLower == right.toList.map Char.toLower

/-- The file that is expected to declare a class. -/
def fileOf (directory rootNamespace name : String) : String :=
  Namespace.file directory name rootNamespace Registry.sourceExtension

/-- The declaration of a class in a source text, which may declare others as well. -/
def declarationIn (parser : SourceCode.Parser) (text path name : String) :
    Except LookupFault ClassDeclaration :=
  match SourceCode.declaredClasses parser text with
  | none => .error .noTree
  | some classes =>
      match classes.find? (sameName ·.name name) with
      | none => .error (.notDeclared path)
      | some declaration => .ok { declaration with origin := some path }

/-- The declaration of a class in the file that is expected to hold it. -/
def lookUp (parser : SourceCode.Parser) (files : FileSystem)
    (directory rootNamespace name : String) : Except LookupFault ClassDeclaration :=
  let path := fileOf directory rootNamespace name
  match files.readText path with
  | .error failure => .error (.unreadable path failure)
  | .ok text => declarationIn parser text path name

/-- The source of the classes in the source files below a directory, which stands for a
namespace. A parser makes the trees of the files. -/
def sourceFiles (parser : SourceCode.Parser) (directory rootNamespace : String) :
    ClassSource where
  extension := Registry.sourceExtension
  resolve files identifier :=
    let name := Namespace.trim identifier
    (lookUp parser files directory rootNamespace name).mapError (.unresolvedClass name)

end ClassSource

/-- The declarations of a list of identifiers, and those identifiers that have
none with the causes. -/
structure ResolvedClasses where
  classes : List ClassDeclaration := []
  skipped : List (String × ScanError) := []
deriving Repr

namespace ResolvedClasses

/-- Add what one more identifier, listed before all others, declares. -/
def including (identifier : String) (found : Except ScanError ClassDeclaration)
    (others : ResolvedClasses) : ResolvedClasses :=
  match found with
  | .ok declaration => { others with classes := declaration :: others.classes }
  | .error cause => { others with skipped := (identifier, cause) :: others.skipped }

/-- Resolve identifiers one by one; none of them stops the others. -/
def of (source : ClassSource) (files : FileSystem) (identifiers : List String) :
    ResolvedClasses :=
  identifiers.foldr
    (fun identifier => including identifier (source.resolve files identifier)) {}

end ResolvedClasses

end DocblockScan
