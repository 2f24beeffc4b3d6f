import DocblockScan.Declaration
import DocblockScan.Docblock.Tags
import DocblockScan.Registry
import DocblockScan.ScanError

/-!
# Reading the tags of a class

A class is read as a whole: the docblock of the class first, then those of its
methods in source order. One docblock that cannot be read fails the class.
-/

namespace DocblockScan

/-- The tags of one class: those on the class itself, and for every method name
in order of first declaration those on the method. -/
structure TagSet where
  onClass : List Tag
  onMethods : OrderedMap String (List Tag)
deriving Repr

namespace TagSet

/-- The tags of a docblock that may be absent, reported against its target. -/
def readDoc (registry : Registry) (className : String) (method : Option String)
    (doc : Option String) : Except ScanError (List Tag) :=
  match doc with
  | none => .ok []
  | some comment =>
      (Docblock.parse registry.resolve? comment).mapError fun located =>
        .badTag className method (.docblock located)

/-- The tags of one method under its name. -/
def readMethod (registry : Registry) (className : String) (method : MethodDeclaration) :
    Except ScanError (String × List Tag) := do
  return (method.name, ← readDoc registry className (some method.name) method.doc)

/-- The tags of a class. Of several methods with one name the first gives the
position and the last the tags. -/
def read (registry : Registry) (declaration : ClassDeclaration) :
    Except ScanError TagSet := do
  let onClass ← readDoc registry declaration.name none declaration.doc
  let onMethods ← declaration.methods.mapM (readMethod registry declaration.name)
  return ⟨onClass, .ofList onMethods⟩

end TagSet

end DocblockScan
