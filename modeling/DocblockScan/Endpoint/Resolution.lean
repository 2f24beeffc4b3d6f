import DocblockScan.Endpoint.ClassRule
import DocblockScan.TagSet

/-!
# The endpoints of classes

The endpoints of a class are those of its methods, in order, after all rules of
the class had their turn; the endpoints of several classes follow one another.
-/

namespace DocblockScan

/-- The endpoints of all methods, method after method. -/
def allMethodEndpoints (className : String) (methods : List (String × List Tag)) :
    Except ScanError (List Endpoint) := do
  return (← methods.mapM fun entry => methodEndpoints className entry.1 entry.2).flatten

/-- The endpoints of a class with its tags. The tags on methods are read before
those on the class. -/
def classEndpoints (className : String) (tags : TagSet) :
    Except ScanError (List Endpoint) := do
  let created ← allMethodEndpoints className tags.onMethods.entries
  let rules ← readChosen className none ClassRule.reading? tags.onClass
  return rules.foldl (ClassRule.apply className) created

/-- Read and resolve the endpoints of one declaration. -/
def declaredEndpoints (registry : Registry) (declaration : ClassDeclaration) :
    Except ScanError (List Endpoint) := do
  classEndpoints declaration.name (← TagSet.read registry declaration)

/-- The endpoints of a list of declarations, or the error of the first one that
fails. -/
def endpointsOf (registry : Registry) (declarations : List ClassDeclaration) :
    Except ScanError (List Endpoint) := do
  return (← declarations.mapM (declaredEndpoints registry)).flatten

end DocblockScan
