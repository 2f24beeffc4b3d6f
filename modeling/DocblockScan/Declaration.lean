/-!
# Class declarations

What a scan knows about a class before it reads any tag: its full name, its
methods in source order, the docblocks of both, and the file it comes from.
-/

namespace DocblockScan

/-- A declared method and its docblock, if it has one. -/
structure MethodDeclaration where
  name : String
  doc : Option String
deriving Repr, DecidableEq

/-- A declared class. A class that was not read from a file has no origin. -/
structure ClassDeclaration where
  name : String
  doc : Option String
  methods : List MethodDeclaration
  origin : Option String
deriving Repr, DecidableEq

/-- The names of the declared methods, in source order and with repetitions. -/
def ClassDeclaration.methodNames (declaration : ClassDeclaration) : List String :=
  declaration.methods.map MethodDeclaration.name

end DocblockScan
