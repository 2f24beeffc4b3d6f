import DocblockScan.Declaration
import DocblockScan.Namespace
import DocblockScan.OrderedMap
import DocblockScan.SourceCode.Tree

/-!
# The classes of a source text

Which classes the tree of a source text declares. Namespaces, classes and methods are
found one kind after the other, all over the tree. A class is in the namespace whose bytes
it stands in, and a method belongs to the class whose body it stands in; so the methods of
an anonymous class, an interface, a trait or an enum belong to none. The docblock of a
declaration is the comment right before it.
-/

namespace DocblockScan.SourceCode

/-- The declarations of a kind among some sites, each with its name, which a child of a
certain kind holds. Declarations without a readable name are passed over. -/
def declarationsOf (bytes : ByteArray) (kind nameKind : String) (sites : List Site) :
    List (Site × String) :=
  sites.flatMap fun site =>
    if site.node.kind = kind then
      (site.node.children.filter fun child =>
        child.field = some "name" ∧ child.kind = nameKind).filterMap fun child =>
          (child.text? bytes).map (site, ·)
    else []

/-- A namespace: its name, where its declaration starts, and the bytes between its braces,
if it has any. -/
structure NamespaceScope where
  name : String
  start : Nat
  body : Option (Nat × Nat)
deriving Repr, DecidableEq

/-- The namespaces that some sites declare. -/
def namespacesOf (bytes : ByteArray) (sites : List Site) : List NamespaceScope :=
  (declarationsOf bytes "namespace_definition" "namespace_name" sites).map fun found =>
    ⟨found.2, found.1.node.start, (found.1.node.child? "body").map fun body =>
      (body.start, body.stop)⟩

/-- Whether a byte stands between the braces of a namespace. -/
def NamespaceScope.surrounds (scope : NamespaceScope) (offset : Nat) : Bool :=
  scope.body.any fun body => body.1 ≤ offset && offset < body.2

/-- The name of the namespace in force at a byte: of the first one whose braces are around
it, and otherwise of the last one without braces before it. -/
def namespaceAt (namespaces : List NamespaceScope) (offset : Nat) : String :=
  match namespaces.find? (·.surrounds offset) with
  | some scope => scope.name
  | none =>
      ((namespaces.reverse.find? fun scope => scope.body.isNone && scope.start < offset).map
        NamespaceScope.name).getD ""

/-- The mark that a docblock starts with. -/
def docblockMark : String := "/**"

/-- The docblock right before a site. -/
def Site.docblock? (bytes : ByteArray) (site : Site) : Option String := do
  let previous ← site.previous
  if previous.kind ≠ "comment" then none
  let text ← previous.text? bytes
  if docblockMark.toList.isPrefixOf text.toList then some text else none

/-- The path of the class in whose body a site stands. -/
def Site.owner? (site : Site) : Option (List Nat) :=
  match site.outer with
  | _ :: owner :: _ => if owner.kind = "class_declaration" then some (site.path.drop 2) else none
  | _ => none

/-- Declarations in the order in which they start. -/
def inSourceOrder (found : List (Site × String)) : List (Site × String) :=
  found.mergeSort fun left right => left.1.node.start ≤ right.1.node.start

/-- The position of every class among all of them, by its path. -/
def positionsOf (classes : List (Site × String)) : OrderedMap (List Nat) Nat :=
  .ofList (classes.zipIdx.map fun entry => (entry.1.1.path, entry.2))

/-- A class without its methods. -/
def classOf (bytes : ByteArray) (namespaces : List NamespaceScope) (found : Site × String) :
    ClassDeclaration where
  name := Namespace.join [namespaceAt namespaces found.1.node.start, found.2]
  doc := found.1.docblock? bytes
  methods := []
  origin := none

/-- A method. -/
def methodOf (bytes : ByteArray) (found : Site × String) : MethodDeclaration :=
  ⟨found.2, found.1.docblock? bytes⟩

/-- A class with one more method, which comes after the others. -/
def withMethod (method : MethodDeclaration) (declaration : ClassDeclaration) :
    ClassDeclaration :=
  { declaration with methods := declaration.methods ++ [method] }

/-- Give a method to the class that it belongs to. -/
def addMethod (bytes : ByteArray) (positions : OrderedMap (List Nat) Nat)
    (declarations : List ClassDeclaration) (found : Site × String) : List ClassDeclaration :=
  match found.1.owner?.bind positions.get? with
  | some position => declarations.modify position (withMethod (methodOf bytes found))
  | none => declarations

/-- The classes that the sites of a tree declare, in source order. -/
def classesOf (bytes : ByteArray) (sites : List Site) : List ClassDeclaration :=
  let namespaces := namespacesOf bytes sites
  let classes := inSourceOrder (declarationsOf bytes "class_declaration" "name" sites)
  let methods := inSourceOrder (declarationsOf bytes "method_declaration" "name" sites)
  methods.foldl (addMethod bytes (positionsOf classes)) (classes.map (classOf bytes namespaces))

/-- The classes that a source text declares, in source order. A text without a tree is
refused. -/
def declaredClasses (parser : Parser) (source : String) : Option (List ClassDeclaration) :=
  (parser source).map fun tree => classesOf source.toUTF8 tree.allSites

end DocblockScan.SourceCode
