import DocblockScan.Literal
import DocblockScan.Namespace

/-!
# Tags

A tag is a recognised name after an at sign in a docblock, together with its
arguments. The last segment of its name fixes what kind of tag it is.
-/

namespace DocblockScan

/-- The request methods a route can answer. -/
inductive Verb where
  | get
  | post
  | put
  | patch
  | delete
  | options
  | any
deriving Repr, DecidableEq

namespace Verb

/-- The router method that registers the verb. -/
def routerMethod : Verb → String
  | .get => "get"
  | .post => "post"
  | .put => "put"
  | .patch => "patch"
  | .delete => "delete"
  | .options => "options"
  | .any => "any"

/-- The verb in capitals, as it appears in lists. -/
def label : Verb → String
  | .get => "GET"
  | .post => "POST"
  | .put => "PUT"
  | .patch => "PATCH"
  | .delete => "DELETE"
  | .options => "OPTIONS"
  | .any => "ANY"

end Verb

/-- What a tag is about. A custom tag is recognised and means nothing to the
resolution of routes and listeners. -/
inductive TagKind where
  | route (verb : Verb)
  | pathStart
  | controller
  | group
  | middleware
  | whereClause
  | resource
  | hears
  | custom (name : String)
deriving Repr, DecidableEq

/-- The kind that the short name of a tag stands for. Case matters. -/
def TagKind.ofShortName : String → TagKind
  | "Get" => .route .get
  | "Post" => .route .post
  | "Put" => .route .put
  | "Patch" => .route .patch
  | "Delete" => .route .delete
  | "Options" => .route .options
  | "Any" => .route .any
  | "Prefix" => .pathStart
  | "Controller" => .controller
  | "Group" => .group
  | "Middleware" => .middleware
  | "Where" => .whereClause
  | "Resource" => .resource
  | "Hears" => .hears
  | name => .custom name

/-- A recognised tag with its fully qualified name. -/
structure Tag where
  name : String
  kind : TagKind
  arguments : Arguments
deriving Repr

namespace Tag

/-- The last segment of the name of a tag. -/
def shortName (tag : Tag) : String :=
  Namespace.lastSegment tag.name

end Tag

end DocblockScan
