import DocblockScan.Endpoint.MethodRule
import DocblockScan.Endpoint.Resource

/-!
# Tags on a class

A class-level tag either refines all endpoints that exist when its turn comes,
or is a resource and adds endpoints after them. The tags take their turns in the
order in which they are declared. Whether a tag can be read never depends on the
endpoints.
-/

namespace DocblockScan

/-- What a class-level tag contributes to each endpoint before it. The
middleware is meant for the methods that `only` and `except` let through. -/
structure Refinement where
  path : Option String := none
  name : Option String := none
  middleware : List String := []
  only : List String := []
  except : List String := []
  domain : Option String := none
  patterns : OrderedMap String String := .empty
deriving Repr, DecidableEq

namespace Refinement

/-- Whether the middleware is meant for a method. -/
def covers (refinement : Refinement) (method : String) : Bool :=
  (refinement.only.isEmpty || refinement.only.contains method) &&
    !refinement.except.contains method

/-- The middleware for a method. -/
def middlewareFor (refinement : Refinement) (method : String) : List String :=
  if refinement.covers method then refinement.middleware else []

/-- The refined endpoint: the path moves below the given one, the name gets its
beginning, class middleware is appended, and a domain or a pattern is filled in
where the endpoint has none. -/
def apply (refinement : Refinement) (endpoint : Endpoint) : Endpoint :=
  { endpoint with
    path := refinement.path.elim endpoint.path (joinRoutePath · endpoint.path)
    name := endpoint.name.map ((refinement.name.getD "") ++ ·)
    classMiddleware :=
      endpoint.classMiddleware ++ refinement.middlewareFor endpoint.method
    domain := endpoint.domain.or refinement.domain
    patterns := endpoint.patterns.insertAllNew refinement.patterns.entries }

end Refinement

/-- What a class-level tag does to the endpoints before it. -/
inductive ClassRule where
  | refine (refinement : Refinement)
  | expand (resource : Resource)
deriving Repr, DecidableEq

namespace ClassRule

/-- The endpoints after the turn of a rule. -/
def apply (className : String) (endpoints : List Endpoint) : ClassRule → List Endpoint
  | .refine refinement => endpoints.map refinement.apply
  | .expand resource => endpoints ++ resource.endpoints className

/-- Read a tag that puts every path below another one. -/
def readPathStart (arguments : Arguments) : Except ArgumentFault ClassRule := do
  let path ← arguments.requiredText "prefix"
  return .refine { path := some path }

/-- Read a controller tag: an optional path, as the default argument or by name,
and an optional domain. -/
def readController (arguments : Arguments) : Except ArgumentFault ClassRule := do
  let path ←
    match arguments.default? with
    | some _ => some <$> arguments.requiredText "prefix"
    | none => arguments.optionalText "prefix"
  let domain ← arguments.optionalText "domain"
  return .refine { path, domain }

/-- Read a group tag; all its arguments are optional. -/
def readGroup (arguments : Arguments) : Except ArgumentFault ClassRule := do
  let path ← arguments.optionalText "prefix"
  let name ← arguments.optionalText "as"
  let middleware ← arguments.optionalTextList "middleware"
  let domain ← arguments.optionalText "domain"
  let patterns ← arguments.optionalTextMap "where"
  return .refine { path, name, middleware, domain, patterns }

/-- Read a middleware tag and the methods it is meant for. -/
def readMiddleware (arguments : Arguments) : Except ArgumentFault ClassRule := do
  let middleware ← arguments.requiredTextList
  let only ← arguments.optionalTextList "only"
  let except ← arguments.optionalTextList "except"
  return .refine { middleware, only, except }

/-- Read a where tag. -/
def readPatterns (arguments : Arguments) : Except ArgumentFault ClassRule := do
  let patterns ← arguments.textMap
  return .refine { patterns }

/-- How the arguments of a class-level tag are read as a rule, if its kind is
one. -/
def reading? : TagKind → Option (Arguments → Except ArgumentFault ClassRule)
  | .pathStart => some readPathStart
  | .controller => some readController
  | .group => some readGroup
  | .middleware => some readMiddleware
  | .whereClause => some readPatterns
  | .resource => some fun arguments => ClassRule.expand <$> Resource.read arguments
  | _ => none

end ClassRule

end DocblockScan
