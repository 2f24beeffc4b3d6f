import DocblockScan.ArgumentReading
import DocblockScan.Endpoint.Basic

/-!
# Tags on a method

A route tag on a method makes one endpoint. A middleware or where tag changes
every endpoint of the method, wherever it stands among the route tags. All other
tags on a method say nothing about routes.
-/

namespace DocblockScan

/-- What a method-level tag adds to every endpoint of its method. -/
inductive MethodModifier where
  | addMiddleware (names : List String)
  | setPatterns (patterns : OrderedMap String String)
deriving Repr, DecidableEq

namespace MethodModifier

/-- The endpoint with the modification. A later pattern replaces an earlier one. -/
def apply (endpoint : Endpoint) : MethodModifier → Endpoint
  | .addMiddleware names => { endpoint with middleware := endpoint.middleware ++ names }
  | .setPatterns patterns =>
      { endpoint with patterns := endpoint.patterns.insertAll patterns.entries }

/-- How the arguments of a tag are read as a modification, if its kind is one. -/
def reading? : TagKind → Option (Arguments → Except ArgumentFault MethodModifier)
  | .middleware => some fun arguments => do return .addMiddleware (← arguments.requiredTextList)
  | .whereClause => some fun arguments => do return .setPatterns (← arguments.textMap)
  | _ => none

end MethodModifier

/-- The endpoint of a route tag on a method. -/
def Endpoint.ofRoute (className method : String) (verb : Verb) (arguments : Arguments) :
    Except ArgumentFault Endpoint := do
  let path ← arguments.requiredText "path"
  let name ← arguments.optionalText "as"
  let middleware ← arguments.optionalTextList "middleware"
  let patterns ← arguments.optionalTextMap "where"
  let domain ← arguments.optionalText "domain"
  return { Endpoint.plain className method [verb] path with name, middleware, patterns, domain }

/-- How the arguments of a tag on a method are read as an endpoint, if the tag
is a route. -/
def routeReading? (className method : String) :
    TagKind → Option (Arguments → Except ArgumentFault Endpoint)
  | .route verb => some (Endpoint.ofRoute className method verb)
  | _ => none

/-- The endpoints of one method, in the order of its route tags. All route tags
are read before the first modification is. -/
def methodEndpoints (className method : String) (tags : List Tag) :
    Except ScanError (List Endpoint) := do
  let routes ← readChosen className (some method) (routeReading? className method) tags
  let modifiers ← readChosen className (some method) MethodModifier.reading? tags
  return routes.map fun route => modifiers.foldl MethodModifier.apply route

end DocblockScan
