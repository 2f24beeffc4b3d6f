import DocblockScan.OrderedMap
import DocblockScan.Tag
import DocblockScan.Text.Blank

/-!
# Endpoints

One endpoint is one route to register: verbs, a path, the method that handles
it, and the options of the route. The order of a list of endpoints is the order
of registration.
-/

namespace DocblockScan

/-- A route to register. The router hands its requests to the handler in `uses`.
Middleware of the class and of the method are kept apart; `patterns` restricts path
parameters. -/
structure Endpoint where
  className : String
  method : String
  uses : String
  verbs : List Verb
  path : String
  name : Option String
  classMiddleware : List String
  middleware : List String
  patterns : OrderedMap String String
  domain : Option String
deriving Repr, DecidableEq

/-- A class and one of its methods, as a router names a handler. -/
def handlerText (className method : String) : String :=
  className ++ "@" ++ method

namespace Endpoint

/-- A route on a method, which handles it, without any options. -/
def plain (className method : String) (verbs : List Verb) (path : String) : Endpoint where
  className
  method
  uses := handlerText className method
  verbs
  path
  name := none
  classMiddleware := []
  middleware := []
  patterns := .empty
  domain := none

section

variable (className method : String) (verbs : List Verb) (path : String)

@[simp] theorem className_plain : (plain className method verbs path).className = className := rfl

@[simp] theorem method_plain : (plain className method verbs path).method = method := rfl

@[simp] theorem uses_plain :
    (plain className method verbs path).uses = handlerText className method := rfl

@[simp] theorem path_plain : (plain className method verbs path).path = path := rfl

@[simp] theorem classMiddleware_plain :
    (plain className method verbs path).classMiddleware = [] := rfl

@[simp] theorem middleware_plain : (plain className method verbs path).middleware = [] := rfl

@[simp] theorem patterns_plain : (plain className method verbs path).patterns = .empty := rfl

@[simp] theorem domain_plain : (plain className method verbs path).domain = none := rfl

end

/-- All middleware of the route: that of the class runs first. -/
def allMiddleware (endpoint : Endpoint) : List String :=
  endpoint.classMiddleware ++ endpoint.middleware

/-- The verbs of the route in one word. -/
def verbLabel (endpoint : Endpoint) : String :=
  String.intercalate "|" (endpoint.verbs.map Verb.label)

end Endpoint

/-- Put a path below another one, with exactly one slash between them. An outer
path of nothing but slashes leaves the inner one as it is. -/
def joinRoutePath (outer inner : String) : String :=
  let isSlash (char : Char) : Bool := char == '/'
  let front := Text.dropEndWhile isSlash outer.toList
  if front = [] then inner
  else
    match inner.toList.dropWhile isSlash with
    | [] => .ofList front
    | back => .ofList (front ++ '/' :: back)

/-- The endpoint with its path put below another one. -/
def Endpoint.moveBelow (outer : String) (endpoint : Endpoint) : Endpoint :=
  { endpoint with path := joinRoutePath outer endpoint.path }

end DocblockScan
