import DocblockScan.ArgumentReading
import DocblockScan.Endpoint.Basic

/-!
# Resources

A resource tag stands for up to seven endpoints, one for each of a fixed list of
actions. This module reads such a tag and expands it.
-/

namespace DocblockScan

/-- The actions of a resource. -/
inductive ResourceAction where
  | index
  | create
  | store
  | «show»
  | edit
  | update
  | destroy
deriving Repr, DecidableEq

namespace ResourceAction

/-- All actions, in registration order. -/
def all : List ResourceAction :=
  [.index, .create, .store, .show, .edit, .update, .destroy]

/-- The method that handles an action. -/
def method : ResourceAction → String
  | .index => "index"
  | .create => "create"
  | .store => "store"
  | .show => "show"
  | .edit => "edit"
  | .update => "update"
  | .destroy => "destroy"

/-- The verbs of an action. -/
def verbs : ResourceAction → List Verb
  | .index => [.get]
  | .create => [.get]
  | .store => [.post]
  | .show => [.get]
  | .edit => [.get]
  | .update => [.put, .patch]
  | .destroy => [.delete]

/-- What an action appends to the path of a resource with a given parameter. -/
def pathEnd (action : ResourceAction) (parameter : List Char) : List Char :=
  let item := '/' :: '\x7b' :: parameter ++ ['\x7d']
  match action with
  | .index | .store => []
  | .create => "/create".toList
  | .show | .update | .destroy => item
  | .edit => item ++ "/edit".toList

end ResourceAction

/-- A resource tag: its name, and which actions it stands for under which route
names. -/
structure Resource where
  name : String
  only : List String
  except : List String
  names : OrderedMap String String
deriving Repr, DecidableEq

namespace Resource

/-- Read a resource from the arguments of its tag. -/
def read (arguments : Arguments) : Except ArgumentFault Resource := do
  let name ← arguments.requiredText "name"
  let only ← arguments.optionalTextList "only"
  let except ← arguments.optionalTextList "except"
  let names ← arguments.optionalTextMap "names"
  return ⟨name, only, except, names⟩

/-- The name without slashes at its ends. -/
def trimmedName (resource : Resource) : List Char :=
  Text.trimBy (· == '/') resource.name.toList

/-- The non-empty segments between the dots of a name. -/
def segments (name : List Char) : List (List Char) :=
  (name.splitOn '.').filter (· != [])

/-- The path parameter of a segment: what follows its last slash. -/
def parameterOf (segment : List Char) : List Char :=
  Text.afterLast '/' segment

/-- The path of a parent segment, followed by its parameter. -/
def parentPath (segment : List Char) : List Char :=
  '/' :: segment ++ '/' :: '\x7b' :: parameterOf segment ++ ['\x7d']

/-- The last segment of a resource, or its whole name when it has none. -/
def lastSegment (resource : Resource) : List Char :=
  (segments resource.trimmedName).getLast?.getD resource.trimmedName

/-- The path of a resource: its parents with their parameters, then its last
segment. -/
def basePath (resource : Resource) : List Char :=
  (segments resource.trimmedName).dropLast.flatMap parentPath ++ '/' :: resource.lastSegment

/-- Whether a resource stands for an action. An empty list of wanted actions
wants all of them. -/
def selects (resource : Resource) (action : ResourceAction) : Bool :=
  (resource.only.isEmpty || resource.only.contains action.method) &&
    !resource.except.contains action.method

/-- The route name of an action: the one given for it, or else the name of the
resource and the action. -/
def routeName (resource : Resource) (action : ResourceAction) : String :=
  (resource.names.get? action.method).getD
    (.ofList resource.trimmedName ++ "." ++ action.method)

/-- The endpoint of one action. -/
def endpoint (resource : Resource) (className : String) (action : ResourceAction) :
    Endpoint :=
  { Endpoint.plain className action.method action.verbs
      (.ofList (resource.basePath ++ action.pathEnd (parameterOf resource.lastSegment))) with
    name := some (resource.routeName action) }

/-- The endpoints of the selected actions, in registration order. -/
def endpoints (resource : Resource) (className : String) : List Endpoint :=
  (ResourceAction.all.filter resource.selects).map (resource.endpoint className)

end Resource

end DocblockScan
