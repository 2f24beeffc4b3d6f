import DocblockScan.ArgumentReading
import DocblockScan.Endpoint.Basic
import DocblockScan.TagSet

/-!
# Listeners

A hears tag on a method makes the method listen to one or more events. Tags on
the class and all other tags on methods say nothing about events.
-/

namespace DocblockScan

/-- A method that listens to events. The host hands them to `handler`. -/
structure Listener where
  className : String
  method : String
  handler : String
  events : List String
deriving Repr, DecidableEq

namespace Listener

/-- The listener that a method is, which handles the events. -/
def plain (className method : String) (events : List String) : Listener :=
  ⟨className, method, handlerText className method, events⟩

/-- The events of a hears tag: its default argument, or else the argument named
`events`. There must be at least one. -/
def readEvents (arguments : Arguments) : Except ArgumentFault (List String) := do
  let events ←
    match arguments.default? with
    | some _ => arguments.requiredTextList
    | none => arguments.optionalTextList "events"
  if events.isEmpty then .error .noEvents else .ok events

/-- How the arguments of a tag on a method are read as a listener, if its kind
is one. -/
def reading? (className method : String) :
    TagKind → Option (Arguments → Except ArgumentFault Listener)
  | .hears => some fun arguments => do return plain className method (← readEvents arguments)
  | _ => none

end Listener

/-- The listeners of one method, in the order of its tags. -/
def methodListeners (className method : String) (tags : List Tag) :
    Except ScanError (List Listener) :=
  readChosen className (some method) (Listener.reading? className method) tags

/-- The listeners of a class with its tags, method after method. -/
def classListeners (className : String) (tags : TagSet) :
    Except ScanError (List Listener) := do
  return (← tags.onMethods.entries.mapM fun entry =>
    methodListeners className entry.1 entry.2).flatten

/-- Read and resolve the listeners of one declaration. -/
def declaredListeners (registry : Registry) (declaration : ClassDeclaration) :
    Except ScanError (List Listener) := do
  classListeners declaration.name (← TagSet.read registry declaration)

/-- The listeners of a list of declarations, or the error of the first one that
fails. -/
def listenersOf (registry : Registry) (declarations : List ClassDeclaration) :
    Except ScanError (List Listener) := do
  return (← declarations.mapM (declaredListeners registry)).flatten

end DocblockScan
