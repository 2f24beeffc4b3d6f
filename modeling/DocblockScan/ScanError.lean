import DocblockScan.Docblock.Fault
import DocblockScan.FileSystem.Failure

/-!
# Why a scan fails

The causes that stop a scan, and the wording of each. An unresolved class stops
no scan on its own; its cause is kept beside the class that was skipped.
-/

namespace DocblockScan

/-- What is wrong with the arguments of a tag whose docblock could be read. -/
inductive ArgumentFault where
  | missing (what : String)
  | notText (what : String)
  | keyNotText (key : String)
  | keyNotTextList (key : String)
  | keyNotTextMap (key : String)
  | noValues
  | notTextList
  | notTextMap
  | noEvents
deriving Repr, DecidableEq

/-- The text that reports an argument fault. -/
def ArgumentFault.message : ArgumentFault → String
  | .missing what => "requires a " ++ what
  | .notText what => "expects a string " ++ what
  | .keyNotText key => "expects '" ++ key ++ "' to be a string"
  | .keyNotTextList key => "expects '" ++ key ++ "' to be a string or list of strings"
  | .keyNotTextMap key => "expects '" ++ key ++ "' to be a map of strings"
  | .noValues => "requires at least one value"
  | .notTextList => "expects a string or a non-empty list of strings"
  | .notTextMap => "expects a map of strings"
  | .noEvents => "requires at least one event"

/-- What is wrong with a docblock: it cannot be read, or one of its tags has
arguments of the wrong shape. -/
inductive TagFault where
  | docblock (located : Docblock.LocatedFault)
  | arguments (shortName : String) (fault : ArgumentFault)
deriving Repr, DecidableEq

/-- The text that reports a fault of a docblock. -/
def TagFault.message : TagFault → String
  | .docblock located => located.message
  | .arguments shortName fault => "@" ++ shortName ++ " " ++ fault.message

/-- Why a class identifier stands for no declaration. -/
inductive LookupFault where
  | notRegistered
  | unreadable (path : String) (failure : FileFailure)
  | noTree
  | notDeclared (path : String)
deriving Repr, DecidableEq

/-- The text that reports why a class was not found. -/
def LookupFault.message : LookupFault → String
  | .notRegistered => "class is not registered"
  | .unreadable path failure => "cannot read " ++ path ++ ": " ++ failure.message
  | .noTree => "parsing error: PHP parser produced no tree"
  | .notDeclared path => path ++ " does not declare it"

/-- What is wrong with a configuration: its file cannot be read, or its text is
no configuration. -/
inductive ConfigFault where
  | unreadable (path : String) (failure : FileFailure)
  | malformed
deriving Repr, DecidableEq

/-- The text that reports a fault of a configuration. -/
def ConfigFault.message : ConfigFault → String
  | .unreadable path failure => "failed to read " ++ path ++ ": " ++ failure.message
  | .malformed => "malformed configuration"

/-- The cause of a failed scan. -/
inductive ScanError where
  | unresolvedClass (identifier : String) (fault : LookupFault)
  | badTag (className : String) (method : Option String) (fault : TagFault)
  | file (path : String) (failure : FileFailure)
  | config (fault : ConfigFault)
  | refused (text : String)
deriving Repr, DecidableEq

/-- The text that reports a failed scan. -/
def ScanError.message : ScanError → String
  | .unresolvedClass identifier fault =>
      "class " ++ identifier ++ " could not be resolved: " ++ fault.message
  | .badTag className method fault =>
      let target := (method.map ("::" ++ ·)).getD ""
      "malformed annotation on " ++ className ++ target ++ ": " ++ fault.message
  | .file path failure => "filesystem error at " ++ path ++ ": " ++ failure.message
  | .config fault => "configuration error: " ++ fault.message
  | .refused text => "parsing error: " ++ text

end DocblockScan
