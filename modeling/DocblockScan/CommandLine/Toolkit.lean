import DocblockScan.Json.Basic
import DocblockScan.SourceCode.Tree
import DocblockScan.Toml.Value

/-!
# What the command line builds on

The command line reads arguments, configurations and source files, and prints values and
tables. Readers and printers of these formats are taken as they come: a toolkit holds one
for each. The theory of the command line holds for every toolkit, and asks of one only
that printed values can be read back.
-/

namespace DocblockScan.CommandLine

/-- What can be asked of the program. -/
inductive Command where
  | routeScan (path : Option String)
  | eventScan (path : Option String)
  | routeList (json : Bool)
  | boot
deriving Repr, DecidableEq

/-- A command and the configuration file it is run with, if one is named. -/
structure Invocation where
  config : Option String
  command : Command
deriving Repr, DecidableEq

/-- What arguments ask for: a command, or only a text to be printed, such as the one that
explains the arguments. Arguments that are not understood are a misuse, for a reason. -/
inductive Request where
  | invoke (invocation : Invocation)
  | print (text : String)
  | misuse (reason : String)
deriving Repr, DecidableEq

/-- Readers and printers of the formats that the command line uses. -/
structure Toolkit where
  /-- What the arguments of the program ask for. -/
  request : List String → Request
  /-- The reader of configuration files. -/
  toml : Toml.Reader
  /-- The parser of source files. -/
  parser : SourceCode.Parser
  /-- The text of a value. -/
  json : Json → String
  /-- The text of a table with a header. -/
  table : List String → List (List String) → String

end DocblockScan.CommandLine
