import DocblockScan.CommandLine.Toolkit
import DocblockScan.OrderedMap

/-!
# Command line arguments

What the arguments of the program ask for. Arguments are read level by level:
the options of the program, the name of a command, and the options of that
command. Every level has a syntax that says which options it knows; anything
else is a misuse.
-/

namespace DocblockScan.Program

open DocblockScan.CommandLine (Command Request)

/-- The form of one argument. -/
inductive Argument where
  /-- The mark after which no argument is an option. -/
  | endOfOptions
  | long (name : String) (value : Option String)
  | short (first : Char)
  | plain (text : String)
deriving Repr, DecidableEq

/-- The form of an argument. A single dash is plain. -/
def Argument.of (text : String) : Argument :=
  match text.toList with
  | ['-', '-'] => .endOfOptions
  | '-' :: '-' :: rest =>
      match rest.dropWhile (· != '=') with
      | [] => .long (.ofList rest) none
      | _ :: value => .long (.ofList (rest.takeWhile (· != '='))) (some (.ofList value))
  | '-' :: first :: _ => .short first
  | _ => .plain text

/-- The value an argument gives to the option before it: only a plain argument
with some text gives one. -/
def value? (text : String) : Option String :=
  match Argument.of text with
  | .plain value => if value = "" then none else some value
  | _ => none

/-- The options and commands that one level of arguments knows. Help can be asked
for at every level. -/
structure Level where
  valued : List String
  flags : List String
  commands : List String
  hasVersion : Bool
deriving Repr, DecidableEq

/-- The options given at one level. -/
structure Options where
  values : OrderedMap String String
  flags : List String
deriving Repr, DecidableEq

/-- No options at all. -/
def Options.none : Options := ⟨.empty, []⟩

/-- The options with one more value. An option is given at most once, and never
without text. -/
def Options.withValue? (options : Options) (name value : String) : Option Options :=
  if value = "" ∨ options.values.contains name then Option.none
  else some { options with values := options.values.insert name value }

/-- The options with one more flag, which is given at most once. -/
def Options.withFlag? (options : Options) (name : String) : Option Options :=
  if options.flags.contains name then Option.none
  else some { options with flags := options.flags ++ [name] }

/-- What a level of arguments amounts to. -/
inductive LevelReading where
  | complete (options : Options)
  | command (options : Options) (name : String) (rest : List String)
  | help
  | version
deriving Repr, DecidableEq

/-- Read the arguments of a level after some options of it. -/
def Level.read? (level : Level) (options : Options) : List String → Option LevelReading
  | [] => some (.complete options)
  | text :: rest =>
      match Argument.of text with
      | .endOfOptions => if rest = [] then some (.complete options) else none
      | .long name (some value) =>
          if level.valued.contains name then
            (options.withValue? name value).bind fun grown => level.read? grown rest
          else none
      | .long name none =>
          if level.valued.contains name then
            match rest with
            | [] => none
            | next :: after =>
                ((value? next).bind (options.withValue? name)).bind fun grown =>
                  level.read? grown after
          else if level.flags.contains name then
            (options.withFlag? name).bind fun grown => level.read? grown rest
          else if name = "help" then some .help
          else if name = "version" ∧ level.hasVersion then some .version
          else none
      | .short first =>
          if first = 'h' then some .help
          else if first = 'V' ∧ level.hasVersion then some .version
          else none
      | .plain name =>
          if level.commands.contains name then some (.command options name rest) else none

/-- The names of the commands. -/
def commandNames : List String := ["route-scan", "event-scan", "route-list", "boot"]

/-- The level before a command. -/
def outerLevel : Level :=
  ⟨["config"], [], commandNames ++ ["help"], true⟩

/-- The level of a command. The configuration can be named here as well. -/
def commandLevel (name : String) : Level :=
  if name = "route-list" then ⟨["config"], ["json"], [], false⟩
  else if name = "boot" then ⟨["config"], [], [], false⟩
  else ⟨["config", "path"], [], [], false⟩

/-- A command with the options of its level. -/
def commandOf? (name : String) (options : Options) : Option Command :=
  match name with
  | "route-scan" => some (.routeScan (options.values.get? "path"))
  | "event-scan" => some (.eventScan (options.values.get? "path"))
  | "route-list" => some (.routeList (options.flags.contains "json"))
  | "boot" => some .boot
  | _ => none

/-- The line that names the program and its version. -/
def versionText : String := "annoscan 0.3.0\n"

/-- The lines that explain the arguments. -/
def helpText : String := String.join ([
  "Annoscan reads annotated PHP classes, resolves their route and event annotations and " ++
    "writes loadable registration files into the storage directory.",
  "",
  "Usage: annoscan [OPTIONS] <COMMAND>",
  "",
  "Commands:",
  "  route-scan [--path <PATH>]  Scan annotated classes and write the routes file",
  "  event-scan [--path <PATH>]  Scan annotated classes and write the events file",
  "  route-list [--json]         Print the resolved routes without writing anything",
  "  boot                        Rescan if needed, then load the generated files",
  "  help                        Print this message",
  "",
  "Options:",
  "      --config <FILE>  Configuration file. Defaults to ./annoscan.toml",
  "  -h, --help           Print help",
  "  -V, --version        Print version"].map (· ++ "\n"))

/-- What a command asks for, given the options before it and the arguments after
it. Of two configurations the one after the command counts. -/
def readCommand? (outer : Options) (name : String) (rest : List String) : Option Request := do
  match ← (commandLevel name).read? .none rest with
  | .complete inner =>
      let config := (inner.values.get? "config").or (outer.values.get? "config")
      return .invoke ⟨config, ← commandOf? name inner⟩
  | .help => return .print helpText
  | _ => none

/-- What the arguments of the program ask for, unless they are a misuse. -/
def wellFormed? (arguments : List String) : Option Request := do
  match ← outerLevel.read? .none arguments with
  | .command outer name rest =>
      if name = "help" then
        if rest.length ≤ 1 ∧ rest.all outerLevel.commands.contains then
          return .print helpText
        else none
      else readCommand? outer name rest
  | .help => return .print helpText
  | .version => return .print versionText
  | .complete _ => none

/-- What the arguments of the program ask for. -/
def request (arguments : List String) : Request :=
  (wellFormed? arguments).getD (.misuse "these arguments are not understood; try --help")

end DocblockScan.Program
