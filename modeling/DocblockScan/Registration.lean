import DocblockScan.Endpoint.Basic
import DocblockScan.Listener
import DocblockScan.Text.Blank

/-!
# Registration files

Endpoints and listeners are written as PHP statements that register them. Every
free text goes through a single-quoted literal. A file is an opening tag, a
blank line and the trimmed statements.
-/

namespace DocblockScan.Registration

/-- A character inside a single-quoted literal: a backslash goes before a quote
and before a backslash. -/
def escape (char : Char) : List Char :=
  if char = '\\' ∨ char = '\'' then ['\\', char] else [char]

/-- The single-quoted literal of a text. -/
def quoteChars (text : List Char) : List Char :=
  '\'' :: text.flatMap escape ++ ['\'']

/-- The single-quoted literal of a text. -/
def quote (text : String) : String :=
  .ofList (quoteChars text.toList)

/-- An array of quoted texts in brackets. -/
def shortArray (texts : List String) : String :=
  "[" ++ String.intercalate ", " (texts.map quote) ++ "]"

/-- A quoted key and an already written value. -/
def pair (key value : String) : String :=
  quote key ++ " => " ++ value

/-- An array of quoted keys and values in brackets. -/
def shortMap (entries : List (String × String)) : String :=
  "[" ++ String.intercalate ", " (entries.map fun entry => pair entry.1 (quote entry.2)) ++ "]"

/-- An array of quoted texts as a call, without blanks after the commas. -/
def arrayCall (texts : List String) : String :=
  "array(" ++ String.intercalate "," (texts.map quote) ++ ")"

/-- The start of the call that registers some verbs. Only a single verb has a
router method of its own. -/
def routeCall : List Verb → String
  | [verb] => "$router->" ++ verb.routerMethod ++ "("
  | verbs => "$router->match(" ++ shortArray (verbs.map Verb.label) ++ ", "

/-- The options of a route with their written values. Options without content
are left out. -/
def routeOptions (endpoint : Endpoint) : List (String × String) :=
  [("uses", quote endpoint.uses)] ++
    (endpoint.name.map fun name => ("as", quote name)).toList ++
    (if endpoint.allMiddleware.isEmpty then []
      else [("middleware", shortArray endpoint.allMiddleware)]) ++
    (if endpoint.patterns.isEmpty then []
      else [("where", shortMap endpoint.patterns.entries)]) ++
    (endpoint.domain.map fun domain => ("domain", quote domain)).toList

/-- One option on a line of its own. -/
def optionLine (option : String × String) : String :=
  "\t" ++ pair option.1 option.2 ++ ",\n"

/-- The statement that registers a route. -/
def routeStatement (endpoint : Endpoint) : String :=
  routeCall endpoint.verbs ++ quote endpoint.path ++ ", [\n" ++
    String.join ((routeOptions endpoint).map optionLine) ++ "]);"

/-- The statement that registers a listener. -/
def listenerStatement (listener : Listener) : String :=
  "$events->listen(" ++ arrayCall listener.events ++ ", " ++ quote listener.handler ++ ");"

/-- A text without blanks at its ends. -/
def trimmed (text : String) : String :=
  .ofList (Text.trim text.toList)

/-- The statements of some routes, with an empty line between them. -/
def routeDefinitions (endpoints : List Endpoint) : String :=
  trimmed (String.intercalate "\n\n" (endpoints.map routeStatement))

/-- The statements of some listeners, a line for each. -/
def eventDefinitions (listeners : List Listener) : String :=
  trimmed (String.intercalate "\n" (listeners.map listenerStatement))

/-- The file around some definitions. -/
def file (definitions : String) : String :=
  "<?php\n\n" ++ trimmed definitions ++ "\n"

end DocblockScan.Registration
