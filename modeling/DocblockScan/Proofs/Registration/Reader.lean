import DocblockScan.Registration

/-!
# A reader of route files

The reader takes the statements of a route file apart again. It knows single-quoted
literals, arrays of them, and calls of the router with an array of options; spaces,
tabs and line ends may stand between any two lexemes. It shares no definition with
the writer except the names of verbs and the test of a fixed beginning.
-/

namespace DocblockScan.Registration

/-- What a route statement says. -/
structure RouteRecord where
  verbs : List Verb
  path : String
  uses : String
  name : Option String
  middleware : List String
  patterns : List (String × String)
  domain : Option String
deriving Repr, DecidableEq

/-- What the statement of an endpoint is meant to say. -/
def RouteRecord.ofEndpoint (endpoint : Endpoint) : RouteRecord where
  verbs := endpoint.verbs
  path := endpoint.path
  uses := endpoint.uses
  name := endpoint.name
  middleware := endpoint.allMiddleware
  patterns := endpoint.patterns.entries
  domain := endpoint.domain

/-! ## Lexemes -/

/-- The characters that may stand between lexemes. -/
def isSpace (char : Char) : Bool :=
  char == ' ' || char == '\t' || char == '\n' || char == '\r'

/-- A text without the spaces at its start. -/
def skipSpaces (text : List Char) : List Char :=
  text.dropWhile isSpace

/-- What follows a fixed lexeme, with spaces before it. -/
def expect? (lexeme text : List Char) : Option (List Char) :=
  Text.dropStart? lexeme (skipSpaces text)

/-- The content of a literal whose opening quote has been read, and what follows its
closing quote. A backslash stands for itself, except before a backslash and before a
quote. -/
def readContent : List Char → Option (List Char × List Char)
  | [] => none
  | '\'' :: rest => some ([], rest)
  | '\\' :: '\\' :: rest => (readContent rest).map fun found => ('\\' :: found.1, found.2)
  | '\\' :: '\'' :: rest => (readContent rest).map fun found => ('\'' :: found.1, found.2)
  | char :: rest => (readContent rest).map fun found => (char :: found.1, found.2)

/-- A single-quoted literal. -/
def readQuoted (text : List Char) : Option (String × List Char) := do
  let (content, after) ← readContent (← expect? ['\''] text)
  return (.ofList content, after)

/-! ## Arrays -/

/-- The items of an array whose opening bracket has been read, up to and with its
closing bracket. A comma may follow the last item. -/
def readItems {Item : Type} (readItem : List Char → Option (Item × List Char))
    (text : List Char) : Option (List Item × List Char) :=
  match skipSpaces text with
  | ']' :: rest => some ([], rest)
  | start =>
      match readItem start with
      | none => none
      | some (item, after) =>
          match skipSpaces after with
          | ',' :: rest =>
              if rest.length < text.length then
                (readItems readItem rest).map fun found => (item :: found.1, found.2)
              else none
          | ']' :: rest => some ([item], rest)
          | _ => none
termination_by text.length

/-- A literal, or two with an arrow between them. -/
def readEntry (text : List Char) : Option ((Option String × String) × List Char) := do
  let (first, after) ← readQuoted text
  match expect? "=>".toList after with
  | some rest =>
      let (second, after) ← readQuoted rest
      return ((some first, second), after)
  | none => return ((none, first), after)

/-- The value of an option: a literal, or an array of entries. -/
inductive OptionValue where
  | text (content : String)
  | array (entries : List (Option String × String))
deriving Repr, DecidableEq

/-- A literal as a value. -/
def OptionValue.text? : OptionValue → Option String
  | .text content => some content
  | .array _ => none

/-- An array without keys as a value. -/
def OptionValue.list? : OptionValue → Option (List String)
  | .text _ => none
  | .array entries => entries.mapM fun entry => if entry.1 = none then some entry.2 else none

/-- An array with keys as a value. -/
def OptionValue.map? : OptionValue → Option (List (String × String))
  | .text _ => none
  | .array entries => entries.mapM fun entry => entry.1.map fun key => (key, entry.2)

/-- The value of an option. -/
def readValue (text : List Char) : Option (OptionValue × List Char) :=
  match expect? ['['] text with
  | some rest => (readItems readEntry rest).map fun found => (.array found.1, found.2)
  | none => (readQuoted text).map fun found => (.text found.1, found.2)

/-- A key, an arrow and a value. -/
def readOption (text : List Char) : Option ((String × OptionValue) × List Char) := do
  let (key, after) ← readQuoted text
  let (value, after) ← readValue (← expect? "=>".toList after)
  return ((key, value), after)

/-! ## Statements -/

/-- The verbs there are. -/
def allVerbs : List Verb :=
  [.get, .post, .put, .patch, .delete, .options, .any]

/-- The verbs of a call of the router, after the arrow and up to the path. -/
def readVerbs (text : List Char) : Option (List Verb × List Char) := do
  let name := text.takeWhile Char.isAlpha
  let rest ← expect? ['('] (text.dropWhile Char.isAlpha)
  if name = "match".toList then
    let (labels, after) ← readItems readQuoted (← expect? ['['] rest)
    let verbs ← labels.mapM fun label => allVerbs.find? fun verb => verb.label == label
    return (verbs, ← expect? [','] after)
  else
    let verb ← allVerbs.find? fun verb => verb.routerMethod.toList == name
    return ([verb], rest)

/-- An option that may be missing, in the form in which it must be given. -/
def option? {Form : Type} (options : List (String × OptionValue)) (key : String)
    (form : OptionValue → Option Form) : Option (Option Form) :=
  match options.lookup key with
  | none => some none
  | some value => (form value).map some

/-- The record of some verbs, a path and options. Missing arrays are empty. -/
def RouteRecord.ofOptions? (verbs : List Verb) (path : String)
    (options : List (String × OptionValue)) : Option RouteRecord := do
  let uses ← option? options "uses" OptionValue.text?
  let name ← option? options "as" OptionValue.text?
  let middleware ← option? options "middleware" OptionValue.list?
  let patterns ← option? options "where" OptionValue.map?
  let domain ← option? options "domain" OptionValue.text?
  return ⟨verbs, path, ← uses, name, middleware.getD [], patterns.getD [], domain⟩

/-- A route statement. -/
def readStatement (text : List Char) : Option (RouteRecord × List Char) := do
  let (verbs, rest) ← readVerbs (← expect? "$router->".toList text)
  let (path, after) ← readQuoted rest
  let (options, after) ← readItems readOption (← expect? ['['] (← expect? [','] after))
  let record ← RouteRecord.ofOptions? verbs path options
  return (record, ← expect? [';'] (← expect? [')'] after))

/-- Statements up to the end of a text. -/
def readStatements (text : List Char) : Option (List RouteRecord) :=
  match skipSpaces text with
  | [] => some []
  | start =>
      match readStatement start with
      | none => none
      | some (record, rest) =>
          if rest.length < text.length then (readStatements rest).map (record :: ·) else none
termination_by text.length

/-- A route file. -/
def readFile (text : List Char) : Option (List RouteRecord) := do
  readStatements (← Text.dropStart? "<?php".toList text)

end DocblockScan.Registration
