import DocblockScan.Program.SourceCode.DocumentString

/-!
# Tokens of source code

Source code as a list of tokens and the bytes they cover. Only what tells declarations
apart is kept: words and symbols and what may stand between them, but not the content of
strings. Code inside strings is code like any other. Where a document string may end or go
on, it goes on if nothing after it is at fault then.
-/

namespace DocblockScan.Program.SourceCode

/-- An element of source code. -/
inductive Token where
  /-- A name or keyword. A name with separators is several words. -/
  | word (text : String)
  /-- The separator between the parts of a name. -/
  | separator
  | variable
  /-- A string, or the part of it before or after some code. -/
  | string
  | symbol (char : Char)
  /-- An arrow or a double colon: the next word names a member. -/
  | access
  /-- The opening of a group of attributes. -/
  | attribute
  /-- Blanks, a comment or markup. -/
  | extra (kind : Extra)
  /-- What no source code holds: a closing bracket without its opening one, the end
  of the text inside brackets or a string, the end of a statement inside a string, or
  a variable in a string with an index that may not stand there. -/
  | fault
deriving Repr, DecidableEq

/-- A token and the bytes that it covers, from `start` up to but not including `stop`. -/
structure PlacedToken where
  token : Token
  start : Nat
  stop : Nat
deriving Repr, DecidableEq

/-- What a place in source code can be inside of: brackets, given by the closing
one; the braces around code in a string; a string without code in it; a string with
code in it; or a document string of either kind. -/
inductive Frame where
  | bracket (closing : Char)
  | interpolation
  | literal
  | template (quote : Char)
  | document (label : List Char)
  | rawDocument (label : List Char)
deriving Repr, DecidableEq

/-- Whether a closing brace leaves a frame. -/
def Frame.isBraces (frame : Frame) : Bool :=
  frame == .bracket '}' || frame == .interpolation

/-- What is read at a place: some tokens, the frames around what follows, and how many
characters after the first are read. At the end of a line in a document string, also how
many would be read if the string ended there. -/
structure Lexeme where
  tokens : List Token
  frames : List Frame
  taken : Nat
  ending : Option Nat := none
deriving Repr

/-- A lexeme that leaves the frames as they are. -/
def Lexeme.within (frames : List Frame) (token : Token) (taken : Nat) : Lexeme :=
  ⟨[token], frames, taken, none⟩

/-- The frames after a closing bracket, and what else it says. A brace leaves all
brackets inside its pair. -/
def closeBracket (closing : Char) (frames : List Frame) : List Token × List Frame :=
  let inside := if closing = '}' then frames.dropWhile fun frame => !frame.isBraces else frames
  match inside with
  | [] => ([.fault], frames)
  | inner :: outer =>
      let found : List Token := if inside = frames then [] else [.fault]
      if inner = .bracket closing then (found, outer)
      else if closing = '}' then (found ++ [.string], outer)
      else ([.fault], frames)

/-- What the end of a statement says inside some frames. -/
def endStatement (frames : List Frame) : List Token :=
  if frames.head? = some .interpolation ∨ frames.head? = some (.bracket ']') then [.fault]
  else []

/-- What is read at the mark of a document string, given the text after its first
character. -/
def openDocument? (frames : List Frame) (rest : List Char) : Option Lexeme := do
  let header ← documentHeader? (rest.drop 2)
  let (isOpen, body) ← documentBody? header.label header.rest
  let frame := if header.isRaw then Frame.rawDocument header.label else .document header.label
  return ⟨[.string], if isOpen then frame :: frames else frames, rest.length - body.length, none⟩

/-- What is read at a place of code. -/
def codeLexeme (frames : List Frame) (first : Char) (rest : List Char) : Lexeme :=
  match extra? first rest with
  | some (kind, length) => .within frames (.extra kind) length
  | none =>
      let name := rest.takeWhile isNameChar
      if isNameChar first then .within frames (.word (.ofList (first :: name))) name.length
      else
        match first, rest with
        | '\\', _ => .within frames .separator 0
        | '#', '[' :: _ => .within (.bracket ']' :: frames) .attribute 1
        | '-', '>' :: _ => .within frames .access 1
        | ':', ':' :: _ => .within frames .access 1
        | '$', _ => .within frames .variable name.length
        | '\'', _ => .within (.literal :: frames) .string 0
        | '"', _ => .within (.template first :: frames) .string 0
        | '\x60', _ => .within (.template first :: frames) .string 0
        | '<', '<' :: '<' :: _ =>
            (openDocument? frames rest).getD (.within frames (.symbol first) 0)
        | '(', _ => .within (.bracket ')' :: frames) (.symbol first) 0
        | '[', _ => .within (.bracket ']' :: frames) (.symbol first) 0
        | '{', _ => .within (.bracket '}' :: frames) (.symbol first) 0
        | ';', _ => ⟨.symbol first :: endStatement frames, frames, 0, none⟩
        | _, _ =>
            if first = ')' ∨ first = ']' ∨ first = '}' then
              let (later, around) := closeBracket first frames
              ⟨.symbol first :: later, around, 0, none⟩
            else .within frames (.symbol first) 0

/-- How many characters after the first belong to the mark that opens code inside a
string: a brace before a variable, or a brace after a dollar sign. -/
def openCode? (first : Char) (rest : List Char) : Option Nat :=
  match first, rest with
  | '{', '$' :: _ => some 0
  | '$', '{' :: _ => some 1
  | _, _ => none

/-- A character that can mean more than itself inside a string with code in it. -/
def isStringMark (char : Char) : Bool :=
  char == '\\' || char == '$' || char == '{'

/-- Whether a text goes on with an index that a variable in a string can have: a name,
a number or a variable. -/
def isStringIndex (text : List Char) : Bool :=
  let start := text.dropWhile isBlank
  let named := if start.head?.any (['$', '-'].contains ·) then start.drop 1 else start
  named.head?.any isNameChar &&
    ((named.dropWhile isNameChar).dropWhile isBlank).head? == some ']'

/-- What a variable in a string says, given the text after its name. -/
def variableInString (after : List Char) : List Token :=
  match after with
  | '[' :: index => if isStringIndex index then [] else [.fault]
  | _ => []

/-- What is read inside a string with code in it. A backslash takes along the next
character, if that may be escaped. -/
def stringLexeme (frames : List Frame) (isPlain mayEscape : Char → Bool) (first : Char)
    (rest : List Char) : Lexeme :=
  match openCode? first rest with
  | some taken => .within (.interpolation :: frames) (.symbol '{') taken
  | none =>
      if first = '\\' ∧ rest.head?.any mayEscape then ⟨[], frames, 1, none⟩
      else if first = '$' then
        let name := rest.takeWhile isNameChar
        ⟨if name = [] then [] else variableInString (rest.drop name.length), frames,
          name.length, none⟩
      else ⟨[], frames, (rest.takeWhile isPlain).length, none⟩

/-- What is read at the end of a line inside a document string whose content goes on in
the given frames, given the text after its first character and the next line. -/
def lineEndLexeme (frames outer : List Frame) (label rest line : List Char)
    (ending : Option (List Char)) : Lexeme :=
  match surelyClosed? label line with
  | some after => ⟨[], outer, rest.length - after.length, none⟩
  | none =>
      ⟨[], frames, rest.length - line.length,
        ending.map fun after => rest.length - after.length⟩

/-- What is read at a place inside some frames. -/
def lexeme (frames : List Frame) (first : Char) (rest : List Char) : Lexeme :=
  match frames with
  | .literal :: outer =>
      if first = '\'' then ⟨[], outer, 0, none⟩
      else if first = '\\' then ⟨[], frames, 1, none⟩
      else
        let isPlain (char : Char) : Bool := char != '\'' && char != '\\'
        ⟨[], frames, (rest.takeWhile isPlain).length, none⟩
  | .template quote :: outer =>
      if first = quote then ⟨[], outer, 0, none⟩
      else
        let isPlain (char : Char) : Bool := char != quote && !isStringMark char
        stringLexeme frames isPlain (fun _ => true) first rest
  | .document label :: outer =>
      match afterLineEnd? (first :: rest) with
      | some line => lineEndLexeme frames outer label rest line (mayBeClosed? label line)
      | none =>
          let isPlain (char : Char) : Bool := !isStringMark char && !isLineEnd char
          stringLexeme frames isPlain (fun char => !isLineEnd char) first rest
  | .rawDocument label :: outer =>
      match afterLineEnd? (first :: rest) with
      | some line => lineEndLexeme frames outer label rest line none
      | none => ⟨[], frames, (rest.takeWhile (!isLineEnd ·)).length, none⟩
  | _ => codeLexeme frames first rest

/-- The number of bytes that some characters take. -/
def byteCount (text : List Char) : Nat :=
  text.foldl (fun count char => count + char.utf8Size) 0

/-- The tokens of a text inside some frames, which starts at a byte. A document string that
may end goes on, unless the text then has a fault. -/
def tokens (frames : List Frame) (start : Nat) (text : List Char) : List PlacedToken :=
  match text with
  | [] => if frames = [] then [] else [⟨.fault, start, start⟩]
  | first :: rest =>
      let found := lexeme frames first rest
      let stopAfter (taken : Nat) : Nat := start + byteCount (first :: rest.take taken)
      let stop := stopAfter found.taken
      let goingOn := found.tokens.map (⟨·, start, stop⟩) ++
        tokens found.frames stop (rest.drop found.taken)
      match found.ending with
      | none => goingOn
      | some taken =>
          if goingOn.any (·.token = .fault) then
            tokens frames.tail (stopAfter taken) (rest.drop taken)
          else goingOn
termination_by text.length
decreasing_by
  all_goals
    simp only [List.length_drop, List.length_cons]
    omega

/-- The tokens of a file, which starts with markup. -/
def fileTokens (source : String) : List PlacedToken :=
  let text := source.toList
  let markup := markupLength text
  tokens [] (byteCount (text.take markup)) (text.drop markup)

end DocblockScan.Program.SourceCode
