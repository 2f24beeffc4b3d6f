/-!
# Lexemes of TOML

Blanks, comments, line ends and the four kinds of strings at the start of a
text. Every reader returns what it read together with the rest of the text, or
nothing when the text is malformed.
-/

namespace DocblockScan.Program.Toml

/-- What was read and the text after it. -/
abbrev Lexed (Value : Type) := Option (Value × List Char)

/-- A character that may stand neither in a comment nor in a string. -/
def isControl (char : Char) : Bool :=
  (char.toNat < 32 && char != '\t') || char.toNat == 127

/-- A blank within a line. -/
def isBlank (char : Char) : Bool :=
  char == ' ' || char == '\t'

/-- The text after the blanks at its start. -/
def skipBlanks (text : List Char) : List Char :=
  text.dropWhile isBlank

/-- The text after blanks, line ends and comments. A carriage return counts only
before a line feed. -/
def skipTrivia (inComment : Bool) : List Char → Option (List Char)
  | [] => some []
  | '\n' :: rest => skipTrivia false rest
  | '\r' :: '\n' :: rest => skipTrivia false rest
  | char :: rest =>
      if inComment then (if isControl char then none else skipTrivia true rest)
      else if isBlank char then skipTrivia false rest
      else if char = '#' then skipTrivia true rest
      else some (char :: rest)

/-- The text after the end of a line, before which only blanks and a comment may
stand. -/
def skipLineEnd (inComment : Bool) : List Char → Option (List Char)
  | [] => some []
  | '\n' :: rest => some rest
  | '\r' :: '\n' :: rest => some rest
  | char :: rest =>
      if inComment then (if isControl char then none else skipLineEnd true rest)
      else if isBlank char then skipLineEnd false rest
      else if char = '#' then skipLineEnd true rest
      else none

/-- The value of a hexadecimal digit. -/
def hexValue? (char : Char) : Option Nat :=
  if char.isDigit then some (char.toNat - '0'.toNat)
  else if 'a' ≤ char && char ≤ 'f' then some (char.toNat - 'a'.toNat + 10)
  else if 'A' ≤ char && char ≤ 'F' then some (char.toNat - 'A'.toNat + 10)
  else none

/-- The natural that hexadecimal digits spell. -/
def hexNatural? (digits : List Char) : Option Nat :=
  digits.foldlM (fun value digit => (hexValue? digit).map (16 * value + ·)) 0

/-- How many hexadecimal digits an escape takes. -/
def hexDigitCount? : Char → Option Nat
  | 'x' => some 2
  | 'u' => some 4
  | 'U' => some 8
  | _ => none

/-- The character of an escape with exactly so many hexadecimal digits. -/
def hexCharacter? (count : Nat) (digits : List Char) : Option Char := do
  let code ← hexNatural? digits
  if digits.length = count ∧ code.isValidChar then some (Char.ofNat code) else none

/-- The character of an escape without digits. -/
def plainEscape? : Char → Option Char
  | 'b' => some '\x08'
  | 't' => some '\t'
  | 'n' => some '\n'
  | 'f' => some '\x0c'
  | 'r' => some '\r'
  | 'e' => some '\x1b'
  | '"' => some '"'
  | '\\' => some '\\'
  | _ => none

/-- An escape, after its backslash. What follows is the text without the first
few characters. -/
def escapeAt? (text : List Char) : Option (Char × Nat) :=
  match text with
  | [] => none
  | code :: rest =>
      match hexDigitCount? code with
      | some count => (hexCharacter? count (rest.take count)).map fun char => (char, count + 1)
      | none => (plainEscape? code).map fun char => (char, 1)

/-- The content of a string whose opening quotation mark has been read. -/
def basicString (text : List Char) : Lexed (List Char) :=
  match text with
  | [] => none
  | '"' :: rest => some ([], rest)
  | '\\' :: rest =>
      match escapeAt? rest with
      | none => none
      | some (char, taken) =>
          (basicString (rest.drop taken)).map fun found => (char :: found.1, found.2)
  | char :: rest =>
      if isControl char then none
      else (basicString rest).map fun found => (char :: found.1, found.2)
termination_by text.length
decreasing_by all_goals simp only [List.length_cons, List.length_drop]; omega

/-- Up to two more of the marks that closed a string: they belong to it. -/
def trailingMarks (mark : Char) (text : List Char) : List Char × List Char :=
  match text with
  | first :: second :: rest =>
      if first = mark then
        if second = mark then ([mark, mark], rest) else ([mark], second :: rest)
      else ([], text)
  | [last] => if last = mark then ([mark], []) else ([], text)
  | [] => ([], [])

/-- Whether a line ends after some blanks. -/
def lineEnds (text : List Char) : Bool :=
  match skipBlanks text with
  | '\n' :: _ => true
  | '\r' :: '\n' :: _ => true
  | _ => false

/-- The text after all blanks and line ends at its start. -/
def skipSpace : List Char → List Char
  | [] => []
  | '\r' :: '\n' :: rest => skipSpace rest
  | char :: rest => if isBlank char || char == '\n' then skipSpace rest else char :: rest

/-- Skipping space leaves at most the text. -/
theorem length_skipSpace_le (text : List Char) : (skipSpace text).length ≤ text.length := by
  fun_induction skipSpace text <;> grind

/-- The content of a string over several lines, without its opening marks. A
backslash at the end of a line takes all following space away. -/
def longBasicString (text : List Char) : Lexed (List Char) :=
  match text with
  | [] => none
  | '"' :: '"' :: '"' :: rest => some (trailingMarks '"' rest)
  | '\\' :: rest =>
      if lineEnds rest then longBasicString (skipSpace rest)
      else
        match escapeAt? rest with
        | none => none
        | some (char, taken) =>
            (longBasicString (rest.drop taken)).map fun found => (char :: found.1, found.2)
  | '\r' :: '\n' :: rest =>
      (longBasicString rest).map fun found => ('\r' :: '\n' :: found.1, found.2)
  | char :: rest =>
      if isControl char && char != '\n' then none
      else (longBasicString rest).map fun found => (char :: found.1, found.2)
termination_by text.length
decreasing_by
  · have bound := length_skipSpace_le rest
    simp only [List.length_cons]
    omega
  all_goals simp only [List.length_cons, List.length_drop]; omega

/-- The content of a string without escapes, without its opening mark. -/
def literalString : List Char → Lexed (List Char)
  | [] => none
  | '\'' :: rest => some ([], rest)
  | char :: rest =>
      if isControl char then none
      else (literalString rest).map fun found => (char :: found.1, found.2)

/-- The content of a string without escapes over several lines, without its
opening marks. -/
def longLiteralString : List Char → Lexed (List Char)
  | [] => none
  | '\'' :: '\'' :: '\'' :: rest => some (trailingMarks '\'' rest)
  | '\r' :: '\n' :: rest =>
      (longLiteralString rest).map fun found => ('\r' :: '\n' :: found.1, found.2)
  | char :: rest =>
      if isControl char && char != '\n' then none
      else (longLiteralString rest).map fun found => (char :: found.1, found.2)

/-- A text without the line end at its start. -/
def dropFirstLineEnd : List Char → List Char
  | '\n' :: rest => rest
  | '\r' :: '\n' :: rest => rest
  | text => text

/-- A string of any kind at the start of a text that starts with a mark. -/
def anyString? (text : List Char) : Option (Lexed (List Char)) :=
  match text with
  | '"' :: '"' :: '"' :: rest => some (longBasicString (dropFirstLineEnd rest))
  | '"' :: rest => some (basicString rest)
  | '\'' :: '\'' :: '\'' :: rest => some (longLiteralString (dropFirstLineEnd rest))
  | '\'' :: rest => some (literalString rest)
  | _ => none

/-- A character of a key without marks. -/
def isBareKeyChar (char : Char) : Bool :=
  char.isAlphanum || char == '_' || char == '-'

/-- One part of a key. -/
def keyPart (text : List Char) : Lexed String :=
  match text with
  | '"' :: rest => (basicString rest).map fun found => (.ofList found.1, found.2)
  | '\'' :: rest => (literalString rest).map fun found => (.ofList found.1, found.2)
  | _ =>
      let bare := text.takeWhile isBareKeyChar
      if bare = [] then none else some (.ofList bare, text.dropWhile isBareKeyChar)

/-- The parts of a key with at most so many parts; dots stand between them. -/
def keyParts (budget : Nat) (text : List Char) : Option (List String × List Char) :=
  match budget with
  | 0 => none
  | smaller + 1 => do
      let (part, after) ← keyPart text
      match skipBlanks after with
      | '.' :: rest =>
          let (others, final) ← keyParts smaller (skipBlanks rest)
          some (part :: others, final)
      | rest => some ([part], rest)

/-- How many parts a key may have, and how deep arrays and inline tables may be
nested. -/
def nestingLimit : Nat := 80

/-- A key at the start of a text, and the text after it and its blanks. -/
def key (text : List Char) : Lexed (List String) :=
  keyParts nestingLimit text

end DocblockScan.Program.Toml
