/-!
# Names and extras of source code

Source code is text between markup. Between its elements may stand extras: blanks,
comments and markup. This module says which characters names are made of and how many
characters an extra takes.
-/

namespace DocblockScan.Program.SourceCode

/-- A character outside ASCII that stands for a blank. -/
def isWideBlank (char : Char) : Bool :=
  char == '\u00a0' || char == '\u200b' || char == '\u2060' || char == '\ufeff'

/-- An ASCII character that stands for a blank or ends a line. -/
def isSpace (char : Char) : Bool :=
  char == ' ' || (9 ≤ char.toNat && char.toNat ≤ 13)

/-- A character that separates the elements of source code. -/
def isBlank (char : Char) : Bool :=
  isSpace char || isWideBlank char

/-- A character of a name. Beyond ASCII everything in the first plane but a blank is one. -/
def isNameChar (char : Char) : Bool :=
  char.isAlphanum || char == '_' ||
    (0x80 ≤ char.toNat && char.toNat ≤ 0xffff && !isWideBlank char)

/-- A character that ends a line. -/
def isLineEnd (char : Char) : Bool :=
  char == '\n' || char == '\r'

/-- The length of markup, which ends with the next opening tag. -/
def markupLength : List Char → Nat
  | [] => 0
  | '<' :: '?' :: '=' :: _ => 3
  | '<' :: '?' :: first :: second :: third :: _ =>
      if [first, second, third].map Char.toLower = ['p', 'h', 'p'] then 5 else 2
  | '<' :: '?' :: _ => 2
  | _ :: rest => markupLength rest + 1

/-- The length of a comment of one line. The end of the line and a closing tag do not
belong to it; a question mark takes the character after it along. -/
def remarkLength : List Char → Nat
  | [] => 0
  | '?' :: next :: rest =>
      if next = '>' then 0 else if isLineEnd next then 1 else remarkLength rest + 2
  | char :: rest => if isLineEnd char then 0 else remarkLength rest + 1

/-- The length of a comment after its opening mark, with its closing mark. -/
def commentLength : List Char → Nat
  | [] => 0
  | '*' :: '/' :: _ => 2
  | _ :: rest => commentLength rest + 1

/-- What may stand between any two elements of source code: blanks, a comment, or a
closing tag with the markup up to the next opening tag. -/
inductive Extra where
  | blank
  | comment
  | markup
deriving Repr, DecidableEq

/-- The extra that starts with a character, and how many characters after that one belong
to it. A hash sign starts a comment of one line unless it opens attributes. -/
def extra? (first : Char) (rest : List Char) : Option (Extra × Nat) :=
  if isBlank first then some (.blank, (rest.takeWhile isBlank).length)
  else
    match first, rest with
    | '/', '*' :: after => some (.comment, commentLength after + 1)
    | '/', '/' :: after => some (.comment, remarkLength after + 1)
    | '?', '>' :: after => some (.markup, markupLength after + 1)
    | '#', '[' :: _ => none
    | '#', '?' :: _ => some (.comment, 0)
    | '#', _ => some (.comment, remarkLength rest)
    | _, _ => none

/-- The text after all extras at its start. -/
def skipExtras (text : List Char) : List Char :=
  match text with
  | [] => []
  | first :: rest =>
      match extra? first rest with
      | some (_, length) => skipExtras (rest.drop length)
      | none => first :: rest
termination_by text.length
decreasing_by
  simp only [List.length_drop, List.length_cons]
  omega

end DocblockScan.Program.SourceCode
