import DocblockScan.Json.Basic

/-!
# JSON texts

The indented text of a JSON value. Every member and every item stands on a line of its own,
two blanks deeper than what it belongs to.
-/

namespace DocblockScan.Program

/-- A hexadecimal digit in lower case. -/
def hexDigit (value : Nat) : Char :=
  if value < 10 then Char.ofNat (48 + value) else Char.ofNat (87 + value)

/-- A character inside a JSON string. Quotes, backslashes and control characters
below the blank are escaped, everything else stands for itself. -/
def escape (char : Char) : List Char :=
  match char with
  | '"' => ['\\', '"']
  | '\\' => ['\\', '\\']
  | '\x08' => ['\\', 'b']
  | '\x0c' => ['\\', 'f']
  | '\n' => ['\\', 'n']
  | '\r' => ['\\', 'r']
  | '\t' => ['\\', 't']
  | _ =>
      if char.toNat < 32 then
        ['\\', 'u', '0', '0', hexDigit (char.toNat / 16), hexDigit (char.toNat % 16)]
      else [char]

/-- The JSON string of a text. -/
def quoted (text : String) : List Char :=
  '"' :: text.toList.flatMap escape ++ ['"']

/-- A line break and the indentation of a depth. -/
def lineBreak (depth : Nat) : List Char :=
  '\n' :: List.replicate (2 * depth) ' '

mutual

/-- The text of a value at a depth. An array or object without content stays on one
line. -/
def jsonText (depth : Nat) : Json → List Char
  | .null => ['n', 'u', 'l', 'l']
  | .string text => quoted text
  | .array [] => ['[', ']']
  | .array (item :: others) =>
      '[' :: (lineBreak (depth + 1) ++ jsonText (depth + 1) item ++
        laterItems (depth + 1) others ++ lineBreak depth ++ [']'])
  | .object [] => ['{', '}']
  | .object ((key, value) :: others) =>
      '{' :: (lineBreak (depth + 1) ++ (quoted key ++ ':' :: ' ' :: jsonText (depth + 1) value) ++
        laterMembers (depth + 1) others ++ lineBreak depth ++ ['}'])

/-- The text of the items of an array after the first. -/
def laterItems (depth : Nat) : List Json → List Char
  | [] => []
  | item :: others => ',' :: lineBreak depth ++ jsonText depth item ++ laterItems depth others

/-- The text of the members of an object after the first. -/
def laterMembers (depth : Nat) : List (String × Json) → List Char
  | [] => []
  | (key, value) :: others =>
      ',' :: lineBreak depth ++ (quoted key ++ ':' :: ' ' :: jsonText depth value) ++
        laterMembers depth others

end

/-- The text of a value. -/
def json (value : Json) : String :=
  .ofList (jsonText 0 value)

end DocblockScan.Program
