import DocblockScan.Program.Toml.DateTime

/-!
# Scalars of TOML

Booleans, numbers and dates: the values that are written without marks. A scalar
is a run of characters without blanks; only between a date and a time a blank may
stand. Its first characters decide what kind it is.
-/

namespace DocblockScan.Program.Toml

open DocblockScan.Toml

/-- A character that a scalar can hold. What ends a value or a line ends a scalar,
and so does the start of an array, a table or a comment. -/
def isScalarChar (char : Char) : Bool :=
  !("=,[]\x7b\x7d \t#\r\n".toList.contains char)

/-- A number or a date. What stands after its leading digits tells which. -/
def number? (written : List Char) : Option Value :=
  let afterDigits := (splitSign written).2.dropWhile Char.isDigit
  match afterDigits with
  | [] => decimalInteger? written
  | mark :: _ =>
      if mark = '-' ∨ mark = ':' then
        if isDateTime written then some (.dateTime (.ofList written)) else none
      else if afterDigits.any fun char => char == '.' || char == 'e' || char == 'E' then
        float? written
      else if mark = '_' then decimalInteger? written
      else none

/-- A scalar that is a word. Only the words for floats may have a sign. -/
def word? (written : List Char) : Option Value :=
  let unsigned := (splitSign written).2
  if written = "true".toList then some (.boolean true)
  else if written = "false".toList then some (.boolean false)
  else if unsigned = "inf".toList ∨ unsigned = "nan".toList then some (.float (.ofList written))
  else none

/-- The value that a run of characters stands for. Integers of other bases have no
sign. -/
def scalar? (written : List Char) : Option Value :=
  match written with
  | '0' :: 'x' :: digits => integerOfBase? 16 digits
  | '0' :: 'o' :: digits => integerOfBase? 8 digits
  | '0' :: 'b' :: digits => integerOfBase? 2 digits
  | _ =>
      match (splitSign written).2 with
      | first :: _ =>
          if first.isDigit || first == '_' then number? written else word? written
      | [] => none

/-- Whether a blank after a date leads on to a time of day. -/
def timeFollows (text : List Char) : Bool :=
  match text with
  | ' ' :: first :: second :: ':' :: _ => first.isDigit && second.isDigit
  | _ => false

/-- The scalar at the start of a text. -/
def scalar (text : List Char) : Option (Value × List Char) := do
  let run := text.takeWhile isScalarChar
  let after := text.dropWhile isScalarChar
  if isDate run && timeFollows after then
    let time := (after.drop 1).takeWhile isScalarChar
    return (← scalar? (run ++ ' ' :: time), (after.drop 1).dropWhile isScalarChar)
  else return (← scalar? run, after)

end DocblockScan.Program.Toml
