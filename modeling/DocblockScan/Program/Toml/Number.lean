import DocblockScan.Decimal.Binary64
import DocblockScan.Program.Toml.Lexeme
import DocblockScan.Toml.Value

/-!
# Numbers of TOML

Integers and floats. An underscore may group the digits of a number. The grammar
lets some texts pass that spell no number: they become unreadable values, and so
does a float whose nearest double is infinite.
-/

namespace DocblockScan.Program.Toml

open DocblockScan.Toml

/-- The sign at the start of a number, and what follows it. -/
def splitSign (text : List Char) : Bool × List Char :=
  match text with
  | '-' :: rest => (true, rest)
  | '+' :: rest => (false, rest)
  | _ => (false, text)

/-- A digit of a base up to sixteen. -/
def isDigitOf (base : Nat) (char : Char) : Bool :=
  (hexValue? char).any (· < base)

/-- The natural that digits of a base spell. -/
def naturalOf (base : Nat) (digits : List Char) : Nat :=
  digits.foldl (fun value digit => base * value + (hexValue? digit).getD 0) 0

/-- Whether an underscore may follow a group: a digit ends it, or it is a single
character such as a sign. -/
def mayPrecedeUnderscore (isDigit : Char → Bool) (group : List Char) : Bool :=
  group.length == 1 || group.getLast?.any isDigit

/-- Whether every underscore of a number stands between two digits, or between a
sign and a digit. -/
def isGrouped (isDigit : Char → Bool) (text : List Char) : Bool :=
  let groups := text.splitOn '_'
  groups.dropLast.all (mayPrecedeUnderscore isDigit) &&
    (groups.drop 1).all fun group => group.head?.any isDigit

/-- A number without its underscores. -/
def ungrouped (text : List Char) : List Char :=
  text.filter (· != '_')

/-- The value of a decimal integer, if it is made of digits alone. -/
def decimalValue (written : List Char) : Value :=
  let (negative, digits) := splitSign (ungrouped written)
  if digits != [] && digits.all Char.isDigit then
    .integer (if negative then -naturalOf 10 digits else naturalOf 10 digits)
  else .unreadable (.ofList written)

/-- A decimal integer with or without a sign. It does not start with a needless
zero. -/
def decimalInteger? (written : List Char) : Option Value :=
  let unsigned := (splitSign written).2
  let needlessZero := unsigned.head? == some '0' && unsigned != ['0']
  if !needlessZero && isGrouped (isDigitOf 16) written then some (decimalValue written)
  else none

/-- An integer of another base, after the marker of the base. Without digits it has
no value. -/
def integerOfBase? (base : Nat) (written : List Char) : Option Value :=
  let digits := ungrouped written
  if digits.all (isDigitOf base) && isGrouped (isDigitOf 16) written then
    if digits = [] then some (.unreadable (.ofList written))
    else some (.integer (naturalOf base digits))
  else none

/-- A float without its sign: the digits on both sides of the point, and the power
of ten it is multiplied by. -/
structure DecimalFloat where
  whole : List Char
  fraction : List Char
  power : Int
deriving Repr

/-- The digits at the start of a text, without underscores, and the text after
them. At least one digit has to stand there. -/
def leadingDigits? (text : List Char) : Lexed (List Char) :=
  let isPart (char : Char) : Bool := char.isDigit || char == '_'
  match ungrouped (text.takeWhile isPart) with
  | [] => none
  | digits => some (digits, text.dropWhile isPart)

/-- The digits after a point, if one stands at the start of a text. -/
def fractionDigits? (text : List Char) : Lexed (List Char) :=
  match text with
  | '.' :: rest => leadingDigits? rest
  | _ => some ([], text)

/-- The power of ten that ends a float. -/
def power? (text : List Char) : Option Int :=
  match text with
  | [] => some 0
  | letter :: rest => do
      let (negative, unsigned) := splitSign rest
      let (digits, after) ← leadingDigits? unsigned
      if (letter == 'e' || letter == 'E') && after == [] then
        some (if negative then -naturalOf 10 digits else naturalOf 10 digits)
      else none

/-- A float without its sign. Its whole part does not start with a needless
zero. -/
def decimalFloat? (unsigned : List Char) : Option DecimalFloat := do
  let (whole, afterWhole) ← leadingDigits? unsigned
  if unsigned.head? = some '0' ∧ whole ≠ ['0'] then none
  let (fraction, afterFraction) ← fractionDigits? afterWhole
  return ⟨whole, fraction, ← power? afterFraction⟩

/-- Whether the double nearest to a float is finite. A float with at most 308
digits before its point is, and one with 310 or more is not. -/
def DecimalFloat.isFinite (float : DecimalFloat) : Bool :=
  let digits := (float.whole ++ float.fraction).dropWhile (· == '0')
  let scale := float.power - float.fraction.length
  let wholeDigits := digits.length + scale
  if digits = [] ∨ wholeDigits ≤ 308 then true
  else if 310 ≤ wholeDigits then false
  else
    (Binary64.ofRatio false (naturalOf 10 digits * Nat.pow 10 scale.toNat)
      (Nat.pow 10 (-scale).toNat)).isFinite

/-- A float with or without a sign. -/
def float? (written : List Char) : Option Value := do
  let float ← decimalFloat? (splitSign written).2
  if isGrouped Char.isDigit written then
    some (if float.isFinite then .float (.ofList written) else .unreadable (.ofList written))
  else none

end DocblockScan.Program.Toml
