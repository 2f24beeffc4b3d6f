import DocblockScan.Decimal.Binary64
import DocblockScan.OrderedMap

/-!
# Literals and arguments

The values that can stand between the parentheses of a tag, the arguments they
form, and the readings of a value as a text, a list of texts or a map of texts.
How literals are written belongs to the docblock reader.
-/

namespace DocblockScan

/-- A literal value. A constant such as `Store::REDIS` is kept as written; the
entries of an array keep their order, with or without a key. -/
inductive Literal where
  | string (text : String)
  | integer (value : Int)
  | float (value : Binary64)
  | bool (value : Bool)
  | null
  | constant (name : String)
  | array (entries : List (Option String × Literal))
deriving Repr

namespace Literal

/-- The text of a string literal. -/
def text? : Literal → Option String
  | .string text => some text
  | _ => none

/-- A string as a list of one text, or the entries of an array of strings. -/
def textList? : Literal → Option (List String)
  | .string text => some [text]
  | .array entries => entries.mapM fun entry => entry.2.text?
  | _ => none

/-- The key and the text of an array entry that has both. -/
def textEntry? (entry : Option String × Literal) : Option (String × String) := do
  return (← entry.1, ← entry.2.text?)

/-- The entries of an array in which every entry has a key and a text. -/
def textMap? : Literal → Option (OrderedMap String String)
  | .array entries => (entries.mapM textEntry?).map .ofList
  | _ => none

end Literal

/-- The arguments of a tag: those without a name, and those with one. -/
structure Arguments where
  positional : List Literal
  named : OrderedMap String Literal
deriving Repr

namespace Arguments

/-- No arguments at all. -/
def none : Arguments := ⟨[], .empty⟩

instance : Inhabited Arguments := ⟨none⟩

/-- The argument with a name. -/
def get? (arguments : Arguments) (key : String) : Option Literal :=
  arguments.named.get? key

/-- The default argument: the first one without a name, or else the one that is
named `value`. -/
def default? (arguments : Arguments) : Option Literal :=
  arguments.positional.head?.or (arguments.get? "value")

end Arguments

end DocblockScan
