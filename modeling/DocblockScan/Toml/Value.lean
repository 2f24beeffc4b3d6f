/-!
# TOML values

The values a TOML document is made of, as a reader finds them. Floats and dates are kept as they are
written: no configuration reads one. What is written like a number can still
fail to stand for one, and matters only where somebody reads it.
-/

namespace DocblockScan.Toml

/-- A TOML value. The keys of a table are distinct and keep their order. -/
inductive Value where
  | string (text : String)
  | integer (value : Int)
  | float (written : String)
  | boolean (value : Bool)
  | dateTime (written : String)
  | unreadable (written : String)
  | array (items : List Value)
  | table (entries : List (String × Value))
deriving Repr

/-- What finds the entries of the top-level table of a document, or refuses the document. -/
abbrev Reader := String → Option (List (String × Value))

/-- Whether an integer is a signed or an unsigned number of so many bits. -/
def fitsBits (bits : Nat) (value : Int) : Bool :=
  -(Nat.pow 2 (bits - 1) : Int) ≤ value && value < (Nat.pow 2 bits : Int)

mutual

/-- Whether a value and all values in it stand for something, with integers of so
many bits. -/
def Value.isReadable (bits : Nat) : Value → Bool
  | .integer value => fitsBits bits value
  | .unreadable _ => false
  | .array items => Value.areReadable bits items
  | .table entries => Value.entriesReadable bits entries
  | _ => true

/-- Whether all of some values can be read. -/
def Value.areReadable (bits : Nat) : List Value → Bool
  | [] => true
  | value :: rest => value.isReadable bits && Value.areReadable bits rest

/-- Whether the values of all of some entries can be read. -/
def Value.entriesReadable (bits : Nat) : List (String × Value) → Bool
  | [] => true
  | (_, value) :: rest => value.isReadable bits && Value.entriesReadable bits rest

end

end DocblockScan.Toml
