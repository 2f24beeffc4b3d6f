/-!
# Readings

What a reader hands on when it has read a value at the start of a text.
-/

namespace DocblockScan.Text

/-- A value read at the start of a text, and the shorter text after it. -/
structure Reading (Value : Type) (text : List Char) where
  value : Value
  rest : List Char
  shorter : rest.length < text.length

end DocblockScan.Text
