/-!
# JSON values

Values of the JSON format, as far as records need them. Members keep the order in which
they are listed. How a value is written is left to a printer.
-/

namespace DocblockScan

/-- A JSON value. -/
inductive Json where
  | null
  | string (text : String)
  | array (items : List Json)
  | object (members : List (String × Json))
deriving Repr

/-- An optional text; an absent one is null. -/
def Json.ofText? : Option String → Json
  | none => .null
  | some text => .string text

/-- A list of texts. -/
def Json.ofTexts (texts : List String) : Json :=
  .array (texts.map .string)

end DocblockScan
