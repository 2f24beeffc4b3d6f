/-!
# Faults in a docblock

What can be wrong with the argument list of a recognised tag, and the wording
of each fault. A fault is reported with the line it was noticed on.
-/

namespace DocblockScan.Docblock

/-- What is wrong with an argument list. -/
inductive Fault where
  | missingValue
  | nestedTag
  | unexpectedCharacter (found : Char)
  | unexpectedName (name : String)
  | invalidNumber (written : String)
  | unterminatedString
  | unterminatedArray
  | unterminatedArguments
  | expectedSeparator (closer found : Char)
  | duplicateArgument (key : String)
deriving Repr, DecidableEq

namespace Fault

/-- A text between single quotes. -/
def quoted (text : String) : String :=
  "'" ++ text ++ "'"

/-- The text that reports a fault. -/
def message : Fault → String
  | .missingValue => "expected a value, found end of docblock"
  | .nestedTag => "nested annotations are not supported"
  | .unexpectedCharacter found => "unexpected character " ++ quoted found.toString
  | .unexpectedName name => "unexpected identifier " ++ quoted name
  | .invalidNumber written => "invalid number " ++ quoted written
  | .unterminatedString => "unterminated string"
  | .unterminatedArray => "unterminated array"
  | .unterminatedArguments => "unterminated argument list"
  | .expectedSeparator closer found =>
      "expected ',' or " ++ quoted closer.toString ++ ", found " ++ quoted found.toString
  | .duplicateArgument key => "duplicate argument " ++ quoted key

end Fault

/-- A fault and the line of the docblock it was noticed on. -/
structure LocatedFault where
  line : Nat
  fault : Fault
deriving Repr, DecidableEq

/-- The text that reports a fault with its line. -/
def LocatedFault.message (located : LocatedFault) : String :=
  "line " ++ toString located.line ++ ": " ++ located.fault.message

end DocblockScan.Docblock
