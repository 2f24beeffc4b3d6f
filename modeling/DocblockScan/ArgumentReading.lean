import DocblockScan.ScanError
import DocblockScan.Tag

/-!
# Arguments of the expected shape

Readings of the arguments of a tag that either give a value of the wanted shape
or say what is wrong. A named argument that is null counts as absent.
-/

namespace DocblockScan

namespace Arguments

/-- The named argument, unless it is absent or null. -/
def present? (arguments : Arguments) (key : String) : Option Literal :=
  match arguments.get? key with
  | some .null => Option.none
  | found => found

/-- The default argument, or else the one named by the fallback, as a text. -/
def requiredText (arguments : Arguments) (fallback : String) :
    Except ArgumentFault String :=
  match arguments.default?.or (arguments.get? fallback) with
  | Option.none => .error (.missing fallback)
  | some literal =>
      match literal.text? with
      | some text => .ok text
      | Option.none => .error (.notText fallback)

/-- A named argument as a text. -/
def optionalText (arguments : Arguments) (key : String) :
    Except ArgumentFault (Option String) :=
  match arguments.present? key with
  | Option.none => .ok Option.none
  | some literal =>
      match literal.text? with
      | some text => .ok (some text)
      | Option.none => .error (.keyNotText key)

/-- A named argument as a list of texts; an absent one is the empty list. -/
def optionalTextList (arguments : Arguments) (key : String) :
    Except ArgumentFault (List String) :=
  match arguments.present? key with
  | Option.none => .ok []
  | some literal =>
      match literal.textList? with
      | some texts => .ok texts
      | Option.none => .error (.keyNotTextList key)

/-- A named argument as a map of texts; an absent one is the empty map. -/
def optionalTextMap (arguments : Arguments) (key : String) :
    Except ArgumentFault (OrderedMap String String) :=
  match arguments.present? key with
  | Option.none => .ok .empty
  | some literal =>
      match literal.textMap? with
      | some texts => .ok texts
      | Option.none => .error (.keyNotTextMap key)

/-- The default argument as a list of at least one text. -/
def requiredTextList (arguments : Arguments) : Except ArgumentFault (List String) :=
  match arguments.default? with
  | Option.none => .error .noValues
  | some literal =>
      match literal.textList? with
      | some (first :: others) => .ok (first :: others)
      | _ => .error .notTextList

/-- A named argument that has to be a text. -/
def namedText (argument : String × Literal) : Except ArgumentFault (String × String) :=
  match argument.2.text? with
  | some text => .ok (argument.1, text)
  | Option.none => .error (.keyNotText argument.1)

/-- The first argument without a name as a map of texts or, when all arguments
have names, those arguments. -/
def textMap (arguments : Arguments) :
    Except ArgumentFault (OrderedMap String String) :=
  match arguments.positional with
  | literal :: _ =>
      match literal.textMap? with
      | some texts => .ok texts
      | Option.none => .error .notTextMap
  | [] => do return .ofList (← arguments.named.entries.mapM namedText)

end Arguments

/-- Read the arguments of a tag; a fault is reported against the class, the
method and the short name of the tag. -/
def Tag.read {Value : Type} (tag : Tag) (className : String) (method : Option String)
    (reading : Arguments → Except ArgumentFault Value) : Except ScanError Value :=
  (reading tag.arguments).mapError fun fault =>
    .badTag className method (.arguments tag.shortName fault)

/-- Read those tags of a list that a choice by kind has a reading for. The first
tag that cannot be read fails the list. -/
def readChosen {Value : Type} (className : String) (method : Option String)
    (reading? : TagKind → Option (Arguments → Except ArgumentFault Value)) :
    List Tag → Except ScanError (List Value)
  | [] => .ok []
  | tag :: rest =>
      match reading? tag.kind with
      | none => readChosen className method reading? rest
      | some reading => do
          let value ← tag.read className method reading
          let values ← readChosen className method reading? rest
          return value :: values

end DocblockScan
