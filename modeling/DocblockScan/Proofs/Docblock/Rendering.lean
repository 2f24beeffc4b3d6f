import DocblockScan.Docblock.Tags
import DocblockScan.Proofs.Docblock.Grammar
import DocblockScan.Registry

/-!
# Rendering tags

How a list of tags is written as a comment, and which tags can be written at all.
A comment takes the blanks and one asterisk away at the start of each of its lines,
and a carriage return at their ends; `KeepsLines` says which texts come through
that.
-/

namespace DocblockScan.Docblock.Rendering

open Grammar

/-! ## Texts -/

/-- An integer in decimal, with a sign only if it is negative. -/
def integerText : Int → List Char
  | .ofNat magnitude => Nat.toDigits 10 magnitude
  | .negSucc predecessor => '-' :: Nat.toDigits 10 (predecessor + 1)

/-- The key of an item and what stands between it and the value. The keys of
arguments are names, those of entries are written as strings. -/
def keyText (kind : ListKind) (key : Option String) : List Char :=
  match kind, key with
  | _, none => []
  | .arguments, some key => key.toList ++ ['=']
  | .entries, some key => quoted key.toList ++ [':', ' ']

/-- A list of written items up to its closer. -/
def listText (kind : ListKind) (items : List (List Char)) : List Char :=
  List.intercalate [',', ' '] items ++ [kind.closer]

mutual

/-- A literal as it is written. A float has no rendering. -/
def literalText : Literal → List Char
  | .string text => quoted text.toList
  | .integer value => integerText value
  | .float _ => []
  | .bool true => "true".toList
  | .bool false => "false".toList
  | .null => "null".toList
  | .constant name => name.toList
  | .array entries => '{' :: listText .entries (entryTexts entries)

/-- The entries of an array as they are written. -/
def entryTexts : List (Option String × Literal) → List (List Char)
  | [] => []
  | (key, literal) :: rest => (keyText .entries key ++ literalText literal) :: entryTexts rest

end

/-- An item as it is written, with its key if it has one. -/
def itemText (kind : ListKind) (item : Option String × Literal) : List Char :=
  keyText kind item.1 ++ literalText item.2

/-- The items that arguments stand for, those without a key first. -/
def argumentItems (arguments : Arguments) : List (Option String × Literal) :=
  arguments.positional.map (none, ·) ++
    arguments.named.entries.map fun entry => (some entry.1, entry.2)

/-- A tag as it is written. -/
def tagText (tag : Tag) : List Char :=
  '@' :: (tag.name.toList ++ '(' ::
    listText .arguments ((argumentItems tag.arguments).map (itemText .arguments)))

/-- A line of a comment with a tag on it, after some indentation. -/
def lineText (line : List Char × Tag) : List Char :=
  line.1 ++ '*' :: ' ' :: (tagText line.2 ++ ['\n'])

/-- A comment with a tag on each of its lines; the mark that closes it is indented as
well. -/
def commentText (lines : List (List Char × Tag)) (closing : List Char) : List Char :=
  "/**\n".toList ++ (lines.flatMap lineText ++ (closing ++ "*/".toList))

/-! ## What can be written -/

/-- Blanks that stay on one line. -/
structure Indentation (indent : List Char) : Prop where
  blank : Text.Blank indent
  oneLine : '\n' ∉ indent

/-- Two neighbours in a text that the lines of a comment keep: no carriage return
right before a line feed, and no blank and no asterisk right after one. -/
def KeepsBreak (left right : Char) : Prop :=
  (right = '\n' → left ≠ '\r') ∧
    (left = '\n' → right = '\n' ∨ (Text.isBlank right = false ∧ right ≠ '*'))

/-- A text that the lines of a comment keep as it is. -/
def KeepsLines (text : String) : Prop :=
  text.toList.IsChain KeepsBreak

/-- A name that is read to its end. -/
def ReadWhole (name : String) : Prop :=
  spanName name.toList = (name.toList, [])

/-- The literals that can be written, for a class of keys. -/
inductive Renderable (isKey : String → Prop) : Literal → Prop where
  | string {text : String} (oneLine : '\n' ∉ text.toList) : Renderable isKey (.string text)
  | integer {value : Int} (inRange : -2 ^ 63 ≤ value ∧ value < 2 ^ 63) :
      Renderable isKey (.integer value)
  | bool (value : Bool) : Renderable isKey (.bool value)
  | null : Renderable isKey .null
  | constant {name : String} (whole : ReadWhole name)
      (starts : StartsWith startsName name.toList)
      (qualified : [':', ':'] <:+: name.toList) : Renderable isKey (.constant name)
  | array {entries : List (Option String × Literal)}
      (keys : ∀ key ∈ keysOf entries, isKey key)
      (values : ∀ entry ∈ entries, Renderable isKey entry.2) :
      Renderable isKey (.array entries)

/-- The tags that can be written, for a class of keys of array entries. -/
structure RenderableTag (isKey : String → Prop) (tag : Tag) : Prop where
  spelled : ∀ char ∈ tag.name.toList, isNameChar char = true
  starts : StartsWith isLetter tag.name.toList
  positional : ∀ literal ∈ tag.arguments.positional, Renderable isKey literal
  names : ∀ entry ∈ tag.arguments.named.entries,
    ReadWhole entry.1 ∧ StartsWith isLetter entry.1.toList
  named : ∀ entry ∈ tag.arguments.named.entries, Renderable isKey entry.2

end DocblockScan.Docblock.Rendering
