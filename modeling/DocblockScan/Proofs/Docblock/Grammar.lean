import DocblockScan.Docblock.ArgumentList
import DocblockScan.Proofs.Text.Blank
import Mathlib.Data.Nat.Digits.Defs

/-!
# The grammar of argument lists

Which texts are argument lists, and what each of them stands for. The rules are
authoritative: they speak of texts only and call no reader. A rule relates a
piece of text to what it stands for, given the text after the piece, up to the
end of the list that the piece is in. What follows a piece matters to longest
match and to the choice between an item with a key and one without.
-/

namespace DocblockScan.Docblock.Grammar

open Text (Blank)

/-- A text of nothing but digits. -/
def Digits (digits : List Char) : Prop :=
  ∀ digit ∈ digits, digit.isDigit = true

instance (digits : List Char) : Decidable (Digits digits) :=
  decidable_of_iff (digits.all Char.isDigit = true) List.all_eq_true

/-- A text whose first character is of a class. -/
def StartsWith (accepts : Char → Bool) (text : List Char) : Prop :=
  ∃ char rest, text = char :: rest ∧ accepts char = true

/-- The characters of a name: name characters, and colons in pairs. -/
inductive NameText : List Char → Prop where
  | nil : NameText []
  | char {char : Char} {rest : List Char} (accepted : isNameChar char = true)
      (tail : NameText rest) : NameText (char :: rest)
  | colons {rest : List Char} (tail : NameText rest) : NameText (':' :: ':' :: rest)

/-- A text that would make a name before it longer. -/
def ExtendsName (after : List Char) : Prop :=
  StartsWith isNameChar after ∨ ∃ rest, after = ':' :: ':' :: rest

/-- A longest name. -/
structure Name (written after : List Char) : Prop where
  spelled : NameText written
  longest : ¬ ExtendsName after

/-- A content with every quote written twice. -/
def doubled (content : List Char) : List Char :=
  content.flatMap fun char => if char = '"' then ['"', '"'] else [char]

/-- The string that has a content. -/
def quoted (content : List Char) : List Char :=
  '"' :: (doubled content ++ ['"'])

/-- An optional minus sign. -/
def signText (negative : Bool) : List Char :=
  if negative then ['-'] else []

/-- The natural that decimal digits spell, the first one being the greatest. -/
def decimal (digits : List Char) : Nat :=
  Nat.ofDigits 10 (digits.reverse.map fun digit => digit.toNat - '0'.toNat)

/-- The integer that a sign and decimal digits spell. -/
def signed (negative : Bool) (digits : List Char) : Int :=
  if negative then -(decimal digits : Int) else decimal digits

/-- A number without a point is an integer of 64 bits and needs digits. One with
a point and digits after it is a float; its digits before the point may be left
out after a sign. -/
inductive Number : List Char → List Char → Literal → Prop where
  | integer {negative : Bool} {digits after : List Char}
      (someDigits : digits ≠ []) (allDigits : Digits digits)
      (longest : ¬ StartsWith Char.isDigit after)
      (noFraction : ∀ rest, after = '.' :: rest → ¬ StartsWith Char.isDigit rest)
      (inRange : -2 ^ 63 ≤ signed negative digits ∧ signed negative digits < 2 ^ 63) :
      Number (signText negative ++ digits) after (.integer (signed negative digits))
  | float {negative : Bool} {whole fraction after : List Char}
      (wholeDigits : Digits whole) (someDigits : fraction ≠ [])
      (allDigits : Digits fraction) (longest : ¬ StartsWith Char.isDigit after)
      (started : whole = [] → negative = true) :
      Number (signText negative ++ (whole ++ '.' :: fraction)) after
        (.float (.ofRatio negative (decimal (whole ++ fraction)) (10 ^ fraction.length)))

/-- The words that stand for a value of their own, in small letters. -/
def words : List (String × Literal) :=
  [("true", .bool true), ("false", .bool false), ("null", .null)]

/-- A value that is no array. Words are taken in any letter case. -/
inductive Scalar : List Char → List Char → Literal → Prop where
  | string {content after : List Char} (longest : after.head? ≠ some '"') :
      Scalar (quoted content) after (.string (.ofList content))
  | number {written after : List Char} {literal : Literal}
      (number : Number written after literal) : Scalar written after literal
  | word {written after : List Char} {word : String} {literal : Literal}
      (name : Name written after) (known : (word, literal) ∈ words)
      (spelled : written.map Char.toLower = word.toList) : Scalar written after literal
  | constant {written after : List Char} (name : Name written after)
      (starts : StartsWith startsName written)
      (qualified : [':', ':'] <:+: written) :
      Scalar written after (.constant (.ofList written))

/-- What a list of items is: the arguments of a tag, or the entries of an
array. -/
inductive ListKind where
  | arguments
  | entries
deriving Repr, DecidableEq

/-- The character that ends a list. -/
def ListKind.closer : ListKind → Char
  | .arguments => ')'
  | .entries => '}'

/-- The characters that may stand between a key and its value. -/
def ListKind.separators : ListKind → List Char
  | .arguments => ['=']
  | .entries => ['=', ':']

/-- What can be a key: a name, and in an array also a string or a run of
digits. -/
inductive KeyText : ListKind → List Char → List Char → List Char → Prop where
  | name {kind : ListKind} {written after : List Char} (name : Name written after)
      (starts : StartsWith isLetter written) : KeyText kind written after written
  | string {content after : List Char} (longest : after.head? ≠ some '"') :
      KeyText .entries (quoted content) after content
  | digits {written after : List Char} (someDigits : written ≠ [])
      (allDigits : Digits written) (longest : ¬ StartsWith Char.isDigit after) :
      KeyText .entries written after written

/-- A text that starts with a key, blanks and a separator, and the text after
the separator. -/
def StartsWithKey (kind : ListKind) (text key rest : List Char) : Prop :=
  ∃ written gap separator, text = written ++ (gap ++ separator :: rest) ∧
    KeyText kind written (gap ++ separator :: rest) key ∧
    Blank gap ∧ separator ∈ kind.separators

/-- What ends a list after its last item: an optional comma and the closer. -/
def Closing (kind : ListKind) (text : List Char) : Prop :=
  ∃ gap comma gapAfter, text = gap ++ (comma ++ (gapAfter ++ [kind.closer])) ∧
    Blank gap ∧ (comma = [] ∨ comma = [',']) ∧ Blank gapAfter

mutual

/-- A value, after blanks. -/
inductive Value : List Char → List Char → Literal → Prop where
  | scalar {gap written after : List Char} {literal : Literal} (blank : Blank gap)
      (scalar : Scalar written after literal) : Value (gap ++ written) after literal
  | array {gap body after : List Char} {entries : List (Option String × Literal)}
      (blank : Blank gap) (listing : Listing .entries body entries) :
      Value (gap ++ '{' :: body) after (.array entries)

/-- A value with its key, or one alone. A value stands alone only where no key
can be read. -/
inductive Item : ListKind → List Char → List Char → Option String × Literal → Prop where
  | keyed {kind : ListKind} {written gap value after key : List Char} {separator : Char}
      {literal : Literal}
      (keyText : KeyText kind written (gap ++ separator :: (value ++ after)) key)
      (blank : Blank gap) (separates : separator ∈ kind.separators)
      (means : Value value after literal) :
      Item kind (written ++ (gap ++ separator :: value)) after (some (.ofList key), literal)
  | bare {kind : ListKind} {value after : List Char} {literal : Literal}
      (noKey : ∀ gap text key rest, value ++ after = gap ++ text → Blank gap →
        ¬ StartsWithKey kind text key rest)
      (means : Value value after literal) : Item kind value after (none, literal)

/-- One or more items with commas between them, up to the closer. -/
inductive Items : ListKind → List Char → List (Option String × Literal) → Prop where
  | last {kind : ListKind} {written closing : List Char} {item : Option String × Literal}
      (means : Item kind written closing item) (closes : Closing kind closing) :
      Items kind (written ++ closing) [item]
  | more {kind : ListKind} {written gap gapAfter tail : List Char}
      {item : Option String × Literal} {others : List (Option String × Literal)}
      (means : Item kind written (gap ++ ',' :: (gapAfter ++ tail)) item)
      (blank : Blank gap) (blankAfter : Blank gapAfter) (rest : Items kind tail others) :
      Items kind (written ++ (gap ++ ',' :: (gapAfter ++ tail))) (item :: others)

/-- A list from right after its opening character up to its closer. -/
inductive Listing : ListKind → List Char → List (Option String × Literal) → Prop where
  | empty {kind : ListKind} {gap : List Char} (blank : Blank gap) :
      Listing kind (gap ++ [kind.closer]) []
  | items {kind : ListKind} {gap text : List Char}
      {items : List (Option String × Literal)} (blank : Blank gap)
      (listed : Items kind text items) : Listing kind (gap ++ text) items

end

/-- The keys of the items that have one. -/
def keysOf (items : List (Option String × Literal)) : List String :=
  items.filterMap Prod.fst

/-- The literals of the items without a key. -/
def positionalOf (items : List (Option String × Literal)) : List Literal :=
  items.filterMap fun item => if item.1 = none then some item.2 else none

/-- The items that have a key, with it. -/
def namedOf (items : List (Option String × Literal)) : List (String × Literal) :=
  items.filterMap fun item => item.1.map fun key => (key, item.2)

/-- The arguments that a list of items stands for: those without a key in order,
and those with one in order, where no key occurs twice. -/
structure Collects (items : List (Option String × Literal)) (arguments : Arguments) :
    Prop where
  distinct : (keysOf items).Nodup
  positional : arguments.positional = positionalOf items
  named : arguments.named.entries = namedOf items

/-- A whole argument list with its parentheses. -/
def ArgumentList (text : List Char) (arguments : Arguments) : Prop :=
  ∃ body items, text = '(' :: body ∧ Listing .arguments body items ∧
    Collects items arguments

end DocblockScan.Docblock.Grammar
