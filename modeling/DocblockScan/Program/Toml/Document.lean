import DocblockScan.Program.Toml.Scalar
import DocblockScan.Program.Toml.Table

/-!
# TOML documents

Reading a whole document into its top-level table. A reader that fails gives no
reason: every malformed document is malformed alike. Recursive readers go on
only with a shorter text, and every array or inline table they enter uses up one
level of nesting.
-/

namespace DocblockScan.Program.Toml

open DocblockScan.Toml

/-- The key of an entry of an inline table, and the text where its value starts.
Line ends and comments may stand around the equals sign. -/
def inlineKey (text : List Char) : Option (List String × List Char) := do
  let (path, afterKey) ← key text
  match ← skipTrivia false afterKey with
  | '=' :: rest => return (path, ← skipTrivia false rest)
  | _ => none

mutual

/-- The value at the start of a text, with so many levels of nesting. -/
def readValue (levels : Nat) (text : List Char) : Lexed Value :=
  match anyString? text with
  | some lexed => lexed.map fun found => (.string (.ofList found.1), found.2)
  | none =>
      match text, levels with
      | '[' :: rest, inner + 1 =>
          (readItems inner rest).map fun found => (.array found.1, found.2)
      | '\x7b' :: rest, inner + 1 =>
          (readInline inner .root rest).map fun found => (.table found.1.finish, found.2)
      | _, _ => scalar text
termination_by 2 * text.length
decreasing_by all_goals simp only [List.length_cons]; omega

/-- The items of an array whose bracket has been read, up to and with the
closing bracket. A comma may follow the last item. -/
def readItems (levels : Nat) (text : List Char) : Lexed (List Value) :=
  match skipTrivia false text with
  | none => none
  | some (']' :: rest) => some ([], rest)
  | some start =>
      if _starts : start.length ≤ text.length then
        match readValue levels start with
        | none => none
        | some (item, after) =>
            match skipTrivia false after with
            | some (',' :: rest) =>
                if _shorter : rest.length < text.length then
                  (readItems levels rest).map fun found => (item :: found.1, found.2)
                else none
            | some (']' :: rest) => some ([item], rest)
            | _ => none
      else none
termination_by 2 * text.length + 1
decreasing_by all_goals omega

/-- The entries of an inline table after those already read, up to and with the
closing brace. A comma may follow the last entry. -/
def readInline (levels : Nat) (known : Table) (text : List Char) : Lexed Table :=
  match skipTrivia false text with
  | none => none
  | some ('\x7d' :: rest) => some (known, rest)
  | some start =>
      match inlineKey start with
      | none => none
      | some (path, valueText) =>
          if _starts : valueText.length < text.length then
            match readValue levels valueText with
            | none => none
            | some (value, after) =>
                match known.defineDotted path value with
                | none => none
                | some grown =>
                    match skipTrivia false after with
                    | some (',' :: rest) =>
                        if _shorter : rest.length < text.length then
                          readInline levels grown rest
                        else none
                    | some ('\x7d' :: rest) => some (grown, rest)
                    | _ => none
          else none
termination_by 2 * text.length + 1
decreasing_by all_goals omega

end

/-- The key of a header and the text after its closing brackets. -/
def readHeader (closing text : List Char) : Option (List String × List Char) := do
  let (path, after) ← key (skipBlanks text)
  if closing.isPrefixOf after then some (path, after.drop closing.length) else none

/-- A document under construction: its top-level table, and the header that the
next keys belong to. -/
structure Draft where
  table : Table
  header : List String
deriving Repr

/-- One line of a document: a header or a key with its value. -/
def readLine (draft : Draft) (text : List Char) : Option (Draft × List Char) :=
  match text with
  | '[' :: '[' :: rest => do
      let (path, after) ← readHeader [']', ']'] rest
      return (⟨← draft.table.openNext? path, path⟩, after)
  | '[' :: rest => do
      let (path, after) ← readHeader [']'] rest
      return (⟨← draft.table.open? path, path⟩, after)
  | _ => do
      let (path, after) ← key text
      match after with
      | '=' :: valueText =>
          let (value, rest) ← readValue nestingLimit (skipBlanks valueText)
          let table ← draft.table.atHeader draft.header (Table.defineDotted path value)
          return ({ draft with table }, rest)
      | _ => none

/-- The lines of a document from some point on. -/
def readLines (draft : Draft) (text : List Char) : Option Draft :=
  match skipTrivia false text with
  | none => none
  | some [] => some draft
  | some start =>
      match readLine draft start with
      | none => none
      | some (grown, after) =>
          match skipLineEnd false after with
          | none => none
          | some rest => if rest.length < text.length then readLines grown rest else none
termination_by text.length

/-- A text without the byte order mark it may start with. -/
def dropByteOrderMark : List Char → List Char
  | '\ufeff' :: rest => rest
  | text => text

/-- The entries of the top-level table of a document. -/
def parse (document : String) : Option (List (String × Value)) :=
  (readLines ⟨.root, []⟩ (dropByteOrderMark document.toList)).map fun draft =>
    draft.table.finish

end DocblockScan.Program.Toml
