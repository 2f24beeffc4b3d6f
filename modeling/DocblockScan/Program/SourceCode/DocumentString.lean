import DocblockScan.Program.SourceCode.Extent

/-!
# Document strings

A document string is a string over several lines between two labels. This module
reads its header and finds the label that closes it; what stands between the two is
no concern of it. A label surely closes when the line shows that nothing else can
be meant, and may close when it is a whole word; the text after it decides then.
-/

namespace DocblockScan.Program.SourceCode

/-- A character of a label. Beyond ASCII every character is one. -/
def isLabelChar (char : Char) : Bool :=
  char.isAlphanum || char == '_' || 128 ≤ char.toNat

/-- A blank within a line. -/
def isIndent (char : Char) : Bool :=
  isBlank char && !isLineEnd char

/-- The text after a label, if the text starts with it as a whole word. -/
def afterLabel? (label text : List Char) : Option (List Char) :=
  if text.takeWhile isLabelChar = label then some (text.dropWhile isLabelChar) else none

/-- The text after the end of a line, if the text starts with one. -/
def afterLineEnd? : List Char → Option (List Char)
  | '\r' :: '\n' :: rest => some rest
  | '\r' :: rest => some rest
  | '\n' :: rest => some rest
  | _ => none

/-- The header of a document string: whether it is raw, its label, and the text
after the header. -/
structure DocumentHeader where
  isRaw : Bool
  label : List Char
  rest : List Char
deriving Repr

/-- The label of a header and the text after it. A quotation mark before the label
has to stand after it as well. -/
def headerLabel? (quote : Option Char) (text : List Char) :
    Option (List Char × List Char) :=
  let label := text.takeWhile isLabelChar
  if label = [] then none
  else
    match quote, text.dropWhile isLabelChar with
    | none, after => some (label, after)
    | some mark, char :: after => if char = mark then some (label, after) else none
    | some _, [] => none

/-- The header at the start of a text, after the mark of a document string. -/
def documentHeader? (text : List Char) : Option DocumentHeader :=
  match skipExtras text with
  | '\'' :: rest =>
      (headerLabel? (some '\'') (rest.dropWhile isSpace)).map fun found =>
        ⟨true, found.1, found.2⟩
  | '"' :: rest =>
      (headerLabel? (some '"') (rest.dropWhile isSpace)).map fun found =>
        ⟨false, found.1, found.2⟩
  | start => (headerLabel? none start).map fun found => ⟨false, found.1, found.2⟩

/-- The text after a header and the start of the body: whether there is a body, and
where it starts or where the closing label ends. The body starts on the next line;
only comments may stand before. -/
def documentBody? (label text : List Char) : Option (Bool × List Char) :=
  match afterLabel? label (text.dropWhile isSpace) with
  | some after => some (false, after)
  | none =>
      match text.dropWhile isIndent with
      | [] => none
      | first :: rest =>
          match afterLineEnd? (first :: rest) with
          | some body => some (true, body.dropWhile isSpace)
          | none =>
              match extra? first rest with
              | some (_, length) =>
                  if _shorter : (rest.drop length).length < text.length then
                    documentBody? label (rest.drop length)
                  else none
              | none => none
termination_by text.length
decreasing_by exact _shorter

/-- An ASCII blank within a line. -/
def isLineSpace (char : Char) : Bool :=
  isSpace char && !isLineEnd char

/-- The text after a label that surely closes a document string, at the start of a
line: a mark that ends an argument or a statement follows it, or the end of the
line. -/
def surelyClosed? (label line : List Char) : Option (List Char) :=
  match afterLabel? label (line.dropWhile isLineSpace) with
  | none => none
  | some after =>
      match after.dropWhile isLineSpace with
      | char :: _ =>
          if char = ';' ∨ char = ',' ∨ char = ')' ∨ isLineEnd char then some after else none
      | [] => none

/-- The text after a label that may close a document string: the next word is the
label, whatever follows it. -/
def mayBeClosed? (label line : List Char) : Option (List Char) :=
  afterLabel? label (skipExtras line)

end DocblockScan.Program.SourceCode
