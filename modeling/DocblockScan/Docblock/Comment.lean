import DocblockScan.Text.Blank
import DocblockScan.Text.Pieces

/-!
# The text inside a comment

A docblock is a comment whose lines usually start with an asterisk. This module
takes the comment marks away and keeps every line, so that a position in what
remains tells the line of the comment.
-/

namespace DocblockScan.Docblock

/-- A text without the marks that open and close a comment. A missing mark is
no fault. -/
def withoutDelimiters (text : List Char) : List Char :=
  let opened :=
    ((Text.dropStart? "/**".toList text).or (Text.dropStart? "/*".toList text)).getD text
  (Text.dropEnd? "*/".toList opened).getD opened

/-- A line without its leading blanks and one asterisk after them. -/
def withoutMargin (line : List Char) : List Char :=
  match Text.skipBlanks line with
  | '*' :: rest => rest
  | rest => rest

/-- The text inside a comment, line by line. -/
def contents (comment : List Char) : List Char :=
  let lines := Text.lines (withoutDelimiters (Text.trim comment))
  List.intercalate ['\n'] (lines.map withoutMargin)

end DocblockScan.Docblock
