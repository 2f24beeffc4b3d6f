/-!
# Blank characters and trimming

This module fixes which characters count as blank and how a text loses the
characters of a class at its two ends. It works on lists of characters; it
knows nothing of namespaces, comments or paths.
-/

namespace DocblockScan.Text

/-- The characters of the Unicode property `White_Space`, all twenty-five. -/
def isBlank (char : Char) : Bool :=
  let code := char.toNat
  (9 ≤ code && code ≤ 13) || code == 0x20 || code == 0x85 || code == 0xA0 ||
    code == 0x1680 || (0x2000 ≤ code && code ≤ 0x200A) || code == 0x2028 ||
    code == 0x2029 || code == 0x202F || code == 0x205F || code == 0x3000

/-- Drop the longest run of matching characters at the end of a text. -/
def dropEndWhile (drops : Char → Bool) (text : List Char) : List Char :=
  (text.reverse.dropWhile drops).reverse

/-- Drop the longest runs of matching characters at both ends of a text. -/
def trimBy (drops : Char → Bool) (text : List Char) : List Char :=
  dropEndWhile drops (text.dropWhile drops)

/-- A text without its leading and trailing blanks. -/
def trim (text : List Char) : List Char :=
  trimBy isBlank text

/-- A text without its leading blanks. -/
def skipBlanks (text : List Char) : List Char :=
  text.dropWhile isBlank

/-- Skipping blanks never lengthens a text. -/
theorem length_skipBlanks_le (text : List Char) :
    (skipBlanks text).length ≤ text.length :=
  (List.dropWhile_suffix isBlank).length_le

end DocblockScan.Text
