/-!
# Cutting texts at separators

This module cuts a text at its lines, at its last separator, or after a fixed
beginning. Cutting at every separator is the standard library's `List.splitOn`.
-/

namespace DocblockScan.Text

/-- The rest of a text after a fixed beginning, if the text begins with it. -/
def dropStart? (start text : List Char) : Option (List Char) :=
  if start.isPrefixOf text then some (text.drop start.length) else none

/-- The part of a text before a fixed ending, if the text ends with it. -/
def dropEnd? (ending text : List Char) : Option (List Char) :=
  if ending.isSuffixOf text then some (text.take (text.length - ending.length)) else none

/-- The part of a text after its last separator, or the whole text without one. -/
def afterLast (separator : Char) (text : List Char) : List Char :=
  (text.reverse.takeWhile (· != separator)).reverse

/-- The parts of a text around its last separator, if it has one. -/
def splitLast? (separator : Char) (text : List Char) :
    Option (List Char × List Char) :=
  match text.reverse.dropWhile (· != separator) with
  | [] => none
  | _ :: before => some (before.reverse, afterLast separator text)

/-- The lines of a text. A line feed ends a line, together with one carriage
return right before it; an empty piece after the last line feed is no line. -/
def lines (text : List Char) : List (List Char) :=
  let pieces := text.splitOn '\n'
  let ended := pieces.dropLast.map fun line => (dropEnd? ['\r'] line).getD line
  match pieces.getLast? with
  | none => ended
  | some [] => ended
  | some last => ended ++ [last]

end DocblockScan.Text
