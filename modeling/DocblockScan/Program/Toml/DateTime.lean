import DocblockScan.Program.Toml.Number

/-!
# Dates and times of TOML

Which texts are a date, a time of day, or a date with a time. A time may leave its
seconds out; an offset stands only after a date with a time.
-/

namespace DocblockScan.Program.Toml

/-- The natural that exactly so many decimal digits spell. -/
def fixedDigits? (count : Nat) (text : List Char) : Option Nat :=
  if text.length = count ∧ text.all Char.isDigit then some (naturalOf 10 text) else none

/-- How many days a month has. -/
def daysOf (year month : Nat) : Nat :=
  if month = 2 then
    if year % 4 = 0 ∧ (year % 100 ≠ 0 ∨ year % 400 = 0) then 29 else 28
  else if month = 4 ∨ month = 6 ∨ month = 9 ∨ month = 11 then 30
  else 31

/-- Whether a text is a date. -/
def isDate (text : List Char) : Bool :=
  match text.splitOn '-' with
  | [year, month, day] =>
      match fixedDigits? 4 year, fixedDigits? 2 month, fixedDigits? 2 day with
      | some year, some month, some day =>
          1 ≤ month && month ≤ 12 && 1 ≤ day && day ≤ daysOf year month
      | _, _, _ => false
  | _ => false

/-- Whether a text is the seconds of a time, with or without a fraction. A minute
may have a leap second. -/
def isSeconds (text : List Char) : Bool :=
  let fits (whole : List Char) : Bool := (fixedDigits? 2 whole).any (· ≤ 60)
  match text.splitOn '.' with
  | [whole] => fits whole
  | [whole, fraction] => fits whole && fraction != [] && fraction.all Char.isDigit
  | _ => false

/-- Whether two texts are an hour and a minute. -/
def isHourMinute (hour minute : List Char) : Bool :=
  (fixedDigits? 2 hour).any (· ≤ 23) && (fixedDigits? 2 minute).any (· ≤ 59)

/-- Whether a text is a time of day; the seconds may be left out. -/
def isTime (text : List Char) : Bool :=
  match text.splitOn ':' with
  | [hour, minute] => isHourMinute hour minute
  | [hour, minute, seconds] => isHourMinute hour minute && isSeconds seconds
  | _ => false

/-- Whether a text is an offset: the letter of universal time, or a sign with an
hour and a minute. -/
def isOffset (text : List Char) : Bool :=
  match text with
  | [letter] => letter == 'Z' || letter == 'z'
  | sign :: offset =>
      (sign == '+' || sign == '-') &&
        match offset.splitOn ':' with
        | [hour, minute] => isHourMinute hour minute
        | _ => false
  | [] => false

/-- Whether a text is a time of day with an offset after it, or without one. -/
def isTimeWithOffset (text : List Char) : Bool :=
  let inTime (char : Char) : Bool := char.isDigit || char == ':' || char == '.'
  let offset := text.dropWhile inTime
  isTime (text.takeWhile inTime) && (offset.isEmpty || isOffset offset)

/-- Whether a text is a date, a time of day or both. A letter or a blank stands
between the two. -/
def isDateTime (text : List Char) : Bool :=
  isDate text || isTime text ||
    (isDate (text.take 10) &&
      match text.drop 10 with
      | mark :: time => (mark == 'T' || mark == 't' || mark == ' ') && isTimeWithOffset time
      | [] => false)

end DocblockScan.Program.Toml
