import DocblockScan.Program.ColumnTables

/-!
# Width in terminal columns

How many columns of a terminal a line takes. What stands to the right of a
character can change its width: a selector decides how an emoji is shown, several
emoji are joined into one, and the letters of some scripts form ligatures. A line
is therefore measured from its end, each character beside what stands to its right.
-/

namespace DocblockScan.Program

/-- How a selector wants the character before it to be shown. -/
inductive Presentation where
  | emoji
  | text
  | fullWidth
deriving Repr, DecidableEq

/-- The right part of a ligature; where it matters, whether a joiner stands before
it. -/
inductive Ligature where
  | alef
  | lamed (joined : Bool)
  | ya (joined : Bool)
  | vowelYa
  | tifinagh (joined : Bool)
  | tifinaghJoiner
  | toneLetter
  | orkhon (joined : Bool)
  | subscript
deriving Repr, DecidableEq

/-- What stands to the right of a character, as far as it can form a unit with the
character. An emoji is joined once a joiner stands before it. -/
inductive Neighbour where
  | plain
  | emoji
  | modifier
  | indicators (joined : Bool) (count : Nat)
  | joinedEmoji
  | joinedKeycap
  | tagLetters (count : Nat)
  | tagDigits (count : Nat)
  | vowelE
  | vowelAi
  | ligature (part : Ligature)
deriving Repr, DecidableEq

/-- What stands to the right of a character: a neighbour, and before it perhaps a
selector. -/
structure Surroundings where
  neighbour : Neighbour
  selector : Option Presentation
deriving Repr, DecidableEq

/-- The surroundings that change no width. -/
def Surroundings.plain : Surroundings := ⟨.plain, none⟩

/-- Whether an emoji to the right is joined to what stands before it. -/
def Neighbour.isJoined : Neighbour → Bool
  | .joinedEmoji => true
  | .joinedKeycap => true
  | _ => false

/-- Whether the right part of a unit stays open across a selector. -/
def Neighbour.survives (selector : Presentation) : Neighbour → Bool
  | .ligature _ => true
  | neighbour => neighbour.isJoined && selector == .emoji

/-- The neighbour of a character that its selector does not change. -/
def Surroundings.settled (right : Surroundings) : Neighbour :=
  match right.selector, right.neighbour with
  | none, neighbour => neighbour
  | some _, .ligature part => .ligature part
  | some _, _ => .plain

/-- Put a selector before what stands to the right. -/
def Surroundings.select (selector : Presentation) (right : Surroundings) : Surroundings :=
  if right.settled.survives selector then ⟨right.settled, some selector⟩
  else ⟨.plain, some selector⟩

/-- The selector that a character is. -/
def presentation? (char : Char) : Option Presentation :=
  match char.toNat with
  | 0xFE01 => some .fullWidth
  | 0xFE0E => some .text
  | 0xFE0F => some .emoji
  | _ => none

/-- Whether a character joins what stands on its two sides. -/
def isJoiner (char : Char) : Bool :=
  char.toNat == 0x200D

/-- The right part of a ligature with a joiner before it. -/
def Ligature.join : Ligature → Ligature
  | .lamed _ => .lamed true
  | .ya _ => .ya true
  | .tifinagh _ => .tifinagh true
  | .orkhon _ => .orkhon true
  | part => part

/-- Whether a character parts the letters around it no more than a mark does. -/
def isTransparent (char : Char) : Bool :=
  inRanges columnlessRanges char && !inRanges nonjoiningRanges char

/-- The width that a letter adds to the right part of its ligature. -/
def Ligature.extend? (char : Char) (part : Ligature) : Option (Int × Neighbour) :=
  match part, char.toNat with
  | .lamed true, 0x5D0 => some (0, .plain)
  | .ya true, 0x1A17 => some (0, .ligature .vowelYa)
  | .vowelYa, 0x1A15 => some (0, .plain)
  | .tifinagh _, 0x2D7F => some (1, .ligature .tifinaghJoiner)
  | .tifinagh true, _ => if inRanges tifinaghRanges char then some (0, .plain) else none
  | .tifinaghJoiner, _ => if inRanges tifinaghRanges char then some (-1, .plain) else none
  | .toneLetter, code => if 0xA4F8 ≤ code && code ≤ 0xA4FB then some (0, .plain) else none
  | .orkhon true, 0x10C32 => some (0, .plain)
  | .subscript, 0x17D2 => some (-1, .plain)
  | _, _ => none

/-- The width that a character adds to the right part of its ligature. Marks may
stand before an alef, and joiners and selectors inside all other ligatures. -/
def Ligature.meet? (char : Char) (part : Ligature) : Option (Int × Neighbour) :=
  if part = .alef then
    if inRanges lamRanges char then some (0, .plain)
    else if isTransparent char then some (0, .ligature .alef)
    else none
  else if isJoiner char then some (0, .ligature part.join)
  else if inRanges ligatureGapRanges char then some (0, .ligature part)
  else part.extend? char

/-- The width that a character adds to what stands to its right, if it forms a unit
with it. -/
def Neighbour.meet? (char : Char) (right : Neighbour) : Option (Int × Neighbour) :=
  match right with
  | .plain => none
  | .emoji => if isJoiner char then some (0, .joinedEmoji) else none
  | .modifier =>
      if inRanges modifierBaseRanges char then some (0, .emoji)
      else if isJoiner char then some (0, .joinedEmoji)
      else none
  | .indicators joined count =>
      if inRanges indicatorRanges char then
        let added : Int := if !joined then 1 else if count % 2 = 1 then -1 else 3
        some (added, .indicators joined (count + 1))
      else if isJoiner char && 2 ≤ count then some (0, .joinedEmoji)
      else none
  | .joinedEmoji =>
      if inRanges indicatorRanges char then some (1, .indicators true 1)
      else if inRanges modifierRanges char then some (0, .modifier)
      else if inRanges emojiRanges char then some (0, .emoji)
      else if char.toNat = 0x20E3 then some (0, .joinedKeycap)
      else if char.toNat = 0xE007F then some (0, .tagLetters 0)
      else none
  | .joinedKeycap => none
  | .tagLetters count =>
      if inRanges tagLetterRanges char && count < 6 then some (0, .tagLetters (count + 1))
      else if inRanges tagDigitRanges char && count < 5 then some (0, .tagDigits 1)
      else if char.toNat = 0x1F3F4 && 3 ≤ count then some (0, .emoji)
      else none
  | .tagDigits count =>
      if inRanges tagDigitRanges char && count < 3 then some (0, .tagDigits (count + 1))
      else if char.toNat = 0x1F3F4 && count = 3 then some (0, .emoji)
      else none
  | .vowelE =>
      match char.toNat with
      | 0x16D63 => some (0, .plain)
      | 0x16D67 => some (0, .vowelAi)
      | 0x16D68 => some (1, .vowelE)
      | 0x16D69 => some (0, .plain)
      | _ => none
  | .vowelAi => if char.toNat = 0x16D63 then some (0, .plain) else none
  | .ligature part => part.meet? char

/-- How many columns a character takes on its own. -/
def charColumns (char : Char) : Nat :=
  if char.toNat = 0x17D8 then 3
  else if inRanges columnlessRanges char then 0
  else if inRanges wideRanges char then 2
  else 1

/-- What a character on its own is to the character before it. -/
def neighbourOf (char : Char) : Neighbour :=
  if inRanges emojiRanges char then .emoji
  else if inRanges modifierRanges char then .modifier
  else if inRanges indicatorRanges char then .indicators false 1
  else if inRanges alefRanges char then .ligature .alef
  else if inRanges tifinaghRanges char then .ligature (.tifinagh false)
  else if inRanges subscriptRanges char then .ligature .subscript
  else
    match char.toNat with
    | 0x5DC => .ligature (.lamed false)
    | 0x1A10 => .ligature (.ya false)
    | 0xA4FC => .ligature .toneLetter
    | 0xA4FD => .ligature .toneLetter
    | 0x10C03 => .ligature (.orkhon false)
    | 0x16D67 => .vowelE
    | 0x16D68 => .vowelAi
    | _ => .plain

/-- Whether a selector to the right decides the width of a character. -/
def Surroundings.selects (right : Surroundings) (char : Char) : Option Presentation :=
  match right.selector with
  | some .emoji => if inRanges emojiVariationRanges char then some .emoji else none
  | some .text => if inRanges textVariationRanges char then some .text else none
  | some .fullWidth => if inRanges quotationRanges char then some .fullWidth else none
  | none => none

/-- The columns that a character adds to what stands to its right, and what both
together are to the character before. -/
def step (char : Char) (right : Surroundings) : Int × Surroundings :=
  match right.selects char with
  | some .emoji => (if right.neighbour.isJoined then 0 else 2, ⟨.emoji, none⟩)
  | some .text => (1, .plain)
  | some .fullWidth => (2, .plain)
  | none =>
      if char.toNat ≤ 0xA0 then (1, .plain)
      else
        match presentation? char with
        | some selector => (0, right.select selector)
        | none =>
            match right.settled.meet? char with
            | some (added, neighbour) => (added, ⟨neighbour, none⟩)
            | none => (charColumns char, ⟨neighbourOf char, none⟩)

/-- The columns of a line, and what it is to a character before it. -/
def measure : List Char → Int × Surroundings
  | [] => (0, .plain)
  | char :: rest =>
      let (taken, right) := measure rest
      let (added, both) := step char right
      (added + taken, both)

/-- How many columns a line takes. -/
def columns (line : List Char) : Nat :=
  (measure line).1.toNat

/-- A line filled up with blanks to a number of columns. -/
def fillColumns (width : Nat) (line : List Char) : List Char :=
  line ++ List.replicate (width - columns line) ' '

end DocblockScan.Program
