import DocblockScan.Docblock.Fault
import DocblockScan.Literal
import DocblockScan.Text.Blank

/-!
# Lexemes of an argument list

Names, strings, numbers and keys at the start of a text, each read by longest
match. Every reader returns what follows the lexeme; the lemmas here say that
nothing grows on the way.
-/

namespace DocblockScan.Docblock

/-- A fault and what of the text was still unread when it was noticed. -/
structure Failure where
  fault : Fault
  rest : List Char
deriving Repr, DecidableEq

/-- Whether a plain name can start with a character. -/
def isLetter (char : Char) : Bool :=
  char.isAlpha || char == '_'

/-- Whether a qualified name can start with a character. -/
def startsName (char : Char) : Bool :=
  isLetter char || char == '\\'

/-- Whether a character can stand inside a name on its own. -/
def isNameChar (char : Char) : Bool :=
  char.isAlphanum || char == '_' || char == '\\'

/-- The longest name at the start of a text and what follows it. A double colon
belongs to a name, a single one does not. -/
def spanName : List Char → List Char × List Char
  | [] => ([], [])
  | ':' :: ':' :: rest =>
      let (name, after) := spanName rest
      (':' :: ':' :: name, after)
  | char :: rest =>
      if isNameChar char then
        let (name, after) := spanName rest
        (char :: name, after)
      else ([], char :: rest)

/-- Reading a name splits the text. -/
theorem spanName_append (text : List Char) :
    (spanName text).1 ++ (spanName text).2 = text := by
  fun_induction spanName text with
  | case1 => rfl
  | case2 rest name after found inductionHypothesis => simp_all
  | case3 char rest _ accepted name after found inductionHypothesis => simp_all
  | case4 char rest _ refused => rfl

/-- What follows a name is no longer than the text. -/
theorem length_spanName_le (text : List Char) :
    (spanName text).2.length ≤ text.length := by
  have whole := congrArg List.length (spanName_append text)
  simp only [List.length_append] at whole
  omega

/-- A text that starts with a name character is longer than what follows the
name. -/
theorem length_spanName_lt {char : Char} (rest : List Char)
    (accepted : isNameChar char = true) :
    (spanName (char :: rest)).2.length < (char :: rest).length := by
  have bound := length_spanName_le rest
  have notColon : char ≠ ':' := by
    rintro rfl
    exact absurd accepted (by decide)
  have unfolded : (spanName (char :: rest)).2 = (spanName rest).2 := by
    rw [spanName.eq_def]
    split
    · simp_all
    · simp_all
    · simp_all
  rw [unfolded]
  simp only [List.length_cons]
  omega

/-- A character that starts a name also stands inside one. -/
theorem isNameChar_of_startsName {char : Char} (starts : startsName char = true) :
    isNameChar char = true := by
  simp only [startsName, isLetter, isNameChar, Char.isAlphanum, Bool.or_eq_true] at *
  rcases starts with (alpha | underscore) | slash
  · exact .inl (.inl (.inl alpha))
  · exact .inl (.inr underscore)
  · exact .inr slash

/-- The content of a string whose opening quote has been read, and what follows
its closing quote. Two quotes in a row stand for one. -/
def spanString : List Char → Option (List Char × List Char)
  | [] => none
  | '"' :: '"' :: rest => (spanString rest).map fun found => ('"' :: found.1, found.2)
  | '"' :: rest => some ([], rest)
  | char :: rest => (spanString rest).map fun found => (char :: found.1, found.2)

/-- What follows a string is shorter than the text its content starts. -/
theorem length_spanString_lt {text content after : List Char}
    (found : spanString text = some (content, after)) :
    after.length < text.length := by
  fun_induction spanString text generalizing content with
  | case1 => simp at found
  | case2 rest inductionHypothesis =>
      obtain ⟨⟨inner, tail⟩, innerFound, same⟩ := Option.map_eq_some_iff.1 found
      obtain ⟨-, rfl⟩ := Prod.mk.inj same
      have bound : tail.length < rest.length := inductionHypothesis innerFound
      simp only [List.length_cons]
      omega
  | case3 rest =>
      obtain ⟨-, rfl⟩ := Prod.mk.inj (Option.some.inj found)
      simp
  | case4 char rest _ _ inductionHypothesis =>
      obtain ⟨⟨inner, tail⟩, innerFound, same⟩ := Option.map_eq_some_iff.1 found
      obtain ⟨-, rfl⟩ := Prod.mk.inj same
      have bound : tail.length < rest.length := inductionHypothesis innerFound
      simp only [List.length_cons]
      omega

/-- A number as it is written. -/
structure Numeral where
  negative : Bool
  whole : List Char
  fraction : Option (List Char)
deriving Repr, DecidableEq

/-- The characters of a number. -/
def Numeral.written (numeral : Numeral) : List Char :=
  (if numeral.negative then ['-'] else []) ++ numeral.whole ++
    match numeral.fraction with
    | some digits => '.' :: digits
    | none => []

/-- The digits after a point, if the point is followed by a digit. -/
def spanFraction (text : List Char) : Option (List Char) × List Char :=
  match text with
  | '.' :: digit :: rest =>
      if digit.isDigit then
        (some (digit :: rest.takeWhile Char.isDigit), rest.dropWhile Char.isDigit)
      else (none, text)
  | _ => (none, text)

/-- An optional minus sign. -/
def spanSign (text : List Char) : Bool × List Char :=
  match text with
  | '-' :: rest => (true, rest)
  | _ => (false, text)

/-- The number at the start of a text and what follows it. -/
def spanNumeral (text : List Char) : Numeral × List Char :=
  let (negative, unsigned) := spanSign text
  let (fraction, after) := spanFraction (unsigned.dropWhile Char.isDigit)
  (⟨negative, unsigned.takeWhile Char.isDigit, fraction⟩, after)

/-- A fraction and what follows it make up the text. -/
theorem spanFraction_append (text : List Char) :
    (match (spanFraction text).1 with
      | some digits => '.' :: digits
      | none => []) ++ (spanFraction text).2 = text := by
  fun_cases spanFraction text <;> simp

/-- Reading a number splits the text. -/
theorem spanNumeral_append (text : List Char) :
    (spanNumeral text).1.written ++ (spanNumeral text).2 = text := by
  have signSplits : (if (spanSign text).1 then ['-'] else []) ++ (spanSign text).2 = text := by
    fun_cases spanSign text <;> simp
  rcases signCase : spanSign text with ⟨negative, unsigned⟩
  rcases fractionCase : spanFraction (unsigned.dropWhile Char.isDigit) with ⟨fraction, after⟩
  have fractionSplits := spanFraction_append (unsigned.dropWhile Char.isDigit)
  rw [fractionCase] at fractionSplits
  rw [signCase] at signSplits
  simp only [spanNumeral, signCase, fractionCase, Numeral.written, List.append_assoc]
  rw [fractionSplits, List.takeWhile_append_dropWhile, signSplits]

/-- The natural that some decimal digits spell. -/
def naturalOf (digits : List Char) : Nat :=
  digits.foldl (fun value digit => 10 * value + (digit.toNat - '0'.toNat)) 0

/-- The least and the greatest integer literal. -/
def integerBounds : Int × Int := (-9223372036854775808, 9223372036854775807)

/-- The literal that a number stands for. With a fraction it is a float; without
one it is an integer that must have digits and lie within the bounds. -/
def Numeral.literal? (numeral : Numeral) : Option Literal :=
  match numeral.fraction with
  | some digits =>
      some (.float (.ofRatio numeral.negative
        (naturalOf (numeral.whole ++ digits)) (Nat.pow 10 digits.length)))
  | none =>
      if numeral.whole = [] then none
      else
        let magnitude : Int := naturalOf numeral.whole
        let value := if numeral.negative then -magnitude else magnitude
        if integerBounds.1 ≤ value ∧ value ≤ integerBounds.2 then some (.integer value)
        else none

/-- The literal that a name stands for: a word in any letter case, or a constant.
A name holds colons only in pairs. -/
def literalOfName? (name : List Char) : Option Literal :=
  let word := name.map Char.toLower
  if word = "true".toList then some (.bool true)
  else if word = "false".toList then some (.bool false)
  else if word = "null".toList then some .null
  else if name.contains ':' then some (.constant (.ofList name))
  else none

/-- What follows a key and its separator, if the separator is there. -/
def afterSeparator? (separators text : List Char) : Option (List Char) :=
  match Text.skipBlanks text with
  | char :: rest => if separators.contains char then some rest else none
  | [] => none

/-- What follows a separator is no longer than the text before it. -/
theorem length_afterSeparator_le {separators text after : List Char}
    (found : afterSeparator? separators text = some after) :
    after.length ≤ text.length := by
  have bound := Text.length_skipBlanks_le text
  unfold afterSeparator? at found
  split at found
  · next char rest same =>
      split at found
      · obtain rfl := Option.some.inj found
        rw [same] at bound
        simp only [List.length_cons] at bound
        omega
      · simp at found
  · simp at found

/-- The name and the equals sign that start a named argument, and the text of its
value. Without them the text is left as it is. -/
def spanArgumentKey (text : List Char) : Option String × List Char :=
  match text with
  | [] => (none, text)
  | char :: _ =>
      if isLetter char then
        let found := spanName text
        match afterSeparator? ['='] found.2 with
        | some rest => (some (.ofList found.1), rest)
        | none => (none, text)
      else (none, text)

/-- Reading the name of an argument never lengthens the text. -/
theorem length_spanArgumentKey_le (text : List Char) :
    (spanArgumentKey text).2.length ≤ text.length := by
  have nameBound := length_spanName_le text
  unfold spanArgumentKey
  split
  · exact Nat.le_refl _
  · split
    · dsimp only
      split
      · next rest found =>
          have bound := length_afterSeparator_le found
          exact Nat.le_trans bound nameBound
      · exact Nat.le_refl _
    · exact Nat.le_refl _

/-- The candidate for the key of an array entry: a string, a name or digits. -/
def spanEntryKeyText (text : List Char) :
    Except Failure (Option (List Char × List Char)) :=
  match text with
  | [] => .ok none
  | char :: rest =>
      if char = '"' then
        match spanString rest with
        | some found => .ok (some found)
        | none => .error ⟨.unterminatedString, []⟩
      else if isLetter char then .ok (some (spanName text))
      else if char.isDigit then
        .ok (some (text.takeWhile Char.isDigit, text.dropWhile Char.isDigit))
      else .ok none

/-- What follows the candidate for a key is no longer than the text. -/
theorem length_spanEntryKeyText_le {text key after : List Char}
    (found : spanEntryKeyText text = .ok (some (key, after))) :
    after.length ≤ text.length := by
  unfold spanEntryKeyText at found
  split at found
  · simp at found
  · next char rest =>
      split at found
      · split at found
        · next pair same =>
            injection found with found
            obtain rfl := Option.some.inj found
            have bound := length_spanString_lt same
            simp only [List.length_cons]
            omega
        · simp at found
      · split at found
        · injection found with found
          have same := congrArg Prod.snd (Option.some.inj found)
          have bound := length_spanName_le (char :: rest)
          simp only at same
          rw [same] at bound
          exact bound
        · split at found
          · injection found with found
            obtain ⟨-, rfl⟩ := Prod.mk.inj (Option.some.inj found)
            exact (List.dropWhile_suffix Char.isDigit).length_le
          · simp at found

/-- The key and the separator that start an array entry, and the text of its
value. Without them the text is left as it is. -/
def spanEntryKey (text : List Char) : Except Failure (Option String × List Char) :=
  match spanEntryKeyText text with
  | .error failure => .error failure
  | .ok none => .ok (none, text)
  | .ok (some (key, after)) =>
      match afterSeparator? ['=', ':'] after with
      | some rest => .ok (some (.ofList key), rest)
      | none => .ok (none, text)

/-- Reading the key of an entry never lengthens the text. -/
theorem length_spanEntryKey_le {text rest : List Char} {key : Option String}
    (found : spanEntryKey text = .ok (key, rest)) :
    rest.length ≤ text.length := by
  unfold spanEntryKey at found
  split at found
  · simp at found
  · injection found with found
    obtain ⟨-, rfl⟩ := Prod.mk.inj found
    exact Nat.le_refl _
  · next key after same =>
      have keyBound := length_spanEntryKeyText_le same
      split at found
      · next rest separated =>
          injection found with found
          obtain ⟨-, rfl⟩ := Prod.mk.inj found
          exact Nat.le_trans (length_afterSeparator_le separated) keyBound
      · injection found with found
        obtain ⟨-, rfl⟩ := Prod.mk.inj found
        exact Nat.le_refl _

end DocblockScan.Docblock
