import DocblockScan.Docblock.Lexeme
import DocblockScan.Text.Reading

/-!
# Argument lists

Literals and whole argument lists at the start of a text. A reader either fails
with a fault and the text it could not go on with, or returns a value and a
strictly shorter text; that the text shrinks is part of the result and is what
every recursion here ends by.
-/

namespace DocblockScan.Docblock

open Text (Reading)

/-- A literal that is no array, at the very start of a text. -/
def readScalar (text : List Char) : Except Failure (Literal × List Char) :=
  match text with
  | [] => .error ⟨.missingValue, []⟩
  | char :: rest =>
      if char = '"' then
        match spanString rest with
        | some (content, after) => .ok (.string (.ofList content), after)
        | none => .error ⟨.unterminatedString, []⟩
      else if char = '-' || char.isDigit then
        let found := spanNumeral text
        match found.1.literal? with
        | some literal => .ok (literal, found.2)
        | none => .error ⟨.invalidNumber (.ofList found.1.written), found.2⟩
      else if char = '@' then .error ⟨.nestedTag, text⟩
      else if startsName char then
        let found := spanName text
        match literalOfName? found.1 with
        | some literal => .ok (literal, found.2)
        | none => .error ⟨.unexpectedName (.ofList found.1), found.2⟩
      else .error ⟨.unexpectedCharacter char, text⟩

/-- A number that starts with a sign or a digit takes at least that character. -/
theorem length_spanNumeral_lt {char : Char} (rest : List Char)
    (starts : (char = '-' || char.isDigit) = true) :
    (spanNumeral (char :: rest)).2.length < (char :: rest).length := by
  have splits := congrArg List.length (spanNumeral_append (char :: rest))
  have nonempty : (spanNumeral (char :: rest)).1.written ≠ [] := by
    by_cases minus : char = '-'
    · subst minus
      simp [spanNumeral, spanSign, Numeral.written]
    · have digit : char.isDigit = true := by simpa [minus] using starts
      have unsigned : spanSign (char :: rest) = (false, char :: rest) := by
        unfold spanSign
        split
        · next same => exact absurd (List.cons.inj same).1 minus
        · rfl
      simp [spanNumeral, unsigned, Numeral.written, digit]
  have positive := List.length_pos_iff.2 nonempty
  rw [List.length_append] at splits
  omega

/-- Reading a scalar shortens the text. -/
theorem length_readScalar_lt {text after : List Char} {literal : Literal}
    (found : readScalar text = .ok (literal, after)) :
    after.length < text.length := by
  unfold readScalar at found
  split at found
  · simp at found
  · next char rest =>
      split at found
      · split at found
        · next content tail same =>
            injection found with found
            obtain ⟨-, rfl⟩ := Prod.mk.inj found
            have bound := length_spanString_lt same
            simp only [List.length_cons]
            omega
        · simp at found
      · split at found
        · next starts =>
            have bound := length_spanNumeral_lt rest starts
            dsimp only at found
            split at found
            · injection found with found
              obtain ⟨-, rfl⟩ := Prod.mk.inj found
              exact bound
            · simp at found
        · split at found
          · simp at found
          · split at found
            · next starts =>
                have bound := length_spanName_lt rest
                  (isNameChar_of_startsName starts)
                dsimp only at found
                split at found
                · injection found with found
                  obtain ⟨-, rfl⟩ := Prod.mk.inj found
                  exact bound
                · simp at found
            · simp at found

mutual

/-- The literal at the start of a text, after blanks. -/
def readLiteral (text : List Char) : Except Failure (Reading Literal text) :=
  match trimmed : Text.skipBlanks text with
  | '\x7b' :: rest =>
      have _shorter : rest.length < text.length := by
        have bound := Text.length_skipBlanks_le text
        rw [trimmed] at bound
        simp only [List.length_cons] at bound
        omega
      match readEntries rest with
      | .error failure => .error failure
      | .ok entries => .ok ⟨.array entries.value, entries.rest, by
          have inner := entries.shorter
          omega⟩
  | start =>
      match found : readScalar start with
      | .error failure => .error failure
      | .ok (literal, after) => .ok ⟨literal, after, by
          have bound := Text.length_skipBlanks_le text
          have inner := length_readScalar_lt found
          rw [trimmed] at bound
          omega⟩
termination_by 2 * text.length
decreasing_by omega

/-- The entries of an array whose opening brace has been read, up to and with
its closing brace. A comma may follow the last entry. -/
def readEntries (text : List Char) :
    Except Failure (Reading (List (Option String × Literal)) text) :=
  match trimmed : Text.skipBlanks text with
  | '\x7d' :: rest => .ok ⟨[], rest, by
      have bound := Text.length_skipBlanks_le text
      rw [trimmed] at bound
      simp only [List.length_cons] at bound
      omega⟩
  | start =>
      match keyed : spanEntryKey start with
      | .error failure => .error failure
      | .ok (key, valueText) =>
          have _reaches : valueText.length ≤ text.length := by
            have bound := Text.length_skipBlanks_le text
            have inner := length_spanEntryKey_le keyed
            rw [trimmed] at bound
            omega
          match readLiteral valueText with
          | .error failure => .error failure
          | .ok literal =>
              have _taken := literal.shorter
              match separated : Text.skipBlanks literal.rest with
              | ',' :: rest =>
                  have _shorter : rest.length < text.length := by
                    have bound := Text.length_skipBlanks_le literal.rest
                    rw [separated] at bound
                    simp only [List.length_cons] at bound
                    omega
                  match readEntries rest with
                  | .error failure => .error failure
                  | .ok others =>
                      .ok ⟨(key, literal.value) :: others.value, others.rest, by
                        have inner := others.shorter
                        omega⟩
              | '\x7d' :: rest => .ok ⟨[(key, literal.value)], rest, by
                  have bound := Text.length_skipBlanks_le literal.rest
                  rw [separated] at bound
                  simp only [List.length_cons] at bound
                  omega⟩
              | found :: rest => .error ⟨.expectedSeparator '\x7d' found, found :: rest⟩
              | [] => .error ⟨.unterminatedArray, []⟩
termination_by 2 * text.length + 1
decreasing_by all_goals omega

end

/-- The arguments with one more: by its key, or else after the others without a
name. A key that is already there is not accepted. -/
def Arguments.add? (arguments : Arguments) (key : Option String) (literal : Literal) :
    Except Fault Arguments :=
  match key with
  | none => .ok { arguments with positional := arguments.positional ++ [literal] }
  | some key =>
      if arguments.named.contains key then .error (.duplicateArgument key)
      else .ok { arguments with named := arguments.named.insert key literal }

/-- The arguments that follow those already read, up to and with the closing
parenthesis. A comma may follow the last argument. -/
def readArgumentsAfter (known : Arguments) (text : List Char) :
    Except Failure (Reading Arguments text) :=
  match trimmed : Text.skipBlanks text with
  | ')' :: rest => .ok ⟨known, rest, by
      have bound := Text.length_skipBlanks_le text
      rw [trimmed] at bound
      simp only [List.length_cons] at bound
      omega⟩
  | start =>
      match readLiteral (spanArgumentKey start).2 with
      | .error failure => .error failure
      | .ok literal =>
          have _reaches : literal.rest.length < text.length := by
            have bound := Text.length_skipBlanks_le text
            have inner := length_spanArgumentKey_le start
            have taken := literal.shorter
            rw [trimmed] at bound
            omega
          match Arguments.add? known (spanArgumentKey start).1 literal.value with
          | .error fault => .error ⟨fault, literal.rest⟩
          | .ok grown =>
              match separated : Text.skipBlanks literal.rest with
              | ',' :: rest =>
                  have _shorter : rest.length < text.length := by
                    have bound := Text.length_skipBlanks_le literal.rest
                    rw [separated] at bound
                    simp only [List.length_cons] at bound
                    omega
                  match readArgumentsAfter grown rest with
                  | .error failure => .error failure
                  | .ok others => .ok ⟨others.value, others.rest, by
                      have inner := others.shorter
                      omega⟩
              | ')' :: rest => .ok ⟨grown, rest, by
                  have bound := Text.length_skipBlanks_le literal.rest
                  rw [separated] at bound
                  simp only [List.length_cons] at bound
                  omega⟩
              | found :: rest => .error ⟨.expectedSeparator ')' found, found :: rest⟩
              | [] => .error ⟨.unterminatedArguments, []⟩
termination_by text.length

/-- The arguments after an opening parenthesis. -/
def readArguments (text : List Char) : Except Failure (Reading Arguments text) :=
  readArgumentsAfter .none text

end DocblockScan.Docblock
