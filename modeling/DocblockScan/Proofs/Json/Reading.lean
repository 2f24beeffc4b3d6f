import DocblockScan.Program.Json

/-!
# Reading JSON texts

A reader of JSON values that skips blanks between the elements of a text. It reads back every
text that the program prints, with or without blanks after it: `readJson_json`.
-/

namespace DocblockScan.Program

/-! ## The reader -/

/-- The value of a hexadecimal digit in lower case. -/
def hexValue? (char : Char) : Option Nat :=
  if char.isDigit then some (char.toNat - 48)
  else if 'a' ≤ char ∧ char ≤ 'f' then some (char.toNat - 87)
  else none

/-- The character that a letter or mark after a backslash stands for. -/
def unescaped? : Char → Option Char
  | '"' => some '"'
  | '\\' => some '\\'
  | 'b' => some '\x08'
  | 'f' => some '\x0c'
  | 'n' => some '\n'
  | 'r' => some '\r'
  | 't' => some '\t'
  | _ => none

/-- The content of a JSON string after its opening mark, and the text after the string. -/
def readQuoted : List Char → Option (List Char × List Char)
  | [] => none
  | '"' :: rest => some ([], rest)
  | '\\' :: mark :: rest =>
      match unescaped? mark with
      | some char => (readQuoted rest).map fun found => (char :: found.1, found.2)
      | none =>
          match rest with
          | '0' :: '0' :: high :: low :: after => do
              let char := Char.ofNat (16 * (← hexValue? high) + (← hexValue? low))
              (readQuoted after).map fun found => (char :: found.1, found.2)
          | _ => none
  | char :: rest => (readQuoted rest).map fun found => (char :: found.1, found.2)

/-- A character between the elements of a JSON text. -/
def isJsonBlank (char : Char) : Bool :=
  char == ' ' || char == '\n' || char == '\r' || char == '\t'

/-- The text after the blanks at its start. -/
def skipJsonBlanks (text : List Char) : List Char :=
  text.dropWhile isJsonBlank

/-- The key of a member with the colon after it, and the text after both. -/
def readKey (text : List Char) : Option (String × List Char) :=
  match skipJsonBlanks text with
  | '"' :: rest => do
      let (key, after) ← readQuoted rest
      match skipJsonBlanks after with
      | ':' :: value => some (.ofList key, value)
      | _ => none
  | _ => none

mutual

/-- The value at the start of a text and the text after it. Each call takes one unit of fuel. -/
def readValue : Nat → List Char → Option (Json × List Char)
  | 0, _ => none
  | fuel + 1, text =>
      match skipJsonBlanks text with
      | 'n' :: 'u' :: 'l' :: 'l' :: rest => some (.null, rest)
      | '"' :: rest => (readQuoted rest).map fun found => (.string (.ofList found.1), found.2)
      | '[' :: rest => (readItems fuel rest).map fun found => (.array found.1, found.2)
      | '{' :: rest => (readMembers fuel rest).map fun found => (.object found.1, found.2)
      | _ => none

/-- The items of an array after its opening bracket, and the text after the array. -/
def readItems : Nat → List Char → Option (List Json × List Char)
  | 0, _ => none
  | fuel + 1, text =>
      if (skipJsonBlanks text).head? = some ']' then some ([], (skipJsonBlanks text).tail)
      else do
        let (item, after) ← readValue fuel text
        let (others, last) ← readLaterItems fuel after
        return (item :: others, last)

/-- The members of an object after its opening brace, and the text after the object. -/
def readMembers : Nat → List Char → Option (List (String × Json) × List Char)
  | 0, _ => none
  | fuel + 1, text =>
      if (skipJsonBlanks text).head? = some '}' then some ([], (skipJsonBlanks text).tail)
      else do
        let (key, valueText) ← readKey text
        let (value, after) ← readValue fuel valueText
        let (others, last) ← readLaterMembers fuel after
        return ((key, value) :: others, last)

/-- The items of an array after the first, and the text after the array. -/
def readLaterItems : Nat → List Char → Option (List Json × List Char)
  | 0, _ => none
  | fuel + 1, text =>
      match skipJsonBlanks text with
      | ']' :: rest => some ([], rest)
      | ',' :: rest => do
          let (item, after) ← readValue fuel rest
          let (others, last) ← readLaterItems fuel after
          return (item :: others, last)
      | _ => none

/-- The members of an object after the first, and the text after the object. -/
def readLaterMembers : Nat → List Char → Option (List (String × Json) × List Char)
  | 0, _ => none
  | fuel + 1, text =>
      match skipJsonBlanks text with
      | '}' :: rest => some ([], rest)
      | ',' :: rest => do
          let (key, valueText) ← readKey rest
          let (value, after) ← readValue fuel valueText
          let (others, last) ← readLaterMembers fuel after
          return ((key, value) :: others, last)
      | _ => none

end

/-- The value of a JSON text. Only blanks may follow it. -/
def readJson (text : String) : Option Json := do
  let (value, after) ← readValue text.length text.toList
  if (skipJsonBlanks after).isEmpty then some value else none

/-! ## Strings are read back -/

theorem hexValue?_hexDigit {value : Nat} (isDigit : value < 16) :
    hexValue? (hexDigit value) = some value := by
  have all : ∀ digit < 16, hexValue? (hexDigit digit) = some digit := by decide
  exact all value isDigit

/-- A character that is escaped or stands for itself is read back. -/
theorem readQuoted_escape (char : Char) (rest : List Char) :
    readQuoted (escape char ++ rest) =
      (readQuoted rest).map fun found => (char :: found.1, found.2) := by
  unfold escape
  split
  case h_8 noQuote noBackslash _ _ _ _ _ =>
    split
    · next low =>
        have high := hexValue?_hexDigit (show char.toNat / 16 < 16 by omega)
        have lowDigit := hexValue?_hexDigit (show char.toNat % 16 < 16 by omega)
        have letter : unescaped? 'u' = none := rfl
        have same : 16 * (char.toNat / 16) + char.toNat % 16 = char.toNat := by omega
        simp only [List.cons_append, List.nil_append, readQuoted, letter, high, lowDigit, same,
          Char.ofNat_toNat, Option.bind_eq_bind, Option.bind_some]
    · rw [List.singleton_append, readQuoted]
      · exact noQuote
      · exact fun mark rest isBackslash => absurd isBackslash noBackslash
  all_goals rfl

/-- A quoted text is read back up to its closing mark. -/
theorem readQuoted_flatMap (text rest : List Char) :
    readQuoted (text.flatMap escape ++ '"' :: rest) = some (text, rest) := by
  induction text with
  | nil => rfl
  | cons char others inductionHypothesis =>
      rw [List.flatMap_cons, List.append_assoc, readQuoted_escape, inductionHypothesis]
      rfl

/-! ## Blanks are passed over -/

theorem skipJsonBlanks_lineBreak (depth : Nat) (text : List Char) :
    skipJsonBlanks (lineBreak depth ++ text) = skipJsonBlanks text := by
  have blank : ∀ char ∈ lineBreak depth, isJsonBlank char = true := by
    intro char member
    rcases List.mem_cons.1 member with rfl | later
    · rfl
    · rw [List.eq_of_mem_replicate later]
      rfl
  rw [skipJsonBlanks, List.dropWhile_append_of_pos blank]
  rfl

theorem readValue_lineBreak (fuel depth : Nat) (text : List Char) :
    readValue fuel (lineBreak depth ++ text) = readValue fuel text := by
  cases fuel with
  | zero => rfl
  | succ fuel => rw [readValue, readValue, skipJsonBlanks_lineBreak]

theorem readKey_lineBreak (depth : Nat) (text : List Char) :
    readKey (lineBreak depth ++ text) = readKey text := by
  rw [readKey, readKey, skipJsonBlanks_lineBreak]

/-- A blank before a value is passed over. -/
theorem readValue_blank (fuel : Nat) (text : List Char) :
    readValue fuel (' ' :: text) = readValue fuel text := by
  cases fuel <;> rfl

/-- A key is read back up to its colon. -/
theorem readKey_quoted (key : String) (rest : List Char) :
    readKey (quoted key ++ ':' :: rest) = some (key, rest) := by
  have content : quoted key ++ ':' :: rest =
      '"' :: (key.toList.flatMap escape ++ '"' :: ':' :: rest) := by
    simp [quoted]
  rw [content, readKey]
  have quote : skipJsonBlanks ('"' :: (key.toList.flatMap escape ++ '"' :: ':' :: rest)) =
      '"' :: (key.toList.flatMap escape ++ '"' :: ':' :: rest) := rfl
  have colon : skipJsonBlanks (':' :: rest) = ':' :: rest := rfl
  rw [quote]
  simp only [readQuoted_flatMap, Option.bind_eq_bind, Option.bind_some, colon, String.ofList_toList]

/-! ## Values are read back -/

/-! ## Values are read back -/

variable {fuel : Nat} {item value : Json} {others : List Json} {key : String}
variable {members : List (String × Json)} {rest valueText after last : List Char}

/-- An array is read item by item, unless it is closed at once. -/
theorem readItems_cons (opens : (skipJsonBlanks rest).head? ≠ some ']')
    (first : readValue fuel rest = some (item, after))
    (later : readLaterItems fuel after = some (others, last)) :
    readItems (fuel + 1) rest = some (item :: others, last) := by
  rw [readItems, if_neg opens]
  simp [first, later]

/-- An object is read member by member, unless it is closed at once. -/
theorem readMembers_cons (named : readKey rest = some (key, valueText))
    (first : readValue fuel valueText = some (value, after))
    (later : readLaterMembers fuel after = some (members, last)) :
    readMembers (fuel + 1) rest = some ((key, value) :: members, last) := by
  have opens : (skipJsonBlanks rest).head? ≠ some '}' := by
    intro closes
    obtain ⟨tail, same⟩ := List.head?_eq_some_iff.1 closes
    simp [readKey, same] at named
  rw [readMembers, if_neg opens]
  simp [named, first, later]

theorem readLaterItems_cons (first : readValue fuel rest = some (item, after))
    (later : readLaterItems fuel after = some (others, last)) :
    readLaterItems (fuel + 1) (',' :: rest) = some (item :: others, last) := by
  have comma : skipJsonBlanks (',' :: rest) = ',' :: rest := rfl
  simp [readLaterItems, comma, first, later]

theorem readLaterMembers_cons (named : readKey rest = some (key, valueText))
    (first : readValue fuel valueText = some (value, after))
    (later : readLaterMembers fuel after = some (members, last)) :
    readLaterMembers (fuel + 1) (',' :: rest) = some ((key, value) :: members, last) := by
  have comma : skipJsonBlanks (',' :: rest) = ',' :: rest := rfl
  simp [readLaterMembers, comma, named, first, later]

theorem readLaterItems_close (fuel depth : Nat) (rest : List Char) :
    readLaterItems (fuel + 1) (lineBreak depth ++ ']' :: rest) = some ([], rest) := by
  rw [readLaterItems, skipJsonBlanks_lineBreak]
  rfl

theorem readLaterMembers_close (fuel depth : Nat) (rest : List Char) :
    readLaterMembers (fuel + 1) (lineBreak depth ++ '}' :: rest) = some ([], rest) := by
  rw [readLaterMembers, skipJsonBlanks_lineBreak]
  rfl

/-- The text of a value starts with a mark that is no blank and closes nothing. -/
theorem exists_cons_jsonText (depth : Nat) (value : Json) :
    ∃ first rest, jsonText depth value = first :: rest ∧ isJsonBlank first = false ∧
      first ≠ ']' := by
  match value with
  | .null => exact ⟨_, _, jsonText.eq_1 depth, rfl, by decide⟩
  | .string text => exact ⟨_, _, jsonText.eq_2 depth text, rfl, by decide⟩
  | .array [] => exact ⟨_, _, jsonText.eq_3 depth, rfl, by decide⟩
  | .array (item :: others) => exact ⟨_, _, jsonText.eq_4 depth item others, rfl, by decide⟩
  | .object [] => exact ⟨_, _, jsonText.eq_5 depth, rfl, by decide⟩
  | .object ((key, value) :: others) =>
      exact ⟨_, _, jsonText.eq_6 depth key value others, rfl, by decide⟩

/-- The text of a value closes no array, wherever it stands. -/
theorem head?_jsonText (broken depth : Nat) (value : Json) (rest : List Char) :
    (skipJsonBlanks (lineBreak broken ++ (jsonText depth value ++ rest))).head? ≠ some ']' := by
  obtain ⟨first, later, starts, noBlank, opens⟩ := exists_cons_jsonText depth value
  rw [skipJsonBlanks_lineBreak, starts, List.cons_append, skipJsonBlanks,
    List.dropWhile_cons_of_neg (by simp [noBlank])]
  simpa using opens

theorem length_lineBreak_pos (depth : Nat) : 0 < (lineBreak depth).length :=
  Nat.zero_lt_succ _

theorem two_le_length_jsonText (depth : Nat) (value : Json) :
    2 ≤ (jsonText depth value).length := by
  match value with
  | .null | .array [] | .object [] => simp [jsonText]
  | .string text => simp [jsonText, quoted]
  | .array (item :: others) => simp [jsonText, lineBreak]
  | .object ((key, value) :: others) => simp [jsonText, lineBreak]

mutual

/-- The text of a value is read back, whatever follows it. -/
theorem readValue_jsonText (value : Json) (depth : Nat) (rest : List Char) {fuel : Nat}
    (enough : (jsonText depth value).length ≤ fuel) :
    readValue fuel (jsonText depth value ++ rest) = some (value, rest) := by
  have two := two_le_length_jsonText depth value
  obtain ⟨fuel, rfl⟩ := Nat.exists_eq_add_of_le' (Nat.le_trans two enough)
  match value with
  | .null => rfl
  | .string text =>
      have content : jsonText depth (.string text) ++ rest =
          '"' :: (text.toList.flatMap escape ++ '"' :: rest) := by
        simp [jsonText, quoted]
      have quote (text : List Char) : skipJsonBlanks ('"' :: text) = '"' :: text := rfl
      rw [content, readValue, quote]
      simp [readQuoted_flatMap]
  | .array [] => rfl
  | .array (item :: others) =>
      simp only [jsonText, List.length_cons, List.length_append, List.length_nil] at enough
      simp only [jsonText, List.cons_append, List.append_assoc, List.nil_append]
      have broken := length_lineBreak_pos (depth + 1)
      have items := readItems_cons (head?_jsonText (depth + 1) (depth + 1) item _)
        ((readValue_lineBreak fuel _ _).trans
          (readValue_jsonText item (depth + 1) _ (by omega)))
        (readLaterItems_laterItems others (depth + 1) depth rest (by omega))
      have bracket (text : List Char) : skipJsonBlanks ('[' :: text) = '[' :: text := rfl
      rw [readValue, bracket]
      simp [items]
  | .object [] => rfl
  | .object ((key, value) :: others) =>
      simp only [jsonText, List.length_cons, List.length_append, List.length_nil] at enough
      simp only [jsonText, List.cons_append, List.append_assoc, List.nil_append]
      have broken := length_lineBreak_pos (depth + 1)
      have members := readMembers_cons
        ((readKey_lineBreak (depth + 1) _).trans (readKey_quoted key _))
        ((readValue_blank fuel _).trans (readValue_jsonText value (depth + 1) _ (by omega)))
        (readLaterMembers_laterMembers others (depth + 1) depth rest (by omega))
      have brace (text : List Char) : skipJsonBlanks ('{' :: text) = '{' :: text := rfl
      rw [readValue, brace]
      simp [members]

/-- Later items are read back up to the end of their array. -/
theorem readLaterItems_laterItems (items : List Json) (depth outer : Nat) (rest : List Char)
    {fuel : Nat} (enough : (laterItems depth items).length < fuel) :
    readLaterItems fuel (laterItems depth items ++ (lineBreak outer ++ ']' :: rest)) =
      some (items, rest) := by
  cases fuel with
  | zero => omega
  | succ fuel =>
  match items with
  | [] => exact readLaterItems_close fuel outer rest
  | item :: others =>
      simp only [laterItems, List.length_cons, List.length_append] at enough
      simp only [laterItems, List.cons_append, List.append_assoc]
      refine readLaterItems_cons ?_
        (readLaterItems_laterItems others depth outer rest (by omega))
      rw [readValue_lineBreak]
      exact readValue_jsonText item depth _ (by omega)

/-- Later members are read back up to the end of their object. -/
theorem readLaterMembers_laterMembers (members : List (String × Json)) (depth outer : Nat)
    (rest : List Char) {fuel : Nat} (enough : (laterMembers depth members).length < fuel) :
    readLaterMembers fuel (laterMembers depth members ++ (lineBreak outer ++ '}' :: rest)) =
      some (members, rest) := by
  cases fuel with
  | zero => omega
  | succ fuel =>
  match members with
  | [] => exact readLaterMembers_close fuel outer rest
  | (key, value) :: others =>
      simp only [laterMembers, List.length_cons, List.length_append] at enough
      simp only [laterMembers, List.cons_append, List.append_assoc]
      refine readLaterMembers_cons ((readKey_lineBreak _ _).trans (readKey_quoted _ _)) ?_
        (readLaterMembers_laterMembers others depth outer rest (by omega))
      rw [readValue_blank]
      exact readValue_jsonText value depth _ (by omega)

end

/-- What the program prints of a value is read back, also with the end of its line. -/
theorem readJson_json (value : Json) : readJson (json value ++ "\n") = some value := by
  have enough : (jsonText 0 value).length ≤ (json value ++ "\n").length := by simp [json]
  have read := readValue_jsonText value 0 ['\n'] enough
  have text : (json value ++ "\n").toList = jsonText 0 value ++ ['\n'] := by
    simp [json]
  rw [readJson, text, read]
  rfl

end DocblockScan.Program
