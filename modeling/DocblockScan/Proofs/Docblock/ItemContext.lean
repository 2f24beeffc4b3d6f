import DocblockScan.Proofs.Docblock.ItemRules

/-!
# What may follow an item

Inside a list an item is followed by blanks and then by a comma or a closer.
There every condition of the grammar on the text after a value holds by itself:
`Value.of_endsItem` moves a value from one such place to another, and
`not_startsWithKey_of_value` says that a value is never mistaken for a key.
-/

namespace DocblockScan.Docblock.Grammar

open Text (Blank)

/-- A text that goes on, after blanks, with a comma or a closer. -/
def EndsItem (after : List Char) : Prop :=
  ∃ gap char rest, after = gap ++ char :: rest ∧ Blank gap ∧ char ∈ [',', ')', '}']

theorem EndsItem.comma {gap : List Char} (blank : Blank gap) (rest : List Char) :
    EndsItem (gap ++ ',' :: rest) :=
  ⟨gap, ',', rest, rfl, blank, by simp⟩

theorem EndsItem.closer {gap : List Char} (blank : Blank gap) (kind : ListKind)
    (rest : List Char) : EndsItem (gap ++ kind.closer :: rest) :=
  ⟨gap, kind.closer, rest, rfl, blank, by cases kind <;> simp [ListKind.closer]⟩

/-- The first character after an item is a blank, a comma or a closer. -/
theorem EndsItem.head {after : List Char} (ends : EndsItem after) :
    ∃ char rest, after = char :: rest ∧
      (Text.isBlank char = true ∨ char ∈ [',', ')', '}']) := by
  obtain ⟨gap, char, rest, rfl, blank, closes⟩ := ends
  cases gap with
  | nil => exact ⟨char, rest, rfl, .inr closes⟩
  | cons first others => exact ⟨first, _, rfl, .inl (blank first List.mem_cons_self)⟩

/-- The characters of a name lie between the zero and the small z. -/
theorem toNat_of_isNameChar {char : Char} (accepted : isNameChar char = true) :
    48 ≤ char.toNat ∧ char.toNat ≤ 122 := by
  simp only [isNameChar, Bool.or_eq_true, beq_iff_eq, Text.isAlphanum_iff, Text.isAlpha_iff,
    Text.isUpper_iff, Text.isLower_iff, Text.isDigit_iff] at accepted
  rcases accepted with (((upper | lower) | digit) | rfl) | rfl
  · omega
  · omega
  · omega
  · decide
  · decide

/-- A blank stands in no name. -/
theorem isNameChar_of_isBlank {char : Char} (blank : Text.isBlank char = true) :
    isNameChar char = false := by
  by_cases accepted : isNameChar char = true
  · have range := toNat_of_isNameChar accepted
    simp only [Text.isBlank, Bool.or_eq_true, Bool.and_eq_true, decide_eq_true_eq,
      beq_iff_eq] at blank
    omega
  · simpa using accepted

/-- After an item no character of a class follows that has neither blanks, commas
nor closers. -/
theorem EndsItem.not_startsWith {accepts : Char → Bool} {after : List Char}
    (ends : EndsItem after)
    (blanks : ∀ char, Text.isBlank char = true → accepts char = false)
    (closers : accepts ',' = false ∧ accepts ')' = false ∧ accepts '}' = false) :
    ¬ StartsWith accepts after := by
  rintro ⟨char, rest, rfl, accepted⟩
  obtain ⟨first, others, same, isEnd⟩ := ends.head
  obtain ⟨rfl, -⟩ := List.cons.inj same
  rcases isEnd with blank | closes
  · rw [blanks char blank] at accepted
    exact absurd accepted (by decide)
  · simp only [List.mem_cons, List.not_mem_nil, or_false] at closes
    rcases closes with rfl | rfl | rfl
    · simp [closers.1] at accepted
    · simp [closers.2.1] at accepted
    · simp [closers.2.2] at accepted

/-- After an item a given character does not follow, unless it is a blank, a comma
or a closer. -/
theorem EndsItem.head?_ne {after : List Char} (ends : EndsItem after) (char : Char)
    (solid : Text.isBlank char = false) (inside : char ∉ [',', ')', '}']) :
    after.head? ≠ some char := by
  obtain ⟨first, others, rfl, isEnd⟩ := ends.head
  rintro ⟨⟩
  rcases isEnd with blank | closes
  · rw [solid] at blank
    exact absurd blank (by decide)
  · exact inside closes

theorem EndsItem.not_extendsName {after : List Char} (ends : EndsItem after) :
    ¬ ExtendsName after := by
  rintro (starts | ⟨rest, rfl⟩)
  · exact ends.not_startsWith (fun _ => isNameChar_of_isBlank) (by decide) starts
  · exact ends.head?_ne ':' (by decide) (by decide) rfl

theorem EndsItem.not_startsWith_digit {after : List Char} (ends : EndsItem after) :
    ¬ StartsWith Char.isDigit after := by
  refine ends.not_startsWith ?_ (by decide)
  intro char blank
  have refused := isNameChar_of_isBlank blank
  simp only [isNameChar, Char.isAlphanum, Bool.or_eq_false_iff] at refused
  exact refused.1.1.2

theorem EndsItem.no_fraction {after : List Char} (ends : EndsItem after) :
    ∀ rest, after = '.' :: rest → ¬ StartsWith Char.isDigit rest := by
  rintro rest rfl
  exact absurd rfl (ends.head?_ne '.' (by decide) (by decide))

/-- No separator follows an item. -/
theorem EndsItem.afterSeparator?_eq_none {after : List Char} (ends : EndsItem after)
    (kind : ListKind) : afterSeparator? kind.separators after = none := by
  obtain ⟨gap, char, rest, rfl, blank, closes⟩ := ends
  obtain ⟨solid, refused⟩ : Text.isBlank char = false ∧ char ∉ ['=', ':'] := by
    simp only [List.mem_cons, List.not_mem_nil, or_false] at closes
    rcases closes with rfl | rfl | rfl <;> decide
  have refused : char ∉ kind.separators := by
    cases kind <;> simp_all [ListKind.separators]
  simp [afterSeparator?, Text.skipBlanks_append blank, Text.skipBlanks_cons solid, refused]

/-! ## Moving a value -/

/-- A number stands for the same wherever an item ends. -/
theorem Number.of_endsItem {written after other : List Char} {literal : Literal}
    (number : Number written after literal) (ends : EndsItem other) :
    Number written other literal := by
  cases number with
  | integer someDigits allDigits _ _ inRange =>
      exact .integer someDigits allDigits ends.not_startsWith_digit ends.no_fraction inRange
  | float wholeDigits someDigits allDigits _ started =>
      exact .float wholeDigits someDigits allDigits ends.not_startsWith_digit started

/-- A scalar stands for the same wherever an item ends. -/
theorem Scalar.of_endsItem {written after other : List Char} {literal : Literal}
    (scalar : Scalar written after literal) (ends : EndsItem other) :
    Scalar written other literal := by
  cases scalar with
  | string _ => exact .string (ends.head?_ne '"' (by decide) (by decide))
  | number number => exact .number (number.of_endsItem ends)
  | word name known spelled => exact .word ⟨name.spelled, ends.not_extendsName⟩ known spelled
  | constant name starts qualified =>
      exact .constant ⟨name.spelled, ends.not_extendsName⟩ starts qualified

/-- A value stands for the same wherever an item ends. -/
theorem Value.of_endsItem {written after other : List Char} {literal : Literal}
    (value : Value written after literal) (ends : EndsItem other) :
    Value written other literal := by
  cases value with
  | scalar blank scalar => exact .scalar blank (scalar.of_endsItem ends)
  | array blank listing => exact .array blank listing

/-! ## Values and keys -/

/-- A character of a name is no blank. -/
theorem solid_of_isNameChar {char : Char} (accepted : isNameChar char = true) :
    (!Text.isBlank char) = true := by
  by_cases blank : Text.isBlank char = true
  · rw [isNameChar_of_isBlank blank] at accepted
    exact absurd accepted (by decide)
  · simpa using blank

theorem isNameChar_of_isDigit {char : Char} (digit : char.isDigit = true) :
    isNameChar char = true := by
  simp [isNameChar, Char.isAlphanum, digit]

theorem isNameChar_of_isLetter {char : Char} (letter : isLetter char = true) :
    isNameChar char = true :=
  isNameChar_of_startsName (by simp [startsName, letter])

/-- A scalar starts with no blank. -/
theorem Scalar.solid {written after : List Char} {literal : Literal}
    (scalar : Scalar written after literal) :
    StartsWith (fun char => !Text.isBlank char) written := by
  cases scalar with
  | string _ => exact ⟨'"', _, rfl, by decide⟩
  | number number =>
      obtain ⟨char, rest, rfl, rfl | digit⟩ := number.starts
      · exact ⟨'-', rest, rfl, by decide⟩
      · exact ⟨char, rest, rfl, solid_of_isNameChar (isNameChar_of_isDigit digit)⟩
  | word _ known spelled =>
      obtain ⟨char, rest, rfl, starts⟩ := startsName_of_word known spelled
      exact ⟨char, rest, rfl, solid_of_isNameChar (isNameChar_of_startsName starts)⟩
  | constant _ starts _ =>
      obtain ⟨char, rest, rfl, starts⟩ := starts
      exact ⟨char, rest, rfl, solid_of_isNameChar (isNameChar_of_startsName starts)⟩

/-- Blanks before a scalar are skipped, and nothing more. -/
theorem Scalar.skipBlanks {gap written after : List Char} {literal : Literal}
    (blank : Blank gap) (scalar : Scalar written after literal) :
    Text.skipBlanks (gap ++ written ++ after) = written ++ after := by
  obtain ⟨char, rest, rfl, solid⟩ := scalar.solid
  rw [List.append_assoc, Text.skipBlanks_append blank]
  exact Text.skipBlanks_cons (by simpa using solid) _

/-- A key starts with no blank. -/
theorem KeyText.solid {kind : ListKind} {written after key : List Char}
    (keyText : KeyText kind written after key) :
    StartsWith (fun char => !Text.isBlank char) written := by
  cases keyText with
  | name _ starts =>
      obtain ⟨char, rest, rfl, letter⟩ := starts
      exact ⟨char, rest, rfl, solid_of_isNameChar (isNameChar_of_isLetter letter)⟩
  | string _ => exact ⟨'"', _, rfl, by decide⟩
  | digits someDigits allDigits _ =>
      obtain ⟨digit, rest, rfl⟩ := List.exists_cons_of_ne_nil someDigits
      have isDigit := allDigits digit List.mem_cons_self
      exact ⟨digit, rest, rfl, solid_of_isNameChar (isNameChar_of_isDigit isDigit)⟩

/-- A text that starts with a key starts with no blank. -/
theorem StartsWithKey.skipBlanks {kind : ListKind} {text key rest : List Char}
    (starts : StartsWithKey kind text key rest) : Text.skipBlanks text = text := by
  obtain ⟨written, gap, separator, rfl, keyText, -, -⟩ := starts
  obtain ⟨char, tail, rfl, solid⟩ := keyText.solid
  exact Text.skipBlanks_cons (by simpa using solid) _

/-- A name without a separator after it is no key. -/
theorem readKey_of_name {kind : ListKind} {written after : List Char}
    (name : Name written after) (starts : StartsWith startsName written)
    (noSeparator : afterSeparator? kind.separators after = none) :
    readKey kind (written ++ after) = .ok (none, written ++ after) := by
  obtain ⟨char, rest, rfl, startsName⟩ := starts
  by_cases letter : isLetter char = true
  · rw [readKey_eq, spanKey_of_keyText (.name name ⟨char, rest, rfl, letter⟩)]
    simp only [noSeparator]
  · -- Only a backslash starts a name without being a letter.
    have slash : char = '\\' := by simpa [Docblock.startsName, letter] using startsName
    subst slash
    rw [readKey_eq]
    cases kind <;> rfl

/-- Digits without a separator after them are no key. -/
theorem readKey_of_digits {kind : ListKind} {digits after : List Char}
    (someDigits : digits ≠ []) (allDigits : Digits digits)
    (longest : ¬ StartsWith Char.isDigit after)
    (noSeparator : afterSeparator? kind.separators after = none) :
    readKey kind (digits ++ after) = .ok (none, digits ++ after) := by
  rw [readKey_eq]
  cases kind with
  | entries =>
      rw [spanKey_of_keyText (.digits someDigits allDigits longest)]
      simp only [noSeparator]
  | arguments =>
      obtain ⟨digit, rest, rfl⟩ := List.exists_cons_of_ne_nil someDigits
      have isDigit := allDigits digit List.mem_cons_self
      have noLetter : ¬ isLetter digit = true := by
        intro letter
        rw [not_isDigit_of_startsName (by simp [startsName, letter])] at isDigit
        exact absurd isDigit (by decide)
      simp [spanKey, noLetter]

/-- A sign starts no key. -/
theorem readKey_of_minus (kind : ListKind) (text : List Char) :
    readKey kind ('-' :: text) = .ok (none, '-' :: text) := by
  cases kind <;> rfl

/-- A brace starts no key. -/
theorem readKey_of_brace (kind : ListKind) (text : List Char) :
    readKey kind ('{' :: text) = .ok (none, '{' :: text) := by
  cases kind <;> rfl

/-- No separator stands before a point. -/
theorem afterSeparator?_point (kind : ListKind) (text : List Char) :
    afterSeparator? kind.separators ('.' :: text) = none := by
  cases kind <;> rfl

/-- A number without a separator after it is no key. -/
theorem readKey_of_number {kind : ListKind} {written after : List Char} {literal : Literal}
    (number : Number written after literal)
    (noSeparator : afterSeparator? kind.separators after = none) :
    readKey kind (written ++ after) = .ok (none, written ++ after) := by
  cases number with
  | @integer negative digits _ someDigits allDigits longest _ _ =>
      cases negative with
      | true => exact readKey_of_minus kind _
      | false => exact readKey_of_digits someDigits allDigits longest noSeparator
  | @float negative whole fraction _ wholeDigits _ _ _ started =>
      cases negative with
      | true => exact readKey_of_minus kind _
      | false =>
          have someDigits : whole ≠ [] := fun none => absurd (started none) (by decide)
          have point : ¬ StartsWith Char.isDigit ('.' :: (fraction ++ after)) := by
            rintro ⟨char, rest, same, isDigit⟩
            obtain ⟨rfl, -⟩ := List.cons.inj same
            exact absurd isDigit (by decide)
          simpa [signText] using
            readKey_of_digits someDigits wholeDigits point (afterSeparator?_point kind _)

/-- A string without a separator after it is no key. -/
theorem readKey_of_quoted {kind : ListKind} (content : List Char) {after : List Char}
    (longest : after.head? ≠ some '"')
    (noSeparator : afterSeparator? kind.separators after = none) :
    readKey kind (quoted content ++ after) = .ok (none, quoted content ++ after) := by
  rw [readKey_eq]
  cases kind with
  | arguments => rfl
  | entries =>
      rw [spanKey_of_keyText (.string longest)]
      simp only [noSeparator]

/-- A scalar without a separator after it is no key. -/
theorem readKey_of_scalar {kind : ListKind} {written after : List Char} {literal : Literal}
    (scalar : Scalar written after literal)
    (noSeparator : afterSeparator? kind.separators after = none) :
    readKey kind (written ++ after) = .ok (none, written ++ after) := by
  cases scalar with
  | string longest => exact readKey_of_quoted _ longest noSeparator
  | number number => exact readKey_of_number number noSeparator
  | word name known spelled =>
      exact readKey_of_name name (startsName_of_word known spelled) noSeparator
  | constant name starts _ => exact readKey_of_name name starts noSeparator

/-- A value that ends an item is not mistaken for a key. -/
theorem not_startsWithKey_of_value {kind : ListKind} {value after : List Char}
    {literal : Literal} (means : Value value after literal) (ends : EndsItem after)
    (gap text key rest : List Char) (same : value ++ after = gap ++ text)
    (blank : Blank gap) : ¬ StartsWithKey kind text key rest := by
  intro starts
  have read := (readKey_eq_some_iff kind text rest (.ofList key)).2 ⟨key, rfl, starts⟩
  have noSeparator := ends.afterSeparator?_eq_none kind
  have skipped : Text.skipBlanks (value ++ after) = text := by
    rw [same, Text.skipBlanks_append blank, starts.skipBlanks]
  cases means with
  | scalar blankBefore scalar =>
      rw [scalar.skipBlanks blankBefore] at skipped
      rw [← skipped, readKey_of_scalar scalar noSeparator] at read
      simp at read
  | array blankBefore _ =>
      rw [List.append_assoc, Text.skipBlanks_append blankBefore, List.cons_append,
        Text.skipBlanks_cons (by decide)] at skipped
      rw [← skipped, readKey_of_brace] at read
      simp at read

/-- A value on its own is an item wherever an item ends. -/
theorem Item.of_value {kind : ListKind} {value after : List Char} {literal : Literal}
    (means : Value value after literal) (ends : EndsItem after) :
    Item kind value after (none, literal) :=
  .bare (not_startsWithKey_of_value means ends) means

end DocblockScan.Docblock.Grammar
