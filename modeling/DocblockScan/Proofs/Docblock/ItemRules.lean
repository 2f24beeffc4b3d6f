import DocblockScan.Proofs.Docblock.LexemeRules
import DocblockScan.Proofs.Text.Letter

/-!
# Scalars and keys against the grammar

`readScalar_eq_ok_iff` says that the reader of scalars accepts exactly the scalars
of the grammar. `readKey` puts the two readers of keys into one form, and
`readKey_eq_some_iff` says that a key is read exactly where the grammar has one.
-/

namespace DocblockScan.Docblock.Grammar

open Text (Blank)

/-! ## Scalars -/

/-- A name has a colon only where it has two. -/
theorem mem_colon_iff_of_nameText {written : List Char} (spelled : NameText written) :
    ':' ∈ written ↔ [':', ':'] <:+: written := by
  constructor
  · intro member
    induction spelled with
    | nil => simp at member
    | char accepted _ inductionHypothesis =>
        rcases List.mem_cons.1 member with same | inTail
        · exact absurd same.symm (ne_colon_of_isNameChar accepted)
        · exact List.infix_cons (inductionHypothesis inTail)
    | @colons rest => exact ⟨[], rest, rfl⟩
  · intro qualified
    exact qualified.subset List.mem_cons_self

/-- The values that names stand for: those of the words, and the constants. -/
theorem literalOfName?_eq_some_iff (name : List Char) (literal : Literal) :
    literalOfName? name = some literal ↔
      (∃ word, (word, literal) ∈ words ∧ name.map Char.toLower = word.toList) ∨
        (':' ∈ name ∧ literal = .constant (.ofList name)) := by
  have noWord : ':' ∈ name → ∀ word literal, (word, literal) ∈ words →
      name.map Char.toLower ≠ word.toList := by
    intro colon word literal known same
    have lowered : ':' ∈ name.map Char.toLower := List.mem_map.2 ⟨':', colon, rfl⟩
    rw [same] at lowered
    simp only [words, List.mem_cons, Prod.mk.injEq, List.not_mem_nil, or_false] at known
    rcases known with ⟨rfl, -⟩ | ⟨rfl, -⟩ | ⟨rfl, -⟩ <;> simp at lowered
  constructor
  · intro found
    unfold literalOfName? at found
    simp only at found
    split at found
    · next same => exact .inl ⟨"true", by simp_all [words]⟩
    · split at found
      · next same => exact .inl ⟨"false", by simp_all [words]⟩
      · split at found
        · next same => exact .inl ⟨"null", by simp_all [words]⟩
        · split at found
          · next colon =>
              exact .inr ⟨by simpa using colon, (Option.some.inj found).symm⟩
          · simp at found
  · rintro (⟨word, known, same⟩ | ⟨colon, rfl⟩)
    · simp only [words, List.mem_cons, Prod.mk.injEq, List.not_mem_nil, or_false] at known
      rcases known with ⟨rfl, rfl⟩ | ⟨rfl, rfl⟩ | ⟨rfl, rfl⟩ <;> simp [literalOfName?, same]
    · have notTrue := noWord colon "true" (.bool true) (by simp [words])
      have notFalse := noWord colon "false" (.bool false) (by simp [words])
      have notNull := noWord colon "null" .null (by simp [words])
      simp only [literalOfName?, if_neg notTrue, if_neg notFalse, if_neg notNull]
      simp [colon]

/-- A character that starts a name is no digit. -/
theorem not_isDigit_of_startsName {char : Char} (starts : startsName char = true) :
    char.isDigit = false := by
  simp only [startsName, isLetter, Bool.or_eq_true, beq_iff_eq] at starts
  rcases starts with (letter | rfl) | rfl
  · exact Text.not_isDigit_of_isAlpha letter
  · decide
  · decide

/-- Where a name starts, a name is read. -/
theorem readScalar_of_startsName {char : Char} (starts : startsName char = true)
    (rest : List Char) :
    readScalar (char :: rest) =
      match literalOfName? (spanName (char :: rest)).1 with
      | some literal => .ok (literal, (spanName (char :: rest)).2)
      | none => .error ⟨.unexpectedName (.ofList (spanName (char :: rest)).1),
          (spanName (char :: rest)).2⟩ := by
  have noQuote : char ≠ '"' := by rintro rfl; exact absurd starts (by decide)
  have noSign : char ≠ '-' := by rintro rfl; exact absurd starts (by decide)
  have noMark : char ≠ '@' := by rintro rfl; exact absurd starts (by decide)
  cases meaning : literalOfName? (spanName (char :: rest)).1 <;>
    simp only [readScalar, noQuote, noSign, noMark, starts, not_isDigit_of_startsName starts,
      if_false, decide_false, Bool.or_false, Bool.false_eq_true, if_true, meaning]

/-- Where a sign or a digit starts, a number is read. -/
theorem readScalar_of_startsNumber {char : Char}
    (starts : char = '-' ∨ char.isDigit = true) (rest : List Char) :
    readScalar (char :: rest) =
      match (spanNumeral (char :: rest)).1.literal? with
      | some literal => .ok (literal, (spanNumeral (char :: rest)).2)
      | none => .error ⟨.invalidNumber (.ofList (spanNumeral (char :: rest)).1.written),
          (spanNumeral (char :: rest)).2⟩ := by
  have noQuote : char ≠ '"' := by
    rintro rfl
    rcases starts with same | digit
    · exact absurd same (by decide)
    · exact absurd digit (by decide)
  have starts : (decide (char = '-') || char.isDigit) = true := by simpa using starts
  cases meaning : (spanNumeral (char :: rest)).1.literal? <;>
    simp only [readScalar, noQuote, if_false, starts, if_true, meaning]

/-- A string is read with its quotes. -/
theorem readScalar_quoted (content : List Char) {after : List Char}
    (longest : after.head? ≠ some '"') :
    readScalar (quoted content ++ after) = .ok (.string (.ofList content), after) := by
  simp [readScalar, quoted, spanString_doubled content longest]

/-- A number starts with a sign or a digit. -/
theorem Number.starts {written after : List Char} {literal : Literal}
    (number : Number written after literal) :
    ∃ char rest, written = char :: rest ∧ (char = '-' ∨ char.isDigit = true) := by
  cases number with
  | @integer negative digits _ someDigits allDigits _ _ _ =>
      cases negative with
      | true => exact ⟨'-', digits, rfl, .inl rfl⟩
      | false =>
          cases digits with
          | nil => exact absurd rfl someDigits
          | cons digit rest => exact ⟨digit, rest, rfl, .inr (allDigits digit List.mem_cons_self)⟩
  | @float negative whole fraction _ wholeDigits _ _ _ started =>
      cases negative with
      | true => exact ⟨'-', whole ++ '.' :: fraction, rfl, .inl rfl⟩
      | false =>
          cases whole with
          | nil => exact absurd (started rfl) (by decide)
          | cons digit rest =>
              exact ⟨digit, rest ++ '.' :: fraction, rfl,
                .inr (wholeDigits digit List.mem_cons_self)⟩

/-- What spells a word starts with a letter. -/
theorem startsName_of_word {written : List Char} {word : String} {literal : Literal}
    (known : (word, literal) ∈ words) (spelled : written.map Char.toLower = word.toList) :
    StartsWith startsName written := by
  have first : ∃ char rest, word.toList = char :: rest ∧ char.isAlpha = true := by
    simp only [words, List.mem_cons, Prod.mk.injEq, List.not_mem_nil, or_false] at known
    rcases known with ⟨rfl, -⟩ | ⟨rfl, -⟩ | ⟨rfl, -⟩
    · exact ⟨'t', "rue".toList, by decide, by decide⟩
    · exact ⟨'f', "alse".toList, by decide, by decide⟩
    · exact ⟨'n', "ull".toList, by decide, by decide⟩
  obtain ⟨lowered, tail, same, letter⟩ := first
  rw [same] at spelled
  obtain ⟨char, rest, rfl, rfl, -⟩ := List.map_eq_cons_iff.1 spelled
  exact ⟨char, rest, rfl, by simp [startsName, isLetter, Text.isAlpha_of_isAlpha_toLower letter]⟩

/-- A scalar of the grammar is read. -/
theorem readScalar_of_scalar {written after : List Char} {literal : Literal}
    (scalar : Scalar written after literal) :
    readScalar (written ++ after) = .ok (literal, after) := by
  cases scalar with
  | string longest => exact readScalar_quoted _ longest
  | number number =>
      obtain ⟨char, rest, rfl, starts⟩ := number.starts
      obtain ⟨numeral, taken, meaning⟩ := spanNumeral_of_number number
      rw [List.cons_append] at taken ⊢
      simp only [readScalar_of_startsNumber starts, taken, meaning]
  | word name known spelled =>
      obtain ⟨char, rest, rfl, starts⟩ := startsName_of_word known spelled
      have taken := spanName_of_name name
      have meaning := (literalOfName?_eq_some_iff _ literal).2 (.inl ⟨_, known, spelled⟩)
      rw [List.cons_append] at taken ⊢
      simp only [readScalar_of_startsName starts, taken, meaning]
  | constant name starts qualified =>
      obtain ⟨char, rest, rfl, starts⟩ := starts
      have taken := spanName_of_name name
      have colon := (mem_colon_iff_of_nameText name.spelled).2 qualified
      have meaning := (literalOfName?_eq_some_iff _ _).2 (.inr ⟨colon, rfl⟩)
      rw [List.cons_append] at taken ⊢
      simp only [readScalar_of_startsName starts, taken, meaning]

/-- What is read as a scalar is one of the grammar. -/
theorem scalar_of_readScalar {text after : List Char} {literal : Literal}
    (found : readScalar text = .ok (literal, after)) :
    ∃ written, text = written ++ after ∧ Scalar written after literal := by
  cases text with
  | nil => simp [readScalar] at found
  | cons char rest =>
      by_cases quote : char = '"'
      · subst quote
        simp only [readScalar, if_true] at found
        split at found
        · next content tail same =>
            obtain ⟨rfl, rfl⟩ := Prod.mk.inj (Except.ok.inj found)
            obtain ⟨rfl, longest⟩ := eq_of_spanString same
            exact ⟨quoted content, by simp [quoted], .string longest⟩
        · simp at found
      by_cases number : char = '-' ∨ char.isDigit = true
      · rw [readScalar_of_startsNumber number] at found
        split at found
        · next literal' meaning =>
            obtain ⟨rfl, rfl⟩ := Prod.mk.inj (Except.ok.inj found)
            exact ⟨_, (spanNumeral_append _).symm, .number (number_of_spanNumeral number meaning)⟩
        · simp at found
      by_cases starts : startsName char = true
      · rw [readScalar_of_startsName starts] at found
        split at found
        · next literal' meaning =>
            obtain ⟨rfl, rfl⟩ := Prod.mk.inj (Except.ok.inj found)
            refine ⟨_, (spanName_append _).symm, ?_⟩
            have name := name_spanName (char :: rest)
            rcases (literalOfName?_eq_some_iff _ _).1 meaning with
              ⟨word, known, spelled⟩ | ⟨colon, rfl⟩
            · exact .word name known spelled
            · refine .constant name ?_ ((mem_colon_iff_of_nameText name.spelled).1 colon)
              rw [spanName_cons (isNameChar_of_startsName starts)]
              exact ⟨char, _, rfl, starts⟩
        · simp at found
      · simp only [not_or, Bool.not_eq_true] at number
        simp only [readScalar, quote, number, starts, decide_false, Bool.or_false,
          Bool.false_eq_true, if_false] at found
        split at found <;> simp at found

/-! ## Keys -/

/-- The candidate for a key at the start of a text and what follows it. -/
def spanKey (kind : ListKind) (text : List Char) :
    Except Failure (Option (List Char × List Char)) :=
  match kind with
  | .arguments => .ok (if text.head?.any isLetter then some (spanName text) else none)
  | .entries => spanEntryKeyText text

/-- The key at the start of a text, and the text of its value; both readers of
keys in one. -/
def readKey (kind : ListKind) (text : List Char) :
    Except Failure (Option String × List Char) :=
  match kind with
  | .arguments => .ok (spanArgumentKey text)
  | .entries => spanEntryKey text

/-- A candidate is a key if a separator follows it. -/
theorem readKey_eq (kind : ListKind) (text : List Char) :
    readKey kind text =
      match spanKey kind text with
      | .error failure => .error failure
      | .ok none => .ok (none, text)
      | .ok (some (key, after)) =>
          match afterSeparator? kind.separators after with
          | some rest => .ok (some (.ofList key), rest)
          | none => .ok (none, text) := by
  cases kind with
  | entries => rfl
  | arguments =>
      cases text with
      | nil => rfl
      | cons char rest =>
          by_cases letter : isLetter char = true
          · simp only [readKey, spanKey, spanArgumentKey, letter, List.head?_cons,
              Option.any_some, if_true, ListKind.separators]
            cases afterSeparator? ['='] (spanName (char :: rest)).2 <;> rfl
          · simp [readKey, spanKey, spanArgumentKey, letter]

/-- Separators and closers are no blanks. -/
theorem ListKind.isBlank_of_mem_separators {kind : ListKind} {separator : Char}
    (separates : separator ∈ kind.separators) : Text.isBlank separator = false := by
  cases kind <;> simp only [ListKind.separators, List.mem_cons, List.not_mem_nil, or_false]
    at separates
  · subst separates
    decide
  · rcases separates with rfl | rfl <;> decide

/-- What follows a separator stands after blanks and the separator. -/
theorem afterSeparator?_eq_some_iff (kind : ListKind) (text rest : List Char) :
    afterSeparator? kind.separators text = some rest ↔
      ∃ gap separator, text = gap ++ separator :: rest ∧ Blank gap ∧
        separator ∈ kind.separators := by
  constructor
  · intro found
    obtain ⟨gap, blank, whole⟩ := Text.exists_blank_append text
    unfold afterSeparator? at found
    split at found
    · next char after skipped =>
        split at found
        · next separates =>
            obtain rfl := Option.some.inj found
            exact ⟨gap, char, by rw [← skipped, ← whole], blank, by simpa using separates⟩
        · simp at found
    · simp at found
  · rintro ⟨gap, separator, rfl, blank, separates⟩
    have solid := ListKind.isBlank_of_mem_separators separates
    simp [afterSeparator?, Text.skipBlanks_append blank, Text.skipBlanks_cons solid, separates]

/-- A key of the grammar is a candidate. -/
theorem spanKey_of_keyText {kind : ListKind} {written after key : List Char}
    (keyText : KeyText kind written after key) :
    spanKey kind (written ++ after) = .ok (some (key, after)) := by
  cases keyText with
  | name name starts =>
      obtain ⟨char, rest, rfl, letter⟩ := starts
      have taken := spanName_of_name name
      cases kind with
      | arguments => simpa [spanKey, letter] using taken
      | entries =>
          have noQuote : char ≠ '"' := by rintro rfl; exact absurd letter (by decide)
          rw [List.cons_append] at taken ⊢
          simp [spanKey, spanEntryKeyText, noQuote, letter, taken]
  | string longest =>
      simp [spanKey, spanEntryKeyText, quoted, spanString_doubled key longest]
  | digits someDigits allDigits longest =>
      cases written with
      | nil => exact absurd rfl someDigits
      | cons digit rest =>
          have isDigit := allDigits digit List.mem_cons_self
          have noQuote : digit ≠ '"' := by rintro rfl; exact absurd isDigit (by decide)
          have noLetter : isLetter digit = false := by
            by_cases letter : isLetter digit = true
            · have starts : startsName digit = true := by simp [startsName, letter]
              rw [not_isDigit_of_startsName starts] at isDigit
              exact absurd isDigit (by decide)
            · simpa using letter
          have taken := takeWhile_digits allDigits longest
          have left := dropWhile_digits allDigits longest
          rw [List.cons_append] at taken left ⊢
          simp only [spanKey, spanEntryKeyText, noQuote, noLetter, isDigit, taken, left,
            if_false, if_true, Bool.false_eq_true]

/-- A candidate for a key is one of the grammar. -/
theorem keyText_of_spanKey {kind : ListKind} {text key after : List Char}
    (found : spanKey kind text = .ok (some (key, after))) :
    ∃ written, text = written ++ after ∧ KeyText kind written after key := by
  have ofName : ∀ {char : Char} {rest : List Char}, text = char :: rest →
      isLetter char = true → spanName text = (key, after) →
      ∃ written, text = written ++ after ∧ KeyText kind written after key := by
    rintro char rest rfl letter taken
    have name := name_spanName (char :: rest)
    have splits := spanName_append (char :: rest)
    have starts : isNameChar char = true :=
      isNameChar_of_startsName (by simp [startsName, letter])
    have first := spanName_cons starts rest
    rw [taken] at name splits first
    obtain ⟨sameKey, -⟩ := Prod.mk.inj first
    exact ⟨key, splits.symm, .name name ⟨char, _, sameKey, letter⟩⟩
  cases text with
  | nil => cases kind <;> simp [spanKey, spanEntryKeyText] at found
  | cons char rest =>
      cases kind with
      | arguments =>
          obtain ⟨letter, taken⟩ := Option.ite_none_right_eq_some.1 (Except.ok.inj found)
          exact ofName rfl (by simpa using letter) (Option.some.inj taken)
      | entries =>
          simp only [spanKey, spanEntryKeyText] at found
          split at found
          · next quote =>
              subst quote
              split at found
              · next pair same =>
                  obtain rfl := Option.some.inj (Except.ok.inj found)
                  obtain ⟨rfl, longest⟩ := eq_of_spanString same
                  exact ⟨quoted key, by simp [quoted], .string longest⟩
              · simp at found
          split at found
          · next letter => exact ofName rfl letter (Option.some.inj (Except.ok.inj found))
          split at found
          · next isDigit =>
              obtain ⟨rfl, rfl⟩ := Prod.mk.inj (Option.some.inj (Except.ok.inj found))
              refine ⟨_, List.takeWhile_append_dropWhile.symm, .digits ?_
                (digits_takeWhile _) (not_startsWithDigit_dropWhile _)⟩
              simp [isDigit]
          · simp at found

/-- A key is read exactly where the grammar has one. -/
theorem readKey_eq_some_iff (kind : ListKind) (text rest : List Char) (key : String) :
    readKey kind text = .ok (some key, rest) ↔
      ∃ content, key = .ofList content ∧ StartsWithKey kind text content rest := by
  constructor
  · intro found
    rw [readKey_eq] at found
    split at found
    · simp at found
    · simp at found
    · next content after candidate =>
        split at found
        · next tail separated =>
            obtain ⟨rfl, rfl⟩ : String.ofList content = key ∧ tail = rest := by
              simpa using found
            obtain ⟨written, rfl, keyText⟩ := keyText_of_spanKey candidate
            obtain ⟨gap, separator, rfl, blank, separates⟩ :=
              (afterSeparator?_eq_some_iff kind _ _).1 separated
            exact ⟨content, rfl, written, gap, separator, rfl, keyText, blank, separates⟩
        · simp at found
  · rintro ⟨content, rfl, written, gap, separator, rfl, keyText, blank, separates⟩
    have separated := (afterSeparator?_eq_some_iff kind (gap ++ separator :: rest) rest).2
      ⟨gap, separator, rfl, blank, separates⟩
    rw [readKey_eq, spanKey_of_keyText keyText]
    simp only [separated]

/-- Where no key is read the text stays as it is. -/
theorem eq_of_readKey_none {kind : ListKind} {text rest : List Char}
    (found : readKey kind text = .ok (none, rest)) : rest = text := by
  rw [readKey_eq] at found
  split at found
  · simp at found
  · simpa using found.symm
  · split at found
    · simp at found
    · simpa using found.symm

end DocblockScan.Docblock.Grammar
