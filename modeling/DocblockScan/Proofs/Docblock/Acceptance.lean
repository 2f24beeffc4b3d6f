import DocblockScan.Proofs.Docblock.Collecting
import DocblockScan.Proofs.Docblock.ListRules

/-!
# What is in the grammar is read

The readers of values, arrays and argument lists read every text of the grammar and
stop right after it. The readers return proofs that the text got shorter;
`Reading.outcome` forgets them, and each reader is first brought into a form on
outcomes in which its branches can be seen.
-/

namespace DocblockScan

/-- What a reading found and the text it left. -/
def Text.Reading.outcome {Value : Type} {text : List Char} (reading : Text.Reading Value text) :
    Value × List Char :=
  (reading.value, reading.rest)

namespace Docblock.Grammar

open Text (Blank)

/-! ## Readers on outcomes -/

/-- What reading a literal finds and leaves. -/
def literalOutcome (text : List Char) : Except Failure (Literal × List Char) :=
  (readLiteral text).map Text.Reading.outcome

/-- What reading the entries of an array finds and leaves. -/
def entriesOutcome (text : List Char) :
    Except Failure (List (Option String × Literal) × List Char) :=
  (readEntries text).map Text.Reading.outcome

/-- What reading the arguments after some others finds and leaves. -/
def argumentsOutcome (known : Arguments) (text : List Char) :
    Except Failure (Arguments × List Char) :=
  (readArgumentsAfter known text).map Text.Reading.outcome

/-- The outcome of reading arguments is that of a reading. -/
theorem argumentsOutcome_eq_ok_iff (text after : List Char) (arguments : Arguments) :
    argumentsOutcome .none text = .ok (arguments, after) ↔
      ∃ reading, readArguments text = .ok reading ∧ reading.value = arguments ∧
        reading.rest = after := by
  unfold argumentsOutcome readArguments
  cases readArgumentsAfter .none text with
  | error failure => simp [Except.map]
  | ok reading => simp [Except.map, Text.Reading.outcome]

/-- What reading an item, with its key if it has one, finds and leaves. -/
def itemOutcome (kind : ListKind) (text : List Char) :
    Except Failure ((Option String × Literal) × List Char) :=
  match readKey kind text with
  | .error failure => .error failure
  | .ok (key, valueText) =>
      match literalOutcome valueText with
      | .error failure => .error failure
      | .ok (literal, after) => .ok ((key, literal), after)

theorem literalOutcome_eq (text : List Char) :
    literalOutcome text =
      match Text.skipBlanks text with
      | '{' :: rest => (entriesOutcome rest).map fun found => (.array found.1, found.2)
      | start => readScalar start := by
  unfold literalOutcome entriesOutcome
  rw [readLiteral]
  split
  · next rest skipped =>
      simp only [skipped]
      cases readEntries rest <;> rfl
  · next skipped =>
      split <;> simp_all [Except.map, Text.Reading.outcome]

theorem entriesOutcome_eq (text : List Char) :
    entriesOutcome text =
      match Text.skipBlanks text with
      | '}' :: rest => .ok ([], rest)
      | start =>
          match itemOutcome .entries start with
          | .error failure => .error failure
          | .ok (item, after) =>
              match Text.skipBlanks after with
              | ',' :: rest =>
                  (entriesOutcome rest).map fun found => (item :: found.1, found.2)
              | '}' :: rest => .ok ([item], rest)
              | found :: rest => .error ⟨.expectedSeparator '}' found, found :: rest⟩
              | [] => .error ⟨.unterminatedArray, []⟩ := by
  conv_lhs => rw [entriesOutcome, readEntries]
  split
  · next rest skipped => simp only [skipped]; rfl
  · next notClosed =>
      split
      · next failure keyed => simp [itemOutcome, readKey, keyed, Except.map]
      · next key valueText keyed =>
          split
          · next failure read =>
              simp [itemOutcome, readKey, keyed, literalOutcome, read, Except.map]
          · next literal read =>
              have item : itemOutcome .entries (Text.skipBlanks text) =
                  .ok ((key, literal.value), literal.rest) := by
                simp [itemOutcome, readKey, keyed, literalOutcome, read, Except.map,
                  Text.Reading.outcome]
              simp only [item]
              split
              · next rest separated =>
                  simp only [separated, entriesOutcome]
                  cases readEntries rest <;> rfl
              · next rest separated => simp only [separated]; rfl
              · next found rest notComma notCloser separated =>
                  simp [separated, Except.map]
              · next separated => simp [separated, Except.map]

theorem argumentsOutcome_eq (known : Arguments) (text : List Char) :
    argumentsOutcome known text =
      match Text.skipBlanks text with
      | ')' :: rest => .ok (known, rest)
      | start =>
          match itemOutcome .arguments start with
          | .error failure => .error failure
          | .ok (item, after) =>
              match Arguments.add? known item.1 item.2 with
              | .error fault => .error ⟨fault, after⟩
              | .ok grown =>
                  match Text.skipBlanks after with
                  | ',' :: rest => argumentsOutcome grown rest
                  | ')' :: rest => .ok (grown, rest)
                  | found :: rest => .error ⟨.expectedSeparator ')' found, found :: rest⟩
                  | [] => .error ⟨.unterminatedArguments, []⟩ := by
  conv_lhs => rw [argumentsOutcome, readArgumentsAfter]
  split
  · next rest skipped => simp only [skipped]; rfl
  · next notClosed =>
      split
      · next failure read =>
          simp [itemOutcome, readKey, literalOutcome, read, Except.map]
      · next literal read =>
          have item : itemOutcome .arguments (Text.skipBlanks text) =
              .ok (((spanArgumentKey (Text.skipBlanks text)).1, literal.value),
                literal.rest) := by
            simp [itemOutcome, readKey, literalOutcome, read, Except.map,
              Text.Reading.outcome]
          simp only [item]
          cases Arguments.add? known (spanArgumentKey (Text.skipBlanks text)).1 literal.value with
          | error fault => simp [Except.map]
          | ok grown =>
              dsimp only
              split
              · next rest separated =>
                  simp only [separated, argumentsOutcome]
                  cases readArgumentsAfter grown rest <;> rfl
              · next rest separated => simp only [separated]; rfl
              · next found rest notComma notCloser separated =>
                  simp [separated, Except.map]
              · next separated => simp [separated, Except.map]

/-- Blanks in front of a literal make no difference. -/
theorem literalOutcome_skipBlanks (text : List Char) :
    literalOutcome (Text.skipBlanks text) = literalOutcome text := by
  rw [literalOutcome_eq, literalOutcome_eq text, Text.skipBlanks_skipBlanks]

/-- A closer is no item. -/
theorem itemOutcome_closer (kind : ListKind) (rest : List Char) :
    itemOutcome kind (kind.closer :: rest) =
      .error ⟨.unexpectedCharacter kind.closer, kind.closer :: rest⟩ := by
  have solid : Text.isBlank kind.closer = false := by cases kind <;> decide
  have noKey : readKey kind (kind.closer :: rest) = .ok (none, kind.closer :: rest) := by
    cases kind <;> rfl
  have noLiteral : literalOutcome (kind.closer :: rest) =
      .error ⟨.unexpectedCharacter kind.closer, kind.closer :: rest⟩ := by
    rw [literalOutcome_eq, Text.skipBlanks_cons solid]
    cases kind <;> rfl
  rw [itemOutcome, noKey]
  simp only [noLiteral]

/-- Where no item of an array is read, no entries are. -/
theorem entriesOutcome_of_failure {text : List Char} {failure : Failure}
    (notClosed : (Text.skipBlanks text).head? ≠ some '}')
    (fails : itemOutcome .entries (Text.skipBlanks text) = .error failure) :
    entriesOutcome text = .error failure := by
  rw [entriesOutcome_eq]
  split
  · next rest closed => exact absurd (by rw [closed]; rfl) notClosed
  · simp only [fails]

/-- Where no argument is read, no arguments are. -/
theorem argumentsOutcome_of_failure {known : Arguments} {text : List Char} {failure : Failure}
    (notClosed : (Text.skipBlanks text).head? ≠ some ')')
    (fails : itemOutcome .arguments (Text.skipBlanks text) = .error failure) :
    argumentsOutcome known text = .error failure := by
  rw [argumentsOutcome_eq]
  split
  · next rest closed => exact absurd (by rw [closed]; rfl) notClosed
  · simp only [fails]

/-- After an item of an array comes a comma or the closer. -/
theorem entriesOutcome_of_item {text after : List Char} {item : Option String × Literal}
    (read : itemOutcome .entries (Text.skipBlanks text) = .ok (item, after)) :
    entriesOutcome text =
      match Text.skipBlanks after with
      | ',' :: rest => (entriesOutcome rest).map fun found => (item :: found.1, found.2)
      | '}' :: rest => .ok ([item], rest)
      | found :: rest => .error ⟨.expectedSeparator '}' found, found :: rest⟩
      | [] => .error ⟨.unterminatedArray, []⟩ := by
  rw [entriesOutcome_eq]
  split
  · next rest closed =>
      have refused := itemOutcome_closer .entries rest
      simp only [ListKind.closer] at refused
      rw [closed, refused] at read
      simp at read
  · simp only [read]

/-- After an argument comes a comma or the closer. -/
theorem argumentsOutcome_of_item {known grown : Arguments} {text after : List Char}
    {item : Option String × Literal}
    (read : itemOutcome .arguments (Text.skipBlanks text) = .ok (item, after))
    (added : Arguments.add? known item.1 item.2 = .ok grown) :
    argumentsOutcome known text =
      match Text.skipBlanks after with
      | ',' :: rest => argumentsOutcome grown rest
      | ')' :: rest => .ok (grown, rest)
      | found :: rest => .error ⟨.expectedSeparator ')' found, found :: rest⟩
      | [] => .error ⟨.unterminatedArguments, []⟩ := by
  rw [argumentsOutcome_eq]
  split
  · next rest closed =>
      have refused := itemOutcome_closer .arguments rest
      simp only [ListKind.closer] at refused
      rw [closed, refused] at read
      simp at read
  · simp only [read, added]

/-- An argument that cannot be added is a fault at the text after it. -/
theorem argumentsOutcome_of_refused {known : Arguments} {text after : List Char}
    {item : Option String × Literal} {fault : Fault}
    (read : itemOutcome .arguments (Text.skipBlanks text) = .ok (item, after))
    (refused : Arguments.add? known item.1 item.2 = .error fault) :
    argumentsOutcome known text = .error ⟨fault, after⟩ := by
  rw [argumentsOutcome_eq]
  split
  · next rest closed =>
      have noItem := itemOutcome_closer .arguments rest
      simp only [ListKind.closer] at noItem
      rw [closed, noItem] at read
      simp at read
  · simp only [read, refused]

/-! ## Texts of the grammar -/

/-- An item of the grammar is read, if its value is. -/
theorem itemOutcome_of_item {kind : ListKind} {written after : List Char}
    {item : Option String × Literal} (means : Item kind written after item)
    (ends : EndsItem after)
    (complete : ∀ value literal, value.length ≤ written.length → Value value after literal →
      literalOutcome (value ++ after) = .ok (literal, after)) :
    itemOutcome kind (Text.skipBlanks (written ++ after)) = .ok (item, after) := by
  cases means with
  | @keyed _ keyWritten gap value _ key separator literal keyText blank separates means =>
      have starts : StartsWithKey kind (keyWritten ++ (gap ++ separator :: (value ++ after)))
          key (value ++ after) := ⟨keyWritten, gap, separator, rfl, keyText, blank, separates⟩
      have keyed := (readKey_eq_some_iff kind _ _ _).2 ⟨key, rfl, starts⟩
      have read := complete value literal (by simp; omega) means
      have same : keyWritten ++ (gap ++ separator :: value) ++ after =
          keyWritten ++ (gap ++ separator :: (value ++ after)) := by simp
      rw [same, starts.skipBlanks, itemOutcome, keyed]
      simp only [read]
  | @bare _ _ _ literal _ means =>
      have read := complete written literal (Nat.le_refl _) means
      have noKey : readKey kind (Text.skipBlanks (written ++ after)) =
          .ok (none, Text.skipBlanks (written ++ after)) := by
        cases means with
        | scalar blank scalar =>
            rw [scalar.skipBlanks blank]
            exact readKey_of_scalar scalar (ends.afterSeparator?_eq_none kind)
        | array blank _ =>
            rw [List.append_assoc, Text.skipBlanks_append blank, List.cons_append,
              Text.skipBlanks_cons (by decide)]
            exact readKey_of_brace kind _
      rw [itemOutcome, noKey]
      simp only [literalOutcome_skipBlanks, read]

mutual

/-- A value of the grammar is read. -/
theorem literalOutcome_of_value {written after : List Char} {literal : Literal}
    (means : Value written after literal) :
    literalOutcome (written ++ after) = .ok (literal, after) := by
  cases means with
  | @scalar gap lexeme _ _ blank scalar =>
      have read := readScalar_of_scalar scalar
      rw [literalOutcome_eq, scalar.skipBlanks blank]
      split
      · next rest same =>
          rw [same] at read
          simp [readScalar, startsName, isLetter] at read
      · exact read
  | @array gap body _ entries blank listing =>
      have read := entriesOutcome_of_listing listing after
      rw [literalOutcome_eq, List.append_assoc, Text.skipBlanks_append blank,
        List.cons_append, Text.skipBlanks_cons (by decide)]
      simp only [read]
      rfl
termination_by 2 * written.length
decreasing_by simp; omega

/-- The entries of an array of the grammar are read. -/
theorem entriesOutcome_of_listing {body : List Char}
    {entries : List (Option String × Literal)} (listing : Listing .entries body entries)
    (after : List Char) :
    entriesOutcome (body ++ after) = .ok (entries, after) := by
  rcases listing.step with ⟨gap, shape, blank, rfl⟩ |
    ⟨gap, written, gapAfter, item, shape, blank, blankAfter, means, rfl⟩ |
    ⟨gap, written, gapAfter, tail, item, others, shape, blank, blankAfter, means, rest, rfl⟩
  · rw [shape, entriesOutcome_eq, List.append_assoc, Text.skipBlanks_append blank,
      List.singleton_append, Text.skipBlanks_cons (by decide)]
    rfl
  · have within : written.length < body.length := by
      rw [shape]
      simp
      omega
    have ends : EndsItem (gapAfter ++ '}' :: after) := .closer blankAfter .entries after
    have read := itemOutcome_of_item (means.of_endsItem ends) ends
      fun value literal shorter means => literalOutcome_of_value means
    rw [← Text.skipBlanks_append blank] at read
    have same : body ++ after = gap ++ (written ++ (gapAfter ++ '}' :: after)) := by
      simp [shape, ListKind.closer]
    rw [same, entriesOutcome_of_item read, Text.skipBlanks_append blankAfter,
      Text.skipBlanks_cons (by decide)]
    rfl
  · have within : written.length + tail.length < body.length := by
      rw [shape]
      simp
      omega
    have ends : EndsItem (gapAfter ++ ',' :: (tail ++ after)) := .comma blankAfter _
    have read := itemOutcome_of_item (means.of_endsItem ends) ends
      fun value literal shorter means => literalOutcome_of_value means
    have readOthers := entriesOutcome_of_listing rest after
    rw [← Text.skipBlanks_append blank] at read
    have same : body ++ after = gap ++ (written ++ (gapAfter ++ ',' :: (tail ++ after))) := by
      simp [shape]
    rw [same, entriesOutcome_of_item read, Text.skipBlanks_append blankAfter,
      Text.skipBlanks_cons (by decide)]
    simp only [readOthers]
    rfl
termination_by 2 * body.length + 1
decreasing_by all_goals omega

end

/-- An argument list of the grammar is read, if its items can be added. -/
theorem argumentsOutcome_of_listing {known arguments : Arguments} {body : List Char}
    {items : List (Option String × Literal)} (listing : Listing .arguments body items)
    (added : addItems known items = .ok arguments) (after : List Char) :
    argumentsOutcome known (body ++ after) = .ok (arguments, after) := by
  rcases listing.step with ⟨gap, shape, blank, rfl⟩ |
    ⟨gap, written, gapAfter, item, shape, blank, blankAfter, means, rfl⟩ |
    ⟨gap, written, gapAfter, tail, item, others, shape, blank, blankAfter, means, rest, rfl⟩
  · rw [shape, argumentsOutcome_eq, List.append_assoc, Text.skipBlanks_append blank,
      List.singleton_append, Text.skipBlanks_cons (by decide)]
    obtain rfl := Except.ok.inj added
    rfl
  · rw [addItems_cons] at added
    split at added
    · simp at added
    · next grown first =>
        obtain rfl := Except.ok.inj added
        have ends : EndsItem (gapAfter ++ ')' :: after) := .closer blankAfter .arguments after
        have read := itemOutcome_of_item (means.of_endsItem ends) ends
          fun value literal _ means => literalOutcome_of_value means
        rw [← Text.skipBlanks_append blank] at read
        have same : body ++ after = gap ++ (written ++ (gapAfter ++ ')' :: after)) := by
          simp [shape, ListKind.closer]
        rw [same, argumentsOutcome_of_item read first, Text.skipBlanks_append blankAfter,
          Text.skipBlanks_cons (by decide)]
        rfl
  · rw [addItems_cons] at added
    split at added
    · simp at added
    · next grown first =>
        have within : tail.length < body.length := by
          rw [shape]
          simp
          omega
        have ends : EndsItem (gapAfter ++ ',' :: (tail ++ after)) := .comma blankAfter _
        have read := itemOutcome_of_item (means.of_endsItem ends) ends
          fun value literal _ means => literalOutcome_of_value means
        have readOthers := argumentsOutcome_of_listing rest added after
        rw [← Text.skipBlanks_append blank] at read
        have same : body ++ after = gap ++ (written ++ (gapAfter ++ ',' :: (tail ++ after))) := by
          simp [shape]
        rw [same, argumentsOutcome_of_item read first, Text.skipBlanks_append blankAfter,
          Text.skipBlanks_cons (by decide)]
        exact readOthers
termination_by body.length

end Docblock.Grammar

end DocblockScan
