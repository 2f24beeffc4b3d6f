import DocblockScan.Proofs.Docblock.Segmentation

/-!
# What is unread at a fault

A reader that fails stops somewhere in its text: what is unread then is an end of the
text. There is one lemma for each reader, up to `readTags_suffix` for the tags of a
whole text. That a reader leaves an end of the text when it succeeds is known from the
grammar.
-/

namespace DocblockScan

/-- Skipping blanks leaves an end of the text. -/
theorem Text.skipBlanks_suffix (text : List Char) : Text.skipBlanks text <:+ text :=
  List.dropWhile_suffix _

namespace Docblock

namespace Grammar

/-- What follows the first character after the blanks is an end of the text. -/
theorem suffix_of_skipBlanks {text rest : List Char} {char : Char}
    (skipped : Text.skipBlanks text = char :: rest) : rest <:+ text :=
  (List.suffix_cons char rest).trans (skipped ▸ Text.skipBlanks_suffix text)

/-- Where no scalar can be read, an end of the text is unread. -/
theorem readScalar_suffix {text : List Char} {failure : Failure}
    (fails : readScalar text = .error failure) : failure.rest <:+ text := by
  have nameSplits := spanName_append text
  have numeralSplits := spanNumeral_append text
  unfold readScalar at fails
  split at fails
  · obtain rfl := Except.error.inj fails
    exact List.suffix_rfl
  · next char rest =>
      split at fails
      · split at fails
        · simp at fails
        · obtain rfl := Except.error.inj fails
          exact List.nil_suffix
      split at fails
      · dsimp only at fails
        split at fails
        · simp at fails
        · obtain rfl := Except.error.inj fails
          exact ⟨_, numeralSplits⟩
      split at fails
      · obtain rfl := Except.error.inj fails
        exact List.suffix_rfl
      split at fails
      · dsimp only at fails
        split at fails
        · simp at fails
        · obtain rfl := Except.error.inj fails
          exact ⟨_, nameSplits⟩
      · obtain rfl := Except.error.inj fails
        exact List.suffix_rfl

/-- What follows a key is an end of the text, and without a key all of it is. -/
theorem readKey_suffix {kind : ListKind} {text rest : List Char} {key : Option String}
    (found : readKey kind text = .ok (key, rest)) : rest <:+ text := by
  cases key with
  | none => exact eq_of_readKey_none found ▸ List.suffix_rfl
  | some key =>
      obtain ⟨content, -, written, gap, separator, rfl, -⟩ :=
        (readKey_eq_some_iff kind text rest key).1 found
      exact ⟨written ++ (gap ++ [separator]), by simp⟩

/-- Only a string that does not end can be no key, and then nothing is unread. -/
theorem rest_of_readKey {kind : ListKind} {text : List Char} {failure : Failure}
    (fails : readKey kind text = .error failure) : failure.rest = [] := by
  have candidates : ∀ failure, spanEntryKeyText text = .error failure → failure.rest = [] := by
    intro failure fails
    unfold spanEntryKeyText at fails
    split at fails
    · simp at fails
    split at fails
    · split at fails
      · simp at fails
      · rw [← Except.error.inj fails]
    split at fails
    · simp at fails
    · split at fails <;> simp at fails
  cases kind with
  | arguments => simp [readKey] at fails
  | entries =>
      simp only [readKey, spanEntryKey] at fails
      split at fails
      · next candidate same => exact Except.error.inj fails ▸ candidates _ same
      · simp at fails
      · split at fails <;> simp at fails

/-- What follows an item is an end of the text. -/
theorem itemOutcome_suffix {kind : ListKind} {text rest : List Char}
    {item : Option String × Literal} (read : itemOutcome kind text = .ok (item, rest)) :
    rest <:+ text := by
  unfold itemOutcome at read
  split at read
  · simp at read
  next key valueText keyed =>
  split at read
  · simp at read
  next literal after readValue =>
  obtain ⟨rfl, rfl⟩ := Prod.mk.inj (Except.ok.inj read)
  obtain ⟨written, rfl, -⟩ := value_of_literalOutcome readValue
  exact (List.suffix_append written _).trans (readKey_suffix keyed)

/-- Where no item can be read, an end of the text is unread, if that holds of values. -/
theorem itemOutcome_failure {kind : ListKind} {text : List Char} {failure : Failure}
    (fails : itemOutcome kind text = .error failure)
    (values : ∀ valueText, valueText.length ≤ text.length →
      literalOutcome valueText = .error failure → failure.rest <:+ valueText) :
    failure.rest <:+ text := by
  unfold itemOutcome at fails
  split at fails
  · next other keyed =>
      obtain rfl := Except.error.inj fails
      rw [rest_of_readKey keyed]
      exact List.nil_suffix
  next key valueText keyed =>
  have within := readKey_suffix keyed
  split at fails
  · next other readValue =>
      obtain rfl := Except.error.inj fails
      exact (values valueText within.length_le readValue).trans within
  · simp at fails

mutual

/-- Where no value can be read, an end of the text is unread. -/
theorem literalOutcome_failure {text : List Char} {failure : Failure}
    (fails : literalOutcome text = .error failure) : failure.rest <:+ text := by
  have skips := Text.skipBlanks_suffix text
  rw [literalOutcome_eq] at fails
  split at fails
  · next rest opened =>
      have within := suffix_of_skipBlanks opened
      have shorter : rest.length < text.length := by
        have bound := skips.length_le
        rw [opened, List.length_cons] at bound
        omega
      cases entries : entriesOutcome rest with
      | ok found => simp [entries, Except.map] at fails
      | error other =>
          obtain rfl : other = failure := by simpa [entries, Except.map] using fails
          exact (entriesOutcome_failure entries).trans within
  · exact (readScalar_suffix fails).trans skips
termination_by 2 * text.length

/-- Where the entries of an array cannot be read, an end of the text is unread. -/
theorem entriesOutcome_failure {text : List Char} {failure : Failure}
    (fails : entriesOutcome text = .error failure) : failure.rest <:+ text := by
  have skips := Text.skipBlanks_suffix text
  rw [entriesOutcome_eq] at fails
  split at fails
  · simp at fails
  split at fails
  · next other item =>
      obtain rfl := Except.error.inj fails
      refine (itemOutcome_failure item fun valueText within readValue => ?_).trans skips
      have bound := skips.length_le
      exact literalOutcome_failure readValue
  next item after readItem =>
  have itemWithin := (itemOutcome_suffix readItem).trans skips
  split at fails
  · next rest separated =>
      have within := suffix_of_skipBlanks separated
      have shorter : rest.length < text.length := by
        have bound := (Text.skipBlanks_suffix after).length_le
        have itemBound := itemWithin.length_le
        rw [separated, List.length_cons] at bound
        omega
      cases entries : entriesOutcome rest with
      | ok found => simp [entries, Except.map] at fails
      | error other =>
          obtain rfl : other = failure := by simpa [entries, Except.map] using fails
          exact (entriesOutcome_failure entries).trans (within.trans itemWithin)
  · simp at fails
  · next separated =>
      obtain rfl := Except.error.inj fails
      exact (separated ▸ Text.skipBlanks_suffix after).trans itemWithin
  · obtain rfl := Except.error.inj fails
    exact List.nil_suffix
termination_by 2 * text.length + 1

end

/-- Where arguments cannot be read, an end of the text is unread. -/
theorem argumentsOutcome_failure {known : Arguments} {text : List Char} {failure : Failure}
    (fails : argumentsOutcome known text = .error failure) : failure.rest <:+ text := by
  have skips := Text.skipBlanks_suffix text
  rw [argumentsOutcome_eq] at fails
  split at fails
  · simp at fails
  split at fails
  · next other item =>
      obtain rfl := Except.error.inj fails
      exact (itemOutcome_failure item fun _ _ => literalOutcome_failure).trans skips
  next item after readItem =>
  have itemWithin := (itemOutcome_suffix readItem).trans skips
  split at fails
  · obtain rfl := Except.error.inj fails
    exact itemWithin
  split at fails
  · next rest separated =>
      have within := suffix_of_skipBlanks separated
      have shorter : rest.length < text.length := by
        have bound := (Text.skipBlanks_suffix after).length_le
        have itemBound := itemWithin.length_le
        rw [separated, List.length_cons] at bound
        omega
      exact (argumentsOutcome_failure fails).trans (within.trans itemWithin)
  · simp at fails
  · next separated =>
      obtain rfl := Except.error.inj fails
      exact (separated ▸ Text.skipBlanks_suffix after).trans itemWithin
  · obtain rfl := Except.error.inj fails
    exact List.nil_suffix
termination_by text.length

end Grammar

/-- Where arguments cannot be read, an end of the text is unread. -/
theorem readArguments_suffix {text : List Char} {failure : Failure}
    (fails : readArguments text = .error failure) : failure.rest <:+ text := by
  have outcome : Grammar.argumentsOutcome .none text = .error failure := by
    rw [Grammar.argumentsOutcome, ← readArguments, fails]
    rfl
  exact Grammar.argumentsOutcome_failure outcome

variable {vocabulary : Vocabulary} {previous : Option Char} {text inner : List Char}

/-- The text after the opening parenthesis of a list outside the grammar ends the whole
text. -/
theorem Segmentation.inner_suffix {segments : List Segment}
    (cut : Segmentation vocabulary previous text segments (some inner)) : inner <:+ text := by
  generalize ends : some inner = ending at cut
  induction cut with
  | complete => simp at ends
  | prose _ _ inductionHypothesis =>
      exact (inductionHypothesis ends).trans (List.suffix_cons _ _)
  | mark mark takes _ inductionHypothesis =>
      rw [mark.text_eq takes]
      exact (inductionHypothesis ends).trans (List.suffix_append _ _)
  | refused mark refuses =>
      obtain rfl := Option.some.inj ends
      rw [mark.whole, ← List.cons_append]
      exact (Grammar.suffix_of_skipBlanks refuses.opens).trans (List.suffix_append _ _)

/-- Where the tags of a text cannot be read, an end of the text is unread. -/
theorem readTags_suffix {failure : Failure}
    (fails : readTags vocabulary (atBreak previous) text = .error failure) :
    failure.rest <:+ text := by
  obtain ⟨segments, ending, cut⟩ := exists_segmentation vocabulary previous text
  cases ending with
  | none => simp [readTags_of_complete cut] at fails
  | some inner =>
      obtain ⟨other, refused, read⟩ := readTags_of_refused cut
      obtain rfl := Except.error.inj (read.symm.trans fails)
      exact (readArguments_suffix refused).trans cut.inner_suffix

end Docblock

end DocblockScan
