import DocblockScan.Proofs.Docblock.Acceptance

/-!
# What the argument reader accepts is in its grammar

The converse of acceptance. What follows an item that was read is again a text
where an item ends, and so an item may be taken out of the text it was read in
and put into a list that stops at its closer. With both directions at hand,
the main result speaks of two cursors in a text, the first of which
stands on an opening parenthesis.
-/

namespace DocblockScan.Docblock.Grammar

open Text (Blank)

/-- What follows an item is known from the character after the blanks. -/
theorem EndsItem.of_skipBlanks {after rest : List Char} {char : Char}
    (found : Text.skipBlanks after = char :: rest) (closes : char ∈ [',', ')', '}']) :
    EndsItem after := by
  obtain ⟨gap, blank, whole⟩ := Text.exists_blank_append after
  rw [found] at whole
  exact ⟨gap, char, rest, whole, blank, closes⟩

/-- What is read as an item is one of the grammar, if its value is. -/
theorem item_of_itemOutcome {kind : ListKind} {text after : List Char}
    {item : Option String × Literal} (read : itemOutcome kind text = .ok (item, after))
    (ends : EndsItem after)
    (sound : ∀ valueText literal, valueText.length ≤ text.length →
      literalOutcome valueText = .ok (literal, after) →
      ∃ value, valueText = value ++ after ∧ Value value after literal) :
    ∃ written, text = written ++ after ∧ Item kind written after item := by
  unfold itemOutcome at read
  split at read
  · simp at read
  · next key valueText keyed =>
      split at read
      · simp at read
      · next literal tail readValue =>
          obtain ⟨rfl, rfl⟩ := Prod.mk.inj (Except.ok.inj read)
          cases key with
          | none =>
              obtain rfl := eq_of_readKey_none keyed
              obtain ⟨value, rfl, means⟩ := sound valueText literal (Nat.le_refl _) readValue
              exact ⟨value, rfl, .of_value means ends⟩
          | some key =>
              obtain ⟨content, rfl, written, gap, separator, rfl, keyText, blank, separates⟩ :=
                (readKey_eq_some_iff kind text valueText key).1 keyed
              obtain ⟨value, rfl, means⟩ := sound valueText literal (by simp; omega) readValue
              exact ⟨_, by simp, .keyed keyText blank separates means⟩

mutual

/-- What is read as a value is one of the grammar. -/
theorem value_of_literalOutcome {text after : List Char} {literal : Literal}
    (read : literalOutcome text = .ok (literal, after)) :
    ∃ written, text = written ++ after ∧ Value written after literal := by
  obtain ⟨gap, blank, whole⟩ := Text.exists_blank_append text
  rw [literalOutcome_eq] at read
  split at read
  · next rest skipped =>
      rw [skipped] at whole
      have shorter : rest.length < text.length := by
        rw [whole]
        simp
        omega
      cases found : entriesOutcome rest with
      | error failure => simp [found, Except.map] at read
      | ok entries =>
          rw [found] at read
          obtain ⟨rfl, rfl⟩ := Prod.mk.inj (Except.ok.inj read)
          obtain ⟨body, rfl, listing⟩ := listing_of_entriesOutcome found
          exact ⟨gap ++ '{' :: body, by simp [whole], .array blank listing⟩
  · obtain ⟨written, same, scalar⟩ := scalar_of_readScalar read
    exact ⟨gap ++ written, by rw [List.append_assoc, ← same, ← whole], .scalar blank scalar⟩
termination_by 2 * text.length

/-- What is read as the entries of an array is a list of the grammar. -/
theorem listing_of_entriesOutcome {text after : List Char}
    {entries : List (Option String × Literal)}
    (read : entriesOutcome text = .ok (entries, after)) :
    ∃ body, text = body ++ after ∧ Listing .entries body entries := by
  obtain ⟨gap, blank, whole⟩ := Text.exists_blank_append text
  rw [entriesOutcome_eq] at read
  split at read
  · next rest skipped =>
      obtain ⟨rfl, rfl⟩ := Prod.mk.inj (Except.ok.inj read)
      rw [skipped] at whole
      exact ⟨gap ++ ['}'], by simp [whole], .empty blank⟩
  · split at read
    · simp at read
    · next item tail readItem =>
        have itemFound : ∀ char rest, Text.skipBlanks tail = char :: rest →
            char ∈ [',', ')', '}'] →
            ∃ written, Text.skipBlanks text = written ++ tail ∧
              Item .entries written tail item := by
          intro char rest separated closes
          refine item_of_itemOutcome readItem (.of_skipBlanks separated closes) ?_
          intro valueText literal within readValue
          have bound := Text.length_skipBlanks_le text
          exact value_of_literalOutcome readValue
        obtain ⟨gapAfter, blankAfter, wholeAfter⟩ := Text.exists_blank_append tail
        split at read
        · next rest separated =>
            obtain ⟨written, same, means⟩ := itemFound ',' rest separated (by simp)
            rw [separated] at wholeAfter
            have shorter : rest.length < text.length := by
              rw [whole, same, wholeAfter]
              simp
              omega
            cases found : entriesOutcome rest with
            | error failure => simp [found, Except.map] at read
            | ok others =>
                rw [found] at read
                obtain ⟨rfl, rfl⟩ := Prod.mk.inj (Except.ok.inj read)
                obtain ⟨body, rfl, listing⟩ := listing_of_entriesOutcome found
                refine ⟨gap ++ (written ++ (gapAfter ++ ',' :: body)), ?_,
                  .cons blank blankAfter (means.of_endsItem (.comma blankAfter body)) listing⟩
                rw [whole, same, wholeAfter]
                simp
        · next rest separated =>
            obtain ⟨written, same, means⟩ := itemFound '}' rest separated (by simp)
            rw [separated] at wholeAfter
            obtain ⟨rfl, rfl⟩ := Prod.mk.inj (Except.ok.inj read)
            refine ⟨gap ++ (written ++ (gapAfter ++ ['}'])), ?_,
              .single blank blankAfter (means.of_endsItem (.closer blankAfter .entries []))⟩
            rw [whole, same, wholeAfter]
            simp
        · simp at read
        · simp at read
termination_by 2 * text.length + 1
decreasing_by all_goals omega

end

/-- What is read as the arguments after some others is a list of the grammar whose
items can be added to them. -/
theorem listing_of_argumentsOutcome {known arguments : Arguments} {text after : List Char}
    (read : argumentsOutcome known text = .ok (arguments, after)) :
    ∃ body items, text = body ++ after ∧ Listing .arguments body items ∧
      addItems known items = .ok arguments := by
  obtain ⟨gap, blank, whole⟩ := Text.exists_blank_append text
  rw [argumentsOutcome_eq] at read
  split at read
  · next rest skipped =>
      obtain ⟨rfl, rfl⟩ := Prod.mk.inj (Except.ok.inj read)
      rw [skipped] at whole
      exact ⟨gap ++ [')'], [], by simp [whole], .empty blank, rfl⟩
  · split at read
    · simp at read
    · next item tail readItem =>
        split at read
        · simp at read
        · next grown added =>
            have itemFound : ∀ char rest, Text.skipBlanks tail = char :: rest →
                char ∈ [',', ')', '}'] →
                ∃ written, Text.skipBlanks text = written ++ tail ∧
                  Item .arguments written tail item := by
              intro char rest separated closes
              exact item_of_itemOutcome readItem (.of_skipBlanks separated closes)
                fun valueText literal _ => value_of_literalOutcome
            obtain ⟨gapAfter, blankAfter, wholeAfter⟩ := Text.exists_blank_append tail
            split at read
            · next rest separated =>
                obtain ⟨written, same, means⟩ := itemFound ',' rest separated (by simp)
                rw [separated] at wholeAfter
                have shorter : rest.length < text.length := by
                  rw [whole, same, wholeAfter]
                  simp
                  omega
                obtain ⟨body, others, rfl, listing, addedOthers⟩ :=
                  listing_of_argumentsOutcome read
                refine ⟨gap ++ (written ++ (gapAfter ++ ',' :: body)), item :: others, ?_,
                  .cons blank blankAfter (means.of_endsItem (.comma blankAfter body)) listing,
                  ?_⟩
                · rw [whole, same, wholeAfter]
                  simp
                · rw [addItems_cons, added]
                  exact addedOthers
            · next rest separated =>
                obtain ⟨written, same, means⟩ := itemFound ')' rest separated (by simp)
                rw [separated] at wholeAfter
                obtain ⟨rfl, rfl⟩ := Prod.mk.inj (Except.ok.inj read)
                refine ⟨gap ++ (written ++ (gapAfter ++ [')'])), [item], ?_,
                  .single blank blankAfter
                    (means.of_endsItem (.closer blankAfter .arguments [])), ?_⟩
                · rw [whole, same, wholeAfter]
                  simp
                · rw [addItems_cons, added]
                  rfl
            · simp at read
            · simp at read
termination_by text.length

/-! ## Cursors -/

/-- The arguments of an opening parenthesis are those of the list up to the text that
reading leaves. -/
theorem argumentsOutcome_none_iff (text after : List Char) (arguments : Arguments) :
    argumentsOutcome .none text = .ok (arguments, after) ↔
      ∃ body, text = body ++ after ∧ ArgumentList ('(' :: body) arguments := by
  constructor
  · intro read
    obtain ⟨body, items, whole, listing, added⟩ := listing_of_argumentsOutcome read
    exact ⟨body, whole, body, items, rfl, listing, (addItems_none_iff items arguments).1 added⟩
  · rintro ⟨body, rfl, _, items, same, listing, collects⟩
    obtain rfl := (List.cons.inj same).2
    exact argumentsOutcome_of_listing listing ((addItems_none_iff items arguments).2 collects)
      after

/-- The text between two cursors and the text after the second one are the text after
the first. -/
theorem drop_take_append_drop (text : List Char) {start stop : Nat} (ordered : start ≤ stop) :
    (text.take stop).drop start ++ text.drop stop = text.drop start := by
  rw [List.drop_take]
  conv_rhs => rw [← List.take_append_drop (stop - start) (text.drop start), List.drop_drop]
  rw [show start + (stop - start) = stop by omega]

/-- From a cursor on an opening parenthesis the reader succeeds with some arguments and
stops at another cursor, exactly if the text between the two cursors is an argument list
that stands for these arguments. -/
theorem readArguments_accepts_grammar (text : List Char) (start stop : Nat)
    (arguments : Arguments) (opens : text[start]? = some '(') :
    (∃ reading, readArguments (text.drop (start + 1)) = .ok reading ∧
        reading.value = arguments ∧ reading.rest = text.drop stop) ↔
      ArgumentList ((text.take stop).drop start) arguments := by
  obtain ⟨within, isOpen⟩ := List.getElem?_eq_some_iff.1 opens
  have first : text.drop start = '(' :: text.drop (start + 1) := by
    rw [← isOpen, List.getElem_cons_drop]
  have asOutcome : (∃ reading, readArguments (text.drop (start + 1)) = .ok reading ∧
      reading.value = arguments ∧ reading.rest = text.drop stop) ↔
      argumentsOutcome .none (text.drop (start + 1)) = .ok (arguments, text.drop stop) := by
    unfold argumentsOutcome readArguments
    cases readArgumentsAfter .none (text.drop (start + 1)) with
    | error failure => simp [Except.map]
    | ok reading => simp [Except.map, Text.Reading.outcome]
  rw [asOutcome, argumentsOutcome_none_iff]
  constructor
  · rintro ⟨body, whole, list⟩
    have ordered : start ≤ stop := by
      have lengths := congrArg List.length whole
      simp only [List.length_drop, List.length_append] at lengths
      omega
    have between : (text.take stop).drop start = '(' :: body := by
      apply @List.append_cancel_right _ _ (text.drop stop)
      rw [drop_take_append_drop text ordered, first, whole, List.cons_append]
    rwa [between]
  · rintro ⟨body, items, between, listing, collects⟩
    have ordered : start ≤ stop := by
      have lengths := congrArg List.length between
      simp only [List.length_drop, List.length_take, List.length_cons] at lengths
      omega
    have whole := drop_take_append_drop text ordered
    rw [between, first, List.cons_append] at whole
    exact ⟨body, (List.cons.inj whole).2.symm, body, items, rfl, listing, collects⟩

/-- The list of `@Where(id = 7)` is read, and reading stops at the end of the text. -/
theorem readArguments_accepts_where :
    ∃ reading, readArguments "id = 7)".toList = .ok reading ∧
      reading.value = ⟨[], .ofList [("id", .integer 7)]⟩ ∧ reading.rest = [] := by
  have blank : Blank [' '] := by decide
  have value : Value [' ', '7'] [')'] (.integer 7) :=
    .scalar blank (.number (@Number.integer false ['7'] [')'] (by decide)
      (by decide) (by rintro ⟨_, _, ⟨⟩, ⟨⟩⟩) (by rintro _ ⟨⟩) (by decide)))
  have key : KeyText .arguments "id".toList " = 7)".toList "id".toList :=
    .name ⟨.char (by decide) (.char (by decide) .nil), by
      rintro (⟨_, _, ⟨⟩, ⟨⟩⟩ | ⟨_, ⟨⟩⟩)⟩ ⟨'i', ['d'], rfl, by decide⟩
  have item : Item .arguments "id = 7".toList [')'] (some "id", .integer 7) :=
    @Item.keyed .arguments "id".toList [' '] [' ', '7'] [')'] _ '=' _ key blank (by decide) value
  exact (readArguments_accepts_grammar "@Where(id = 7)".toList 6 14 _ rfl).2
    ⟨_, _, rfl, @Listing.single .arguments [] "id = 7".toList [] _ .nil .nil item,
      by decide, rfl, rfl⟩

end DocblockScan.Docblock.Grammar
