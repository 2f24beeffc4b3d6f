import DocblockScan.Proofs.Docblock.ItemContext

/-!
# Lists item by item

A list of the grammar is empty, or an item and the closer, or an item, a comma
and a list: `Listing.step` takes a list apart in this way, and `Listing.single`
and `Listing.cons` put one together. An item may be moved to any other place
where an item ends.
-/

namespace DocblockScan.Docblock.Grammar

open Text (Blank)

/-- Only the two characters after a key matter to it. -/
theorem KeyText.of_take {kind : ListKind} {written after other key : List Char}
    (keyText : KeyText kind written after key) (same : after.take 2 = other.take 2) :
    KeyText kind written other key := by
  have first : ∀ accepts : Char → Bool, StartsWith accepts other → StartsWith accepts after := by
    rintro accepts ⟨char, rest, rfl, accepted⟩
    cases after with
    | nil => simp at same
    | cons found tail =>
        obtain ⟨rfl, -⟩ : found = char ∧ _ := by simpa using same
        exact ⟨found, tail, rfl, accepted⟩
  cases keyText with
  | name name starts =>
      refine .name ⟨name.spelled, ?_⟩ starts
      rintro (accepted | ⟨rest, rfl⟩)
      · exact name.longest (.inl (first _ accepted))
      · match after, same with
        | _ :: _ :: tail, same =>
            obtain ⟨rfl, rfl⟩ : _ = ':' ∧ _ = ':' := by simpa using same
            exact name.longest (.inr ⟨tail, rfl⟩)
  | string longest =>
      refine .string ?_
      intro quote
      obtain ⟨rest, rfl⟩ := List.head?_eq_some_iff.1 quote
      obtain ⟨char, tail, rfl, isQuote⟩ := first (· == '"') ⟨'"', rest, rfl, rfl⟩
      exact longest (by simpa using isQuote)
  | digits someDigits allDigits longest =>
      exact .digits someDigits allDigits fun digit => longest (first _ digit)

/-- A value is not empty. -/
theorem Value.ne_nil {written after : List Char} {literal : Literal}
    (value : Value written after literal) : written ≠ [] := by
  cases value with
  | scalar _ scalar =>
      obtain ⟨char, rest, rfl, -⟩ := scalar.solid
      simp
  | array _ _ => simp

/-- A separator and a value show the two characters after a key, whatever follows
them. -/
theorem take_two_append {gap value : List Char} (separator : Char)
    (someValue : value ≠ []) (after other : List Char) :
    (gap ++ separator :: (value ++ after)).take 2 =
      (gap ++ separator :: (value ++ other)).take 2 := by
  obtain ⟨char, rest, rfl⟩ := List.exists_cons_of_ne_nil someValue
  match gap with
  | [] => simp
  | [first] => simp
  | first :: second :: others => simp

/-- An item is the same wherever an item ends. -/
theorem Item.of_endsItem {kind : ListKind} {written after other : List Char}
    {item : Option String × Literal} (means : Item kind written after item)
    (ends : EndsItem other) : Item kind written other item := by
  cases means with
  | keyed keyText blank separates value =>
      exact .keyed (keyText.of_take (take_two_append _ value.ne_nil after other)) blank separates
        (value.of_endsItem ends)
  | bare _ value => exact .of_value (value.of_endsItem ends) ends

/-- An item and the closer are a list. -/
theorem Listing.single {kind : ListKind} {gap written gapAfter : List Char}
    {item : Option String × Literal} (blank : Blank gap) (blankAfter : Blank gapAfter)
    (means : Item kind written (gapAfter ++ [kind.closer]) item) :
    Listing kind (gap ++ (written ++ (gapAfter ++ [kind.closer]))) [item] :=
  .items blank (.last means ⟨gapAfter, [], [], rfl, blankAfter, .inl rfl, .nil⟩)

/-- An item, a comma and a list are a list; the comma may be the last one. -/
theorem Listing.cons {kind : ListKind} {gap written gapAfter tail : List Char}
    {item : Option String × Literal} {others : List (Option String × Literal)}
    (blank : Blank gap) (blankAfter : Blank gapAfter)
    (means : Item kind written (gapAfter ++ ',' :: tail) item)
    (rest : Listing kind tail others) :
    Listing kind (gap ++ (written ++ (gapAfter ++ ',' :: tail))) (item :: others) := by
  cases rest with
  | @empty _ last blankLast =>
      exact .items blank (.last means
        ⟨gapAfter, [','], last, rfl, blankAfter, .inr rfl, blankLast⟩)
  | items blankBefore listed =>
      exact .items blank (.more means blankAfter blankBefore listed)

/-- A list is empty, or an item and the closer, or an item, a comma and a list. -/
theorem Listing.step {kind : ListKind} {text : List Char}
    {items : List (Option String × Literal)} (listing : Listing kind text items) :
    (∃ gap, text = gap ++ [kind.closer] ∧ Blank gap ∧ items = []) ∨
    (∃ gap written gapAfter item, text = gap ++ (written ++ (gapAfter ++ [kind.closer])) ∧
      Blank gap ∧ Blank gapAfter ∧ Item kind written (gapAfter ++ [kind.closer]) item ∧
      items = [item]) ∨
    (∃ gap written gapAfter tail item others,
      text = gap ++ (written ++ (gapAfter ++ ',' :: tail)) ∧ Blank gap ∧ Blank gapAfter ∧
      Item kind written (gapAfter ++ ',' :: tail) item ∧ Listing kind tail others ∧
      items = item :: others) := by
  cases listing with
  | @empty _ gap blank => exact .inl ⟨gap, rfl, blank, rfl⟩
  | @items _ gap _ _ blank listed =>
      cases listed with
      | @last _ written _ item means closes =>
          obtain ⟨gapBefore, comma, gapAfter, rfl, blankBefore, optional, blankAfter⟩ := closes
          rcases optional with rfl | rfl
          · refine .inr (.inl ⟨gap, written, gapBefore ++ gapAfter, item, by simp, blank,
              blankBefore.append blankAfter, ?_, rfl⟩)
            simpa using means
          · exact .inr (.inr ⟨gap, written, gapBefore, _, item, [], rfl, blank, blankBefore,
              means, .empty blankAfter, rfl⟩)
      | @more _ written gapBefore gapAfter tail item others means blankBefore blankAfter rest =>
          exact .inr (.inr ⟨gap, written, gapBefore, _, item, others, rfl, blank, blankBefore,
            means, .items blankAfter rest, rfl⟩)

end DocblockScan.Docblock.Grammar
