import DocblockScan.Proofs.Docblock.Segmentation

/-!
# Cursors in a text

A cursor is a place in a text, its end included, and a reader that starts there sees the
text that is unread. Each of the readers that take text ends at a later cursor when it
succeeds, `Reads.later`. Looking for the next name ends right after a mark or at the end
of the text: `pastName_of_nextName`, `eq_nil_of_nextName`.
-/

namespace DocblockScan.Docblock

/-- A place in a text, its end included. -/
structure Cursor (text : List Char) where
  position : Nat
  within : position ≤ text.length

namespace Cursor

variable {text : List Char}

/-- The text from a cursor on. -/
def unread (cursor : Cursor text) : List Char :=
  text.drop cursor.position

/-- The character before a cursor. The start of a text has none. -/
def previous (cursor : Cursor text) : Option Char :=
  (text.take cursor.position).getLast?

/-- There is a cursor after every part of the text that comes next. -/
theorem exists_after {cursor : Cursor text} {taken rest : List Char}
    (splits : cursor.unread = taken ++ rest) :
    ∃ stop : Cursor text, stop.position = cursor.position + taken.length ∧
      stop.unread = rest ∧ stop.previous = taken.getLast?.or cursor.previous := by
  have remains : (taken ++ rest).length = text.length - cursor.position := by
    rw [← splits, unread, List.length_drop]
  have within : cursor.position + taken.length ≤ text.length := by
    have reaches := cursor.within
    rw [List.length_append] at remains
    omega
  refine ⟨⟨cursor.position + taken.length, within⟩, rfl, ?_, ?_⟩
  · rw [unread, ← List.drop_drop, ← unread, splits, List.drop_left]
  · rw [previous, List.take_add, ← unread, splits, List.take_left, List.getLast?_append,
      previous]

end Cursor

/-- From a cursor a later one is reached, where some text is unread. -/
def Later {text : List Char} (start : Cursor text) (rest : List Char) : Prop :=
  ∃ stop : Cursor text, start.position < stop.position ∧ stop.unread = rest

/-- A later cursor stands after some characters. -/
theorem later_of_append {text taken rest : List Char} {start : Cursor text}
    (splits : start.unread = taken ++ rest) (some : taken ≠ []) : Later start rest := by
  obtain ⟨stop, position, unread, -⟩ := Cursor.exists_after splits
  have moves := List.length_pos_iff.2 some
  exact ⟨stop, by omega, unread⟩

/-! ## Readers -/

/-- A reader succeeds at the start of a text and leaves another one: the reader of
strings, of numbers, of arrays, of values or of argument lists. -/
inductive Reads : List Char → List Char → Prop where
  | string {text content after : List Char} (read : spanString text = some (content, after)) :
      Reads ('"' :: text) after
  | number {text : List Char} {literal : Literal}
      (read : (spanNumeral text).1.literal? = some literal) : Reads text (spanNumeral text).2
  | array {text : List Char} {entries : Text.Reading (List (Option String × Literal)) text}
      (read : readEntries text = .ok entries) : Reads ('{' :: text) entries.rest
  | value {text : List Char} {literal : Text.Reading Literal text}
      (read : readLiteral text = .ok literal) : Reads text literal.rest
  | arguments {text : List Char} {arguments : Text.Reading Arguments text}
      (read : readArguments text = .ok arguments) : Reads ('(' :: text) arguments.rest

/-- A number that stands for a literal has characters. -/
theorem Numeral.written_ne_nil {numeral : Numeral} {literal : Literal}
    (means : numeral.literal? = some literal) : numeral.written ≠ [] := by
  intro empty
  obtain ⟨⟨-, noWhole⟩, noFraction⟩ : (numeral.negative = false ∧ numeral.whole = []) ∧
      numeral.fraction = none := by
    cases numeral with
    | mk negative whole fraction =>
        cases negative <;> cases fraction <;> simp_all [Numeral.written]
  simp [Numeral.literal?, noWhole, noFraction] at means

/-- A reader that succeeds takes some of the text and leaves the rest of it. -/
theorem Reads.takes {text rest : List Char} (reads : Reads text rest) :
    ∃ taken, taken ≠ [] ∧ text = taken ++ rest := by
  cases reads with
  | @string _ content _ read =>
      obtain ⟨rfl, -⟩ := Grammar.eq_of_spanString read
      exact ⟨Grammar.quoted content, by simp [Grammar.quoted], by simp [Grammar.quoted]⟩
  | number read =>
      exact ⟨_, Numeral.written_ne_nil read, (spanNumeral_append text).symm⟩
  | @array inner entries read =>
      have outcome : Grammar.entriesOutcome inner = .ok (entries.value, entries.rest) := by
        rw [Grammar.entriesOutcome, read]
        rfl
      obtain ⟨body, whole, -⟩ := Grammar.listing_of_entriesOutcome outcome
      exact ⟨'{' :: body, by simp, by rw [List.cons_append, ← whole]⟩
  | @value _ literal read =>
      have outcome : Grammar.literalOutcome text = .ok (literal.value, literal.rest) := by
        rw [Grammar.literalOutcome, read]
        rfl
      obtain ⟨written, whole, value⟩ := Grammar.value_of_literalOutcome outcome
      exact ⟨written, value.ne_nil, whole⟩
  | @arguments inner arguments read =>
      have outcome := (Grammar.argumentsOutcome_eq_ok_iff inner arguments.rest _).2
        ⟨arguments, read, rfl, rfl⟩
      obtain ⟨body, whole, -⟩ := (Grammar.argumentsOutcome_none_iff _ _ _).1 outcome
      exact ⟨'(' :: body, by simp, by rw [List.cons_append, ← whole]⟩

/-- A reader that succeeds at a cursor ends at a later one. -/
theorem Reads.later {text rest : List Char} {start : Cursor text}
    (reads : Reads start.unread rest) : Later start rest := by
  obtain ⟨taken, some, splits⟩ := reads.takes
  exact later_of_append splits some

/-! ## The next name -/

/-- The name of the next mark and the text after it; without a mark what is left is the
end of the text. -/
def nextName (previous : Option Char) : List Char → Option (List Char) × List Char
  | [] => (none, [])
  | char :: rest =>
      if char = '@' ∧ atBreak previous = true ∧ nameFollows rest = true then
        (some (spanName rest).1, (spanName rest).2)
      else nextName (some char) rest

/-- From a cursor a mark is reached, and then the cursor right after its name. -/
def PastName {text : List Char} (start : Cursor text) (written rest : List Char) : Prop :=
  ∃ mark stop : Cursor text, start.position ≤ mark.position ∧
    Mark mark.previous mark.unread written rest ∧
    stop.position = mark.position + 1 + written.length ∧ stop.unread = rest

/-- Where a name is found, some text is passed over before its mark. -/
theorem mark_of_nextName {previous : Option Char} {text written rest : List Char}
    (found : nextName previous text = (some written, rest)) :
    ∃ passed marked, text = passed ++ marked ∧
      Mark (passed.getLast?.or previous) marked written rest := by
  induction text generalizing previous with
  | nil => simp [nextName] at found
  | cons char others inductionHypothesis =>
      rw [nextName] at found
      split at found
      · next marked =>
          obtain ⟨rfl, breaks, follows⟩ := marked
          obtain ⟨named, rfl⟩ := Prod.mk.inj found
          obtain rfl := Option.some.inj named
          exact ⟨[], '@' :: others, rfl, mark_of_follows breaks follows⟩
      · obtain ⟨passed, marked, rfl, mark⟩ := inductionHypothesis found
        refine ⟨char :: passed, marked, rfl, ?_⟩
        have last : (char :: passed).getLast?.or previous =
            passed.getLast?.or (some char) := by
          rw [List.getLast?_cons]
          cases passed.getLast? <;> rfl
        rwa [last]

/-- Where a name is found, the cursor moves past it. -/
theorem pastName_of_nextName {text written rest : List Char} {start : Cursor text}
    (found : nextName start.previous start.unread = (some written, rest)) :
    PastName start written rest := by
  obtain ⟨passed, marked, splits, mark⟩ := mark_of_nextName found
  obtain ⟨place, position, unread, before⟩ := Cursor.exists_after splits
  rw [← unread, ← before] at mark
  have named : place.unread = ('@' :: written) ++ rest := mark.whole
  obtain ⟨stop, stopPosition, stopUnread, -⟩ := Cursor.exists_after named
  refine ⟨place, stop, by omega, mark, ?_, stopUnread⟩
  rw [stopPosition, List.length_cons]
  omega

/-- Where no name is found, the end of the text is reached. -/
theorem eq_nil_of_nextName {previous : Option Char} {text rest : List Char}
    (found : nextName previous text = (none, rest)) : rest = [] := by
  induction text generalizing previous with
  | nil => exact (Prod.mk.inj found).2.symm
  | cons char others inductionHypothesis =>
      rw [nextName] at found
      split at found
      · simp at found
      · exact inductionHypothesis found

end DocblockScan.Docblock
