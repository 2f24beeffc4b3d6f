import DocblockScan.Proofs.Docblock.LoopTurns

/-!
# Reading ends

A value may call for an array, and an array calls for the value of each of its items.
`Calls` says at which texts, and what is read depends on these calls only:
`literalOutcome_determined`, `entryLoop_determined`. Every call goes on at a cursor of the
same text, that of a value in an array at a later one, so that calls are nested only
finitely often, `wellFounded_calls`.

`cursor_discipline` gathers what holds at every cursor of every text: readers that succeed
move on, keys that are not there leave the cursor in its place, and the loops over
arguments, entries and tags end after at most as many turns as characters are unread.
-/

namespace DocblockScan.Docblock

open Iteration
open Grammar

/-! ## Nested readings -/

/-- The reading of a value or of an array, with the text at its start. The text of an
array starts with the opening brace. -/
inductive Call where
  | value (text : List Char)
  | array (text : List Char)

/-- The readings that a reading calls for. A value that starts with a brace is an array.
An array calls for the value of the item in every turn of its loop that does not find the
closing brace, right after the key of the item if it has one. -/
inductive Calls : Call → Call → Prop where
  | array {text rest : List Char} (opens : Text.skipBlanks text = '{' :: rest) :
      Calls (.value text) (.array ('{' :: rest))
  | value {rest unread valueText : List Char} {entries : List (Option String × Literal)}
      {key : Option String}
      (reached : Reaches (listTurn entryRules literalOutcome) ([], rest) (entries, unread))
      (isOpen : (Text.skipBlanks unread).head? ≠ some '}')
      (keyed : spanEntryKey (Text.skipBlanks unread) = .ok (key, valueText)) :
      Calls (.array ('{' :: rest)) (.value valueText)

/-- What reading a value finds and leaves, with a reader of the entries after an opening
brace. -/
def literalOutcomeBy
    (readArray : List Char → Except Failure (List (Option String × Literal) × List Char))
    (text : List Char) : Except Failure (Literal × List Char) :=
  match Text.skipBlanks text with
  | '{' :: rest => (readArray rest).map fun found => (.array found.1, found.2)
  | start => readScalar start

/-- With the reader of entries itself, values are read as ever. -/
theorem literalOutcomeBy_entriesOutcome (text : List Char) :
    literalOutcomeBy entriesOutcome text = literalOutcome text :=
  (literalOutcome_eq text).symm

/-- A value depends on the array that it calls for. -/
theorem literalOutcome_determined
    {readArray : List Char → Except Failure (List (Option String × Literal) × List Char)}
    {text : List Char}
    (same : ∀ rest, Calls (.value text) (.array ('{' :: rest)) →
      readArray rest = entriesOutcome rest) :
    literalOutcomeBy readArray text = literalOutcome text := by
  rw [← literalOutcomeBy_entriesOutcome]
  unfold literalOutcomeBy
  split
  · next rest opens => rw [same rest (.array opens)]
  · rfl

/-- An array depends on the values that it calls for. -/
theorem entryLoop_determined {readValue : ValueReader} {rest : List Char}
    (same : ∀ valueText, Calls (.array ('{' :: rest)) (.value valueText) →
      readValue valueText = literalOutcome valueText) :
    ComesTo (listTurn entryRules readValue) ([], rest) (rest.length + 1)
      (entriesOutcome rest) := by
  refine (entryLoop rest).congr ?_
  rintro ⟨entries, unread⟩ reached
  refine listTurn_congr fun isOpen => ?_
  unfold itemOutcomeBy
  cases keyed : readKey entryRules.kind (Text.skipBlanks unread) with
  | error failure => rfl
  | ok found =>
      obtain ⟨key, valueText⟩ := found
      simp only [same valueText (.value reached isOpen keyed)]

/-- A list hands on an end of its text. -/
theorem suffix_of_reaches {Held : Type} {rules : ListRules Held} {start state : Held × List Char}
    (reached : Reaches (listTurn rules literalOutcome) start state) : state.2 <:+ start.2 := by
  induction reached with
  | refl => exact List.suffix_rfl
  | @tail state next _ goesOn inductionHypothesis =>
      obtain ⟨item, after, read, remains⟩ := exists_item_of_listTurn goesOn
      rw [itemOutcomeBy_literalOutcome] at read
      have skips := (itemOutcome_suffix read).trans (Text.skipBlanks_suffix state.2)
      exact remains.trans ((Text.skipBlanks_suffix after).trans (skips.trans inductionHypothesis))

/-- An array stands in the text of the value that it is. -/
theorem Calls.array_suffix {text inner : List Char} (calls : Calls (.value text) (.array inner)) :
    inner <:+ text := by
  cases calls with
  | array opens => exact opens ▸ Text.skipBlanks_suffix text

/-- A value in an array stands after its opening brace. -/
theorem Calls.exists_of_value {text inner : List Char}
    (calls : Calls (.array text) (.value inner)) : ∃ rest, text = '{' :: rest ∧ inner <:+ rest := by
  cases calls with
  | @value rest unread _ entries key reached isOpen keyed =>
      have item := @readKey_suffix .entries _ _ _ keyed
      exact ⟨rest, rfl, item.trans ((Text.skipBlanks_suffix unread).trans
        (suffix_of_reaches reached))⟩

/-- The characters that are unread at a call; of two calls at one cursor the one for a
value comes first. -/
def Call.size : Call → Nat
  | value text => 2 * text.length + 1
  | array text => 2 * text.length

/-- A call is smaller than the one that calls for it. -/
theorem Calls.size_lt {outer inner : Call} (calls : Calls outer inner) :
    inner.size < outer.size := by
  cases outer with
  | value text =>
      cases inner with
      | value _ => cases calls
      | array arrayText =>
          have within := calls.array_suffix.length_le
          simp only [Call.size]
          omega
  | array text =>
      cases inner with
      | array _ => cases calls
      | value valueText =>
          obtain ⟨rest, rfl, remains⟩ := calls.exists_of_value
          have within := remains.length_le
          simp only [Call.size, List.length_cons]
          omega

/-- There is no endless chain of calls. -/
theorem wellFounded_calls : WellFounded fun inner outer => Calls outer inner :=
  Subrelation.wf Calls.size_lt (measure Call.size).wf

/-! ## What holds at every cursor -/

/-- What the readers do at a cursor. Those that succeed move on, a key that is not there
leaves the cursor in its place, and looking for a name ends right after one or at the end
of the text. -/
structure MovesOn {text : List Char} (start : Cursor text) : Prop where
  reads : ∀ {rest}, Reads start.unread rest → Later start rest
  argumentKey : ∀ {rest}, spanArgumentKey start.unread = (none, rest) → rest = start.unread
  entryKey : ∀ {rest}, spanEntryKey start.unread = .ok (none, rest) → rest = start.unread
  name : ∀ {written rest}, nextName start.previous start.unread = (some written, rest) →
    PastName start written rest
  noName : ∀ {rest}, nextName start.previous start.unread = (none, rest) →
    ∃ stop : Cursor text, stop.position = text.length ∧ stop.unread = rest

/-- What the loops do at a cursor. Each of them ends, on every text, with what its reader
finds and after at most as many turns as characters are unread, the opening one of a list
included. A list that is read takes a character of its own in every turn. -/
structure LoopsEnd (vocabulary : Vocabulary) {text : List Char} (start : Cursor text) : Prop where
  arguments : ∀ {known rest}, start.unread = '(' :: rest →
    ComesTo (listTurn argumentRules literalOutcome) (known, rest) start.unread.length
      (argumentsOutcome known rest)
  entries : ∀ {rest}, start.unread = '{' :: rest →
    ComesTo (listTurn entryRules literalOutcome) ([], rest) start.unread.length
      (entriesOutcome rest)
  tags : ComesTo (tagTurn vocabulary) ⟨[], start.previous, start.unread⟩ start.unread.length
    (readTags vocabulary (atBreak start.previous) start.unread)
  argumentsTake : ∀ {known found turns rest},
    Runs (listTurn argumentRules literalOutcome) (known, start.unread) turns (.ok (found, rest)) →
      turns + rest.length ≤ start.unread.length
  entriesTake : ∀ {known found turns rest},
    Runs (listTurn entryRules literalOutcome) (known, start.unread) turns (.ok (found, rest)) →
      turns + rest.length ≤ start.unread.length

/-- How readings are nested at a cursor. An array that a value calls for stands no earlier
and a value that an array calls for stands later; and other readers, which agree with
these only at the calls, find the same. -/
structure NestsForward {text : List Char} (start : Cursor text) : Prop where
  array : ∀ {inner}, Calls (.value start.unread) (.array inner) →
    ∃ stop : Cursor text, start.position ≤ stop.position ∧ stop.unread = inner
  value : ∀ {inner}, Calls (.array start.unread) (.value inner) → Later start inner
  valueDepends : ∀ {readArray},
    (∀ rest, Calls (.value start.unread) (.array ('{' :: rest)) →
      readArray rest = entriesOutcome rest) →
    literalOutcomeBy readArray start.unread = literalOutcome start.unread
  arrayDepends : ∀ {readValue rest}, start.unread = '{' :: rest →
    (∀ valueText, Calls (.array start.unread) (.value valueText) →
      readValue valueText = literalOutcome valueText) →
    ComesTo (listTurn entryRules readValue) ([], rest) start.unread.length (entriesOutcome rest)

/-- At every cursor the readers move on or stay as they should. -/
theorem movesOn {text : List Char} (start : Cursor text) : MovesOn start where
  reads := Reads.later
  argumentKey absent := @eq_of_readKey_none .arguments _ _ (congrArg Except.ok absent)
  entryKey absent := @eq_of_readKey_none .entries _ _ absent
  name := pastName_of_nextName
  noName absent := by
    refine ⟨⟨text.length, Nat.le_refl _⟩, rfl, ?_⟩
    rw [eq_nil_of_nextName absent, Cursor.unread, List.drop_length]

/-- At every cursor the loops end, and the unread text pays for their turns. -/
theorem loopsEnd (vocabulary : Vocabulary) {text : List Char} (start : Cursor text) :
    LoopsEnd vocabulary start where
  arguments opens := by
    rw [opens, List.length_cons]
    exact argumentLoop _ _
  entries opens := by
    rw [opens, List.length_cons]
    exact entryLoop _
  tags := tagLoop vocabulary start.previous start.unread
  argumentsTake := turns_add_length_le
  entriesTake := turns_add_length_le

/-- At every cursor readings are nested further on. -/
theorem nestsForward {text : List Char} (start : Cursor text) : NestsForward start where
  array calls := by
    obtain ⟨skipped, splits⟩ := calls.array_suffix
    obtain ⟨stop, position, unread, -⟩ := Cursor.exists_after splits.symm
    exact ⟨stop, by omega, unread⟩
  value calls := by
    obtain ⟨rest, opens, skipped, rfl⟩ := calls.exists_of_value
    exact @later_of_append text ('{' :: skipped) _ start opens (by simp)
  valueDepends := literalOutcome_determined
  arrayDepends opens same := by
    rw [opens] at same
    rw [opens, List.length_cons]
    exact entryLoop_determined same

/-- At every cursor of every text, well-formed or not, the readers that succeed move on
within the text, the loops over arguments, entries and tags end after at most as many
turns as characters are unread, and values and arrays are nested only at cursors further
on and so only finitely often. -/
theorem cursor_discipline (vocabulary : Vocabulary) (text : List Char) (start : Cursor text) :
    MovesOn start ∧ LoopsEnd vocabulary start ∧ NestsForward start ∧
      WellFounded fun inner outer => Calls outer inner :=
  ⟨movesOn start, loopsEnd vocabulary start, nestsForward start, wellFounded_calls⟩

/-- The list of `@Get({1, 2` is not closed, and neither is the array in it: the loop over
the arguments stops with the fault of the array. -/
theorem cursor_discipline_unclosed :
    ∃ turns, Runs (listTurn argumentRules literalOutcome) (.none, "\x7b1, 2".toList) turns
      (.error ⟨.unterminatedArray, []⟩) ∧ turns ≤ 6 := by
  have read : argumentsOutcome .none "\x7b1, 2".toList = .error ⟨.unterminatedArray, []⟩ := by
    have one : itemOutcome .entries "1, 2".toList = .ok ((none, .integer 1), ", 2".toList) := by
      simp only [itemOutcome, literalOutcome_eq]
      rfl
    have two : itemOutcome .entries "2".toList = .ok ((none, .integer 2), []) := by
      simp only [itemOutcome, literalOutcome_eq]
      rfl
    have later : entriesOutcome " 2".toList = .error ⟨.unterminatedArray, []⟩ :=
      @entriesOutcome_of_item " 2".toList _ _ two
    have entries : entriesOutcome "1, 2".toList = .error ⟨.unterminatedArray, []⟩ :=
      (@entriesOutcome_of_item "1, 2".toList _ _ one).trans (congrArg (Except.map _) later)
    have value : literalOutcome "\x7b1, 2".toList = .error ⟨.unterminatedArray, []⟩ :=
      (literalOutcome_eq _).trans (congrArg (Except.map _) entries)
    have noKey : readKey .arguments "\x7b1, 2".toList = .ok (none, "\x7b1, 2".toList) := rfl
    refine argumentsOutcome_of_failure (by decide) ?_
    change itemOutcome .arguments "\x7b1, 2".toList = _
    rw [itemOutcome, noKey]
    simp only [value]
  have discipline := cursor_discipline (fun _ => none) "@Get(\x7b1, 2".toList ⟨4, by decide⟩
  have loop := @discipline.2.1.arguments .none "\x7b1, 2".toList rfl
  rw [read] at loop
  obtain ⟨turns, runs⟩ := loop.halts
  exact ⟨turns, runs, (loop.bounded runs).2⟩

/-- A text that ends right after an opening parenthesis takes one turn for it. -/
example : Runs (listTurn argumentRules literalOutcome) (.none, []) 1
    (.error ⟨.missingValue, []⟩) := by
  have value : literalOutcome [] = .error ⟨.missingValue, []⟩ := literalOutcome_eq []
  have noKey : readKey .arguments [] = .ok (none, []) := rfl
  refine .leave (listTurn_of_failure (by decide) ?_)
  change itemOutcome .arguments [] = _
  rw [itemOutcome, noKey]
  simp only [value]

end DocblockScan.Docblock
