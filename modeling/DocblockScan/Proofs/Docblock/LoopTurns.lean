import DocblockScan.Proofs.Docblock.Cursors
import DocblockScan.Proofs.Docblock.Remainders
import DocblockScan.Proofs.Iteration

/-!
# Lists and tags turn by turn

The readers of lists and of tags are recursions. Here they are told as loops: `listTurn`
reads one item of a list and the comma after it, and a closer after an item is left to
the next turn; `tagTurn` looks up the next name. The loops come to what the readers
find, and the unread text pays for their turns: `argumentLoop`, `entryLoop`, `tagLoop`.
-/

namespace DocblockScan.Docblock

open Iteration

namespace Grammar

/-! ## A turn of a list -/

/-- A reader of values: what it finds at the start of a text, and what it leaves. -/
abbrev ValueReader : Type :=
  List Char → Except Failure (Literal × List Char)

/-- What reading an item finds and leaves, with a reader of values. -/
def itemOutcomeBy (readValue : ValueReader) (kind : ListKind) (text : List Char) :
    Except Failure ((Option String × Literal) × List Char) :=
  match readKey kind text with
  | .error failure => .error failure
  | .ok (key, valueText) =>
      match readValue valueText with
      | .error failure => .error failure
      | .ok (literal, after) => .ok ((key, literal), after)

/-- With the reader of values itself, items are read as ever. -/
theorem itemOutcomeBy_literalOutcome : itemOutcomeBy literalOutcome = itemOutcome :=
  rfl

/-- What a list does with an item, and its fault where it does not end. -/
structure ListRules (Held : Type) where
  kind : ListKind
  add : Held → Option String × Literal → Except Fault Held
  unended : Fault

/-- An argument is added to those before it. -/
def argumentRules : ListRules Arguments where
  kind := .arguments
  add known item := Arguments.add? known item.1 item.2
  unended := .unterminatedArguments

/-- An entry of an array stands after those before it. -/
def entryRules : ListRules (List (Option String × Literal)) where
  kind := .entries
  add entries item := .ok (entries ++ [item])
  unended := .unterminatedArray

variable {Held : Type} {rules : ListRules Held} {readValue : ValueReader}
variable {held grown : Held} {text after rest : List Char} {item : Option String × Literal}

/-- A turn of the loop over a list: the closer is taken, or an item and the comma after
it. -/
def listTurn (rules : ListRules Held) (readValue : ValueReader) (state : Held × List Char) :
    Turn (Held × List Char) (Except Failure (Held × List Char)) :=
  let unread := Text.skipBlanks state.2
  if unread.head? = some rules.kind.closer then .leave (.ok (state.1, unread.tail))
  else
    match itemOutcomeBy readValue rules.kind unread with
    | .error failure => .leave (.error failure)
    | .ok (item, after) =>
        match rules.add state.1 item with
        | .error fault => .leave (.error ⟨fault, after⟩)
        | .ok grown =>
            match Text.skipBlanks after with
            | [] => .leave (.error ⟨rules.unended, []⟩)
            | found :: rest =>
                if found = ',' then .again (grown, rest)
                else if found = rules.kind.closer then .again (grown, found :: rest)
                else .leave (.error ⟨.expectedSeparator rules.kind.closer found, found :: rest⟩)

/-- At its closer a list is left. -/
theorem listTurn_closed (readValue : ValueReader) (held : Held)
    (closed : Text.skipBlanks text = rules.kind.closer :: rest) :
    listTurn rules readValue (held, text) = .leave (.ok (held, rest)) := by
  simp [listTurn, closed]

/-- A list in which no item is read is left with the failure. -/
theorem listTurn_of_failure {failure : Failure}
    (isOpen : (Text.skipBlanks text).head? ≠ some rules.kind.closer)
    (fails : itemOutcomeBy readValue rules.kind (Text.skipBlanks text) = .error failure) :
    listTurn rules readValue (held, text) = .leave (.error failure) := by
  simp [listTurn, isOpen, fails]

/-- A list that does not take an item is left with a fault at the text after it. -/
theorem listTurn_of_refused {fault : Fault}
    (isOpen : (Text.skipBlanks text).head? ≠ some rules.kind.closer)
    (read : itemOutcomeBy readValue rules.kind (Text.skipBlanks text) = .ok (item, after))
    (refused : rules.add held item = .error fault) :
    listTurn rules readValue (held, text) = .leave (.error ⟨fault, after⟩) := by
  simp [listTurn, isOpen, read, refused]

/-- After an item a list goes on at a comma, which is taken, and at the closer. -/
theorem listTurn_of_item
    (isOpen : (Text.skipBlanks text).head? ≠ some rules.kind.closer)
    (read : itemOutcomeBy readValue rules.kind (Text.skipBlanks text) = .ok (item, after))
    (added : rules.add held item = .ok grown) :
    listTurn rules readValue (held, text) =
      match Text.skipBlanks after with
      | [] => .leave (.error ⟨rules.unended, []⟩)
      | found :: rest =>
          if found = ',' then .again (grown, rest)
          else if found = rules.kind.closer then .again (grown, found :: rest)
          else .leave (.error ⟨.expectedSeparator rules.kind.closer found, found :: rest⟩) := by
  simp [listTurn, isOpen, read, added]

/-- A turn depends on the item that it reads. -/
theorem listTurn_congr {other : ValueReader}
    (same : (Text.skipBlanks text).head? ≠ some rules.kind.closer →
      itemOutcomeBy readValue rules.kind (Text.skipBlanks text) =
        itemOutcomeBy other rules.kind (Text.skipBlanks text)) :
    listTurn rules readValue (held, text) = listTurn rules other (held, text) := by
  unfold listTurn
  dsimp only
  split
  · rfl
  · next isOpen => rw [same isOpen]

/-- What a turn of a list can do: find the closer and leave with what is held, leave with a
failure, or take an item and hand on a text that stands after it. -/
theorem listTurn_cases (rules : ListRules Held) (readValue : ValueReader) (held : Held)
    (text : List Char) :
    (∃ rest, Text.skipBlanks text = rules.kind.closer :: rest ∧
      listTurn rules readValue (held, text) = .leave (.ok (held, rest))) ∨
    (∃ failure, listTurn rules readValue (held, text) = .leave (.error failure)) ∨
    ∃ item after grown rest,
      itemOutcomeBy readValue rules.kind (Text.skipBlanks text) = .ok (item, after) ∧
      rules.add held item = .ok grown ∧ rest <:+ Text.skipBlanks after ∧
      listTurn rules readValue (held, text) = .again (grown, rest) := by
  by_cases closed : (Text.skipBlanks text).head? = some rules.kind.closer
  · obtain ⟨rest, skipped⟩ := List.head?_eq_some_iff.1 closed
    exact .inl ⟨rest, skipped, listTurn_closed readValue held skipped⟩
  refine .inr ?_
  cases read : itemOutcomeBy readValue rules.kind (Text.skipBlanks text) with
  | error failure => exact .inl ⟨failure, listTurn_of_failure closed read⟩
  | ok found =>
      obtain ⟨item, after⟩ := found
      cases added : rules.add held item with
      | error fault => exact .inl ⟨_, listTurn_of_refused closed read added⟩
      | ok grown =>
          rw [listTurn_of_item closed read added]
          cases separated : Text.skipBlanks after with
          | nil => exact .inl ⟨_, rfl⟩
          | cons found rest =>
              dsimp only
              by_cases comma : found = ','
              · rw [if_pos comma]
                exact .inr ⟨item, after, grown, rest, rfl, added, separated ▸ List.suffix_cons _ _,
                  rfl⟩
              rw [if_neg comma]
              by_cases closer : found = rules.kind.closer
              · rw [if_pos closer]
                exact .inr ⟨item, after, grown, _, rfl, added, separated ▸ List.suffix_rfl, rfl⟩
              · rw [if_neg closer]
                exact .inl ⟨_, rfl⟩

/-- A list goes on only from right after an item. -/
theorem exists_item_of_listTurn {next : Held × List Char}
    (goesOn : listTurn rules readValue (held, text) = .again next) :
    ∃ item after, itemOutcomeBy readValue rules.kind (Text.skipBlanks text) = .ok (item, after) ∧
      next.2 <:+ Text.skipBlanks after := by
  rcases listTurn_cases rules readValue held text with
    ⟨rest, -, leaves⟩ | ⟨failure, leaves⟩ | ⟨item, after, grown, rest, read, -, remains, again⟩
  · simp [leaves] at goesOn
  · simp [leaves] at goesOn
  · obtain rfl := Turn.again.inj (again.symm.trans goesOn)
    exact ⟨item, after, read, remains⟩

/-! ## The text pays for the turns of a list -/

/-- What follows an item is shorter than the text of the item. -/
theorem length_itemOutcome_lt {kind : ListKind}
    (read : itemOutcome kind text = .ok (item, rest)) : rest.length < text.length := by
  unfold itemOutcome at read
  split at read
  · simp at read
  next key valueText keyed =>
  split at read
  · simp at read
  next literal left readValue =>
  obtain ⟨-, rfl⟩ := Prod.mk.inj (Except.ok.inj read)
  obtain ⟨written, rfl, value⟩ := value_of_literalOutcome readValue
  have within := (readKey_suffix keyed).length_le
  have taken := List.length_pos_iff.2 value.ne_nil
  rw [List.length_append] at within
  omega

/-- The characters that a list leaves unread, and one more for the place it stops at. A
failure leaves nothing. -/
def leftOver {Held : Type} : Except Failure (Held × List Char) → Nat
  | .ok (_, rest) => rest.length + 1
  | .error _ => 0

/-- Every turn of a list takes a character; a last one that fails may stand at the end of
the text, and the opening character pays for it. -/
theorem listTurn_descends (rules : ListRules Held) :
    Descends (listTurn rules literalOutcome) (fun state => state.2.length + 1) leftOver where
  stop := by
    rintro ⟨held, text⟩ result stops
    rcases listTurn_cases rules literalOutcome held text with
      ⟨_, -, turn⟩ | ⟨_, turn⟩ | ⟨_, _, _, _, -, -, -, turn⟩ <;> simp [turn] at stops
  leave := by
    rintro ⟨held, text⟩ result leaves
    rcases listTurn_cases rules literalOutcome held text with
      ⟨rest, closed, turn⟩ | ⟨failure, turn⟩ | ⟨_, _, _, _, -, -, -, turn⟩
    · obtain rfl := Turn.leave.inj (turn.symm.trans leaves)
      have bound := Text.length_skipBlanks_le text
      rw [closed, List.length_cons] at bound
      exact Nat.succ_lt_succ bound
    · obtain rfl := Turn.leave.inj (turn.symm.trans leaves)
      exact Nat.succ_pos _
    · simp [turn] at leaves
  again := by
    rintro ⟨held, text⟩ ⟨grown, rest⟩ goesOn
    obtain ⟨item, after, read, remains⟩ := exists_item_of_listTurn goesOn
    rw [itemOutcomeBy_literalOutcome] at read
    have taken := length_itemOutcome_lt read
    have bound := Text.length_skipBlanks_le text
    have left := remains.length_le.trans (Text.length_skipBlanks_le after)
    dsimp only at left ⊢
    omega

/-! ## Lists are read by their loops -/

/-- Arguments are read as the turn says. -/
theorem argumentsOutcome_follows (known : Arguments) (text : List Char) :
    argumentsOutcome known text = (listTurn argumentRules literalOutcome (known, text)).answer
      fun state => argumentsOutcome state.1 state.2 := by
  -- The reader closes the list right after an item, the loop does so in one more turn.
  have closes : ∀ known rest, argumentsOutcome known (')' :: rest) = .ok (known, rest) := by
    intro known rest
    rw [argumentsOutcome_eq, Text.skipBlanks_cons (by decide)]
    rfl
  by_cases closed : (Text.skipBlanks text).head? = some argumentRules.kind.closer
  · obtain ⟨rest, skipped⟩ := List.head?_eq_some_iff.1 closed
    rw [listTurn_closed literalOutcome known skipped, argumentsOutcome_eq, skipped]
    rfl
  cases read : itemOutcome .arguments (Text.skipBlanks text) with
  | error failure =>
      rw [listTurn_of_failure closed read, argumentsOutcome_of_failure closed read]
      rfl
  | ok found =>
      obtain ⟨item, after⟩ := found
      cases added : Arguments.add? known item.1 item.2 with
      | error fault =>
          rw [listTurn_of_refused closed read added, argumentsOutcome_of_refused read added]
          rfl
      | ok grown =>
          rw [listTurn_of_item closed read added, argumentsOutcome_of_item read added]
          cases separated : Text.skipBlanks after with
          | nil => rfl
          | cons found rest =>
              by_cases comma : found = ','
              · subst comma
                rfl
              by_cases closer : found = argumentRules.kind.closer
              · obtain rfl : found = ')' := closer
                exact (closes grown rest).symm
              · dsimp only
                rw [if_neg comma, if_neg closer]
                split <;> simp_all [Turn.answer, argumentRules, ListKind.closer]

/-- What reading the entries after some others finds and leaves. -/
def entriesOutcomeAfter (entries : List (Option String × Literal)) (text : List Char) :
    Except Failure (List (Option String × Literal) × List Char) :=
  (entriesOutcome text).map fun found => (entries ++ found.1, found.2)

/-- Entries are read as the turn says. -/
theorem entriesOutcomeAfter_follows (entries : List (Option String × Literal))
    (text : List Char) :
    entriesOutcomeAfter entries text =
      (listTurn entryRules literalOutcome (entries, text)).answer
        fun state => entriesOutcomeAfter state.1 state.2 := by
  have closes : ∀ entries rest, entriesOutcomeAfter entries ('}' :: rest) = .ok (entries, rest) := by
    intro entries rest
    rw [entriesOutcomeAfter, entriesOutcome_eq, Text.skipBlanks_cons (by decide)]
    simp [Except.map]
  by_cases closed : (Text.skipBlanks text).head? = some entryRules.kind.closer
  · obtain ⟨rest, skipped⟩ := List.head?_eq_some_iff.1 closed
    rw [listTurn_closed literalOutcome entries skipped, entriesOutcomeAfter, entriesOutcome_eq,
      skipped]
    simp [entryRules, ListKind.closer, Except.map, Turn.answer]
  cases read : itemOutcome .entries (Text.skipBlanks text) with
  | error failure =>
      rw [listTurn_of_failure closed read, entriesOutcomeAfter,
        entriesOutcome_of_failure closed read]
      rfl
  | ok found =>
      obtain ⟨item, after⟩ := found
      rw [listTurn_of_item closed read rfl, entriesOutcomeAfter, entriesOutcome_of_item read]
      cases separated : Text.skipBlanks after with
      | nil => rfl
      | cons found rest =>
          by_cases comma : found = ','
          · subst comma
            simp only [if_true, Turn.answer, entriesOutcomeAfter]
            cases entriesOutcome rest <;> simp [Except.map]
          by_cases closer : found = entryRules.kind.closer
          · obtain rfl : found = '}' := closer
            exact (closes (entries ++ [item]) rest).symm
          · dsimp only
            rw [if_neg comma, if_neg closer]
            split <;> simp_all [Turn.answer, entryRules, ListKind.closer, Except.map]

/-- Entries that come first are those that are found. -/
theorem entriesOutcomeAfter_nil (text : List Char) :
    entriesOutcomeAfter [] text = entriesOutcome text := by
  unfold entriesOutcomeAfter
  cases entriesOutcome text <;> simp [Except.map]

/-- The loop over arguments comes to what reading them finds, in at most as many turns as
there are characters unread with the opening parenthesis. -/
theorem argumentLoop (known : Arguments) (text : List Char) :
    ComesTo (listTurn argumentRules literalOutcome) (known, text) (text.length + 1)
      (argumentsOutcome known text) :=
  (listTurn_descends argumentRules).comesTo
    (fun state => argumentsOutcome_follows state.1 state.2) (known, text)

/-- The loop over the entries of an array comes to what reading them finds, in at most as
many turns as there are characters unread with the opening brace. -/
theorem entryLoop (text : List Char) :
    ComesTo (listTurn entryRules literalOutcome) ([], text) (text.length + 1)
      (entriesOutcome text) := by
  rw [← entriesOutcomeAfter_nil]
  exact (listTurn_descends entryRules).comesTo
    (fun state => entriesOutcomeAfter_follows state.1 state.2) ([], text)

/-- A list that is read takes a character of its own in every turn. -/
theorem turns_add_length_le {turns : Nat}
    (runs : Runs (listTurn rules literalOutcome) (held, text) turns (.ok (grown, rest))) :
    turns + rest.length ≤ text.length := by
  have paid := (listTurn_descends rules).turns_add_le runs
  simp only [leftOver] at paid
  omega

end Grammar

/-! ## A turn of the tags -/

/-- The tags found so far, the character before the unread text, and that text. -/
structure TagScan where
  tags : List Tag
  previous : Option Char
  unread : List Char

/-- What a name takes: its tag if it is known, the character before what is left, and what
is left. The list of a known name is read. -/
def takeTag (vocabulary : Vocabulary) (written after : List Char) :
    Except Failure (Option Tag × Option Char × List Char) :=
  match vocabulary (.ofList written) with
  | none => .ok (none, written.getLast?, after)
  | some (name, kind) =>
      if (Text.skipBlanks after).head? = some '(' then
        (Grammar.argumentsOutcome .none (Text.skipBlanks after).tail).map fun found =>
          (some ⟨name, kind, found.1⟩, some ')', found.2)
      else .ok (some ⟨name, kind, .none⟩, written.getLast?, after)

/-- A turn of the loop over the tags of a text: the next name takes its tag. The loop stops
where there is no name. -/
def tagTurn (vocabulary : Vocabulary) (scan : TagScan) :
    Turn TagScan (Except Failure (List Tag)) :=
  match nextName scan.previous scan.unread with
  | (none, _) => .stop (.ok scan.tags)
  | (some written, after) =>
      match takeTag vocabulary written after with
      | .error failure => .leave (.error failure)
      | .ok (tag?, previous, rest) => .again ⟨scan.tags ++ tag?.toList, previous, rest⟩

/-- The tags of a text are those after the next name. -/
theorem readTags_eq_nextName (vocabulary : Vocabulary) (previous : Option Char)
    (text : List Char) :
    readTags vocabulary (atBreak previous) text =
      match nextName previous text with
      | (none, _) => .ok []
      | (some written, after) =>
          readTagsAfter vocabulary after (vocabulary (.ofList written)) := by
  induction text generalizing previous with
  | nil => rw [readTags, nextName]
  | cons char rest inductionHypothesis =>
      by_cases marked : char = '@' ∧ atBreak previous = true ∧ nameFollows rest = true
      · rw [nextName, if_pos marked]
        obtain ⟨rfl, breaks, follows⟩ := marked
        rw [breaks, readTags_mark vocabulary follows]
      · rw [nextName, if_neg marked, readTags, dif_neg marked]
        exact inductionHypothesis (some char)

/-- After a name the tags are its own and those of the text that is left. No mark stands
right after a name or a closing parenthesis. -/
theorem readTagsAfter_eq_takeTag (vocabulary : Vocabulary) {written : List Char}
    (named : Grammar.NameText written) (some : written ≠ []) (after : List Char) :
    readTagsAfter vocabulary after (vocabulary (.ofList written)) =
      match takeTag vocabulary written after with
      | .error failure => .error failure
      | .ok (tag?, previous, rest) =>
          (readTags vocabulary (atBreak previous) rest).map (tag?.toList ++ ·) := by
  have noBreak := atBreak_of_nameText named some
  have noBreakAfter : atBreak (Option.some ')') = false := by decide
  rw [takeTag]
  cases vocabulary (.ofList written) with
  | none =>
      simp only [readTagsAfter, noBreak]
      cases readTags vocabulary false after <;> rfl
  | some known =>
      obtain ⟨name, kind⟩ := known
      dsimp only
      by_cases opens : (Text.skipBlanks after).head? = Option.some '('
      · obtain ⟨inner, skipped⟩ := List.head?_eq_some_iff.1 opens
        rw [if_pos opens, skipped, List.tail_cons]
        simp only [readTagsAfter, skipped, Grammar.argumentsOutcome, readArguments]
        cases readArgumentsAfter .none inner with
        | error failure => rfl
        | ok arguments =>
            show _ = (readTags vocabulary (atBreak (Option.some ')')) arguments.rest).map _
            rw [noBreakAfter]
            rfl
      · rw [if_neg opens, readTagsAfter]
        dsimp only
        rw [noBreak]
        split
        · next inner skipped => exact absurd (by rw [skipped]; rfl) opens
        · rfl

/-- What a name leaves is no longer than the text after it. -/
theorem length_takeTag_le {vocabulary : Vocabulary} {written after rest : List Char}
    {tag? : Option Tag} {previous : Option Char}
    (taken : takeTag vocabulary written after = .ok (tag?, previous, rest)) :
    rest.length ≤ after.length := by
  rw [takeTag] at taken
  split at taken
  · obtain ⟨-, -, rfl⟩ : none = tag? ∧ written.getLast? = previous ∧ after = rest := by
      simpa using taken
    exact Nat.le_refl _
  split at taken
  · next name kind known opens =>
      obtain ⟨inner, skipped⟩ := List.head?_eq_some_iff.1 opens
      rw [skipped, List.tail_cons] at taken
      cases read : Grammar.argumentsOutcome .none inner with
      | error failure => simp [read, Except.map] at taken
      | ok found =>
          obtain ⟨arguments, left⟩ := found
          obtain ⟨-, -, rfl⟩ : some ⟨name, kind, arguments⟩ = tag? ∧ some ')' = previous ∧
              left = rest := by
            simpa [read, Except.map] using taken
          obtain ⟨body, rfl, -⟩ := (Grammar.argumentsOutcome_none_iff _ _ _).1 read
          have within := (Grammar.suffix_of_skipBlanks skipped).length_le
          rw [List.length_append] at within
          omega
  · obtain ⟨-, -, rfl⟩ : _ = tag? ∧ written.getLast? = previous ∧ after = rest := by
      simpa using taken
    exact Nat.le_refl _

/-! ## The text pays for the turns of the tags -/

/-- Every turn of the tags takes a name and the at sign before it. -/
theorem tagTurn_descends (vocabulary : Vocabulary) :
    Descends (tagTurn vocabulary) (fun scan => scan.unread.length) (fun _ => 0) where
  stop _ := Nat.zero_le _
  leave := by
    rintro ⟨tags, previous, text⟩ result leaves
    cases text with
    | nil => simp [tagTurn, nextName] at leaves
    | cons char rest => simp
  again := by
    rintro ⟨tags, previous, text⟩ next goesOn
    rw [tagTurn] at goesOn
    split at goesOn
    · simp at goesOn
    next written after found =>
    obtain ⟨passed, marked, rfl, mark⟩ := mark_of_nextName found
    split at goesOn
    · simp at goesOn
    next tag? last rest taken =>
    obtain rfl := Turn.again.inj goesOn
    have within := mark.shorter
    have left := length_takeTag_le taken
    simp only [List.length_append]
    omega

/-! ## Tags are read by their loop -/

/-- What reading the tags after some others finds. -/
def tagsOutcomeAfter (vocabulary : Vocabulary) (scan : TagScan) : Except Failure (List Tag) :=
  (readTags vocabulary (atBreak scan.previous) scan.unread).map (scan.tags ++ ·)

/-- Tags are read as the turn says. -/
theorem tagsOutcomeAfter_follows (vocabulary : Vocabulary) (scan : TagScan) :
    tagsOutcomeAfter vocabulary scan =
      (tagTurn vocabulary scan).answer (tagsOutcomeAfter vocabulary) := by
  obtain ⟨tags, previous, text⟩ := scan
  rw [tagsOutcomeAfter, readTags_eq_nextName, tagTurn]
  dsimp only
  rcases found : nextName previous text with ⟨_ | written, after⟩
  · simp [Except.map, Turn.answer]
  obtain ⟨passed, marked, rfl, mark⟩ := mark_of_nextName found
  obtain ⟨first, others, rfl, -⟩ := mark.starts
  dsimp only
  rw [readTagsAfter_eq_takeTag vocabulary mark.name.spelled (by simp)]
  rcases takeTag vocabulary (first :: others) after with failure | ⟨tag?, last, rest⟩
  · rfl
  · simp only [Turn.answer, tagsOutcomeAfter]
    cases readTags vocabulary (atBreak last) rest <;> simp [Except.map]

/-- The loop over the tags of a text comes to what reading them finds, in at most as many
turns as there are characters unread. -/
theorem tagLoop (vocabulary : Vocabulary) (previous : Option Char) (text : List Char) :
    ComesTo (tagTurn vocabulary) ⟨[], previous, text⟩ text.length
      (readTags vocabulary (atBreak previous) text) := by
  have found : tagsOutcomeAfter vocabulary ⟨[], previous, text⟩ =
      readTags vocabulary (atBreak previous) text := by
    unfold tagsOutcomeAfter
    cases readTags vocabulary (atBreak previous) text <;> simp [Except.map]
  rw [← found]
  exact (tagTurn_descends vocabulary).comesTo (tagsOutcomeAfter_follows vocabulary)
    ⟨[], previous, text⟩

end DocblockScan.Docblock
