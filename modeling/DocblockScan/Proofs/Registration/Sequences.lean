import DocblockScan.Proofs.Registration.Reader
import DocblockScan.Proofs.Text.Blank

/-!
# Sequences in generated files

Two ways in which a generated file lists things: items with commas between them, up to a
closing bracket, and statements one after the other, up to the end. Each is read by a
general reader here and read back from what is written, if the reader of a single item
reads each item back: `readListed_intercalate`, `readSequence_intercalate`.
-/

namespace DocblockScan.Registration

/-! ## Spaces -/

/-- A text of nothing but spaces. -/
def Spaces (gap : List Char) : Prop :=
  ∀ char ∈ gap, isSpace char = true

instance (gap : List Char) : Decidable (Spaces gap) :=
  decidable_of_iff (gap.all isSpace = true) List.all_eq_true

theorem Spaces.append {front back : List Char} (first : Spaces front) (second : Spaces back) :
    Spaces (front ++ back) :=
  fun char member => (List.mem_append.1 member).elim (first char) (second char)

theorem skipSpaces_append {gap : List Char} (spaces : Spaces gap) (text : List Char) :
    skipSpaces (gap ++ text) = skipSpaces text :=
  List.dropWhile_append_of_pos spaces

/-! ## Lists up to a closing bracket -/

/-- The items of a list whose opening bracket has been read, up to and with its closing
bracket. A comma may follow the last item. -/
def readListed {Item : Type} (closer : Char)
    (readItem : List Char → Option (Item × List Char)) (text : List Char) :
    Option (List Item × List Char) :=
  if (skipSpaces text).head? = some closer then some ([], (skipSpaces text).tail)
  else
    match readItem (skipSpaces text) with
    | none => none
    | some (item, after) =>
        match skipSpaces after with
        | ',' :: rest =>
            if rest.length < text.length then
              (readListed closer readItem rest).map fun found => (item :: found.1, found.2)
            else none
        | last => if last.head? = some closer then some ([item], last.tail) else none
termination_by text.length

/-- A text that does not start with a character has another head, or none. -/
theorem head?_ne_of_not_cons {text : List Char} {mark : Char}
    (other : ∀ rest, text = mark :: rest → False) : text.head? ≠ some mark := by
  intro starts
  obtain ⟨rest, same⟩ := List.head?_eq_some_iff.1 starts
  exact other rest same

/-- Arrays in brackets are lists up to their bracket. -/
theorem readItems_eq_readListed {Item : Type} (readItem : List Char → Option (Item × List Char))
    (text : List Char) : readItems readItem text = readListed ']' readItem text := by
  fun_induction readItems readItem text with
  | case1 text rest closes =>
      rw [readListed, closes]
      rfl
  | case2 text opens unread =>
      rw [readListed, if_neg (head?_ne_of_not_cons opens), unread]
  | case3 text item after rest comma shorter opens read inductionHypothesis =>
      rw [readListed, if_neg (head?_ne_of_not_cons opens), read, inductionHypothesis]
      simp only [comma, if_pos shorter]
  | case4 text item after rest comma longer opens read =>
      rw [readListed, if_neg (head?_ne_of_not_cons opens), read]
      simp only [comma, if_neg longer]
  | case5 text item after rest closes opens read =>
      rw [readListed, if_neg (head?_ne_of_not_cons opens), read]
      simp [closes]
  | case6 text item after =>
      have opens : ∀ rest, skipSpaces text = ']' :: rest → False := by assumption
      have read : readItem (skipSpaces text) = some (item, after) := by assumption
      have noComma : ∀ rest, skipSpaces after = ',' :: rest → False := by assumption
      have unclosed : ∀ rest, skipSpaces after = ']' :: rest → False := by assumption
      rw [readListed, if_neg (head?_ne_of_not_cons opens), read]
      dsimp only
      split
      · next rest comma => exact (noComma rest comma).elim
      · rw [if_neg (head?_ne_of_not_cons unclosed)]

/-- A bracket that closes a list: it is neither a space nor a comma nor a quote. -/
def Closes (closer : Char) : Prop :=
  isSpace closer = false ∧ closer ≠ ',' ∧ closer ≠ '\''

instance (closer : Char) : Decidable (Closes closer) :=
  inferInstanceAs (Decidable (_ ∧ _))

/-- An item of a list is read from its text, if its text starts with a quote and a comma or
the closing bracket stands after it. -/
def ReadsListed {Item : Type} (closer : Char) (readItem : List Char → Option (Item × List Char))
    (written : List Char) (item : Item) : Prop :=
  (∃ rest, written = '\'' :: rest) ∧
    ∀ after, (∃ rest, after = ',' :: rest ∨ after = closer :: rest) →
      readItem (written ++ after) = some (item, after)

section Listed

variable {Item : Type} {closer : Char} {readItem : List Char → Option (Item × List Char)}

theorem skipSpaces_closer (closes : Closes closer) (after : List Char) :
    skipSpaces (closer :: after) = closer :: after :=
  List.dropWhile_cons_of_neg (by simp [closes.1])

/-- The closing bracket ends a list. -/
theorem readListed_closer {gap : List Char} (closes : Closes closer) (spaces : Spaces gap)
    (after : List Char) : readListed closer readItem (gap ++ closer :: after) = some ([], after) := by
  rw [readListed, skipSpaces_append spaces, skipSpaces_closer closes]
  exact if_pos rfl

/-- An item is the last one, if the closing bracket follows. -/
theorem readListed_last {gap written : List Char} {item : Item} (closes : Closes closer)
    (spaces : Spaces gap) (reads : ReadsListed closer readItem written item) (after : List Char) :
    readListed closer readItem (gap ++ (written ++ closer :: after)) = some ([item], after) := by
  obtain ⟨⟨rest, rfl⟩, found⟩ := reads
  have start : skipSpaces ('\'' :: rest ++ closer :: after) = '\'' :: rest ++ closer :: after := rfl
  have opens : ('\'' :: rest ++ closer :: after).head? ≠ some closer :=
    fun same => closes.2.2 (Option.some.inj same).symm
  rw [readListed, skipSpaces_append spaces, start, if_neg opens, found _ ⟨after, .inr rfl⟩]
  dsimp only
  rw [skipSpaces_closer closes]
  split
  · next same => exact absurd (List.cons.inj same).1 closes.2.1
  · exact if_pos rfl

/-- After an item and a comma the other items are read. -/
theorem readListed_more {gap written : List Char} {item : Item} (closes : Closes closer)
    (spaces : Spaces gap) (reads : ReadsListed closer readItem written item) (after : List Char) :
    readListed closer readItem (gap ++ (written ++ ',' :: after)) =
      (readListed closer readItem after).map fun found => (item :: found.1, found.2) := by
  obtain ⟨⟨rest, rfl⟩, found⟩ := reads
  have start : skipSpaces ('\'' :: rest ++ ',' :: after) = '\'' :: rest ++ ',' :: after := rfl
  have opens : ('\'' :: rest ++ ',' :: after).head? ≠ some closer :=
    fun same => closes.2.2 (Option.some.inj same).symm
  have shorter : after.length < (gap ++ ('\'' :: rest ++ ',' :: after)).length := by
    simp
    omega
  have separated : skipSpaces (',' :: after) = ',' :: after := rfl
  rw [readListed, skipSpaces_append spaces, start, if_neg opens, found _ ⟨after, .inl rfl⟩]
  simp only [separated, if_pos shorter]

/-- A list with a comma and spaces between its items is read back. -/
theorem readListed_intercalate {items : List Item} {write : Item → List Char}
    (closes : Closes closer)
    (reads : ∀ item ∈ items, ReadsListed closer readItem (write item) item)
    {gap between : List Char} (spaces : Spaces gap) (others : Spaces between) (after : List Char) :
    readListed closer readItem
        (gap ++ (List.intercalate (',' :: between) (items.map write) ++ closer :: after)) =
      some (items, after) := by
  induction items generalizing gap with
  | nil => exact readListed_closer closes spaces after
  | cons item rest inductionHypothesis =>
      have first := reads item List.mem_cons_self
      cases rest with
      | nil => simpa using readListed_last closes spaces first after
      | cons second rest =>
          have tail := inductionHypothesis (fun item member => reads item (.tail _ member)) others
          have step := readListed_more closes spaces first
            (between ++ (List.intercalate (',' :: between) ((second :: rest).map write) ++
              closer :: after))
          rw [tail] at step
          simpa [List.intercalate_cons_cons] using step

/-- A list with a line for each item, which ends in a comma, is read back. -/
theorem readListed_lines {items : List Item} {write : Item → List Char} (closes : Closes closer)
    (reads : ∀ item ∈ items, ReadsListed closer readItem (write item) item) {gap : List Char}
    (spaces : Spaces gap) (after : List Char) :
    readListed closer readItem
        (gap ++ (items.flatMap (fun item => '\t' :: (write item ++ [',', '\n'])) ++
          closer :: after)) =
      some (items, after) := by
  induction items generalizing gap with
  | nil => exact readListed_closer closes spaces after
  | cons item others inductionHypothesis =>
      have tab : Spaces (gap ++ ['\t']) := spaces.append (by decide)
      have feed : Spaces ['\n'] := by decide
      have tail := inductionHypothesis (fun item member => reads item (.tail _ member)) feed
      have step := readListed_more closes tab (reads item List.mem_cons_self) (['\n'] ++
        (others.flatMap (fun item => '\t' :: (write item ++ [',', '\n'])) ++ closer :: after))
      rw [tail] at step
      simpa using step

end Listed

/-! ## Statements up to the end -/

/-- Statements up to the end of a text, with a reader of one. -/
def readSequence {Item : Type} (readItem : List Char → Option (Item × List Char))
    (text : List Char) : Option (List Item) :=
  match skipSpaces text with
  | [] => some []
  | start =>
      match readItem start with
      | none => none
      | some (item, rest) =>
          if rest.length < text.length then (readSequence readItem rest).map (item :: ·) else none
termination_by text.length

theorem readStatements_eq_readSequence (text : List Char) :
    readStatements text = readSequence readStatement text := by
  fun_induction readStatements text with
  | case1 text empty =>
      rw [readSequence, empty]
  | case2 text start unread =>
      rw [readSequence]
      split
      · next empty => exact (start empty).elim
      · rw [unread]
  | case3 text item after shorter start read inductionHypothesis =>
      rw [readSequence]
      split
      · next empty => exact (start empty).elim
      · simp only [read, if_pos shorter, inductionHypothesis]
  | case4 text item after longer start read =>
      rw [readSequence]
      split
      · next empty => exact (start empty).elim
      · simp only [read, if_neg longer]

/-- A statement is read from its text, whatever follows it. Its text starts with a dollar
sign and ends with a semicolon. -/
structure ReadsStatement {Item : Type} (readItem : List Char → Option (Item × List Char))
    (written : List Char) (item : Item) : Prop where
  shape : ∃ middle, written = '$' :: (middle ++ [';'])
  read : ∀ after, readItem (written ++ after) = some (item, after)

section Sequence

variable {Item Written : Type} {readItem : List Char → Option (Item × List Char)}

theorem readSequence_spaces {gap : List Char} (spaces : Spaces gap) :
    readSequence readItem gap = some [] := by
  have skipped := skipSpaces_append spaces []
  rw [List.append_nil] at skipped
  rw [readSequence, skipped]
  rfl

/-- After a statement the others are read. -/
theorem readSequence_more {gap written : List Char} {item : Item} (spaces : Spaces gap)
    (reads : ReadsStatement readItem written item) {others : List Item} {after : List Char}
    (rest : readSequence readItem after = some others) :
    readSequence readItem (gap ++ (written ++ after)) = some (item :: others) := by
  obtain ⟨⟨middle, rfl⟩, found⟩ := reads
  have start : skipSpaces ('$' :: (middle ++ [';']) ++ after) = '$' :: (middle ++ [';']) ++ after :=
    rfl
  have shorter : after.length < (gap ++ ('$' :: (middle ++ [';']) ++ after)).length := by
    simp
    omega
  rw [readSequence, skipSpaces_append spaces, start]
  split
  · next same => simp at same
  · simp only [found, if_pos shorter, rest]
    rfl

/-- Statements with spaces before each of them are read back in order. -/
theorem readSequence_intercalate {items : List Written} {write : Written → List Char}
    {said : Written → Item} (reads : ∀ item, ReadsStatement readItem (write item) (said item))
    {gap between last : List Char} (spaces : Spaces gap) (others : Spaces between)
    (ending : Spaces last) :
    readSequence readItem (gap ++ (List.intercalate between (items.map write) ++ last)) =
      some (items.map said) := by
  induction items generalizing gap with
  | nil =>
      rw [List.map_nil, List.intercalate_nil, List.nil_append]
      exact readSequence_spaces (spaces.append ending)
  | cons item rest inductionHypothesis =>
      cases rest with
      | nil => simpa using readSequence_more spaces (reads item) (readSequence_spaces ending)
      | cons second rest =>
          have tail := inductionHypothesis others
          have read := readSequence_more spaces (reads item) tail
          simpa [List.intercalate_cons_cons] using read

/-- Trimming statements changes nothing. -/
theorem trimmed_intercalate {items : List Written} {write : Written → String}
    {said : Written → Item}
    (reads : ∀ item, ReadsStatement readItem (write item).toList (said item))
    (separator : String) :
    trimmed (String.intercalate separator (items.map write)) =
      String.intercalate separator (items.map write) := by
  have shape : ∀ (item : Written) (others : List Written), ∃ middle,
      (String.intercalate separator ((item :: others).map write)).toList =
        '$' :: (middle ++ [';']) := by
    intro item others
    rw [String.toList_intercalate]
    induction others generalizing item with
    | nil =>
        obtain ⟨middle, whole⟩ := (reads item).shape
        exact ⟨middle, by simpa using whole⟩
    | cons second rest inductionHypothesis =>
        obtain ⟨middle, whole⟩ := (reads item).shape
        obtain ⟨tail, others⟩ := inductionHypothesis second
        simp only [List.map_cons] at others
        refine ⟨middle ++ ';' :: (separator.toList ++ '$' :: tail), ?_⟩
        simp only [List.map_cons, List.intercalate_cons_cons, whole, others]
        simp
  cases items with
  | nil => rfl
  | cons item others =>
      obtain ⟨middle, whole⟩ := shape item others
      unfold trimmed
      rw [whole, Text.trim_of_solid (by decide) (by decide), ← whole, String.ofList_toList]

end Sequence

end DocblockScan.Registration
