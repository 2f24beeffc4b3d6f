import DocblockScan.Proofs.Docblock.StringsRead

/-!
# Reading texts that differ in the blanks after their line ends

From two such texts every reader takes the same, if no string it reads from the first one
runs across a line end: values and lists by one induction, `literal_agrees` and
`entries_agree`, then arguments and tags. What differs is only where the readers are, and
they are at the same characters.
-/

namespace DocblockScan.Docblock

open Grammar
open Text (Blank)

variable {vocabulary : Vocabulary} {leftEnd rightEnd left right : List Char}

/-- The same item is read from both texts, if that holds of values. -/
theorem item_agrees (kind : ListKind) (bared : Bared leftEnd rightEnd left right)
    (inLine : StringsInLine vocabulary (.item kind) left)
    (values : ∀ l r, l.length ≤ left.length → Remains leftEnd rightEnd l r →
      StringsInLine vocabulary .value l →
      Agrees leftEnd rightEnd (SameBefore (Relaid leftEnd rightEnd)) (literalOutcome l)
        (literalOutcome r)) :
    Agrees leftEnd rightEnd (SameBefore (Relaid leftEnd rightEnd)) (itemOutcome kind left)
      (itemOutcome kind right) := by
  have keys := bared.readKey kind fun content isEntry starts =>
    inLine content (isEntry ▸ .key starts)
  unfold itemOutcome
  cases keyed : Grammar.readKey kind left with
  | error failure =>
      rw [keyed] at keys
      obtain ⟨rest, keyedToo, rests⟩ := keys.of_error
      rw [keyedToo]
      exact .error rests
  | ok found =>
      obtain ⟨key, valueText⟩ := found
      rw [keyed] at keys
      obtain ⟨otherText, keyedToo, rests⟩ := keys.of_ok
      have value := values valueText otherText (readKey_suffix keyed).length_le rests
        fun content inside => inLine content (.itemValue keyed inside)
      rw [keyedToo]
      dsimp only
      generalize literalOutcome valueText = read, literalOutcome otherText = readToo at value ⊢
      cases value with
      | error rests => exact .error rests
      | ok same => exact .ok ⟨congrArg (key, ·) same.value, same.rest⟩

-- by induction on the first text, where blanks may be skipped before an array is entered
mutual

/-- The same value is read from both texts. -/
theorem literal_agrees {left right : List Char} (remains : Remains leftEnd rightEnd left right)
    (inLine : StringsInLine vocabulary .value left) :
    Agrees leftEnd rightEnd (SameBefore (Relaid leftEnd rightEnd)) (literalOutcome left)
      (literalOutcome right) := by
  have bared := remains.skipBlanks
  have bound := Text.length_skipBlanks_le left
  have strings : ∀ content, StartsWithString (Text.skipBlanks left) content → '\n' ∉ content :=
    fun content starts => inLine content (.string starts)
  have inArray : ∀ rest, Text.skipBlanks left = '{' :: rest →
      StringsInLine vocabulary .entries rest :=
    fun rest opens content inside => inLine content (.array opens inside)
  rw [literalOutcome_eq, literalOutcome_eq]
  generalize Text.skipBlanks left = start, Text.skipBlanks right = otherStart at *
  have scalars := bared.readScalar strings
  cases bared with
  | nothing => exact scalars
  | @char char _ _ _ others =>
      by_cases array : char = '{'
      · subst array
        exact (entries_agree others (inArray _ rfl)).map fun _ _ same =>
          ⟨congrArg Literal.array same.value, same.rest⟩
      · simpa [array] using scalars
termination_by 2 * left.length
decreasing_by
  simp only [List.length_cons] at *
  omega

/-- The same entries of an array are read from both texts. -/
theorem entries_agree {left right : List Char} (relaid : Relaid leftEnd rightEnd left right)
    (inLine : StringsInLine vocabulary .entries left) :
    Agrees leftEnd rightEnd (SameBefore (Relaid leftEnd rightEnd)) (entriesOutcome left)
      (entriesOutcome right) := by
  have bared := relaid.skipBlanks
  have bound := Text.length_skipBlanks_le left
  have items := item_agrees .entries bared (fun content inside => inLine content (.entry inside))
    fun l r shorter remains inside => literal_agrees remains inside
  by_cases closed : (Text.skipBlanks left).head? = some '}'
  · rw [entriesOutcome_eq, entriesOutcome_eq]
    generalize Text.skipBlanks left = start, Text.skipBlanks right = otherStart at *
    cases bared with
    | nothing => simp at closed
    | char _ others =>
        obtain rfl := Option.some.inj closed
        exact .ok ⟨rfl, others⟩
  have otherOpen := bared.head?_eq ▸ closed
  cases read : itemOutcome .entries (Text.skipBlanks left) with
  | error failure =>
      rw [read] at items
      obtain ⟨rest, readToo, rests⟩ := items.of_error
      rw [entriesOutcome_of_failure closed read, entriesOutcome_of_failure otherOpen readToo]
      exact .error rests
  | ok found =>
      obtain ⟨item, after⟩ := found
      rw [read] at items
      obtain ⟨otherAfter, readToo, rests⟩ := items.of_ok
      have separators := Relaid.skipBlanks rests
      have within := (itemOutcome_suffix read).length_le
      have boundAfter := Text.length_skipBlanks_le after
      have others : ∀ rest, Text.skipBlanks after = ',' :: rest →
          StringsInLine vocabulary .entries rest :=
        fun rest separated content inside => inLine content (.laterEntry read separated inside)
      rw [entriesOutcome_of_item read, entriesOutcome_of_item readToo]
      generalize Text.skipBlanks after = next, Text.skipBlanks otherAfter = otherNext at *
      cases separators with
      | nothing => exact .error .nothing
      | @char char rest _ solid relaid =>
          by_cases comma : char = ','
          · subst comma
            exact (entries_agree relaid (others _ rfl)).map fun _ _ same =>
              ⟨congrArg (item :: ·) same.value, same.rest⟩
          by_cases closer : char = '}'
          · subst closer
            exact .ok ⟨rfl, relaid⟩
          · simpa [comma, closer] using Agrees.error (.text (relaid.solid solid))
termination_by 2 * left.length + 1
decreasing_by
  · omega
  · simp only [List.length_cons] at *
    omega

end

/-- The same arguments are read from both texts. -/
theorem arguments_agree (known : Arguments) (relaid : Relaid leftEnd rightEnd left right)
    (inLine : StringsInLine vocabulary (.arguments known) left) :
    Agrees leftEnd rightEnd (SameBefore (Relaid leftEnd rightEnd)) (argumentsOutcome known left)
      (argumentsOutcome known right) := by
  induction length : left.length using Nat.strongRecOn generalizing known left right with
  | _ limit inductionHypothesis =>
  have bared := relaid.skipBlanks
  have bound := Text.length_skipBlanks_le left
  have items := item_agrees .arguments bared
    (fun content inside => inLine content (.argument inside))
    fun _ _ _ remains inside => literal_agrees remains inside
  by_cases closed : (Text.skipBlanks left).head? = some ')'
  · rw [argumentsOutcome_eq, argumentsOutcome_eq]
    generalize Text.skipBlanks left = start, Text.skipBlanks right = otherStart at *
    cases bared with
    | nothing => simp at closed
    | char _ others =>
        obtain rfl := Option.some.inj closed
        exact .ok ⟨rfl, others⟩
  have otherOpen := bared.head?_eq ▸ closed
  cases read : itemOutcome .arguments (Text.skipBlanks left) with
  | error failure =>
      rw [read] at items
      obtain ⟨rest, readToo, rests⟩ := items.of_error
      rw [argumentsOutcome_of_failure closed read, argumentsOutcome_of_failure otherOpen readToo]
      exact .error rests
  | ok found =>
      obtain ⟨item, after⟩ := found
      rw [read] at items
      obtain ⟨otherAfter, readToo, rests⟩ := items.of_ok
      cases added : Arguments.add? known item.1 item.2 with
      | error fault =>
          rw [argumentsOutcome_of_refused read added, argumentsOutcome_of_refused readToo added]
          exact .error (.text rests)
      | ok grown =>
          have separators := Relaid.skipBlanks rests
          have within := (itemOutcome_suffix read).length_le
          have boundAfter := Text.length_skipBlanks_le after
          have others : ∀ rest, Text.skipBlanks after = ',' :: rest →
              StringsInLine vocabulary (.arguments grown) rest :=
            fun rest separated content inside =>
              inLine content (.laterArgument read added separated inside)
          rw [argumentsOutcome_of_item read added, argumentsOutcome_of_item readToo added]
          generalize Text.skipBlanks after = next, Text.skipBlanks otherAfter = otherNext at *
          cases separators with
          | nothing => exact .error .nothing
          | @char char rest _ solid relaid =>
              by_cases comma : char = ','
              · subst comma
                rw [List.length_cons] at boundAfter
                exact inductionHypothesis rest.length (by omega) grown relaid (others _ rfl) rfl
              by_cases closer : char = ')'
              · subst closer
                exact .ok ⟨rfl, relaid⟩
              · simpa [comma, closer] using Agrees.error (.text (relaid.solid solid))

/-! ## Tags -/

/-- A known name before a list is read with the arguments of the list. -/
theorem readTagsAfter_of_list {after inner : List Char} {name : String} {kind : TagKind}
    (opens : Text.skipBlanks after = '(' :: inner) :
    readTagsAfter vocabulary after (some (name, kind)) =
      match argumentsOutcome .none inner with
      | .error failure => .error failure
      | .ok (arguments, rest) =>
          (readTags vocabulary false rest).map (⟨name, kind, arguments⟩ :: ·) := by
  simp only [readTagsAfter, opens, argumentsOutcome, readArguments]
  cases readArgumentsAfter .none inner <;> rfl

/-- A name follows in both texts or in none of them. -/
theorem nameFollows_eq (relaid : Relaid leftEnd rightEnd left right) :
    nameFollows left = nameFollows right := by
  have atStop : ∀ text : List Char, (∀ char ∈ text.head?, Text.isBlank char = true) →
      nameFollows text = false := by
    intro text stops
    cases text with
    | nil => rfl
    | cons char rest =>
        have blank := stops char rfl
        by_cases starts : startsName char = true
        · have solid := solid_of_isNameChar (isNameChar_of_startsName starts)
          simp [blank] at solid
        · simpa [nameFollows] using starts
  rcases Relaid.lockstep.uncons relaid with ⟨leftStops, rightStops⟩ | ⟨char, l, r, rfl, rfl, -⟩
  · rw [atStop left leftStops, atStop right rightStops]
  · rfl

/-- A mark at the start of one text is one at the start of the other. -/
theorem exists_mark {previous : Option Char} {char : Char} {written after : List Char}
    (others : Relaid leftEnd rightEnd left right)
    (mark : Mark previous (char :: left) written after) :
    ∃ otherAfter, Mark previous (char :: right) written otherAfter ∧
      Relaid leftEnd rightEnd after otherAfter := by
  obtain ⟨rest, whole, follows, named⟩ := mark.follows
  obtain ⟨rfl, rfl⟩ := List.cons.inj whole
  obtain ⟨sameName, rests⟩ := Relaid.lockstep.spanName others
  have markToo := mark_of_follows mark.breaks (nameFollows_eq others ▸ follows)
  rw [named] at sameName rests
  rw [← sameName] at markToo
  exact ⟨_, markToo, rests⟩

/-- The strings read after blanks at a break are read from the whole text. -/
theorem StringsInLine.of_append_blank {previous : Option Char} {gap text : List Char}
    (inLine : StringsInLine vocabulary (.tags previous) (gap ++ text)) (blank : Blank gap)
    (breaks : atBreak previous = true) :
    ∃ last, atBreak last = true ∧ StringsInLine vocabulary (.tags last) text := by
  induction gap generalizing previous with
  | nil => exact ⟨previous, breaks, inLine⟩
  | cons char gap inductionHypothesis =>
      have isBlank := blank char List.mem_cons_self
      have noMark : ∀ written after, ¬ Mark previous (char :: (gap ++ text)) written after := by
        intro written after mark
        obtain rfl := (List.cons.inj mark.whole).1
        exact absurd isBlank (by decide)
      exact inductionHypothesis (fun content inside => inLine content (.prose noMark inside))
        (fun other member => blank other (.tail _ member)) isBlank

/-- After the same name the same tags are read, if that holds of what follows the segment
of the name. -/
theorem tagsAfter_agree {after otherAfter : List Char} (written : List Char)
    (relaid : Relaid leftEnd rightEnd after otherAfter)
    (list : ∀ inner, vocabulary (.ofList written) ≠ none →
      Text.skipBlanks after = '(' :: inner → StringsInLine vocabulary (.arguments .none) inner)
    (later : ∀ segment rest otherRest, Takes vocabulary written after segment rest →
      Relaid leftEnd rightEnd rest otherRest →
      Agrees leftEnd rightEnd Eq (readTags vocabulary false rest)
        (readTags vocabulary false otherRest)) :
    Agrees leftEnd rightEnd Eq (readTagsAfter vocabulary after (vocabulary (.ofList written)))
      (readTagsAfter vocabulary otherAfter (vocabulary (.ofList written))) := by
  have bared := relaid.skipBlanks
  cases known : vocabulary (.ofList written) with
  | none => exact later _ _ _ (.unknown known) relaid
  | some entry =>
      obtain ⟨name, kind⟩ := entry
      by_cases opens : (Text.skipBlanks after).head? = some '('
      · obtain ⟨inner, skipped⟩ := List.head?_eq_some_iff.1 opens
        obtain ⟨otherInner, skippedToo⟩ := List.head?_eq_some_iff.1 (bared.head?_eq ▸ opens)
        rw [skipped, skippedToo] at bared
        have lists : Agrees leftEnd rightEnd (SameBefore (Relaid leftEnd rightEnd))
            (argumentsOutcome .none inner) (argumentsOutcome .none otherInner) := by
          cases bared with
          | char _ others => exact arguments_agree .none others (list inner (by simp [known]) skipped)
        rw [readTagsAfter_of_list skipped, readTagsAfter_of_list skippedToo]
        cases read : argumentsOutcome .none inner with
        | error failure =>
            rw [read] at lists
            obtain ⟨rest, readToo, rests⟩ := lists.of_error
            rw [readToo]
            exact .error rests
        | ok found =>
            obtain ⟨arguments, rest⟩ := found
            rw [read] at lists
            obtain ⟨otherRest, readToo, rests⟩ := lists.of_ok
            obtain ⟨gap, blank, whole⟩ := Text.exists_blank_append after
            obtain ⟨body, rfl, isList⟩ := (argumentsOutcome_none_iff _ _ _).1 read
            rw [skipped] at whole
            subst whole
            rw [readToo]
            exact (later _ rest otherRest (.listed known blank isList) rests).map
              fun _ _ same => congrArg _ same
      · rw [← known, readTagsAfter_of_takes (.bare known opens),
          readTagsAfter_of_takes (.bare known (bared.head?_eq ▸ opens))]
        exact (later _ _ _ (.bare known opens) relaid).map fun _ _ same => congrArg _ same

/-- The same tags are read from both texts. -/
theorem tags_agree (previous : Option Char) (relaid : Relaid leftEnd rightEnd left right)
    (inLine : StringsInLine vocabulary (.tags previous) left) :
    Agrees leftEnd rightEnd Eq (readTags vocabulary (atBreak previous) left)
      (readTags vocabulary (atBreak previous) right) := by
  induction length : left.length using Nat.strongRecOn generalizing previous left right with
  | _ bound inductionHypothesis =>
  cases relaid with
  | close leftBlank rightBlank =>
      rw [readTags_of_blank vocabulary _ leftBlank, readTags_of_blank vocabulary _ rightBlank]
      exact .ok rfl
  | @feed leftGap rightGap left right leftIndent rightIndent others =>
      -- after a line end the text stands at a break, and it still does after any indentation
      have skips : ∀ gap text : List Char, Blank gap →
          readTags vocabulary (atBreak previous) ('\n' :: (gap ++ text)) =
            readTags vocabulary true text := by
        intro gap text blank
        rw [readTags_blank vocabulary _ (by decide), readTags_append_blank vocabulary blank]
      have noMark : ∀ written after, ¬ Mark previous ('\n' :: (leftGap ++ left)) written after :=
        fun written after mark => absurd (List.cons.inj mark.whole).1 (by decide)
      have below : StringsInLine vocabulary (.tags (some '\n')) (leftGap ++ left) :=
        fun content inside => inLine content (.prose noMark inside)
      obtain ⟨last, breaks, inside⟩ := below.of_append_blank leftIndent.blank (by decide)
      rw [skips _ _ leftIndent.blank, skips _ _ rightIndent.blank, ← breaks]
      refine inductionHypothesis left.length ?_ last others inside rfl
      rw [← length, List.length_cons, List.length_append]
      omega
  | @char char left right _ others =>
      rw [List.length_cons] at length
      by_cases marked : ∃ written after, Mark previous (char :: left) written after
      · obtain ⟨written, after, mark⟩ := marked
        obtain ⟨otherAfter, markToo, rests⟩ := exists_mark others mark
        rw [readTags_of_mark vocabulary mark, readTags_of_mark vocabulary markToo]
        refine tagsAfter_agree written rests
          (fun inner known opens content inside => inLine content (.list mark known opens inside))
          fun segment rest otherRest takes restsAfter => ?_
        have within := takes.length_le
        have shorter := mark.shorter
        rw [List.length_cons] at shorter
        rw [← mark.not_atBreak takes]
        exact inductionHypothesis rest.length (by omega) _ restsAfter
          (fun content inside => inLine content (.laterTag mark takes inside)) rfl
      · have noMark : ∀ written after, ¬ Mark previous (char :: left) written after :=
          fun written after mark => marked ⟨written, after, mark⟩
        have noMarkToo : ∀ written after, ¬ Mark previous (char :: right) written after := by
          intro written after mark
          obtain ⟨otherAfter, markLeft, -⟩ := exists_mark others.symm mark
          exact noMark _ _ markLeft
        rw [readTags_of_noMark noMark, readTags_of_noMark noMarkToo]
        exact inductionHypothesis left.length (by omega) (some char) others
          (fun content inside => inLine content (.prose noMark inside)) rfl

end DocblockScan.Docblock
